import Roster.Region

/-!
# What procedures ask for

A property of effects holds of a procedure when it holds of all effects that the procedure asks for,
whatever it is answered.
-/

namespace Roster

/-- What any work of a member may ask for, besides its calls.  Issuing ids and minting tokens take
more. -/
def Effect.isRoutine : Effect → Bool
  | .pause _ | .now | .look | .store _ | .entropy | .report _ => true
  | .call _ | .readingPast _ | .ticket | .threadName => false

theorem Effect.ne_call_of_isRoutine {e : Effect} (h : e.isRoutine = true) (c : Call) :
    e ≠ .call c := by
  intro he
  subst he
  cases h

structure Asked where
  effect : Effect
  answer : effect.Answer

namespace Proc

variable {α β : Type} {P : Effect → Prop}

def Always (P : Effect → Prop) : Proc α → Prop
  | done _ => True
  | ask e next => P e ∧ forall answer, (next answer).Always P

theorem Always.bind {p : Proc α} {f : α → Proc β} (hp : p.Always P)
    (hf : forall a, (f a).Always P) : (p.bind f).Always P := by
  induction p with
  | done a => exact hf a
  | ask e next ih =>
      rcases hp with ⟨he, hnext⟩
      exact ⟨he, fun answer => ih answer (hnext answer)⟩

theorem Always.ite {c : Prop} [Decidable c] {p q : Proc α} (hp : p.Always P) (hq : q.Always P) :
    (if c then p else q).Always P := by
  split
  · exact hp
  · exact hq

def Gives (Q : α → Prop) : Proc α → Prop
  | done result => Q result
  | ask _ next => forall answer, (next answer).Gives Q

theorem Gives.bind {Q : α → Prop} {R : β → Prop} {p : Proc α} {f : α → Proc β} (hp : p.Gives Q)
    (hf : forall a, Q a -> (f a).Gives R) : (p.bind f).Gives R := by
  induction p with
  | done a => exact hf a hp
  | ask e next ih => exact fun answer => ih answer (hp answer)

theorem gives_true (p : Proc α) : p.Gives fun _ => True := by
  induction p with
  | done a => exact trivial
  | ask e next ih => exact ih

def Nears (c : Call) : Proc α → Prop
  | done _ => False
  | ask (.call c') _ => c' = c
  | ask _ next => exists answer, (next answer).Nears c

/-- A procedure that has asked this and was answered so goes on as the other one. -/
inductive Leads : Proc α → List Asked → Proc α → Prop where
  | refl {p} : Leads p [] p
  | ask {e next answer log p} (h : Leads (next answer) log p) :
      Leads (.ask e next) (⟨e, answer⟩ :: log) p

section

variable {p : Proc α} {e : Effect} {next : e.Answer → Proc α} {log : List Asked} {a : α}

theorem Leads.tail (h : p.Leads log (.ask e next)) (answer : e.Answer) :
    p.Leads (log ++ [⟨e, answer⟩]) (next answer) := by
  generalize hq : Proc.ask e next = q at h
  induction h with
  | refl =>
      subst hq
      exact .ask .refl
  | ask h ih => exact .ask (ih hq)

theorem Leads.of_ask (h : (Proc.ask e next).Leads log (.done a)) :
    exists answer rest, log = ⟨e, answer⟩ :: rest ∧ (next answer).Leads rest (.done a) := by
  cases h with
  | ask h => exact ⟨_, _, rfl, h⟩

theorem Always.of_leads (hp : p.Always P) (h : p.Leads log (.ask e next)) : P e := by
  generalize hq : Proc.ask e next = q at h
  induction h with
  | refl =>
      subst hq
      exact hp.1
  | ask h ih => exact ih (hp.2 _) hq

theorem Gives.of_leads {Q : α → Prop} (hp : p.Gives Q) (h : p.Leads log (.done a)) : Q a := by
  generalize hq : Proc.done a = q at h
  induction h with
  | refl =>
      subst hq
      exact hp
  | ask h ih => exact ih (hp _) hq

end

end Proc

namespace Region

variable {α β : Type} [Storable α] {P : Effect → Prop} {region : Region α} {key : String}

theorem always_get (h : P (.call (.get region.name key))) : (region.get key).Always P := by
  refine ⟨h, fun answer => ?_⟩
  cases answer with
  | error e => exact trivial
  | ok value => exact trivial

theorem always_put {record : α} (h : P (.call (.put region.name key (Storable.encode record)))) :
    (region.put key record).Always P := by
  refine ⟨h, fun answer => ?_⟩
  cases answer with
  | error e => exact trivial
  | ok previous => exact trivial

theorem always_remove (h : P (.call (.remove region.name key))) : (region.remove key).Always P := by
  refine ⟨h, fun answer => ?_⟩
  cases answer with
  | error e => exact trivial
  | ok previous => exact trivial

theorem always_list (h : P (.call (.list region.name))) : region.list.Always P := by
  refine ⟨h, fun answer => ?_⟩
  cases answer with
  | error e => exact trivial
  | ok values => exact trivial

/-!
# Procedures that begin with a call
-/

theorem get_bind (f : Except RegistryError (Option α) → Proc β) :
    (region.get key).bind f =
      .ask (.call (.get region.name key)) fun answer => f (answer.bind decodeOption) := by
  refine congrArg (Proc.ask _) (funext fun answer => ?_)
  cases answer with
  | error e => rfl
  | ok value => rfl

theorem put_bind (record : α) (f : Except RegistryError (Option α) → Proc β) :
    (region.put key record).bind f =
      .ask (.call (.put region.name key (Storable.encode record)))
        fun answer => f (answer.bind decodeOption) := by
  refine congrArg (Proc.ask _) (funext fun answer => ?_)
  cases answer with
  | error e => rfl
  | ok previous => rfl

theorem remove_bind (f : Except RegistryError (Option α) → Proc β) :
    (region.remove key).bind f =
      .ask (.call (.remove region.name key)) fun answer => f (answer.bind decodeOption) := by
  refine congrArg (Proc.ask _) (funext fun answer => ?_)
  cases answer with
  | error e => rfl
  | ok previous => rfl

end Region
end Roster
