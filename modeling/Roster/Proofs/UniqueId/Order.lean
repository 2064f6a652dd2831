import Roster.Proofs.UniqueId

/-!
# Ids in the order of their issue

An issuer takes the readings of its clock one by one, and whatever they show, its ids increase: it
passes over readings that show the count of its last id, and issues the next id at the first other
one.  When the clock has stepped back, the counts run ahead of it, by no more than one for each id.
-/

namespace Roster

/-- An id, with its count and the readings that were taken for it. -/
structure Issue where
  taken : List Int
  count : Nat
  id : UniqueId

namespace Issue

open UniqueId (elapsedAt)

def lastCount (issues : List Issue) : Nat :=
  (issues.getLast?.map (·.count)).getD 0

/-- The count of the next id: the one that the clock shows when it has gone on, and the next one
when it has stepped back. -/
def countAfter (previous shown : Nat) : Nat :=
  if previous < shown then shown else previous + 1

/-- The readings taken for an id are those that show the previous count, and one more. -/
def Follows (i : Issue) (previous : Nat) : Prop :=
  exists waiting reading, i.taken = waiting ++ [reading] ∧
    (forall r, r ∈ waiting -> elapsedAt r = previous) ∧ elapsedAt reading ≠ previous ∧
    i.count = countAfter previous (elapsedAt reading)

/-- The id bears the number and its count, and is greater than those before. -/
structure Succeeds (i : Issue) (number : UInt32) (before : List Issue) : Prop where
  server : i.id.server.toNat = number.toNat
  elapsed : i.id.elapsed = i.count
  above : forall j, j ∈ before -> j.id < i.id ∧ j.id.elapsed < i.id.elapsed

theorem lt_countAfter (previous shown : Nat) : previous < countAfter previous shown := by
  unfold countAfter
  split <;> omega

theorem lastCount_concat {issues : List Issue} {i : Issue} :
    lastCount (issues ++ [i]) = i.count := by
  unfold lastCount
  rw [List.getLast?_concat]
  rfl

theorem Follows.lt {i : Issue} {previous : Nat} (h : i.Follows previous) : previous < i.count := by
  rcases h with ⟨waiting, reading, _, _, _, hcount⟩
  rw [hcount]
  exact lt_countAfter previous (elapsedAt reading)

/-- The first count is one that the clock has shown; after that, each id adds at most one to what
the clock has shown. -/
theorem Follows.count_le {i : Issue} {before : List Issue} (h : i.Follows (lastCount before))
    (hbefore : before ≠ [] -> exists reading, reading ∈ before.flatMap (·.taken) ∧
      lastCount before + 1 ≤ elapsedAt reading + before.length) :
    exists reading, reading ∈ before.flatMap (·.taken) ++ i.taken ∧
      i.count ≤ elapsedAt reading + before.length := by
  rcases h with ⟨waiting, reading, htaken, _, hne, hcount⟩
  unfold countAfter at hcount
  split at hcount
  · refine ⟨reading, List.mem_append_right _ ?_, by omega⟩
    rw [htaken]
    exact List.mem_append_right _ List.mem_cons_self
  · have hnonempty : before ≠ [] := by
      rintro rfl
      change elapsedAt reading ≠ 0 at hne
      exact absurd (Nat.pos_of_ne_zero hne) ‹_›
    rcases hbefore hnonempty with ⟨earlier, hearlier, hle⟩
    exact ⟨earlier, List.mem_append_left _ hearlier, by omega⟩

end Issue

namespace UniqueId

def showing (counts : List Int) : List Int :=
  counts.map (epochMillis + ·)

theorem ofParts_lt (server : UInt16) {a b : Nat} (h : a < b) (hb : b < elapsedRange) :
    ofParts server a < ofParts server b := by
  have hserver := server.toNat_lt
  change (ofParts server a).raw < (ofParts server b).raw
  rw [UInt64.lt_iff_toNat_lt, raw_ofParts server (Nat.lt_trans h hb), raw_ofParts server hb]
  unfold serverRange
  omega

end UniqueId

namespace Issuer

open UniqueId (elapsedAt elapsedRange showing)

/-!
# One id
-/

theorem start?_eq {number : UInt32} (h : number.toNat ≤ 65535) :
    start? number = some ⟨UInt16.ofNat number.toNat, 0⟩ := by
  have hlt : number.toNat < UniqueId.serverRange := Nat.lt_succ_of_le h
  unfold start?
  rw [if_pos hlt]

theorem next?_eq_none {issuer : Issuer} {readings : List Int} :
    issuer.next? readings = none ↔
      forall reading, reading ∈ readings -> elapsedAt reading = issuer.previous := by
  induction readings with
  | nil => exact ⟨fun _ _ h => (nomatch h), fun _ => rfl⟩
  | cons first rest ih =>
      rw [List.forall_mem_cons]
      unfold next?
      by_cases hfirst : elapsedAt first = issuer.previous
      · rw [if_pos hfirst, ih]
        exact ⟨fun h => ⟨hfirst, h⟩, fun h => h.2⟩
      · rw [if_neg hfirst]
        exact ⟨fun h => (nomatch h), fun h => absurd h.1 hfirst⟩

/-- An id is issued at the first reading that shows another count than the last one. -/
theorem next?_eq_some {issuer issuer' : Issuer} {readings rest : List Int} {id : UniqueId} :
    issuer.next? readings = some (id, issuer', rest) ↔
      exists waiting reading, readings = waiting ++ reading :: rest ∧
        (forall r, r ∈ waiting -> elapsedAt r = issuer.previous) ∧
        elapsedAt reading ≠ issuer.previous ∧
        issuer.issue (elapsedAt reading) = (id, issuer') := by
  induction readings with
  | nil =>
      constructor
      · exact fun h => nomatch h
      · rintro ⟨waiting, reading, h, _⟩
        cases waiting <;> cases h
  | cons first others ih =>
      unfold next?
      by_cases hfirst : elapsedAt first = issuer.previous
      · rw [if_pos hfirst, ih]
        constructor
        · rintro ⟨waiting, reading, rfl, hwaiting, hreading, hissue⟩
          exact ⟨first :: waiting, reading, rfl, List.forall_mem_cons.mpr ⟨hfirst, hwaiting⟩,
            hreading, hissue⟩
        · rintro ⟨waiting, reading, heq, hwaiting, hreading, hissue⟩
          cases waiting with
          | nil =>
              cases heq
              exact absurd hfirst hreading
          | cons _ waiting =>
              cases heq
              exact ⟨waiting, reading, rfl, (List.forall_mem_cons.mp hwaiting).2, hreading, hissue⟩
      · rw [if_neg hfirst]
        constructor
        · intro h
          cases h
          exact ⟨[], first, rfl, fun _ hr => (nomatch hr), hfirst, rfl⟩
        · rintro ⟨waiting, reading, heq, hwaiting, hreading, hissue⟩
          cases waiting with
          | nil =>
              cases heq
              rw [hissue]
          | cons _ waiting =>
              cases heq
              exact absurd (hwaiting _ List.mem_cons_self) hfirst

/-!
# Ids one after another
-/

/-- The ids that an issuer issues from readings, with the issuer and the readings that are left. -/
inductive Issues (start : Issuer) (readings : List Int) :
    List Issue → Issuer → List Int → Prop where
  | none : Issues start readings [] start readings
  | next {issues issuer issuer' taken rest id}
      (h : Issues start readings issues issuer (taken ++ rest))
      (hnext : issuer.next? (taken ++ rest) = some (id, issuer', rest)) :
      Issues start readings (issues ++ [⟨taken, issuer'.previous, id⟩]) issuer' rest

section

variable {start issuer : Issuer} {readings rest : List Int} {issues before after : List Issue}
  {i : Issue}

theorem taken_of_next? {issuer' : Issuer} {taken : List Int} {id : UniqueId}
    (h : issuer.next? (taken ++ rest) = some (id, issuer', rest)) :
    Issue.Follows ⟨taken, issuer'.previous, id⟩ issuer.previous ∧
      id = UniqueId.ofParts issuer.server issuer'.previous ∧ issuer'.server = issuer.server := by
  rcases next?_eq_some.mp h with ⟨waiting, reading, heq, hwaiting, hreading, hissue⟩
  have happend : taken ++ rest = waiting ++ [reading] ++ rest := by
    rw [heq, List.append_assoc]
    rfl
  have htaken := List.append_cancel_right happend
  cases hissue
  exact ⟨⟨waiting, reading, htaken, hwaiting, hreading, rfl⟩, rfl, rfl⟩

theorem Issues.issuer_eq (h : Issues start readings issues issuer rest)
    (hstart : start.previous = 0) : issuer = ⟨start.server, Issue.lastCount issues⟩ := by
  induction h with
  | none =>
      rcases start with ⟨server, previous⟩
      cases hstart
      rfl
  | @next _ issuer₀ issuer' _ _ _ _ hnext ih =>
      have hserver := (taken_of_next? hnext).2.2
      rw [ih] at hserver
      rw [Issue.lastCount_concat]
      rcases issuer' with ⟨server, previous⟩
      cases hserver
      rfl

theorem Issues.readings_eq (h : Issues start readings issues issuer rest) :
    readings = issues.flatMap (·.taken) ++ rest := by
  induction h with
  | none => rfl
  | next _ _ ih => rw [ih, List.flatMap_append, List.flatMap_singleton, List.append_assoc]

theorem Issues.of_append (h : Issues start readings issues issuer rest)
    (hissues : issues = before ++ i :: after) :
    exists issuer₁ issuer₂ rest', Issues start readings before issuer₁ (i.taken ++ rest') ∧
      issuer₁.next? (i.taken ++ rest') = some (i.id, issuer₂, rest') ∧
      i.count = issuer₂.previous := by
  induction h generalizing after with
  | none => cases before <;> cases hissues
  | @next issues issuer₁ issuer₂ taken rest id hbefore hnext ih =>
      rcases List.eq_nil_or_concat after with rfl | ⟨after, last, rfl⟩
      · rcases List.append_inj' hissues rfl with ⟨rfl, hlast⟩
        cases hlast
        exact ⟨issuer₁, issuer₂, rest, hbefore, hnext, rfl⟩
      · rw [List.concat_eq_append, ← List.cons_append, ← List.append_assoc] at hissues
        exact ih (List.append_inj' hissues rfl).1

theorem Issues.step (h : Issues start readings issues issuer rest) (hstart : start.previous = 0)
    (hissues : issues = before ++ i :: after) :
    i.Follows (Issue.lastCount before) ∧ i.id = UniqueId.ofParts start.server i.count := by
  rcases h.of_append hissues with ⟨issuer₁, issuer₂, rest', hbefore, hnext, hcount⟩
  rcases taken_of_next? hnext with ⟨htaken, hid, _⟩
  rw [hbefore.issuer_eq hstart] at htaken hid
  rw [← hcount] at htaken hid
  exact ⟨htaken, hid⟩

theorem Issues.count_le_lastCount (h : Issues start readings issues issuer rest)
    (hstart : start.previous = 0) {j : Issue} (hj : j ∈ issues) :
    j.count ≤ Issue.lastCount issues := by
  induction h with
  | none => cases hj
  | next hbefore hnext ih =>
      have htaken := (taken_of_next? hnext).1
      rw [hbefore.issuer_eq hstart] at htaken
      rw [Issue.lastCount_concat]
      rcases List.mem_append.mp hj with hold | hnew
      · exact Nat.le_of_lt (Nat.lt_of_le_of_lt (ih hold) htaken.lt)
      · exact Nat.le_of_eq (congrArg Issue.count (List.mem_singleton.mp hnew))

theorem Issues.lastCount_le (h : Issues start readings issues issuer rest)
    (hstart : start.previous = 0) (hissues : issues ≠ []) :
    exists reading, reading ∈ issues.flatMap (·.taken) ∧
      Issue.lastCount issues + 1 ≤ elapsedAt reading + issues.length := by
  induction h with
  | none => exact absurd rfl hissues
  | next hbefore hnext ih =>
      have htaken := (taken_of_next? hnext).1
      rw [hbefore.issuer_eq hstart] at htaken
      rcases htaken.count_le ih with ⟨reading, hreading, hle⟩
      refine ⟨reading, ?_, ?_⟩
      · rw [List.flatMap_append, List.flatMap_singleton]
        exact hreading
      · rw [Issue.lastCount_concat, List.length_append, List.length_singleton]
        omega

/-!
# Ids in order
-/

theorem Issues.succeeds {number : UInt32} (hnumber : number.toNat ≤ 65535)
    (h : Issues ⟨UInt16.ofNat number.toNat, 0⟩ readings issues issuer rest)
    (hissues : issues = before ++ i :: after) (hi : i.count < elapsedRange) :
    i.Succeeds number before := by
  rcases h.of_append hissues with ⟨_, _, rest', hbefore, _, _⟩
  rcases h.step rfl hissues with ⟨htaken, hid⟩
  have hlt (j : Issue) (hj : j ∈ before) : j.count < i.count :=
    Nat.lt_of_le_of_lt (hbefore.count_le_lastCount rfl hj) htaken.lt
  have hid_of_mem (j : Issue) (hj : j ∈ before) :
      j.id = UniqueId.ofParts (UInt16.ofNat number.toNat) j.count := by
    rcases List.append_of_mem hj with ⟨front, back, rfl⟩
    exact (hbefore.step rfl rfl).2
  constructor
  · rw [hid, UniqueId.server_ofParts _ hi]
    exact UInt16.toNat_ofNat_of_lt' (Nat.lt_succ_of_le hnumber)
  · rw [hid, UniqueId.elapsed_ofParts _ hi]
  · intro j hj
    rw [hid, hid_of_mem j hj]
    refine ⟨UniqueId.ofParts_lt _ (hlt j hj) hi, ?_⟩
    rw [UniqueId.elapsed_ofParts _ hi, UniqueId.elapsed_ofParts _ (Nat.lt_trans (hlt j hj) hi)]
    exact hlt j hj

end

/-- Whatever the clock shows, an issuer takes the readings that show its last count and one more for
each id, and as long as the counts are in range, its ids bear its number and increase, with counts
that are ahead of the clock by at most the number of ids before. -/
theorem ids_increase {number : UInt32} (hnumber : number.toNat ≤ 65535) :
    exists start, start? number = some start ∧
      forall readings issues issuer rest, Issues start readings issues issuer rest ->
        readings = issues.flatMap (·.taken) ++ rest ∧
        (issuer.next? rest = none ↔
          forall reading, reading ∈ rest -> elapsedAt reading = Issue.lastCount issues) ∧
        forall before i after, issues = before ++ i :: after ->
          i.Follows (Issue.lastCount before) ∧
          (exists reading, reading ∈ before.flatMap (·.taken) ++ i.taken ∧
            i.count ≤ elapsedAt reading + before.length) ∧
          (i.count < elapsedRange -> i.Succeeds number before) := by
  refine ⟨_, start?_eq hnumber, fun readings issues issuer rest hrun => ?_⟩
  refine ⟨hrun.readings_eq, ?_, fun before i after hissues => ?_⟩
  · rw [next?_eq_none, hrun.issuer_eq rfl]
  · rcases hrun.of_append hissues with ⟨_, _, rest', hbefore, _, _⟩
    have htaken := (hrun.step rfl hissues).1
    exact ⟨htaken, htaken.count_le (hbefore.lastCount_le rfl), hrun.succeeds hnumber hissues⟩

/-- A clock stands still, steps back, and is met again by the counts. -/
theorem stalled_ids_increase :
    (3 : UInt32).toNat ≤ 65535 ∧ exists first second third : Issue,
      Issues ⟨3, 0⟩ (showing [5, 5, 3, 6, 7]) [first, second, third] ⟨3, 7⟩ [] ∧
      [first, second, third].map (·.count) = [5, 6, 7] ∧
      third.taken = showing [6, 7] ∧ third.Succeeds 3 [first, second] := by
  have hnumber : (3 : UInt32).toNat ≤ 65535 := by decide
  rcases ids_increase hnumber with ⟨start, hstart, h⟩
  cases hstart
  have hfirst : Issues ⟨3, 0⟩ (showing [5, 5, 3, 6, 7]) [_] ⟨3, 5⟩ (showing [5, 3, 6, 7]) :=
    @Issues.next _ _ _ _ _ (showing [5]) _ _ .none rfl
  have hsecond : Issues ⟨3, 0⟩ (showing [5, 5, 3, 6, 7]) [_, _] ⟨3, 6⟩ (showing [6, 7]) :=
    @Issues.next _ _ _ _ _ (showing [5, 3]) _ _ hfirst rfl
  have hthird : Issues ⟨3, 0⟩ (showing [5, 5, 3, 6, 7]) [_, _, _] ⟨3, 7⟩ [] :=
    @Issues.next _ _ _ _ _ (showing [6, 7]) _ _ hsecond rfl
  refine ⟨hnumber, _, _, _, hthird, rfl, rfl, ?_⟩
  exact ((h _ _ _ _ hthird).2.2 [_, _] _ [] rfl).2.2 (by decide)

end Issuer
end Roster
