import Roster.Config

/-!
# Valid configurations

A configuration is accepted exactly when it passes every check.
-/

namespace Roster
namespace Config

structure Valid (c : Config) : Prop where
  heartbeat_ne_zero : c.heartbeatSecs ≠ 0
  heartbeat_le : c.heartbeatSecs ≤ maxHeartbeatSecs
  freshness_le : c.freshnessSecs ≤ maxFreshnessSecs
  attempts_ne_zero : c.settleAttempts ≠ 0
  base_le : c.backoffBaseMillis ≤ c.backoffMaxMillis
  cookieName_ne : c.cookieName ≠ ""
  serverRegion_ne : c.serverRegion ≠ ""
  userRegion_ne : c.userRegion ≠ ""
  regions_ne : c.serverRegion ≠ c.userRegion

theorem throw_bind {ε α β : Type} (e : ε) (f : α → Except ε β) :
    ((throw e : Except ε α) >>= f) = throw e := rfl

theorem check_eq_ok {ε α : Type} {fails : Prop} [Decidable fails] {e : ε} {x : Except ε α} {a : α} :
    (if fails then throw e else x) = .ok a ↔ ¬ fails ∧ x = .ok a := by
  by_cases h : fails
  · rw [if_pos h]
    constructor
    · exact fun hok => nomatch hok
    · exact fun hok => absurd h hok.1
  · rw [if_neg h]
    exact ⟨fun hok => ⟨h, hok⟩, fun hok => hok.2⟩

theorem validate_eq_ok (c : Config) : c.validate = .ok () ↔ c.Valid := by
  unfold validate
  simp only [throw_bind, check_eq_ok]
  constructor
  · rintro ⟨hbeat, hbeats, hfresh, hattempts, hcap, hcookie, hempty, hshared, _⟩
    rw [Bool.or_eq_true, not_or] at hempty
    simp only [String.isEmpty_iff] at hcookie hempty
    exact ⟨hbeat, UInt64.not_lt.mp hbeats, UInt64.not_lt.mp hfresh, hattempts,
      UInt64.not_lt.mp hcap, hcookie, hempty.1, hempty.2, hshared⟩
  · intro h
    refine ⟨h.heartbeat_ne_zero, UInt64.not_lt.mpr h.heartbeat_le, UInt64.not_lt.mpr h.freshness_le,
      h.attempts_ne_zero, UInt64.not_lt.mpr h.base_le, ?_, ?_, h.regions_ne, rfl⟩
    · rw [String.isEmpty_iff]
      exact h.cookieName_ne
    · rw [Bool.or_eq_true, String.isEmpty_iff, String.isEmpty_iff, not_or]
      exact ⟨h.serverRegion_ne, h.userRegion_ne⟩

theorem Valid.window?_eq {c : Config} (h : c.Valid) :
    c.window? = some (c.freshnessSecs.toNat * 1000000000) := by
  have hle : c.freshnessSecs.toNat ≤ 2592000 := UInt64.le_iff_toNat_le.mp h.freshness_le
  unfold window? windowSecs? maxWindowSecs
  dsimp only
  rw [Int.bmod_eq_of_le (by omega) (by omega), if_pos ⟨by omega, by omega⟩]
  rfl

theorem Valid.window_nonneg {c : Config} (h : c.Valid) {window : Int}
    (hwindow : c.window? = some window) : 0 ≤ window := by
  rw [h.window?_eq] at hwindow
  cases hwindow
  omega

theorem valid_default : Valid {} where
  heartbeat_ne_zero := by decide
  heartbeat_le := by decide
  freshness_le := by decide
  attempts_ne_zero := by decide
  base_le := by decide
  cookieName_ne := by decide
  serverRegion_ne := by decide
  userRegion_ne := by decide
  regions_ne := by decide

end Config
end Roster
