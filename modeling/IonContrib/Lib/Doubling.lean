/-
  IonContrib.Lib.Doubling

  `while (cap < want) cap <<= 1;`, the way a growing buffer picks its next size.
-/
import Mathlib.Tactic.Ring

namespace IonContrib

/-- The fuel bounds how often the loop runs. -/
def doubleUntil : Nat → Nat → Nat → Nat
  | 0, cap, _ => cap
  | fuel + 1, cap, want => if cap < want then doubleUntil fuel (2 * cap) want else cap

/-- `want` rounds are enough for any size but zero, since each adds at least one. -/
theorem le_doubleUntil {fuel cap want : Nat} (h_cap : 0 < cap) (h_fuel : want ≤ cap + fuel) :
    want ≤ doubleUntil fuel cap want := by
  induction fuel generalizing cap with
  | zero => simpa [doubleUntil] using h_fuel
  | succ fuel ih =>
    by_cases h_lt : cap < want
    · rw [doubleUntil, if_pos h_lt]
      exact ih (by omega) (by omega)
    · rw [doubleUntil, if_neg h_lt]
      omega

/-- The loop stops before it has gone twice as far as it has to. -/
theorem doubleUntil_le (fuel cap want : Nat) : doubleUntil fuel cap want ≤ max cap (2 * want) := by
  induction fuel generalizing cap with
  | zero => exact Nat.le_max_left _ _
  | succ fuel ih =>
    by_cases h_lt : cap < want
    · rw [doubleUntil, if_pos h_lt]
      have h_rest := ih (2 * cap)
      omega
    · rw [doubleUntil, if_neg h_lt]
      exact Nat.le_max_left _ _

/-- The values `cap` takes while the loop runs. -/
def doublings : Nat → Nat → Nat → List Nat
  | 0, cap, _ => [cap]
  | fuel + 1, cap, want => cap :: if cap < want then doublings fuel (2 * cap) want else []

/-- The last of them is the size that is picked. -/
theorem doublings_getLast? (fuel cap want : Nat) :
    (doublings fuel cap want).getLast? = some (doubleUntil fuel cap want) := by
  induction fuel generalizing cap with
  | zero => rfl
  | succ fuel ih =>
    by_cases h_lt : cap < want
    · rw [doublings, doubleUntil, if_pos h_lt, if_pos h_lt, List.getLast?_cons, ih, Option.getD_some]
    · rw [doublings, doubleUntil, if_neg h_lt, if_neg h_lt, List.getLast?_singleton]

theorem le_of_mem_doublings {fuel cap want n : Nat} (h : n ∈ doublings fuel cap want) :
    n ≤ max cap (2 * want) := by
  induction fuel generalizing cap with
  | zero =>
    obtain rfl := List.mem_singleton.mp h
    exact Nat.le_max_left _ _
  | succ fuel ih =>
    rw [doublings] at h
    rcases List.mem_cons.mp h with rfl | h_rest
    · exact Nat.le_max_left _ _
    · by_cases h_lt : cap < want
      · rw [if_pos h_lt] at h_rest
        have h_n := ih h_rest
        omega
      · rw [if_neg h_lt] at h_rest
        cases h_rest

end IonContrib
