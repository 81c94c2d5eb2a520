/-
  IonContrib.Lib.SortedBuf

  Taking the front part off a sorted list.

  A property is one of the front of a list when whatever stands before a
  member that has it has it as well.  Of a sorted list these are the
  properties "is below `k`"; for them `dropWhile` and `takeWhile` are
  `filter`.
-/
import Mathlib.Algebra.Ring.Nat
import Mathlib.Data.List.Basic

namespace IonContrib.SortedBuf

variable {α : Type*}

/-- What stands before a member with the property has it, too. -/
def Front (l : List α) (P : α → Bool) : Prop := l.Pairwise fun x y => P y = true → P x = true

theorem Front.none {a : α} {l : List α} {P : α → Bool} (h : Front (a :: l) P)
    (h_a : P a = false) : ∀ x ∈ l, P x = false := by
  intro x h_x
  have h_first := (List.pairwise_cons.mp h).1 x h_x
  cases h_p : P x with
  | false => rfl
  | true =>
    rw [h_first h_p] at h_a
    cases h_a

theorem Front.dropWhile_eq {l : List α} {P : α → Bool} (h : Front l P) :
    l.dropWhile P = l.filter fun x => !P x := by
  induction l with
  | nil => rfl
  | cons a l ih =>
    cases h_a : P a with
    | true =>
      rw [List.dropWhile_cons_of_pos h_a, ih (List.pairwise_cons.mp h).2]
      simp [h_a]
    | false =>
      rw [List.dropWhile_cons_of_neg (by simp [h_a])]
      refine (List.filter_eq_self.mpr fun x h_x => ?_).symm
      rcases List.mem_cons.mp h_x with rfl | h_l
      · simp [h_a]
      · simp [h.none h_a x h_l]

/-- What is left has not got the property. -/
theorem Front.of_mem_dropWhile {l : List α} {P : α → Bool} (h : Front l P) {x : α}
    (h_x : x ∈ l.dropWhile P) : x ∈ l ∧ P x = false := by
  rw [h.dropWhile_eq, List.mem_filter] at h_x
  exact ⟨h_x.1, by simpa using h_x.2⟩

/-- What has not got the property is left. -/
theorem Front.mem_dropWhile {l : List α} {P : α → Bool} (h : Front l P) {x : α}
    (h_x : x ∈ l) (h_p : P x = false) : x ∈ l.dropWhile P := by
  rw [h.dropWhile_eq, List.mem_filter]
  exact ⟨h_x, by simp [h_p]⟩

theorem length_takeWhile_add_dropWhile (l : List α) (P : α → Bool) :
    (l.takeWhile P).length + (l.dropWhile P).length = l.length := by
  have h_append := congrArg List.length (List.takeWhile_append_dropWhile (p := P) (l := l))
  rwa [List.length_append] at h_append

theorem sum_takeWhile_add_dropWhile (l : List α) (P : α → Bool) (f : α → Nat) :
    ((l.takeWhile P).map f).sum + ((l.dropWhile P).map f).sum = (l.map f).sum := by
  rw [← List.sum_append_nat, ← List.map_append, List.takeWhile_append_dropWhile]

end IonContrib.SortedBuf
