/-
  IonContrib.Lib.Train

  A list cut into pieces of one length, the last of which may be shorter.

  What was put together from pieces of that length and one more that is no
  longer is cut back into the same pieces (`cut_train`, `cut_flatten`).
-/
import Mathlib.Data.List.Basic

namespace IonContrib

variable {α : Type*}

/-- The pieces of `n` elements, for at most `fuel` of them. -/
def cutFrom (n : Nat) : Nat → List α → List (List α)
  | 0, _ => []
  | _ + 1, [] => []
  | fuel + 1, a :: l => (a :: l).take n :: cutFrom n fuel ((a :: l).drop n)

/-- A list in pieces of `n` elements. -/
def cut (n : Nat) (l : List α) : List (List α) := cutFrom n l.length l

theorem cutFrom_nil (n fuel : Nat) : cutFrom n fuel ([] : List α) = [] := by
  cases fuel with
  | zero => rfl
  | succ fuel => rfl

theorem cutFrom_succ {n fuel : Nat} {l : List α} (h : l ≠ []) :
    cutFrom n (fuel + 1) l = l.take n :: cutFrom n fuel (l.drop n) := by
  obtain ⟨a, l, rfl⟩ := List.exists_cons_of_ne_nil h
  rfl

/-- What is left behind the full pieces is cut for itself. -/
theorem cutFrom_flatten_append {n : Nat} (h_n : 0 < n) {full : List (List α)}
    (h_full : ∀ p ∈ full, p.length = n) (fuel : Nat) (l : List α) :
    cutFrom n (full.length + fuel) (full.flatten ++ l) = full ++ cutFrom n fuel l := by
  induction full with
  | nil =>
    rw [List.length_nil, Nat.zero_add]
    rfl
  | cons p full ih =>
    obtain ⟨h_p, h_full⟩ := List.forall_mem_cons.mp h_full
    have h_some : (p :: full).flatten ++ l ≠ [] := by
      apply List.ne_nil_of_length_pos
      rw [List.flatten_cons, List.length_append, List.length_append]
      omega
    have h_rest : (p :: full).flatten ++ l = p ++ (full.flatten ++ l) := by
      rw [List.flatten_cons, List.append_assoc]
    rw [List.length_cons, Nat.add_right_comm, cutFrom_succ h_some, h_rest, List.take_left' h_p,
      List.drop_left' h_p, ih h_full]
    rfl

theorem length_flatten_ge {n : Nat} (h_n : 0 < n) {full : List (List α)}
    (h_full : ∀ p ∈ full, p.length = n) : full.length ≤ full.flatten.length := by
  induction full with
  | nil => exact Nat.le_refl 0
  | cons p full ih =>
    obtain ⟨h_p, h_full⟩ := List.forall_mem_cons.mp h_full
    have h_le := ih h_full
    rw [List.flatten_cons, List.length_append, List.length_cons]
    omega

theorem cut_flatten {n : Nat} (h_n : 0 < n) {full : List (List α)}
    (h_full : ∀ p ∈ full, p.length = n) : cut n full.flatten = full := by
  have h_le := length_flatten_ge h_n h_full
  have h_cut := cutFrom_flatten_append h_n h_full (full.flatten.length - full.length) []
  rw [Nat.add_sub_of_le h_le, List.append_nil, cutFrom_nil, List.append_nil] at h_cut
  exact h_cut

theorem cut_train {n : Nat} {full : List (List α)} {last : List α}
    (h_full : ∀ p ∈ full, p.length = n) (h_pos : last ≠ []) (h_last : last.length ≤ n) :
    cut n (full.flatten ++ last) = full ++ [last] := by
  have h_len : 0 < last.length := List.length_pos_iff.mpr h_pos
  have h_n : 0 < n := by omega
  have h_le := length_flatten_ge h_n h_full
  -- One round of the fuel is for the last piece, and nothing is left behind it.
  have h_fuel : (full.flatten ++ last).length =
      full.length + (full.flatten.length + last.length - full.length - 1 + 1) := by
    rw [List.length_append]
    omega
  rw [cut, h_fuel, cutFrom_flatten_append h_n h_full, cutFrom_succ h_pos,
    List.take_of_length_le h_last, List.drop_of_length_le h_last, cutFrom_nil]

end IonContrib
