/-
  IonContrib.Lib.Find

  The first place of one list in another.

  A needle that is put behind `pre` is found there if and only if it does not
  begin earlier, for which only `pre` and the needle without its last element
  matter (`find_append`).  An element the needle does not have cuts what is
  searched in two (`infix_cut`).
-/
import Mathlib.Data.List.Infix

namespace IonContrib.Find

variable {α : Type*} {ndl hay pre post a b : List α}

/-! ## Where a needle cannot be -/

/-- An element that the needle does not have. -/
theorem infix_cut {c : α} (h : c ∉ ndl) : ndl <:+: a ++ c :: b ↔ ndl <:+: a ∨ ndl <:+: b := by
  constructor
  · intro h_in
    rcases List.infix_append_iff.mp h_in with h_a | h_b | ⟨l₁, l₂, h_eq, h_l₁, h_l₂⟩
    · exact Or.inl h_a
    · rcases List.infix_cons_iff.mp h_b with h_pre | h_b
      · -- A needle that begins with `c` is empty.
        cases ndl with
        | nil => exact Or.inl List.nil_infix
        | cons d ds =>
          obtain ⟨rfl, -⟩ := List.cons_prefix_cons.mp h_pre
          exact absurd List.mem_cons_self h
      · exact Or.inr h_b
    · cases l₂ with
      | nil =>
        rw [List.append_nil] at h_eq
        exact Or.inl (h_eq ▸ h_l₁.isInfix)
      | cons d ds =>
        obtain ⟨rfl, -⟩ := List.cons_prefix_cons.mp h_l₂
        exact absurd (by simp [h_eq]) h
  · rintro (h_a | h_b)
    · exact List.infix_append_of_infix_left h_a
    · exact List.infix_append_of_infix_right (List.infix_cons h_b)

/-- The second of two lists begins with such an element. -/
theorem infix_append_cut {c : α} (h : c ∉ ndl) (h_b : b.head? = some c) :
    ndl <:+: a ++ b ↔ ndl <:+: a ∨ ndl <:+: b := by
  cases b with
  | nil => cases h_b
  | cons d ds =>
    obtain rfl : d = c := by simpa using h_b
    rw [infix_cut h, ← List.nil_append (d :: ds), infix_cut h]
    constructor
    · rintro (h_a | h_ds)
      · exact Or.inl h_a
      · exact Or.inr (Or.inr h_ds)
    · rintro (h_a | h_nil | h_ds)
      · exact Or.inl h_a
      · exact Or.inl (h_nil.trans List.nil_infix)
      · exact Or.inr h_ds

/-- A needle that has more of an element. -/
theorem not_infix_of_count [DecidableEq α] {c : α} (h : hay.count c < ndl.count c) : ¬ ndl <:+: hay :=
  fun h_in => Nat.not_le_of_lt h (h_in.count_le c)

/-- Pieces without the needle that begin with an element it does not have. -/
theorem not_infix_flatten {ls : List (List α)} (h_a : ¬ ndl <:+: a)
    (h_ls : ∀ l ∈ ls, ¬ ndl <:+: l ∧ ∃ c ∉ ndl, l.head? = some c) : ¬ ndl <:+: a ++ ls.flatten := by
  induction ls generalizing a with
  | nil => simpa using h_a
  | cons l ls ih =>
    obtain ⟨⟨h_l, c, h_c, h_head⟩, h_rest⟩ := List.forall_mem_cons.mp h_ls
    rw [List.flatten_cons, ← List.append_assoc]
    refine ih (fun h_in => ?_) h_rest
    exact ((infix_append_cut h_c h_head).mp h_in).elim h_a h_l

/-! ## Finding one -/

variable [DecidableEq α]

/-- Where `ndl` first begins. -/
def find (ndl : List α) : List α → Option Nat
  | [] => if ndl = [] then some 0 else none
  | x :: hay => if ndl <+: x :: hay then some 0 else (find ndl hay).map (· + 1)

theorem find_eq_none_iff : find ndl hay = none ↔ ¬ ndl <:+: hay := by
  induction hay with
  | nil =>
    rw [find, List.infix_nil]
    split <;> simp_all
  | cons x hay ih =>
    rw [find, List.infix_cons_iff]
    by_cases h : ndl <+: x :: hay
    · simp [h]
    · rw [if_neg h, Option.map_eq_none_iff, ih]
      simp [h]

/-- **Where the needle is put is where it is found**, unless it begins earlier. -/
theorem find_append (h : ¬ ndl <:+: pre ++ ndl.dropLast) :
    find ndl (pre ++ (ndl ++ post)) = some pre.length := by
  have h_ne : ndl ≠ [] := by
    rintro rfl
    exact h List.nil_infix
  induction pre with
  | nil =>
    obtain ⟨x, xs, rfl⟩ := List.exists_cons_of_ne_nil h_ne
    exact if_pos (List.prefix_append (x :: xs) post)
  | cons x pre ih =>
    rw [List.cons_append, find, if_neg, ih fun h_in => h (List.infix_cons h_in)]
    · rfl
    -- Were it here, it would end before the needle that was put there does.
    intro h_pre
    refine h (List.IsPrefix.isInfix ?_)
    have h_len : ndl.length ≤ (x :: (pre ++ ndl.dropLast)).length := by
      have h_pos := List.length_pos_of_ne_nil h_ne
      simp only [List.length_cons, List.length_append, List.length_dropLast]
      omega
    have h_split : ndl ++ post = ndl.dropLast ++ ndl.getLast h_ne :: post := by
      conv_lhs => rw [← List.dropLast_append_getLast h_ne]
      simp
    refine List.prefix_of_prefix_length_le h_pre ⟨ndl.getLast h_ne :: post, ?_⟩ h_len
    rw [h_split]
    simp

/-- It is enough that the first element of the needle is not there. -/
theorem find_append_of_notMem {c : α} {cs : List α} (h : c ∉ pre) :
    find (c :: cs) (pre ++ (c :: cs ++ post)) = some pre.length := by
  induction pre with
  | nil => exact if_pos (List.prefix_append (c :: cs) post)
  | cons x pre ih =>
    obtain ⟨h_x, h_pre⟩ := not_or.mp (mt List.mem_cons.mpr h)
    rw [List.cons_append, find, if_neg, ih h_pre]
    · rfl
    · intro h_here
      exact h_x (List.cons_prefix_cons.mp h_here).1

end IonContrib.Find
