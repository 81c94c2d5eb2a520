/-
  IonContrib.Lib.Argmax

  The element a linear search keeps that looks for the best of those that qualify and
  never gives it up for one that is as good.
-/
import Mathlib.Data.List.MinMax

namespace IonContrib

variable {α β : Type*} [LinearOrder β]

/-- A round of the search. -/
def better (p : α → Bool) (f : α → β) (best : Option α) (a : α) : Option α :=
  if p a then
    match best with
    | none => some a
    | some b => if f b < f a then some a else some b
  else best

/-- The search is `List.argmax` over the elements that qualify. -/
theorem foldl_better (p : α → Bool) (f : α → β) (l : List α) :
    l.foldl (better p f) none = (l.filter p).argmax f := by
  rw [List.argmax, List.foldl_filter]
  congr 1
  funext best a
  cases best with
  | none => rfl
  | some b => rfl

/-- It is found at its first place, and those in front of it are worse. -/
theorem argmax_filter_eq_some_iff [DecidableEq α] {p : α → Bool} {f : α → β} {l : List α} {m : α} :
    (l.filter p).argmax f = some m ↔
      ∃ pre post, l = pre ++ m :: post ∧ p m = true ∧ (∀ a ∈ pre, p a = true → f a < f m) ∧
        ∀ a ∈ post, p a = true → f a ≤ f m := by
  rw [List.argmax_eq_some_iff]
  constructor
  · rintro ⟨h_mem, h_le, h_first⟩
    obtain ⟨h_mem, h_p⟩ := List.mem_filter.mp h_mem
    obtain ⟨pre, post, rfl, h_pre⟩ := List.eq_append_cons_of_mem h_mem
    have h_filter : (pre ++ m :: post).filter p = pre.filter p ++ m :: post.filter p := by
      rw [List.filter_append, List.filter_cons_of_pos h_p]
    have h_notMem : m ∉ pre.filter p := fun h => h_pre (List.mem_filter.mp h).1
    refine ⟨pre, post, rfl, h_p, ?_, ?_⟩
    · intro a h_a h_pa
      have h_in : a ∈ pre.filter p := List.mem_filter.mpr ⟨h_a, h_pa⟩
      have h_in' : a ∈ (pre ++ m :: post).filter p := by
        rw [h_filter]
        exact List.mem_append_left _ h_in
      refine lt_of_not_ge fun h_ge => ?_
      have h_idx := h_first a h_in' h_ge
      rw [h_filter, List.idxOf_append_of_notMem h_notMem, List.idxOf_append_of_mem h_in] at h_idx
      have h_lt := List.idxOf_lt_length_of_mem h_in
      omega
    · intro a h_a h_pa
      refine h_le a (List.mem_filter.mpr ⟨?_, h_pa⟩)
      exact List.mem_append_right _ (List.mem_cons_of_mem _ h_a)
  · rintro ⟨pre, post, rfl, h_p, h_pre, h_post⟩
    have h_filter : (pre ++ m :: post).filter p = pre.filter p ++ m :: post.filter p := by
      rw [List.filter_append, List.filter_cons_of_pos h_p]
    have h_notMem : ∀ a, f m ≤ f a → a ∉ pre.filter p := by
      intro a h_ge h_a
      obtain ⟨h_a, h_pa⟩ := List.mem_filter.mp h_a
      exact absurd (h_pre a h_a h_pa) (not_lt_of_ge h_ge)
    refine ⟨List.mem_filter.mpr ⟨List.mem_append_right _ List.mem_cons_self, h_p⟩, ?_, ?_⟩
    · intro a h_a
      obtain ⟨h_a, h_pa⟩ := List.mem_filter.mp h_a
      rcases List.mem_append.mp h_a with h_a | h_a
      · exact le_of_lt (h_pre a h_a h_pa)
      · rcases List.mem_cons.mp h_a with rfl | h_a
        · exact le_refl _
        · exact h_post a h_a h_pa
    · intro a h_a h_ge
      rw [h_filter, List.idxOf_append_of_notMem (h_notMem m (le_refl _)),
        List.idxOf_append_of_notMem (h_notMem a h_ge), List.idxOf_cons_self]
      omega

end IonContrib
