/-
  IonContrib.Lib.Groups

  A list that is cut into groups, each of which begins with a marked item and
  has no other (`Group`).  The cut is the only one: when a list that is cut so
  is the front of another, its groups are the first ones of the other, and only
  the last of them can be short (`groups_prefix`).
-/
import Mathlib.Data.List.Forall2

namespace IonContrib

variable {α β : Type*}

/-- A marked item and items that are not. -/
def Group (marked : α → Bool) (as : List α) : Prop :=
  ∃ a rest, as = a :: rest ∧ marked a = true ∧ ∀ b ∈ rest, marked b = false

variable {marked : α → Bool}

theorem Group.ne_nil {as : List α} (h : Group marked as) : as ≠ [] := by
  obtain ⟨a, rest, rfl, -⟩ := h
  exact List.cons_ne_nil a rest

/-- Nothing, or a list that begins with a marked item. -/
def Opens (marked : α → Bool) (as : List α) : Prop := ∀ a ∈ as.head?, marked a = true

theorem opens_flatten {gs : List (List α)} (h : ∀ g ∈ gs, Group marked g) :
    Opens marked gs.flatten := by
  cases gs with
  | nil => intro a h_a; cases h_a
  | cons g gs =>
    obtain ⟨a, rest, rfl, h_a, -⟩ := h g List.mem_cons_self
    intro b h_b
    obtain rfl : a = b := by simpa using h_b
    exact h_a

/-- Items without a mark go as far as the next mark. -/
theorem prefix_of_unmarked {as bs as' bs' : List α} (h_as : ∀ a ∈ as, marked a = false)
    (h_bs : ∀ b ∈ bs, marked b = false) (h_as' : Opens marked as') (h_bs' : Opens marked bs')
    (h : as ++ as' <+: bs ++ bs') : as <+: bs ∧ (as' ≠ [] → as' <+: bs') := by
  induction as generalizing bs with
  | nil =>
    refine ⟨List.nil_prefix, fun h_ne => ?_⟩
    rw [List.nil_append] at h
    cases bs with
    | nil => rwa [List.nil_append] at h
    | cons b bs =>
      obtain ⟨a, as'', rfl⟩ := List.exists_cons_of_ne_nil h_ne
      obtain ⟨rfl, -⟩ := List.cons_prefix_cons.mp h
      have h_a := h_as' a rfl
      rw [h_bs a List.mem_cons_self] at h_a
      cases h_a
  | cons a as ih =>
    have h_a := h_as a List.mem_cons_self
    cases bs with
    | nil =>
      cases bs' with
      | nil => simp at h
      | cons b bs' =>
        obtain ⟨rfl, -⟩ := List.cons_prefix_cons.mp h
        have h_b := h_bs' a rfl
        rw [h_a] at h_b
        cases h_b
    | cons b bs =>
      obtain ⟨rfl, h_rest⟩ := List.cons_prefix_cons.mp h
      obtain ⟨h_front, h_later⟩ := ih (fun x h_x => h_as x (List.mem_cons_of_mem _ h_x))
        (fun x h_x => h_bs x (List.mem_cons_of_mem _ h_x)) h_rest
      exact ⟨List.cons_prefix_cons.mpr ⟨rfl, h_front⟩, h_later⟩

/-- **The groups of a front part are the first groups of the whole.** -/
theorem groups_prefix {gs hs : List (List α)} (h_gs : ∀ g ∈ gs, Group marked g)
    (h_hs : ∀ g ∈ hs, Group marked g) (h : gs.flatten <+: hs.flatten) :
    List.Forall₂ (· <+: ·) gs (hs.take gs.length) := by
  induction gs generalizing hs with
  | nil => exact List.Forall₂.nil
  | cons g gs ih =>
    obtain ⟨a, rest, rfl, h_a, h_rest⟩ := h_gs g List.mem_cons_self
    cases hs with
    | nil => simp at h
    | cons k hs =>
      obtain ⟨b, rest', rfl, h_b, h_rest'⟩ := h_hs k List.mem_cons_self
      have h_gs' : ∀ g ∈ gs, Group marked g := fun g h_g => h_gs g (List.mem_cons_of_mem _ h_g)
      have h_hs' : ∀ g ∈ hs, Group marked g := fun g h_g => h_hs g (List.mem_cons_of_mem _ h_g)
      rw [List.flatten_cons, List.flatten_cons, List.cons_append, List.cons_append] at h
      obtain ⟨rfl, h_tail⟩ := List.cons_prefix_cons.mp h
      obtain ⟨h_front, h_later⟩ :=
        prefix_of_unmarked h_rest h_rest' (opens_flatten h_gs') (opens_flatten h_hs') h_tail
      rw [List.length_cons, List.take_succ_cons]
      refine List.Forall₂.cons (List.cons_prefix_cons.mpr ⟨rfl, h_front⟩) ?_
      cases gs with
      | nil => exact List.Forall₂.nil
      | cons g gs =>
        refine ih h_gs' h_hs' (h_later ?_)
        rw [List.flatten_cons]
        exact List.append_ne_nil_of_left_ne_nil (h_gs' g List.mem_cons_self).ne_nil _

/-- Partners are elements of their lists. -/
theorem forall₂_mem {R : α → β → Prop} {as : List α} {bs : List β} (h : List.Forall₂ R as bs) :
    List.Forall₂ (fun a b => a ∈ as ∧ b ∈ bs ∧ R a b) as bs := by
  induction h with
  | nil => exact List.Forall₂.nil
  | @cons a b as bs h_ab _ ih =>
    refine List.Forall₂.cons ⟨List.mem_cons_self, List.mem_cons_self, h_ab⟩ (ih.imp ?_)
    rintro a' b' ⟨h_a, h_b, h_r⟩
    exact ⟨List.mem_cons_of_mem _ h_a, List.mem_cons_of_mem _ h_b, h_r⟩

/-- Every element has a partner. -/
theorem forall₂_partner {R : α → β → Prop} {as : List α} {bs : List β}
    (h : List.Forall₂ R as bs) {a : α} (h_a : a ∈ as) : ∃ b ∈ bs, R a b := by
  induction h with
  | nil => cases h_a
  | @cons a' b as bs h_ab _ ih =>
    rcases List.mem_cons.mp h_a with rfl | h_a
    · exact ⟨b, List.mem_cons_self, h_ab⟩
    · obtain ⟨b', h_b', h_r⟩ := ih h_a
      exact ⟨b', List.mem_cons_of_mem _ h_b', h_r⟩

/-- Partners that agree under `f` and `g` make equal lists. -/
theorem map_eq_of_forall₂ {γ : Type*} {f : α → γ} {g : β → γ} {as : List α} {bs : List β}
    (h : List.Forall₂ (fun a b => f a = g b) as bs) : as.map f = bs.map g := by
  rw [← List.forall₂_eq_eq_eq, List.forall₂_map_left_iff, List.forall₂_map_right_iff]
  exact h

/-- The partners of those that pass a test. -/
theorem forall₂_filter {R : α → β → Prop} (p : α → Bool) {as : List α} {bs : List β}
    (h : List.Forall₂ R as bs) : ∃ bs', bs'.Sublist bs ∧ List.Forall₂ R (as.filter p) bs' := by
  induction h with
  | nil => exact ⟨[], List.Sublist.refl _, List.Forall₂.nil⟩
  | @cons a b as bs h_ab _ ih =>
    obtain ⟨bs', h_sub, h_all⟩ := ih
    cases h_p : p a with
    | true =>
      rw [List.filter_cons_of_pos h_p]
      exact ⟨b :: bs', h_sub.cons_cons b, List.Forall₂.cons h_ab h_all⟩
    | false =>
      rw [List.filter_cons_of_neg (by simp [h_p])]
      exact ⟨bs', h_sub.cons b, h_all⟩

end IonContrib
