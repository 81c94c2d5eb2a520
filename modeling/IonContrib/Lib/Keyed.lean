/-
  IonContrib.Lib.Keyed

  Tables with a primary key.  The rows are in the order of their keys, so no
  two have the same one, and a selection in key order is a part of the list.
-/
import Mathlib.Order.Lattice
import Mathlib.Data.List.Nodup

namespace IonContrib.Keyed

structure Table (ρ : Type*) {κ : Type*} [LinearOrder κ] (key : ρ → κ) where
  rows : List ρ
  sorted : rows.Pairwise fun row row' => key row < key row'

variable {ρ κ : Type*} [LinearOrder κ] {key : ρ → κ}

namespace Table

theorem ext {t t' : Table ρ key} (h : t.rows = t'.rows) : t = t' := by
  obtain ⟨rows, h_sorted⟩ := t
  obtain ⟨rows', h_sorted'⟩ := t'
  obtain rfl : rows = rows' := h
  rfl

/-- The first `limit` rows that meet a condition. -/
def select (t : Table ρ key) (p : ρ → Bool) (limit : Nat) : List ρ := (t.rows.filter p).take limit

/-- The table without the rows that meet a condition. -/
def remove (t : Table ρ key) (p : ρ → Bool) : Table ρ key :=
  ⟨t.rows.filter fun row => !p row, t.sorted.filter _⟩

/-- The table with a row more; a key that is there already is refused. -/
def insert (t : Table ρ key) (row : ρ) : Option (Table ρ key) :=
  if h : ∀ row' ∈ t.rows, key row' ≠ key row then
    some {
      rows := t.rows.filter (fun row' => key row' < key row) ++
        row :: t.rows.filter (fun row' => key row < key row')
      sorted := by
        rw [List.pairwise_append, List.pairwise_cons]
        refine ⟨t.sorted.filter _, ⟨?_, t.sorted.filter _⟩, ?_⟩
        · intro row' h_row'
          exact of_decide_eq_true (List.mem_filter.mp h_row').2
        · intro row' h_row' other h_other
          have h_low : key row' < key row := of_decide_eq_true (List.mem_filter.mp h_row').2
          rcases List.mem_cons.mp h_other with rfl | h_high
          · exact h_low
          · exact lt_trans h_low (of_decide_eq_true (List.mem_filter.mp h_high).2) }
  else none

theorem eq_of_key_eq (t : Table ρ key) {row row' : ρ} (h : row ∈ t.rows) (h' : row' ∈ t.rows)
    (h_key : key row = key row') : row = row' := by
  have h_nodup : (t.rows.map key).Nodup := List.pairwise_map.mpr (t.sorted.imp ne_of_lt)
  exact List.inj_on_of_nodup_map h_nodup h h' h_key

theorem mem_of_mem_select {t : Table ρ key} {p : ρ → Bool} {limit : Nat} {row : ρ}
    (h : row ∈ t.select p limit) : row ∈ t.rows :=
  (List.mem_filter.mp (List.mem_of_mem_take h)).1

theorem select_length_le (t : Table ρ key) (p : ρ → Bool) (limit : Nat) :
    (t.select p limit).length ≤ limit := List.length_take_le _ _

@[simp] theorem mem_remove {t : Table ρ key} {p : ρ → Bool} {row : ρ} :
    row ∈ (t.remove p).rows ↔ row ∈ t.rows ∧ p row = false := by
  simp [remove, List.mem_filter]

/-- A row of the larger table is the new one or was there. -/
theorem mem_insert {t t' : Table ρ key} {row row' : ρ} (h : t.insert row = some t') :
    row' ∈ t'.rows ↔ row' = row ∨ row' ∈ t.rows := by
  unfold insert at h
  split at h
  · rename_i h_fresh
    obtain rfl := Option.some.inj h
    simp only [List.mem_append, List.mem_cons, List.mem_filter, decide_eq_true_eq]
    constructor
    · rintro (h_low | rfl | h_high)
      · exact .inr h_low.1
      · exact .inl rfl
      · exact .inr h_high.1
    · rintro (rfl | h_mem)
      · exact .inr (.inl rfl)
      · rcases lt_or_gt_of_ne (h_fresh row' h_mem) with h_lt | h_gt
        · exact .inl ⟨h_mem, h_lt⟩
        · exact .inr (.inr ⟨h_mem, h_gt⟩)
  · cases h

end Table

end IonContrib.Keyed
