/-
  IonContrib.Lib.Words

  The words of a list: its longest stretches without a separator.

  `words_append` reads them off the front, `words_join` says that joining
  words with a separator and splitting again gives the same words.
-/
import Mathlib.Data.List.TakeWhile

namespace IonContrib

variable {α : Type*} {p : α → Bool}

/-- Put an element in front of the first word. -/
def consWord (c : α) : List (List α) → List (List α)
  | [] => [[c]]
  | w :: ws => (c :: w) :: ws

/-- The words of a list, `p` telling the separators. -/
def words (p : α → Bool) : List α → List (List α)
  | [] => []
  | c :: s =>
    if p c then words p s
    else match s with
      | [] => [[c]]
      | d :: _ => if p d then [c] :: words p s else consWord c (words p s)

/-- Words one after the other, with one separator between two of them. -/
def joinWords (sep : α) : List (List α) → List α
  | [] => []
  | [w] => w
  | w :: ws => w ++ sep :: joinWords sep ws

/-- A word has something in it, and no separator. -/
structure IsWord (p : α → Bool) (w : List α) : Prop where
  ne_nil : w ≠ []
  no_sep : ∀ c ∈ w, p c = false

@[simp] theorem words_nil : words p [] = [] := rfl

theorem words_sep {c : α} (h : p c = true) (s : List α) : words p (c :: s) = words p s := by
  cases s with
  | nil => simp [words, h]
  | cons d s => rw [words, if_pos h]

theorem words_dropWhile (s : List α) : words p (s.dropWhile p) = words p s := by
  induction s with
  | nil => rfl
  | cons c s ih =>
    by_cases h : p c = true
    · rw [List.dropWhile_cons_of_pos h, words_sep h, ih]
    · rw [List.dropWhile_cons_of_neg h]

/-- Words of a list that starts with one. -/
theorem words_append {w rest : List α} (h_w : IsWord p w)
    (h_rest : ∀ c s, rest = c :: s → p c = true) : words p (w ++ rest) = w :: words p rest := by
  obtain ⟨h_ne, h_sep⟩ := h_w
  induction w with
  | nil => exact absurd rfl h_ne
  | cons c w ih =>
    have h_c : ¬ p c = true := by simp [h_sep c List.mem_cons_self]
    cases w with
    | nil =>
      cases rest with
      | nil => simp [words, h_c]
      | cons d s =>
        rw [List.singleton_append, words, if_neg h_c, if_pos (h_rest d s rfl)]
    | cons d w =>
      have h_d : ¬ p d = true := by simp [h_sep d (by simp)]
      have h_tail := ih (by simp) fun x h_x => h_sep x (List.mem_cons_of_mem _ h_x)
      rw [List.cons_append] at h_tail
      rw [List.cons_append, List.cons_append, words, if_neg h_c]
      show (if p d = true then _ else _) = _
      rw [if_neg h_d, h_tail, consWord]

/-- What `dropWhile` leaves starts with an element it does not drop. -/
theorem dropWhile_head {q : α → Bool} {s t : List α} {c : α} (h : s.dropWhile q = c :: t) :
    q c = false := by
  have h_head := List.head?_dropWhile_not q s
  rw [h] at h_head
  simpa using h_head

/-- Behind its separators a list starts with its first word. -/
theorem words_first {s t : List α} {c : α} (h : s.dropWhile p = c :: t) :
    words p s = ((c :: t).takeWhile fun x => !p x) ::
      words p (((c :: t).dropWhile fun x => !p x).tail) := by
  have h_c := dropWhile_head h
  have h_word : IsWord p ((c :: t).takeWhile fun x => !p x) := by
    refine ⟨by simp [h_c], fun x h_x => ?_⟩
    simpa using List.mem_takeWhile_imp h_x
  have h_ends : ∀ x r, ((c :: t).dropWhile fun x => !p x) = x :: r → p x = true := by
    intro x r h_eq
    simpa using dropWhile_head h_eq
  -- The separator behind the word, if there is one, adds nothing.
  have h_rest : words p ((c :: t).dropWhile fun x => !p x) =
      words p (((c :: t).dropWhile fun x => !p x).tail) := by
    cases h_d : (c :: t).dropWhile fun x => !p x with
    | nil => rfl
    | cons x r => exact words_sep (h_ends x r h_d) r
  calc words p s = words p (c :: t) := by rw [← words_dropWhile, h]
    _ = words p (((c :: t).takeWhile fun x => !p x) ++ (c :: t).dropWhile fun x => !p x) := by
      rw [List.takeWhile_append_dropWhile]
    _ = _ := by rw [words_append h_word h_ends, h_rest]

theorem isWord_words (s : List α) : ∀ w ∈ words p s, IsWord p w := by
  induction s with
  | nil => simp
  | cons c s ih =>
    by_cases h_c : p c = true
    · rw [words_sep h_c]
      exact ih
    have h_single : IsWord p [c] := ⟨by simp, by simpa using h_c⟩
    cases s with
    | nil =>
      intro w h_w
      rw [words, if_neg h_c, List.mem_singleton] at h_w
      exact h_w ▸ h_single
    | cons d s =>
      rw [words, if_neg h_c]
      show ∀ w ∈ (if p d = true then _ else _), _
      by_cases h_d : p d = true
      · rw [if_pos h_d]
        intro w h_w
        rcases List.mem_cons.mp h_w with rfl | h_w
        · exact h_single
        · exact ih w h_w
      · rw [if_neg h_d]
        -- The element joins the word behind it, if there is one.
        cases h_ws : words p (d :: s) with
        | nil =>
          intro w h_w
          rw [consWord, List.mem_singleton] at h_w
          exact h_w ▸ h_single
        | cons v vs =>
          rw [h_ws] at ih
          intro w h_w
          rcases List.mem_cons.mp h_w with rfl | h_w
          · have h_v := ih v List.mem_cons_self
            refine ⟨by simp, ?_⟩
            intro x h_x
            rcases List.mem_cons.mp h_x with rfl | h_x
            · simpa using h_c
            · exact h_v.no_sep x h_x
          · exact ih w (List.mem_cons_of_mem _ h_w)

/-- **Splitting what was joined gives the words back.** -/
theorem words_join {sep : α} (h_sep : p sep = true) {ws : List (List α)}
    (h : ∀ w ∈ ws, IsWord p w) : words p (joinWords sep ws) = ws := by
  induction ws with
  | nil => rfl
  | cons w ws ih =>
    have h_ws : ∀ v ∈ ws, IsWord p v := fun v h_v => h v (List.mem_cons_of_mem _ h_v)
    have h_w := h w List.mem_cons_self
    cases ws with
    | nil =>
      rw [joinWords]
      have h_end : words p (w ++ []) = w :: words p [] := words_append h_w (by simp)
      rwa [List.append_nil, words_nil] at h_end
    | cons v vs =>
      show words p (w ++ sep :: joinWords sep (v :: vs)) = _
      rw [words_append h_w, words_sep h_sep, ih h_ws]
      intro c s h_eq
      cases h_eq
      exact h_sep

end IonContrib
