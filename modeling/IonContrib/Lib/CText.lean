/-
  IonContrib.Lib.CText

  Numbers at the front of a text, as C's `strtol`, `atoi` and `sscanf` read them:
  white space and a sign are passed over, the digits end where they end, and what
  does not fit a `long` or an `int` is cut to it without a word.
-/
import IonContrib.Lib.Decimal
import Mathlib.Data.List.TakeWhile

namespace IonContrib.CText

open Octets

/-- `isspace`. -/
def isSpace (c : UInt8) : Bool := c = 0x20 || (0x09 ≤ c && c ≤ 0x0d)

/-- Whether there is a minus sign, and what is behind a sign. -/
def sign : Octets → Bool × Octets
  | 0x2d :: rest => (true, rest)
  | 0x2b :: rest => (false, rest)
  | text => (false, text)

/-- The number at the front of a text, of any size, and what follows it. -/
def number (text : Octets) : Option (Int × Octets) :=
  let (negative, body) := sign (text.dropWhile isSpace)
  let digits := body.takeWhile isDigit
  if digits = [] then none
  else
    some (if negative then -(decimal digits : Int) else (decimal digits : Int),
      body.dropWhile isDigit)

/-- A number that does not fit a `long` is the nearest one that does. -/
def toLong (n : Int) : Int := max (-2 ^ 63) (min n (2 ^ 63 - 1))

/-- The conversion of a `long` to an `int`. -/
def toInt (n : Int) : Int := n.bmod (2 ^ 32)

/-- `strtol (text, &end, 10)`, with the text at `end`. -/
def strtol (text : Octets) : Int × Octets :=
  match number text with
  | none => (0, text)
  | some (n, rest) => (toLong n, rest)

def atoi (text : Octets) : Int := toInt (strtol text).1

/-- `sscanf (text, "%d", &n)`; `none` where nothing is converted. -/
def scanInt (text : Octets) : Option Int := (number text).map fun p => toInt (toLong p.1)

/-- What `strchr` finds: the text in front of the first separator and behind it. -/
def splitFirst (sep : UInt8) (text : Octets) : Option (Octets × Octets) :=
  match text.dropWhile (· ≠ sep) with
  | [] => none
  | _ :: tail => some (text.takeWhile (· ≠ sep), tail)

/-- What `strrchr` finds: the text in front of the last separator and behind it. -/
def splitLast (sep : UInt8) (text : Octets) : Option (Octets × Octets) :=
  (splitFirst sep text.reverse).map fun p => (p.2.reverse, p.1.reverse)

/-! ## Plain numbers -/

theorem not_isSpace_of_isDigit {c : UInt8} (h : isDigit c = true) : isSpace c = false := by
  simp only [isDigit, Bool.and_eq_true, decide_eq_true_eq, UInt8.le_iff_toNat_le] at h
  have h_low : (0x30 : UInt8).toNat ≤ c.toNat := h.1
  have h_space : c ≠ 0x20 := by
    rintro rfl
    exact absurd h_low (by decide)
  have h_ctl : ¬ c ≤ 0x0d := by
    intro h_le
    have h_nat : c.toNat ≤ (0x0d : UInt8).toNat := UInt8.le_iff_toNat_le.mp h_le
    exact absurd (Nat.le_trans h_low h_nat) (by decide)
  simp [isSpace, h_space, h_ctl]

theorem sign_of_isDigit {c : UInt8} (h : isDigit c = true) (text : Octets) :
    sign (c :: text) = (false, c :: text) := by
  unfold sign
  split
  · rename_i h_eq
    obtain ⟨rfl, -⟩ := List.cons.inj h_eq
    exact absurd h (by decide)
  · rename_i h_eq
    obtain ⟨rfl, -⟩ := List.cons.inj h_eq
    exact absurd h (by decide)
  · rfl

/-- Digits end at what is not one. -/
theorem span_digits {digits rest : Octets} (h_digits : digits.all isDigit = true)
    (h_rest : ∀ c ∈ rest.head?, isDigit c = false) :
    (digits ++ rest).takeWhile isDigit = digits ∧ (digits ++ rest).dropWhile isDigit = rest := by
  have h_all : ∀ c ∈ digits, isDigit c = true := List.all_eq_true.mp h_digits
  rw [List.takeWhile_append_of_pos h_all, List.dropWhile_append_of_pos h_all]
  cases rest with
  | nil => simp
  | cons c rest =>
    have h_c : ¬ isDigit c = true := by simp [h_rest c rfl]
    rw [List.takeWhile_cons_of_neg h_c, List.dropWhile_cons_of_neg h_c, List.append_nil]
    exact ⟨rfl, rfl⟩

/-- Digits are read as the number they spell, up to what is not a digit. -/
theorem number_digits {digits rest : Octets} (h_ne : digits ≠ [])
    (h_digits : digits.all isDigit = true) (h_rest : ∀ c ∈ rest.head?, isDigit c = false) :
    number (digits ++ rest) = some ((decimal digits : Int), rest) := by
  obtain ⟨h_take, h_drop⟩ := span_digits h_digits h_rest
  have h_sign : sign ((digits ++ rest).dropWhile isSpace) = (false, digits ++ rest) := by
    cases digits with
    | nil => exact absurd rfl h_ne
    | cons c digits =>
      have h_c := List.all_eq_true.mp h_digits c List.mem_cons_self
      rw [List.cons_append,
        List.dropWhile_cons_of_neg (by simp [not_isSpace_of_isDigit h_c]), sign_of_isDigit h_c]
  rw [number, h_sign]
  simp only [h_take, h_drop, if_neg h_ne, Bool.false_eq_true, if_false]

/-- The same behind a minus sign. -/
theorem number_minus {digits rest : Octets} (h_ne : digits ≠ [])
    (h_digits : digits.all isDigit = true) (h_rest : ∀ c ∈ rest.head?, isDigit c = false) :
    number (0x2d :: (digits ++ rest)) = some (-(decimal digits : Int), rest) := by
  obtain ⟨h_take, h_drop⟩ := span_digits h_digits h_rest
  rw [number, List.dropWhile_cons_of_neg (by decide), sign]
  simp only [h_take, h_drop, if_neg h_ne, if_true]

theorem toInt_toLong {n : Nat} (h : n < 2 ^ 31) : toInt (toLong n) = n := by
  have h_long : toLong n = n := by
    unfold toLong
    omega
  rw [h_long, toInt, Int.bmod_eq_of_le (by omega) (by omega)]

/-- `atoi` makes 0 of what `sscanf` does not convert. -/
theorem atoi_eq_scanInt (text : Octets) : atoi text = (scanInt text).getD 0 := by
  rw [atoi, strtol, scanInt]
  cases number text with
  | none => rfl
  | some found => rfl

/-! ## Separators -/

/-- What `strchr` finds in a text with a separator, the first of them. -/
theorem span_separator {sep : UInt8} {head : Octets} (h : sep ∉ head) (tail : Octets) :
    (head ++ sep :: tail).takeWhile (· ≠ sep) = head ∧
      (head ++ sep :: tail).dropWhile (· ≠ sep) = sep :: tail := by
  have h_all : ∀ c ∈ head, (decide (c ≠ sep)) = true := by
    intro c h_c
    exact decide_eq_true fun h_eq => h (h_eq ▸ h_c)
  constructor
  · rw [List.takeWhile_append_of_pos h_all, List.takeWhile_cons_of_neg (by simp), List.append_nil]
  · rw [List.dropWhile_append_of_pos h_all, List.dropWhile_cons_of_neg (by simp)]

/-- A text without one is all head. -/
theorem span_of_notMem {sep : UInt8} {text : Octets} (h : sep ∉ text) :
    text.takeWhile (· ≠ sep) = text ∧ text.dropWhile (· ≠ sep) = [] := by
  have h_all : ∀ c ∈ text, (decide (c ≠ sep)) = true := by
    intro c h_c
    exact decide_eq_true fun h_eq => h (h_eq ▸ h_c)
  exact ⟨List.takeWhile_eq_self_iff.mpr h_all, List.dropWhile_eq_nil_iff.mpr h_all⟩

theorem notMem_takeWhile (sep : UInt8) (text : Octets) : sep ∉ text.takeWhile (· ≠ sep) := by
  intro h
  have h_ne := List.mem_takeWhile_imp h
  simp at h_ne

/-- Where there is something from the separator on, it is the separator and what is behind it. -/
theorem of_dropWhile_separator {sep c : UInt8} {text tail : Octets}
    (h : text.dropWhile (· ≠ sep) = c :: tail) :
    text = text.takeWhile (· ≠ sep) ++ sep :: tail := by
  have h_c : c = sep := by
    have h_head := List.head?_dropWhile_not (fun b => decide (b ≠ sep)) text
    rw [h] at h_head
    simpa using h_head
  rw [← h_c, ← h, h_c]
  exact List.takeWhile_append_dropWhile.symm

/-- There is one first separator. -/
theorem separator_inj {sep : UInt8} {head head' tail tail' : Octets} (h : sep ∉ head)
    (h' : sep ∉ head') (h_eq : head ++ sep :: tail = head' ++ sep :: tail') :
    head = head' ∧ tail = tail' := by
  obtain ⟨h_head, h_tail⟩ := span_separator h tail
  obtain ⟨h_head', h_tail'⟩ := span_separator h' tail'
  rw [h_eq] at h_head h_tail
  refine ⟨h_head.symm.trans h_head', ?_⟩
  have h_cons := h_tail.symm.trans h_tail'
  exact (List.cons.inj h_cons).2

theorem splitFirst_eq_some_iff {sep : UInt8} {text head tail : Octets} :
    splitFirst sep text = some (head, tail) ↔ sep ∉ head ∧ text = head ++ sep :: tail := by
  constructor
  · intro h
    unfold splitFirst at h
    split at h
    · cases h
    · rename_i h_drop
      obtain ⟨rfl, rfl⟩ := Prod.mk.inj (Option.some.inj h)
      exact ⟨notMem_takeWhile sep text, of_dropWhile_separator h_drop⟩
  · rintro ⟨h_head, rfl⟩
    obtain ⟨h_take, h_drop⟩ := span_separator h_head tail
    unfold splitFirst
    rw [h_drop, h_take]

theorem splitFirst_eq_none_iff {sep : UInt8} {text : Octets} :
    splitFirst sep text = none ↔ sep ∉ text := by
  constructor
  · intro h h_mem
    obtain ⟨head, tail, h_text, h_head⟩ := List.eq_append_cons_of_mem h_mem
    rw [splitFirst_eq_some_iff.mpr ⟨h_head, h_text⟩] at h
    cases h
  · intro h
    unfold splitFirst
    rw [(span_of_notMem h).2]

theorem splitLast_eq_some_iff {sep : UInt8} {text head tail : Octets} :
    splitLast sep text = some (head, tail) ↔ sep ∉ tail ∧ text = head ++ sep :: tail := by
  have h_turn : text = head ++ sep :: tail ↔
      text.reverse = tail.reverse ++ sep :: head.reverse := by
    rw [← List.reverse_inj]
    simp
  rw [h_turn, ← List.mem_reverse, ← splitFirst_eq_some_iff, splitLast, Option.map_eq_some_iff]
  constructor
  · rintro ⟨⟨tail', head'⟩, h, h_eq⟩
    obtain ⟨rfl, rfl⟩ := Prod.mk.inj h_eq
    rwa [List.reverse_reverse, List.reverse_reverse]
  · intro h
    exact ⟨_, h, by simp⟩

theorem splitLast_eq_none_iff {sep : UInt8} {text : Octets} :
    splitLast sep text = none ↔ sep ∉ text := by
  rw [splitLast, Option.map_eq_none_iff, splitFirst_eq_none_iff, List.mem_reverse]

/-! ## Reading up to a separator -/

/-- A character that is no part of a number: it ends one. -/
def Ends (c : UInt8) : Prop :=
  isSpace c = false ∧ isDigit c = false ∧ c ≠ 0x2d ∧ c ≠ 0x2b

theorem dropWhile_append_stop {p : UInt8 → Bool} {c : UInt8} (h : p c = false)
    (text tail : Octets) :
    (text ++ c :: tail).dropWhile p = text.dropWhile p ++ c :: tail := by
  rw [List.dropWhile_append]
  split
  · rename_i h_empty
    rw [List.isEmpty_iff.mp h_empty, List.dropWhile_cons_of_neg (by simp [h]), List.nil_append]
  · rfl

theorem takeWhile_append_stop {p : UInt8 → Bool} {c : UInt8} (h : p c = false)
    (text tail : Octets) : (text ++ c :: tail).takeWhile p = text.takeWhile p := by
  rw [List.takeWhile_append]
  split
  · rename_i h_all
    rw [List.takeWhile_cons_of_neg (by simp [h]), List.append_nil]
    exact ((List.takeWhile_prefix p).eq_of_length h_all).symm
  · rfl

theorem sign_append_stop {c : UInt8} (h : Ends c) (text tail : Octets) :
    sign (text ++ c :: tail) = ((sign text).1, (sign text).2 ++ c :: tail) := by
  obtain ⟨-, -, h_minus, h_plus⟩ := h
  cases text with
  | nil =>
    rw [List.nil_append, sign]
    · rfl
    · exact fun _ h_eq => h_minus (List.cons.inj h_eq).1
    · exact fun _ h_eq => h_plus (List.cons.inj h_eq).1
  | cons b text =>
    by_cases h_b : b = 0x2d
    · subst h_b
      rfl
    by_cases h_b' : b = 0x2b
    · subst h_b'
      rfl
    have h_none : ∀ text' : Octets, sign (b :: text') = (false, b :: text') := by
      intro text'
      rw [sign]
      · exact fun _ h_eq => h_b (List.cons.inj h_eq).1
      · exact fun _ h_eq => h_b' (List.cons.inj h_eq).1
    rw [List.cons_append, h_none, h_none]
    rfl

/-- What stands behind a separator does not change the number in front of it. -/
theorem number_append_stop {c : UInt8} (h : Ends c) (text tail : Octets) :
    number (text ++ c :: tail) = (number text).map fun p => (p.1, p.2 ++ c :: tail) := by
  unfold number
  rw [dropWhile_append_stop h.1, sign_append_stop h]
  simp only [takeWhile_append_stop h.2.1, dropWhile_append_stop h.2.1]
  split <;> rfl

/-- The sign that is taken off is a sign. -/
theorem sign_cases (text : Octets) :
    (sign text).2 = text ∨ ∃ c, (c = 0x2d ∨ c = 0x2b) ∧ text = c :: (sign text).2 := by
  unfold sign
  split
  · exact Or.inr ⟨_, Or.inl rfl, rfl⟩
  · exact Or.inr ⟨_, Or.inr rfl, rfl⟩
  · exact Or.inl rfl

/-- No separator stands in a text that is a number to its end. -/
theorem notMem_of_number {c : UInt8} (h : Ends c) {text : Octets} {n : Int}
    (h_number : number text = some (n, [])) : c ∉ text := by
  unfold number at h_number
  dsimp only at h_number
  split at h_number
  · cases h_number
  obtain ⟨-, h_rest⟩ := Prod.mk.inj (Option.some.inj h_number)
  have h_digits := List.dropWhile_eq_nil_iff.mp h_rest
  have h_body : c ∉ (sign (text.dropWhile isSpace)).2 := by
    intro h_mem
    exact absurd (h_digits c h_mem) (by simp [h.2.1])
  have h_behind : c ∉ text.dropWhile isSpace := by
    rcases sign_cases (text.dropWhile isSpace) with h_same | ⟨b, h_b, h_eq⟩
    · rwa [h_same] at h_body
    · rw [h_eq, List.mem_cons, not_or]
      refine ⟨?_, h_body⟩
      rintro rfl
      rcases h_b with h_b | h_b
      · exact h.2.2.1 h_b
      · exact h.2.2.2 h_b
  rw [← List.takeWhile_append_dropWhile (p := isSpace) (l := text), List.mem_append, not_or]
  refine ⟨fun h_mem => ?_, h_behind⟩
  exact absurd (List.mem_takeWhile_imp h_mem) (by simp [h.1])

end IonContrib.CText
