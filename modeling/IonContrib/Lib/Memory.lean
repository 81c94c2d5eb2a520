/-
  IonContrib.Lib.Memory

  A block of memory as a function from offsets to octets, for code that writes
  into the middle of a buffer it never reads as a whole, and bitmaps in such a
  block, one bit for each number.

  What the block holds beyond the size it was allocated with is never looked
  at, so the size is kept by whoever owns the block.
-/
import IonContrib.Lib.Octets

namespace IonContrib

abbrev Memory := Nat → UInt8

namespace Memory

/-- `memcpy (m + off, data, ...)`. -/
def write (m : Memory) (off : Nat) (data : Octets) : Memory := fun i =>
  if off ≤ i then (data[i - off]?).getD (m i) else m i

/-- `memset (m, 0, n)`. -/
def zero (m : Memory) (n : Nat) : Memory := fun i => if i < n then 0 else m i

/-- The first `n` octets. -/
def read (m : Memory) (n : Nat) : Octets := (List.range n).map m

@[simp] theorem length_read (m : Memory) (n : Nat) : (m.read n).length = n := by
  simp [read]

theorem getElem?_read {m : Memory} {n k : Nat} (h : k < n) : (m.read n)[k]? = some (m k) := by
  simp [read, h]

/-- What an octet string spells octet by octet is what is read. -/
theorem read_eq {m : Memory} {bs : Octets} (h : ∀ k b, bs[k]? = some b → m k = b) :
    m.read bs.length = bs := by
  refine List.ext_getElem? fun k => ?_
  by_cases h_lt : k < bs.length
  · rw [getElem?_read h_lt, List.getElem?_eq_getElem h_lt]
    exact congrArg some (h k _ (List.getElem?_eq_getElem h_lt))
  · rw [List.getElem?_eq_none (by simpa using h_lt), List.getElem?_eq_none (by simpa using h_lt)]

theorem zero_lt {m : Memory} {n i : Nat} (h : i < n) : m.zero n i = 0 := if_pos h

/-- An octet after a write: it is one of the data, or what it was. -/
theorem write_cases (m : Memory) (off : Nat) (data : Octets) (i : Nat) :
    (∃ j, i = off + j ∧ data[j]? = some (m.write off data i)) ∨ m.write off data i = m i := by
  unfold write
  by_cases h_le : off ≤ i
  · rw [if_pos h_le]
    cases h_data : data[i - off]? with
    | none => exact Or.inr rfl
    | some b => exact Or.inl ⟨i - off, by omega, h_data⟩
  · rw [if_neg h_le]
    exact Or.inr rfl

theorem write_at {m : Memory} {off j : Nat} {data : Octets} {b : UInt8}
    (h : data[j]? = some b) : m.write off data (off + j) = b := by
  simp [write, h]

theorem write_outside {m : Memory} {off i : Nat} {data : Octets}
    (h : i < off ∨ off + data.length ≤ i) : m.write off data i = m i := by
  unfold write
  by_cases h_le : off ≤ i
  · rw [if_pos h_le, List.getElem?_eq_none (by omega)]
    rfl
  · rw [if_neg h_le]

/-! ## Bitmaps -/

/-- The mask of a number in its octet. -/
def bit (i : Nat) : UInt8 := 1 <<< UInt8.ofNat (i % 8)

def marked (m : Memory) (i : Nat) : Bool := m (i / 8) &&& bit i != 0

def mark (m : Memory) (i : Nat) : Memory := fun k => if k = i / 8 then m k ||| bit i else m k

theorem bit_and_bit (i j : Nat) : (bit i &&& bit j != 0) = decide (i % 8 = j % 8) := by
  have h_i : i % 8 < 8 := Nat.mod_lt _ (by decide)
  have h_j : j % 8 < 8 := Nat.mod_lt _ (by decide)
  unfold bit
  generalize i % 8 = a at h_i
  generalize j % 8 = b at h_j
  have h_all : ∀ a : Fin 8, ∀ b : Fin 8,
      (((1 : UInt8) <<< UInt8.ofNat a.val) &&& (1 <<< UInt8.ofNat b.val) != 0) =
        decide (a.val = b.val) := by decide
  exact h_all ⟨a, h_i⟩ ⟨b, h_j⟩

theorem or_and (x y z : UInt8) : (x ||| y) &&& z = (x &&& z) ||| (y &&& z) := by
  rw [← UInt8.toBitVec_inj]
  refine BitVec.eq_of_getLsbD_eq fun i _ => ?_
  simp only [UInt8.toBitVec_and, UInt8.toBitVec_or, BitVec.getLsbD_and, BitVec.getLsbD_or,
    Bool.and_or_distrib_right]

/-- Marking one number leaves the others as they are. -/
theorem marked_mark (m : Memory) (i j : Nat) :
    (m.mark i).marked j = (decide (j = i) || m.marked j) := by
  unfold marked mark
  by_cases h_oct : j / 8 = i / 8
  · have h_eq : decide (j = i) = (bit i &&& bit j != 0) := by
      rw [bit_and_bit]
      refine decide_eq_decide.mpr ?_
      omega
    rw [if_pos h_oct, or_and, h_eq]
    cases h_bit : (bit i &&& bit j != 0) with
    | true =>
      simp only [bne_iff_ne, ne_eq] at h_bit
      simp [h_bit]
    | false =>
      simp only [bne_eq_false_iff_eq] at h_bit
      simp [h_bit]
  · have h_ne : j ≠ i := by
      rintro rfl
      exact h_oct rfl
    rw [if_neg h_oct]
    simp [h_ne]

theorem marked_zero {m : Memory} {n i : Nat} (h : i / 8 < n) : (m.zero n).marked i = false := by
  simp [marked, zero_lt h]

/-- The numbers below `n` that are marked. -/
def markedBelow (m : Memory) (n : Nat) : List Nat := (List.range n).filter m.marked

theorem markedBelow_zero {m : Memory} {n k : Nat} (h : n ≤ 8 * k) :
    (m.zero k).markedBelow n = [] := by
  refine List.filter_eq_nil_iff.mpr fun i h_i => ?_
  have h_lt := List.mem_range.mp h_i
  rw [marked_zero (by omega)]
  decide

/-- Marking a number that was not marked makes one more. -/
theorem length_markedBelow_mark {m : Memory} {n i : Nat} (h_lt : i < n)
    (h_new : m.marked i = false) :
    ((m.mark i).markedBelow n).length = (m.markedBelow n).length + 1 := by
  unfold markedBelow
  rw [← List.countP_eq_length_filter, ← List.countP_eq_length_filter]
  induction n with
  | zero => omega
  | succ n ih =>
    rw [List.range_succ, List.countP_append, List.countP_append, List.countP_singleton,
      List.countP_singleton, marked_mark]
    by_cases h_n : n = i
    · subst h_n
      have h_same : List.countP (m.mark n).marked (List.range n) =
          List.countP m.marked (List.range n) := by
        refine List.countP_congr fun k h_k => ?_
        have h_ne : k ≠ n := Nat.ne_of_lt (List.mem_range.mp h_k)
        simp [marked_mark, h_ne]
      rw [h_same, h_new]
      simp
    · rw [ih (by omega)]
      simp only [h_n, decide_false, Bool.false_or]
      omega

end Memory

end IonContrib
