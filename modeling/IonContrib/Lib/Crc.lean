/-
  IonContrib.Lib.Crc

  Cyclic redundancy checks, least significant end first (the reflected form): a
  register of `w` bits takes one bit after the other, and the generator `poly` is
  added whenever the bit that leaves the register differs from the one that comes.

  * `bits_xor`: taking bits is linear;
  * `bits_injective`: with the top bit of the generator set no two registers are
    led to the same one;
  * `bits_load`: bits that are to come can be put into the register beforehand,
    the way a table-driven loop takes eight of them at once;
  * `bits_burst`: two streams that differ within `w` consecutive bits only do not
    leave the same register.
-/
import Mathlib.Data.List.Basic

namespace IonContrib.Crc

variable {w : Nat}

/-- One bit. -/
def bit (poly r : BitVec w) (b : Bool) : BitVec w :=
  if r.getLsbD 0 != b then (r >>> 1) ^^^ poly else r >>> 1

/-- Bits in the order they come. -/
def bits (poly r : BitVec w) (bs : List Bool) : BitVec w := bs.foldl (bit poly) r

variable {poly : BitVec w}

@[simp] theorem bits_nil (r : BitVec w) : bits poly r [] = r := rfl

@[simp] theorem bits_cons (r : BitVec w) (b : Bool) (bs : List Bool) :
    bits poly r (b :: bs) = bits poly (bit poly r b) bs := rfl

theorem bits_append (r : BitVec w) (bs bs' : List Bool) :
    bits poly r (bs ++ bs') = bits poly (bits poly r bs) bs' := List.foldl_append

/-! ## Linearity -/

/-- The register after a bit, bit by bit. -/
theorem getLsbD_bit (r : BitVec w) (b : Bool) (i : Nat) :
    (bit poly r b).getLsbD i =
      (r.getLsbD (i + 1) ^^ (r.getLsbD 0 ^^ b) && poly.getLsbD i) := by
  unfold bit
  cases h : r.getLsbD 0 ^^ b with
  | false => simp [h, Nat.add_comm]
  | true => simp [h, Nat.add_comm]

theorem bit_xor (r r' : BitVec w) (b b' : Bool) :
    bit poly (r ^^^ r') (b ^^ b') = bit poly r b ^^^ bit poly r' b' := by
  apply BitVec.eq_of_getLsbD_eq
  intro i _
  simp only [BitVec.getLsbD_xor, getLsbD_bit]
  cases r.getLsbD 0 <;> cases r'.getLsbD 0 <;> cases b <;> cases b' <;>
    cases poly.getLsbD i <;> simp

variable (poly) in
theorem bits_xor {bs bs' : List Bool} (h_len : bs.length = bs'.length) (r r' : BitVec w) :
    bits poly (r ^^^ r') (List.zipWith (· ^^ ·) bs bs') = bits poly r bs ^^^ bits poly r' bs' := by
  induction bs generalizing bs' r r' with
  | nil =>
    obtain rfl := List.length_eq_zero_iff.mp h_len.symm
    rfl
  | cons b bs ih =>
    cases bs' with
    | nil => simp at h_len
    | cons b' bs' =>
      rw [List.zipWith_cons_cons, bits_cons, bits_cons, bits_cons, bit_xor]
      exact ih (Nat.succ.inj h_len) _ _

/-! ## Nothing is lost -/

/-- The top bit of the generator tells whether it was added. -/
theorem bit_injective (h_poly : poly.getLsbD (w - 1) = true) {r r' : BitVec w} {b : Bool}
    (h : bit poly r b = bit poly r' b) : r = r' := by
  have h_bit : ∀ i, (r.getLsbD (i + 1) ^^ (r.getLsbD 0 ^^ b) && poly.getLsbD i) =
      (r'.getLsbD (i + 1) ^^ (r'.getLsbD 0 ^^ b) && poly.getLsbD i) := by
    intro i
    rw [← getLsbD_bit, ← getLsbD_bit, h]
  have h_low : r.getLsbD 0 = r'.getLsbD 0 := by
    have h_top := h_bit (w - 1)
    rw [h_poly, BitVec.getLsbD_of_ge r _ (by omega), BitVec.getLsbD_of_ge r' _ (by omega)] at h_top
    simpa using h_top
  apply BitVec.eq_of_getLsbD_eq
  intro i _
  cases i with
  | zero => exact h_low
  | succ i =>
    have h_next := h_bit i
    rw [h_low] at h_next
    simpa using h_next

theorem bits_injective (h_poly : poly.getLsbD (w - 1) = true) {bs : List Bool} {r r' : BitVec w}
    (h : bits poly r bs = bits poly r' bs) : r = r' := by
  induction bs generalizing r r' with
  | nil => exact h
  | cons b bs ih => exact bit_injective h_poly (ih h)

/-! ## Bits that are in the register already -/

/-- The register holds these bits at its low end, and nothing else. -/
def Holds (r : BitVec w) (bs : List Bool) : Prop := ∀ i, r.getLsbD i = bs.getD i false

/-- Bits that meet themselves leave nothing. -/
theorem bits_of_holds {bs : List Bool} {r : BitVec w} (h : Holds r bs) : bits poly r bs = 0 := by
  induction bs generalizing r with
  | nil =>
    apply BitVec.eq_of_getLsbD_eq
    intro i _
    simpa using h i
  | cons b bs ih =>
    refine ih fun i => ?_
    have h_low := h 0
    have h_next := h (i + 1)
    rw [List.getD_cons_zero] at h_low
    rw [List.getD_cons_succ] at h_next
    rw [getLsbD_bit, h_low, h_next]
    simp

/-- ... and no other register is left empty by them, if there are no more of them than it has
    room for. -/
theorem holds_of_bits_eq_zero (h_poly : poly.getLsbD (w - 1) = true) {bs : List Bool}
    {r : BitVec w} (h_len : bs.length ≤ w) (h : bits poly r bs = 0) : Holds r bs := by
  induction bs generalizing r with
  | nil =>
    intro i
    obtain rfl : r = 0 := h
    simp
  | cons b bs ih =>
    rw [List.length_cons] at h_len
    have h_next := ih (by omega) h
    -- The bit after it has not come to the top of the register yet, so nothing was added.
    have h_low : r.getLsbD 0 = b := by
      have h_top := h_next (w - 1)
      rw [getLsbD_bit, h_poly, BitVec.getLsbD_of_ge r _ (by omega), List.getD_eq_getElem?_getD,
        List.getElem?_eq_none (by omega)] at h_top
      simpa using h_top
    intro i
    cases i with
    | zero => rw [h_low, List.getD_cons_zero]
    | succ i =>
      have h_bit := h_next i
      rw [getLsbD_bit, h_low] at h_bit
      rw [List.getD_cons_succ, ← h_bit]
      simp

theorem zipWith_xor_self (bs : List Bool) :
    List.zipWith (· ^^ ·) bs bs = List.replicate bs.length false := by
  rw [List.zipWith_self]
  simp

/-- Bits to come, put into the register beforehand. -/
theorem bits_load {bs : List Bool} {x : BitVec w} (h : Holds x bs) (r : BitVec w) :
    bits poly r bs = bits poly (r ^^^ x) (List.replicate bs.length false) := by
  have h_xor := bits_xor poly (rfl : bs.length = bs.length) r x
  rw [bits_of_holds h, zipWith_xor_self] at h_xor
  rw [h_xor]
  simp

/-- What is in the register may be taken apart while nothing comes. -/
theorem bits_split (n : Nat) (r r' : BitVec w) :
    bits poly (r ^^^ r') (List.replicate n false) =
      bits poly r (List.replicate n false) ^^^ bits poly r' (List.replicate n false) := by
  have h_xor := bits_xor poly
    (rfl : (List.replicate n false).length = (List.replicate n false).length) r r'
  rw [zipWith_xor_self, List.length_replicate] at h_xor
  exact h_xor

/-- Where the low end of the register is empty, it only moves. -/
theorem bits_shift {n : Nat} {r : BitVec w} (h : ∀ i < n, r.getLsbD i = false) :
    bits poly r (List.replicate n false) = r >>> n := by
  induction n generalizing r with
  | zero => simp
  | succ n ih =>
    have h_bit : bit poly r false = r >>> 1 := by
      unfold bit
      rw [h 0 (Nat.zero_lt_succ n)]
      rfl
    rw [List.replicate_succ, bits_cons, h_bit, ih, ← BitVec.shiftRight_add, Nat.add_comm]
    intro i h_i
    rw [BitVec.getLsbD_ushiftRight, Nat.add_comm]
    exact h (i + 1) (Nat.succ_lt_succ h_i)

/-! ## Bursts -/

/-- Two streams of one length that differ within `n` consecutive places only. -/
def Burst (n : Nat) (bs bs' : List Bool) : Prop :=
  ∃ pre mid mid' post, bs = pre ++ mid ++ post ∧ bs' = pre ++ mid' ++ post ∧
    mid.length = mid'.length ∧ mid.length ≤ n

/-- **No burst that the register has room for goes unnoticed.** -/
theorem bits_burst (h_poly : poly.getLsbD (w - 1) = true) {bs bs' : List Bool} {r : BitVec w}
    (h_burst : Burst w bs bs') (h : bits poly r bs = bits poly r bs') : bs = bs' := by
  obtain ⟨pre, mid, mid', post, rfl, rfl, h_len, h_w⟩ := h_burst
  simp only [bits_append] at h
  have h_mid := bits_injective h_poly h
  have h_xor := bits_xor poly h_len (bits poly r pre) (bits poly r pre)
  rw [h_mid, BitVec.xor_self, BitVec.xor_self] at h_xor
  have h_zip : (List.zipWith (· ^^ ·) mid mid').length ≤ w := by
    rw [List.length_zipWith]
    omega
  have h_holds := holds_of_bits_eq_zero h_poly h_zip h_xor
  have h_eq : mid = mid' := by
    refine List.ext_getElem h_len fun i h_i h_i' => ?_
    have h_at := h_holds i
    rw [List.getD_eq_getElem?_getD, List.getElem?_eq_getElem (by rw [List.length_zipWith]; omega),
      List.getElem_zipWith] at h_at
    simpa using h_at.symm
  rw [h_eq]

end IonContrib.Crc
