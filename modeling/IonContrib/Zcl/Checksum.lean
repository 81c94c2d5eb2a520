/-
  IonContrib.Zcl.Checksum

  What the table-driven loop of `zclCrc32c` computes, and which corruptions of a
  carrier it therefore lets `zclHeaderGet` see.

  The definition of CRC-32C is the register of `Lib.Crc` with the reflected
  Castagnoli generator: the bits of an octet go in with the least significant
  first, which is the order in which "consecutive bits" is meant below.
-/
import IonContrib.Lib.Crc
import IonContrib.Zcl.Carrier

namespace IonContrib.Zcl

open Octets

/-! ## The definition -/

/-- 0x1edc6f41, reflected. -/
def crc32cPoly : BitVec 32 := 0x82f63b78

def octetBits (b : UInt8) : List Bool := (List.range 8).map b.toNat.testBit

/-- The bits of a string of octets, in the order they are sent. -/
def streamBits (data : Octets) : List Bool := data.flatMap octetBits

/-- CRC-32C by its definition, going on from the checksum of what came before. -/
def crc32c (crc : UInt32) (data : Octets) : UInt32 :=
  ~~~ UInt32.ofBitVec (Crc.bits crc32cPoly (~~~ crc).toBitVec (streamBits data))

/-! ## The table -/

theorem holds_octetBits (b : UInt8) : Crc.Holds b.toUInt32.toBitVec (octetBits b) := by
  intro i
  have h_bit : b.toUInt32.toBitVec.getLsbD i = b.toNat.testBit i := rfl
  rw [h_bit, octetBits]
  by_cases h_i : i < 8
  · simp [List.getD_eq_getElem?_getD, h_i]
  · have h_lt : b.toNat < 2 ^ i :=
      Nat.lt_of_lt_of_le b.toNat_lt (Nat.pow_le_pow_right (by decide) (by omega))
    rw [Nat.testBit_lt_two_pow h_lt]
    simp [List.getD_eq_getElem?_getD, h_i]

theorem crcTable_list : crcTable.map UInt32.toNat = (List.range 256).map fun i =>
    (Crc.bits crc32cPoly (BitVec.ofNat 32 i) (List.replicate 8 false)).toNat := by
  decide +kernel

/-- An entry of the table is what eight bits of nothing make of its index. -/
theorem crcTable_eq : ∀ i : Fin 256, (crcTable.getD i 0).toBitVec =
    Crc.bits crc32cPoly (BitVec.ofNat 32 i) (List.replicate 8 false) := by
  intro i
  have h_at := congrArg (·[(i : Nat)]?) crcTable_list
  rw [List.getElem?_map, List.getElem?_map, List.getElem?_range i.isLt, Option.map_some] at h_at
  obtain ⟨entry, h_entry, h_eq⟩ := Option.map_eq_some_iff.mp h_at
  rw [List.getD_eq_getElem?_getD, h_entry, Option.getD_some]
  exact BitVec.eq_of_toNat_eq h_eq

/-- The index of a round is the low octet of the register with the octet added. -/
theorem crcTable_index (x : BitVec 32) : (crcTable.getD (x &&& 255#32).toNat 0).toBitVec =
    Crc.bits crc32cPoly (x &&& 255#32) (List.replicate 8 false) := by
  have h_lt : (x &&& 255#32).toNat < 256 := by
    rw [BitVec.toNat_and]
    exact Nat.lt_of_le_of_lt Nat.and_le_right (by decide)
  have h_entry := crcTable_eq ⟨(x &&& 255#32).toNat, h_lt⟩
  rwa [BitVec.ofNat_toNat, BitVec.setWidth_eq] at h_entry

/-- A register is its low octet and the rest. -/
theorem low_xor_high (x : BitVec 32) : (x &&& 255#32) ^^^ ((x >>> 8) <<< 8) = x := by
  apply BitVec.eq_of_getLsbD_eq
  intro i h_i
  have h_mask : (255#32).getLsbD i = decide (i < 8) := by
    revert i
    decide
  rw [BitVec.getLsbD_xor, BitVec.getLsbD_and, h_mask, BitVec.getLsbD_shiftLeft,
    BitVec.getLsbD_ushiftRight]
  by_cases h_low : i < 8
  · simp [h_low]
  · simp [h_low, h_i, show 8 + (i - 8) = i by omega]

theorem high_moved (x : BitVec 32) : ((x >>> 8) <<< 8) >>> 8 = x >>> 8 := by
  apply BitVec.eq_of_getLsbD_eq
  intro i h_i
  rw [BitVec.getLsbD_ushiftRight, BitVec.getLsbD_shiftLeft, BitVec.getLsbD_ushiftRight,
    BitVec.getLsbD_ushiftRight]
  by_cases h_top : 8 + i < 32
  · simp [h_top]
  · simp [h_top, BitVec.getLsbD_of_ge x (8 + i) (by omega)]

theorem octet_moved (b : UInt8) : b.toUInt32.toBitVec >>> 8 = 0 := by
  apply BitVec.eq_of_getLsbD_eq
  intro i h_i
  rw [BitVec.getLsbD_ushiftRight, holds_octetBits b (8 + i), octetBits,
    List.getD_eq_getElem?_getD, List.getElem?_eq_none (by simp)]
  simp

/-- A round of the loop takes the bits of one octet. -/
theorem crcStep_eq (crc : UInt32) (b : UInt8) :
    (crcStep crc b).toBitVec = Crc.bits crc32cPoly crc.toBitVec (octetBits b) := by
  generalize h_x : crc.toBitVec ^^^ b.toUInt32.toBitVec = x
  have h_high : x >>> 8 = crc.toBitVec >>> 8 := by
    rw [← h_x, BitVec.ushiftRight_xor_distrib, octet_moved]
    exact BitVec.xor_zero
  have h_empty : ∀ i < 8, ((x >>> 8) <<< 8).getLsbD i = false := by
    intro i h_i
    simp [h_i]
  calc (crcStep crc b).toBitVec
      = (crcTable.getD (x &&& 255#32).toNat 0).toBitVec ^^^ (crc.toBitVec >>> 8) := by
        rw [← h_x]
        rfl
    _ = Crc.bits crc32cPoly (x &&& 255#32) (List.replicate 8 false) ^^^
          Crc.bits crc32cPoly ((x >>> 8) <<< 8) (List.replicate 8 false) := by
        rw [crcTable_index, Crc.bits_shift h_empty, high_moved, h_high]
    _ = Crc.bits crc32cPoly x (List.replicate 8 false) := by
        rw [← Crc.bits_split, low_xor_high]
    _ = Crc.bits crc32cPoly crc.toBitVec (octetBits b) := by
        rw [← h_x]
        exact (Crc.bits_load (holds_octetBits b) crc.toBitVec).symm

theorem foldl_crcStep (crc : UInt32) (data : Octets) :
    (data.foldl crcStep crc).toBitVec = Crc.bits crc32cPoly crc.toBitVec (streamBits data) := by
  induction data generalizing crc with
  | nil => rfl
  | cons b data ih =>
    rw [List.foldl_cons, ih, crcStep_eq, ← Crc.bits_append]
    rfl

/-- The loop computes CRC-32C. -/
theorem zclCrc32c_eq (crc : UInt32) (data : Octets) : zclCrc32c crc data = crc32c crc data := by
  rw [zclCrc32c, crc32c, ← foldl_crcStep]

/-- The checksum of a string can be taken in pieces. -/
theorem zclCrc32c_append (crc : UInt32) (front back : Octets) :
    zclCrc32c crc (front ++ back) = zclCrc32c (zclCrc32c crc front) back := by
  rw [zclCrc32c, zclCrc32c, zclCrc32c, List.foldl_append, UInt32.not_not]

/-! ## Corruption -/

/-- The octets of a carrier that its checksum covers. -/
def covered (carrier : Octets) : Octets := carrier.take 32 ++ carrier.drop zclHdrLen

/-- What a corruption confined to `n` consecutive bits of the covered octets makes of a
    carrier. -/
structure Corrupted (n : Nat) (carrier carrier' : Octets) : Prop where
  length : carrier'.length = carrier.length
  sum : (carrier'.drop 32).take 4 = (carrier.drop 32).take 4
  changed : carrier' ≠ carrier
  burst : Crc.Burst n (streamBits (covered carrier)) (streamBits (covered carrier'))

theorem octetBits_injective {b b' : UInt8} (h : octetBits b = octetBits b') : b = b' := by
  have h_word : b.toUInt32.toBitVec = b'.toUInt32.toBitVec := by
    apply BitVec.eq_of_getLsbD_eq
    intro i _
    rw [holds_octetBits b i, holds_octetBits b' i, h]
  have h_nat : b.toUInt32.toNat = b'.toUInt32.toNat := congrArg BitVec.toNat h_word
  exact UInt8.toNat_inj.mp (by simpa using h_nat)

/-- The bits of a string tell its octets. -/
theorem streamBits_injective {data data' : Octets} (h : streamBits data = streamBits data') :
    data = data' := by
  induction data generalizing data' with
  | nil =>
    cases data' with
    | nil => rfl
    | cons b' data' => simp [streamBits, octetBits] at h
  | cons b data ih =>
    cases data' with
    | nil => simp [streamBits, octetBits] at h
    | cons b' data' =>
      have h_len : (octetBits b).length = (octetBits b').length := by
        rw [octetBits, octetBits, List.length_map, List.length_map]
      obtain ⟨h_first, h_rest⟩ := List.append_inj h h_len
      rw [octetBits_injective h_first, ih h_rest]

/-- A carrier that is accepted has the checksum of what it covers. -/
theorem sum_of_accepted {carrier : Octets} {h : ZclHeader} (hg : zclHeaderGet carrier = some h) :
    (carrier.drop 32).take 4 = beBytes 4 (zclCrc32c 0 (covered carrier)).toNat := by
  obtain ⟨-, h_shape⟩ := zclHeaderGet_shape hg
  generalize h_payload : carrier.drop zclHdrLen = payload at h_shape
  have h_front : carrier.take 32 = h.fields := by
    rw [h_shape, zclHeaderPut, List.append_assoc]
    exact List.take_left' h.length_fields
  rw [covered, h_payload, h_front, zclCrc32c_append]
  refine drop_take_eq h.fields payload ?_ h.length_fields (length_beBytes 4 _)
  rw [h_shape, zclHeaderPut, List.append_assoc]

/-- A carrier is its covered octets with the checksum among them. -/
theorem eq_of_covered {carrier carrier' : Octets} (h_len : carrier'.length = carrier.length)
    (h_sum : (carrier'.drop 32).take 4 = (carrier.drop 32).take 4)
    (h_covered : covered carrier' = covered carrier) : carrier' = carrier := by
  have h_parts : ∀ c : Octets, c = c.take 32 ++ ((c.drop 32).take 4 ++ c.drop zclHdrLen) := by
    intro c
    rw [← List.append_assoc, ← List.take_add]
    exact (List.take_append_drop 36 c).symm
  have h_front : (carrier'.take 32).length = (carrier.take 32).length := by
    rw [List.length_take, List.length_take, h_len]
  obtain ⟨h_take, h_drop⟩ := List.append_inj h_covered h_front
  rw [h_parts carrier', h_parts carrier, h_take, h_sum, h_drop]

theorem zclHeaderGet_corrupted {carrier carrier' : Octets} {h : ZclHeader}
    (hg : zclHeaderGet carrier = some h) (h_corrupted : Corrupted 32 carrier carrier') :
    zclHeaderGet carrier' = none := by
  cases hg' : zclHeaderGet carrier' with
  | none => rfl
  | some h' =>
    have h_sum := h_corrupted.sum
    rw [sum_of_accepted hg, sum_of_accepted hg'] at h_sum
    have h_crc : zclCrc32c 0 (covered carrier') = zclCrc32c 0 (covered carrier) := by
      have h_nat := congrArg beNat h_sum
      rw [beNat_beBytes (UInt32.toNat_lt _), beNat_beBytes (UInt32.toNat_lt _)] at h_nat
      exact UInt32.toNat_inj.mp h_nat
    rw [zclCrc32c_eq, zclCrc32c_eq, crc32c, crc32c] at h_crc
    have h_bits := congrArg UInt32.toBitVec (UInt32.not_inj.mp h_crc)
    have h_same := streamBits_injective (Crc.bits_burst rfl h_corrupted.burst h_bits.symm)
    exact absurd (eq_of_covered h_corrupted.length h_corrupted.sum h_same.symm)
      h_corrupted.changed

/-- **The checksum of a carrier**: the loop computes CRC-32C from any starting value, it can go
    over a string in pieces, and no burst of up to 32 bits in the octets it covers goes
    unnoticed. -/
theorem zclCrc32c_detects :
    (∀ crc data, zclCrc32c crc data = crc32c crc data) ∧
      (∀ crc front back, zclCrc32c crc (front ++ back) = zclCrc32c (zclCrc32c crc front) back) ∧
      ∀ carrier carrier' h, zclHeaderGet carrier = some h → Corrupted 32 carrier carrier' →
        zclHeaderGet carrier' = none :=
  ⟨zclCrc32c_eq, zclCrc32c_append, fun _ _ _ => zclHeaderGet_corrupted⟩

def shortHeader : ZclHeader := ⟨0, 7, 3, 0, 1⟩

def shortCarrier : Octets := zclHeaderPut shortHeader [0x61] ++ [0x61]

theorem zclCrc32c_detects_payload :
    zclHeaderGet shortCarrier = some shortHeader ∧
      zclHeaderGet (shortCarrier.take zclHdrLen ++ [0x9e]) = none := by
  have hg : zclHeaderGet shortCarrier = some shortHeader :=
    zclHeaderGet_put ⟨rfl, by decide, by decide, by decide, rfl, by decide⟩
  refine ⟨hg, zclCrc32c_detects.2.2 shortCarrier _ shortHeader hg
    ⟨rfl, by decide +kernel, by decide +kernel, ?_⟩⟩
  exact ⟨streamBits shortHeader.fields, octetBits 0x61, octetBits 0x9e, [],
    by decide +kernel, by decide +kernel, rfl, by decide⟩

end IonContrib.Zcl
