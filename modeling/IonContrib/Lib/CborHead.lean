/-
  IonContrib.Lib.CborHead

  The heads of CBOR items: three bits of major type and a number, in the first
  octet or in one, two, four or eight that follow it.

  `Head major value head` says which octets are a head, in any of its lengths;
  `decodeHead` reads one off the front of a buffer, `encodeHead` writes the
  shortest.  A head says itself where it ends, so of two that a text begins
  with there is only one (`Head.append_inj`).
-/
import IonContrib.Lib.Octets

namespace IonContrib.Cbor

open Octets

/-- The octets of a head. -/
inductive Head (major value : Nat) : Octets → Prop
  | tiny (h_major : major < 8) (h_value : value < 24) :
      Head major value [UInt8.ofNat (major * 32 + value)]
  | long {n : Nat} (h_major : major < 8) (h_n : n ≤ 3) (h_value : value < 256 ^ 2 ^ n) :
      Head major value (UInt8.ofNat (major * 32 + (24 + n)) :: beBytes (2 ^ n) value)

/-- Major type, number and length of the head at the front of a buffer. -/
def decodeHead : Octets → Option (Nat × Nat × Nat)
  | [] => none
  | b :: rest =>
    let major := b.toNat / 32
    let info := b.toNat % 32
    if info < 24 then some (major, info, 1)
    else if info ≤ 27 then
      let n := 2 ^ (info - 24)
      if rest.length < n then none else some (major, beNat (rest.take n), 1 + n)
    else none

/-- The shortest head. -/
def encodeHead (major value : Nat) : Octets :=
  if value < 24 then [UInt8.ofNat (major * 32 + value)]
  else
    let n := if value < 256 then 0 else if value < 65536 then 1
      else if value < 4294967296 then 2 else 3
    UInt8.ofNat (major * 32 + (24 + n)) :: beBytes (2 ^ n) value

theorem head_encodeHead {major value : Nat} (h_major : major < 8) (h_value : value < 2 ^ 64) :
    Head major value (encodeHead major value) := by
  unfold encodeHead
  split
  · rename_i h_tiny
    exact .tiny h_major h_tiny
  · dsimp only
    refine .long h_major ?_ ?_
    · split_ifs <;> decide
    · split_ifs with h_one h_two h_four
      · exact h_one
      · exact h_two
      · exact h_four
      · exact h_value

theorem Head.length {major value : Nat} {head : Octets} (h : Head major value head) :
    1 ≤ head.length ∧ head.length ≤ 9 := by
  cases h with
  | tiny =>
    rw [List.length_singleton]
    omega
  | @long n h_major h_n h_value =>
    have h_width : 2 ^ n ≤ 2 ^ 3 := Nat.pow_le_pow_right (by decide) h_n
    rw [List.length_cons, length_beBytes]
    exact ⟨Nat.le_add_left 1 _, Nat.succ_le_succ h_width⟩

theorem Head.value_lt {major value : Nat} {head : Octets} (h : Head major value head) :
    value < 2 ^ 64 := by
  cases h with
  | tiny h_major h_value => omega
  | @long n h_major h_n h_value =>
    have h_width : 256 ^ 2 ^ n ≤ 256 ^ 2 ^ 3 :=
      Nat.pow_le_pow_right (by decide) (Nat.pow_le_pow_right (by decide) h_n)
    exact Nat.lt_of_lt_of_le h_value h_width

/-- The first octet of a head. -/
theorem toNat_first {major : Nat} (info : Nat) (h_major : major < 8) (h_info : info < 32) :
    (UInt8.ofNat (major * 32 + info)).toNat / 32 = major ∧
      (UInt8.ofNat (major * 32 + info)).toNat % 32 = info := by
  rw [UInt8.toNat_ofNat', Nat.mod_eq_of_lt (by omega)]
  omega

theorem ofNat_first (b : UInt8) : UInt8.ofNat (b.toNat / 32 * 32 + b.toNat % 32) = b := by
  rw [Nat.div_add_mod']
  exact UInt8.ofNat_toNat

theorem Head.decode {major value : Nat} {head : Octets} (h : Head major value head)
    (rest : Octets) : decodeHead (head ++ rest) = some (major, value, head.length) := by
  cases h with
  | tiny h_major h_value =>
    obtain ⟨h_high, h_low⟩ := toNat_first value h_major (by omega)
    simp only [decodeHead, List.cons_append, List.nil_append, h_high, h_low, if_pos h_value]
    rfl
  | @long n h_major h_n h_value =>
    obtain ⟨h_high, h_low⟩ := toNat_first (24 + n) h_major (by omega)
    have h_take : (beBytes (2 ^ n) value ++ rest).take (2 ^ n) = beBytes (2 ^ n) value :=
      List.take_left' (length_beBytes _ _)
    simp only [decodeHead, List.cons_append, h_high, h_low, if_neg (show ¬ 24 + n < 24 by omega),
      if_pos (show 24 + n ≤ 27 by omega), Nat.add_sub_cancel_left, h_take, beNat_beBytes h_value]
    rw [if_neg (by rw [List.length_append, length_beBytes]; omega), List.length_cons,
      length_beBytes, Nat.add_comm]

theorem decodeHead_eq_some_iff {input : Octets} {major value k : Nat} :
    decodeHead input = some (major, value, k) ↔
      ∃ head rest, input = head ++ rest ∧ Head major value head ∧ k = head.length := by
  constructor
  · intro h
    cases input with
    | nil => cases h
    | cons b rest =>
      have h_b := b.toNat_lt
      simp only [decodeHead] at h
      split at h
      · rename_i h_tiny
        cases h
        have h_head := Head.tiny (show b.toNat / 32 < 8 by omega) h_tiny
        rw [ofNat_first] at h_head
        exact ⟨[b], rest, rfl, h_head, rfl⟩
      split at h
      · rename_i h_tiny h_long
        split at h
        · cases h
        · rename_i h_room
          cases h
          have h_len : (rest.take (2 ^ (b.toNat % 32 - 24))).length = 2 ^ (b.toNat % 32 - 24) :=
            List.length_take_of_le (by omega)
          have h_value := beNat_lt (rest.take (2 ^ (b.toNat % 32 - 24)))
          have h_bytes := beBytes_beNat (rest.take (2 ^ (b.toNat % 32 - 24)))
          rw [h_len] at h_value h_bytes
          have h_head := Head.long (show b.toNat / 32 < 8 by omega)
            (show b.toNat % 32 - 24 ≤ 3 by omega) h_value
          rw [h_bytes, show 24 + (b.toNat % 32 - 24) = b.toNat % 32 by omega, ofNat_first] at h_head
          refine ⟨_, rest.drop (2 ^ (b.toNat % 32 - 24)), ?_, h_head, ?_⟩
          · rw [List.cons_append, List.take_append_drop]
          · rw [List.length_cons, h_len, Nat.add_comm]
      · cases h
  · rintro ⟨head, rest, rfl, h_head, rfl⟩
    exact h_head.decode rest

/-- Number and length of the head at the front, if it is of this major type. -/
def readHead (major : Nat) (input : Octets) : Option (Nat × Nat) :=
  match decodeHead input with
  | none => none
  | some (found, value, k) => if found = major then some (value, k) else none

theorem readHead_eq_some_iff {input : Octets} {major value k : Nat} :
    readHead major input = some (value, k) ↔
      ∃ head rest, input = head ++ rest ∧ Head major value head ∧ k = head.length := by
  rw [← decodeHead_eq_some_iff, readHead]
  cases h_decode : decodeHead input with
  | none => simp
  | some found =>
    obtain ⟨major', value', k'⟩ := found
    dsimp only
    split
    · rename_i h_major
      rw [h_major]
      simp
    · rename_i h_major
      simp [h_major]

/-- A text begins with one head at most. -/
theorem Head.append_inj {major major' value value' : Nat} {head head' rest rest' : Octets}
    (h : Head major value head) (h' : Head major' value' head')
    (h_eq : head ++ rest = head' ++ rest') :
    major = major' ∧ value = value' ∧ head = head' ∧ rest = rest' := by
  have h_decode := h.decode rest
  rw [h_eq, h'.decode rest', Option.some.injEq, Prod.mk.injEq, Prod.mk.injEq] at h_decode
  obtain ⟨rfl, rfl, h_len⟩ := h_decode
  obtain ⟨rfl, rfl⟩ := List.append_inj h_eq h_len.symm
  exact ⟨rfl, rfl, rfl, rfl⟩

/-- Setting the lowest bit of the major type makes of an unsigned head a negative one. -/
theorem Head.negative {value : Nat} {b : UInt8} {rest : Octets} (h : Head 0 value (b :: rest)) :
    Head 1 value ((b ||| 0x20) :: rest) := by
  have h_bit : ∀ info < 32, UInt8.ofNat (0 * 32 + info) ||| 0x20 = UInt8.ofNat (1 * 32 + info) := by
    decide
  generalize h_head : b :: rest = head at h
  cases h with
  | tiny h_major h_value =>
    obtain ⟨rfl, rfl⟩ := List.cons.inj h_head
    rw [h_bit value (by omega)]
    exact .tiny (by decide) h_value
  | @long n h_major h_n h_value =>
    obtain ⟨rfl, rfl⟩ := List.cons.inj h_head
    rw [h_bit (24 + n) (by omega)]
    exact .long (by decide) h_n h_value

/-- The octets of an integer of either sign. -/
def SignedHead (e : Int) (head : Octets) : Prop :=
  (∃ m : Nat, Head 0 m head ∧ e = m) ∨ ∃ m : Nat, Head 1 m head ∧ e = -1 - m

theorem SignedHead.append_inj {e e' : Int} {head head' rest rest' : Octets}
    (h : SignedHead e head) (h' : SignedHead e' head') (h_eq : head ++ rest = head' ++ rest') :
    e = e' ∧ head = head' ∧ rest = rest' := by
  rcases h with ⟨m, h, rfl⟩ | ⟨m, h, rfl⟩ <;> rcases h' with ⟨m', h', rfl⟩ | ⟨m', h', rfl⟩
  · obtain ⟨-, rfl, h_rest⟩ := h.append_inj h' h_eq
    exact ⟨rfl, h_rest⟩
  · exact absurd (h.append_inj h' h_eq).1 (by decide)
  · exact absurd (h.append_inj h' h_eq).1 (by decide)
  · obtain ⟨-, rfl, h_rest⟩ := h.append_inj h' h_eq
    exact ⟨rfl, h_rest⟩

end IonContrib.Cbor
