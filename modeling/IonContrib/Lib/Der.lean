/-
  IonContrib.Lib.Der

  Tag-length-value encodings whose lengths are of a definite form.

  A length below 128 has a form of one octet; any length has forms that begin
  with the number of the octets it is then spelled in, as few as it takes or more.
  `Length n octets` is all of them up to eight such octets.  `readLength` reads
  just these (`readLength_eq_some_iff`), and so no form is the beginning of another.
-/
import IonContrib.Lib.Octets

namespace IonContrib.Der

open Octets

inductive Length (n : Nat) : Octets → Prop
  | short (h : n < 0x80) : Length n [UInt8.ofNat n]
  | long (k : Nat) (h_pos : 0 < k) (h_most : k ≤ 8) (h : n < 256 ^ k) :
      Length n (UInt8.ofNat (0x80 + k) :: beBytes k n)

/-- A value of that tag. -/
def Tlv (tag : UInt8) (contents octets : Octets) : Prop :=
  ∃ length, Length contents.length length ∧ octets = tag :: (length ++ contents)

theorem Length.length_pos {n : Nat} {octets : Octets} (h : Length n octets) :
    0 < octets.length := by
  cases h <;> simp

theorem Tlv.two_le_length {tag : UInt8} {contents octets : Octets} (h : Tlv tag contents octets) :
    2 + contents.length ≤ octets.length := by
  obtain ⟨length, h_length, rfl⟩ := h
  have h_pos := h_length.length_pos
  rw [List.length_cons, List.length_append]
  omega

/-- The contents stand behind a header, which begins with the tag. -/
theorem Tlv.header {tag : UInt8} {contents octets : Octets} (h : Tlv tag contents octets) :
    ∃ header, octets = (tag :: header) ++ contents := by
  obtain ⟨length, -, rfl⟩ := h
  exact ⟨length, rfl⟩

/-- The length at the head of a string, and what follows it. -/
def readLength : Octets → Option (Nat × Octets)
  | [] => none
  | b :: rest =>
    if b.toNat < 0x80 then some (b.toNat, rest)
    else
      let k := b.toNat % 0x80
      if k = 0 ∨ k > 8 ∨ rest.length < k then none else some (beNat (rest.take k), rest.drop k)

theorem readLength_append {n : Nat} {octets : Octets} (h : Length n octets) (rest : Octets) :
    readLength (octets ++ rest) = some (n, rest) := by
  cases h with
  | short h =>
    have h_b : (UInt8.ofNat n).toNat = n := by
      rw [UInt8.toNat_ofNat']
      omega
    rw [List.singleton_append, readLength, h_b, if_pos h]
  | long k h_pos h_most h =>
    have h_b : (UInt8.ofNat (0x80 + k)).toNat = 0x80 + k := by
      rw [UInt8.toNat_ofNat']
      omega
    have h_k : (0x80 + k) % 0x80 = k := by omega
    have h_take : (beBytes k n ++ rest).take k = beBytes k n :=
      List.take_left' (length_beBytes k n)
    have h_drop : (beBytes k n ++ rest).drop k = rest := List.drop_left' (length_beBytes k n)
    rw [List.cons_append, readLength, h_b, if_neg (by omega)]
    simp only [h_k, h_take, h_drop, List.length_append, length_beBytes, beNat_beBytes h]
    rw [if_neg (by omega)]

theorem readLength_eq_some_iff {octets rest : Octets} {n : Nat} :
    readLength octets = some (n, rest) ↔ ∃ length, Length n length ∧ octets = length ++ rest := by
  constructor
  · intro h
    cases octets with
    | nil => cases h
    | cons b left =>
      rw [readLength] at h
      by_cases h_short : b.toNat < 0x80
      · rw [if_pos h_short] at h
        obtain ⟨rfl, rfl⟩ := Prod.mk.inj (Option.some.inj h)
        refine ⟨[UInt8.ofNat b.toNat], .short h_short, ?_⟩
        rw [UInt8.ofNat_toNat, List.singleton_append]
      · rw [if_neg h_short] at h
        dsimp only at h
        split at h
        · cases h
        · rename_i h_room
          obtain ⟨rfl, rfl⟩ := Prod.mk.inj (Option.some.inj h)
          have h_b := b.toNat_lt
          have h_len : (left.take (b.toNat % 0x80)).length = b.toNat % 0x80 := by
            rw [List.length_take]
            omega
          have h_lt := beNat_lt (left.take (b.toNat % 0x80))
          rw [h_len] at h_lt
          refine ⟨_, .long (b.toNat % 0x80) (by omega) (by omega) h_lt, ?_⟩
          have h_octets := beBytes_beNat (left.take (b.toNat % 0x80))
          rw [h_len] at h_octets
          have h_first : UInt8.ofNat (0x80 + b.toNat % 0x80) = b := by
            apply UInt8.toNat_inj.mp
            rw [UInt8.toNat_ofNat']
            omega
          rw [h_octets, h_first, List.cons_append, List.take_append_drop]
  · rintro ⟨length, h_length, rfl⟩
    exact readLength_append h_length rest

/-- The value at the head of a string, if it has that tag and is all there: its contents and
    what follows it. -/
def readTlv (tag : UInt8) : Octets → Option (Octets × Octets)
  | [] => none
  | t :: octets =>
    if t ≠ tag then none
    else
      match readLength octets with
      | none => none
      | some (n, rest) => if n > rest.length then none else some (rest.take n, rest.drop n)

theorem readTlv_eq_some_iff {tag : UInt8} {octets contents rest : Octets} :
    readTlv tag octets = some (contents, rest) ↔
      ∃ tlv, Tlv tag contents tlv ∧ octets = tlv ++ rest := by
  constructor
  · intro h
    cases octets with
    | nil => cases h
    | cons t octets =>
      rw [readTlv] at h
      split at h
      · cases h
      · rename_i h_tag
        split at h
        · cases h
        · rename_i n left h_read
          split at h
          · cases h
          · rename_i h_room
            obtain ⟨rfl, rfl⟩ := Prod.mk.inj (Option.some.inj h)
            obtain ⟨length, h_length, rfl⟩ := readLength_eq_some_iff.mp h_read
            have h_len : (left.take n).length = n := by
              rw [List.length_take]
              omega
            refine ⟨tag :: (length ++ left.take n), ⟨length, by rw [h_len]; exact h_length, rfl⟩, ?_⟩
            rw [not_not.mp h_tag, List.cons_append, List.append_assoc, List.take_append_drop]
  · rintro ⟨tlv, ⟨length, h_length, rfl⟩, rfl⟩
    have h_read := readLength_append h_length (contents ++ rest)
    rw [List.cons_append, List.append_assoc, readTlv, if_neg (by simp), h_read]
    dsimp only
    rw [if_neg (by simp), List.take_left, List.drop_left]

end IonContrib.Der
