/-
  IonContrib.Tcpv4.Certificate

  The decoding of certificates (`tcpv4x509.c`), read for read.

  Certificates come from peers, so each read is checked against the input here:
  `none` is a read outside of it.  None happens (`derTlvRead_eq`,
  `hasExtension_reads`), and what `derTlv` accepts are values of the right tag,
  all there, with a length of any definite form of at most eight octets
  (`derTlv_eq_some_iff`).  Both decoders then follow from what their text is.
-/
import IonContrib.Lib.Der
import IonContrib.Tcpv4.X509

namespace IonContrib.Tcpv4

open Octets Der

/-! ## Values -/

/-- What `derTlv` looks at: the octets from `off` to `len`. -/
def window (der : Octets) (len off : Nat) : Octets := (der.take len).drop off

theorem window_length {der : Octets} {len off : Nat} (h_len : len ≤ der.length) :
    (window der len off).length = len - off := by
  rw [window, List.length_drop, List.length_take]
  omega

theorem derTlv_window {der : Octets} {len : Nat} (h_len : len ≤ der.length) (off : Nat)
    (tag : UInt8) : derTlv der len off tag = (readTlv tag (window der len off)).map fun p =>
      (len - (p.1.length + p.2.length), p.1.length) := by
  have h_size : (window der len off).length = len - off := window_length h_len
  have h_octet : ∀ k, off + k < len → der.getD (off + k) 0 = (window der len off).getD k 0 := by
    intro k h_k
    rw [window, List.getD_eq_getElem?_getD, List.getD_eq_getElem?_getD, List.getElem?_drop,
      List.getElem?_take_of_lt h_k]
  unfold derTlv
  cases h_window : window der len off with
  | nil =>
    rw [h_window, List.length_nil] at h_size
    rw [if_pos (.inl (by omega))]
    rfl
  | cons t octets =>
    rw [h_window, List.length_cons] at h_size
    have h_t := h_octet 0 (by omega)
    rw [h_window, Nat.add_zero, List.getD_cons_zero] at h_t
    cases octets with
    | nil =>
      rw [List.length_nil] at h_size
      rw [if_pos (.inr (.inl (by omega)))]
      rw [readTlv]
      by_cases h_tag : t ≠ tag
      · rw [if_pos h_tag]
        rfl
      · rw [if_neg h_tag]
        rfl
    | cons b rest =>
      rw [List.length_cons] at h_size
      have h_b := h_octet 1 (by omega)
      rw [h_window, List.getD_cons_succ, List.getD_cons_zero] at h_b
      rw [h_t, h_b, readTlv]
      by_cases h_tag : t ≠ tag
      · rw [if_pos (.inr (.inr h_tag)), if_pos h_tag]
        rfl
      · rw [if_neg (by rintro (h | h | h) <;> first | omega | exact h_tag h), if_neg h_tag,
          readLength]
        dsimp only
        by_cases h_short : b.toNat < 0x80
        · rw [if_pos h_short, if_pos h_short]
          dsimp only
          by_cases h_over : b.toNat > rest.length
          · rw [if_pos (by omega), if_pos h_over]
            rfl
          · rw [if_neg (by omega), if_neg h_over]
            simp only [Option.map_some, List.length_take, List.length_drop]
            rw [Option.some.injEq, Prod.mk.injEq]
            omega
        · rw [if_neg h_short, if_neg h_short]
          by_cases h_octets : b.toNat % 0x80 = 0 ∨ b.toNat % 0x80 > 8 ∨
              rest.length < b.toNat % 0x80
          · rw [if_pos (by omega), if_pos h_octets]
            rfl
          · rw [if_neg (by omega), if_neg h_octets]
            have h_rest : ∀ k, k ≤ rest.length →
                (der.drop (off + 2)).take k = rest.take k := by
              intro k h_k
              have h_left : ((der.take len).drop off).drop 2 = rest := by
                rw [show (der.take len).drop off = t :: b :: rest from h_window]
                rfl
              rw [← h_left, List.drop_drop, List.drop_take, List.take_take,
                Nat.min_eq_left (by omega)]
            rw [h_rest _ (by omega)]
            dsimp only
            by_cases h_over : beNat (rest.take (b.toNat % 0x80)) >
                (rest.drop (b.toNat % 0x80)).length
            · rw [if_pos h_over]
              rw [List.length_drop] at h_over
              rw [if_pos (by omega)]
              rfl
            · rw [if_neg h_over]
              rw [List.length_drop] at h_over
              rw [if_neg (by omega)]
              simp only [Option.map_some, List.length_take, List.length_drop]
              rw [Option.some.injEq, Prod.mk.injEq]
              omega

/-- What is accepted: a value of the tag at `off`, inside of `len`. -/
theorem derTlv_eq_some_iff {der : Octets} {len off start n : Nat} {tag : UInt8}
    (h_len : len ≤ der.length) : derTlv der len off tag = some (start, n) ↔
      ∃ tlv contents rest, Tlv tag contents tlv ∧ window der len off = tlv ++ rest ∧
        n = contents.length ∧ start = off + (tlv.length - contents.length) := by
  have h_size : (window der len off).length = len - off := window_length h_len
  rw [derTlv_window h_len]
  constructor
  · intro h
    obtain ⟨⟨contents, rest⟩, h_read, h_eq⟩ := Option.map_eq_some_iff.mp h
    obtain ⟨tlv, h_tlv, h_window⟩ := readTlv_eq_some_iff.mp h_read
    obtain ⟨rfl, rfl⟩ := Prod.mk.inj h_eq
    have h_two := h_tlv.two_le_length
    rw [h_window, List.length_append] at h_size
    exact ⟨tlv, contents, rest, h_tlv, h_window, rfl, by dsimp only; omega⟩
  · rintro ⟨tlv, contents, rest, h_tlv, h_window, rfl, rfl⟩
    rw [readTlv_eq_some_iff.mpr ⟨tlv, h_tlv, h_window⟩, Option.map_some]
    have h_two := h_tlv.two_le_length
    rw [h_window, List.length_append] at h_size
    rw [Option.some.injEq, Prod.mk.injEq]
    exact ⟨by dsimp only; omega, rfl⟩

/-- Where the contents stand. -/
theorem derTlv_inside {der : Octets} {len off start n : Nat} {tag : UInt8}
    (h_len : len ≤ der.length) (h : derTlv der len off tag = some (start, n)) :
    off + 2 ≤ start ∧ start + n ≤ len := by
  obtain ⟨tlv, contents, rest, h_tlv, h_window, rfl, rfl⟩ := (derTlv_eq_some_iff h_len).mp h
  have h_size : (window der len off).length = len - off := window_length h_len
  have h_two := h_tlv.two_le_length
  rw [h_window, List.length_append] at h_size
  omega

/-- What stands at the head of a window, as a window of its own. -/
theorem window_of_append {der front middle rest : Octets} {len off : Nat}
    (h_len : len ≤ der.length) (h_window : window der len off = front ++ (middle ++ rest)) :
    window der (off + front.length + middle.length) (off + front.length) = middle := by
  have h_size : (window der len off).length = len - off := window_length h_len
  rw [h_window, List.length_append, List.length_append] at h_size
  have h_inside : ∀ {n k}, k ≤ n → n ≤ len → (der.take n).drop k = ((der.take len).drop k).take (n - k) := by
    intro n k h_k h_n
    rw [List.drop_take, List.drop_take, List.take_take, Nat.min_eq_left (by omega)]
  unfold window at h_window ⊢
  by_cases h_empty : front.length + middle.length = 0
  · have h_middle : middle = [] := List.length_eq_zero_iff.mp (by omega)
    rw [h_middle, List.length_nil, Nat.add_zero, List.drop_of_length_le]
    rw [List.length_take]
    omega
  · rw [h_inside (by omega) (by omega), ← List.drop_drop, h_window, List.drop_left,
      Nat.add_sub_cancel_left, List.take_left]

/-- What is accepted, and what is left to look at inside of it. -/
theorem derTlv_contents {der : Octets} {len off start n : Nat} {tag : UInt8}
    (h_len : len ≤ der.length) (h : derTlv der len off tag = some (start, n)) :
    ∃ tlv contents rest, Tlv tag contents tlv ∧ window der len off = tlv ++ rest ∧
      n = contents.length ∧ start + n = off + tlv.length ∧ window der (start + n) start = contents := by
  obtain ⟨tlv, contents, rest, h_tlv, h_window, rfl, rfl⟩ := (derTlv_eq_some_iff h_len).mp h
  obtain ⟨header, h_header⟩ := h_tlv.header
  have h_lens : tlv.length = (tag :: header).length + contents.length := by
    rw [h_header, List.length_append]
  have h_front : tlv.length - contents.length = (tag :: header).length := by omega
  refine ⟨tlv, contents, rest, h_tlv, h_window, rfl, by omega, ?_⟩
  rw [h_front]
  apply window_of_append h_len
  rw [h_window, h_header, List.append_assoc]

/-- The converse: a value that is there is accepted. -/
theorem derTlv_of_window {der : Octets} {len off : Nat} {tag : UInt8} {tlv contents rest : Octets}
    (h_len : len ≤ der.length) (h_tlv : Tlv tag contents tlv)
    (h_window : window der len off = tlv ++ rest) :
    ∃ start, derTlv der len off tag = some (start, contents.length) ∧
      start + contents.length = off + tlv.length ∧
      window der (start + contents.length) start = contents := by
  have h_some : derTlv der len off tag = some (off + (tlv.length - contents.length), contents.length) :=
    (derTlv_eq_some_iff h_len).mpr ⟨tlv, contents, rest, h_tlv, h_window, rfl, rfl⟩
  refine ⟨_, h_some, ?_, ?_⟩
  · have h_two := h_tlv.two_le_length
    omega
  · obtain ⟨header, h_header⟩ := h_tlv.header
    have h_lens : tlv.length = (tag :: header).length + contents.length := by
      rw [h_header, List.length_append]
    have h_front : tlv.length - contents.length = (tag :: header).length := by omega
    rw [h_front]
    apply window_of_append h_len
    rw [h_window, h_header, List.append_assoc]

/-- A value of another tag is not there. -/
theorem derTlv_other_tag {der : Octets} {len off : Nat} {tag t : UInt8} {octets : Octets}
    (h_len : len ≤ der.length) (h_window : window der len off = t :: octets) (h_tag : t ≠ tag) :
    derTlv der len off tag = none := by
  rw [derTlv_window h_len, h_window, readTlv, if_pos h_tag]
  rfl

/-- Nothing is there. -/
theorem derTlv_empty {der : Octets} {len off : Nat} {tag : UInt8} (h_off : len ≤ off) :
    derTlv der len off tag = none := by
  unfold derTlv
  rw [if_pos (.inl h_off)]

/-! ## Checked reads -/

/-- The loop over the length octets. -/
def lengthOctetsFrom (der : Octets) : Nat → Nat → Nat → Option (Nat × Nat)
  | 0, i, n => some (i, n)
  | octets + 1, i, n =>
    match der[i]? with
    | none => none
    -- A `size_t`; `n << 8` is zero where the octet goes.
    | some b => lengthOctetsFrom der octets (i + 1) ((n * 256 + b.toNat) % 2 ^ 64)

def derTlvRead (der : Octets) (len off : Nat) (tag : UInt8) : Option (Option (Nat × Nat)) :=
  if off ≥ len ∨ len - off < 2 then some none
  else
    match der[off]?, der[off + 1]? with
    | some t, some b =>
      if t ≠ tag then some none
      else
        let i := off + 2
        if b.toNat < 0x80 then
          some (if b.toNat > len - i then none else some (i, b.toNat))
        else
          let octets := b.toNat % 0x80
          if octets = 0 ∨ octets > 8 ∨ len - i < octets then some none
          else
            match lengthOctetsFrom der octets i 0 with
            | none => none
            | some (i, n) => some (if n > len - i then none else some (i, n))
    | _, _ => none

/-- The octets that `memcpy` or `memcmp` reads. -/
def readOctets (der : Octets) (off n : Nat) : Option Octets :=
  if off + n ≤ der.length then some ((der.drop off).take n) else none

/-- The IA5String at `off`, inside of `stop`. -/
def ia5String (der : Octets) (cap stop off : Nat) : Option Octets :=
  match derTlv der stop off derTagIa5String with
  | none => none
  | some (off, vlen) =>
    if vlen = 0 ∨ vlen ≥ cap then none
    else
      let into := (der.drop off).take vlen
      if (0 : UInt8) ∈ into then none else some into

theorem tcpv4X509BundleEid_eq {der : Octets} {cap : Nat} (h_cap : cap ≠ 0) :
    tcpv4X509BundleEid der cap =
      match derTlv der der.length 0 derTagWrapper with
      | some (off, vlen) => ia5String der cap (off + vlen) off
      | none => ia5String der cap der.length 0 := by
  rw [tcpv4X509BundleEid, if_neg h_cap]
  cases derTlv der der.length 0 derTagWrapper with
  | none => rfl
  | some p => rfl

def ia5StringRead (der : Octets) (cap stop off : Nat) : Option (Option Octets) :=
  match derTlvRead der stop off derTagIa5String with
  | none => none
  | some none => some none
  | some (some (off, vlen)) =>
    if vlen = 0 ∨ vlen ≥ cap then some none
    else
      match readOctets der off vlen with
      | none => none
      | some into => some (if (0 : UInt8) ∈ into then none else some into)

def bundleEidRead (der : Octets) (cap : Nat) : Option (Option Octets) :=
  if cap = 0 then some none
  else
    match derTlvRead der der.length 0 derTagWrapper with
    | none => none
    | some (some (off, vlen)) => ia5StringRead der cap (off + vlen) off
    | some none => ia5StringRead der cap der.length 0

def derTagSequence : UInt8 := 0x30
def derTagOid : UInt8 := 0x06

/-- The loop over the extensions from `off` on.  `none` is also a loop that is not done after so
    many turns. -/
def extensionsFrom (der : Octets) (len : Nat) (oid : Octets) : Nat → Nat → Option Bool
  | 0, off => if off < len then none else some false
  | turns + 1, off =>
    if off < len then
      match derTlvRead der len off derTagSequence with
      | none => none
      | some none => some false
      | some (some (off, seqLen)) =>
        let seqEnd := off + seqLen
        match derTlvRead der seqEnd off derTagOid with
        | none => none
        | some none => some false
        | some (some (off, idLen)) =>
          if idLen ≠ oid.length then extensionsFrom der len oid turns seqEnd
          else
            match readOctets der off idLen with
            | none => none
            | some id => if id = oid then some true else extensionsFrom der len oid turns seqEnd
    else some false

/-- Where the entries of the list begin and how many octets they are: a SEQUENCE around them is
    known by the SEQUENCE that it begins with. -/
def extensionEntries (der : Octets) : Option (Nat × Nat) :=
  match derTlvRead der der.length 0 derTagSequence with
  | none => none
  | some none => some (0, der.length)
  | some (some (off, vlen)) =>
    if off + vlen ≠ der.length then some (0, der.length)
    else
      match derTlvRead der der.length off derTagSequence with
      | none => none
      | some none => some (0, der.length)
      | some (some _) => some (off, vlen)

def tcpv4X509HasExtension (der oid : Octets) : Option Bool :=
  if oid = [] then some false
  else
    match extensionEntries der with
    | none => none
    | some (off, len) => extensionsFrom (der.drop off) len oid len 0

/-- Eight octets at most do not overflow the number. -/
theorem lengthOctetsFrom_eq {der : Octets} {octets i : Nat} (n used : Nat)
    (h_room : i + octets ≤ der.length) (h_n : n < 256 ^ used) (h_eight : used + octets ≤ 8) :
    lengthOctetsFrom der octets i n =
      some (i + octets, n * 256 ^ octets + beNat ((der.drop i).take octets)) := by
  induction octets generalizing i n used with
  | zero => simp [lengthOctetsFrom]
  | succ octets ih =>
    have h_i : i < der.length := by omega
    have h_octet := List.getElem?_eq_getElem h_i
    have h_b := der[i].toNat_lt
    have h_next : n * 256 + der[i].toNat < 256 ^ (used + 1) := by
      rw [pow_succ]
      omega
    have h_le : 256 ^ (used + 1) ≤ 256 ^ 8 := Nat.pow_le_pow_right (by omega) (by omega)
    have h_word : (n * 256 + der[i].toNat) % 2 ^ 64 = n * 256 + der[i].toNat := by
      apply Nat.mod_eq_of_lt
      omega
    have h_take : (der.drop i).take (octets + 1) = der[i] :: (der.drop (i + 1)).take octets := by
      rw [List.drop_eq_getElem_cons h_i, List.take_succ_cons]
    have h_len : ((der.drop (i + 1)).take octets).length = octets := by
      rw [List.length_take, List.length_drop]
      omega
    rw [lengthOctetsFrom, h_octet]
    dsimp only
    rw [h_word, ih _ (used + 1) (by omega) h_next (by omega), h_take, beNat, h_len]
    rw [Option.some.injEq, Prod.mk.injEq]
    refine ⟨by omega, ?_⟩
    ring

/-- `derTlv` reads inside the input alone. -/
theorem derTlvRead_eq {der : Octets} {len : Nat} (h_len : len ≤ der.length) (off : Nat)
    (tag : UInt8) : derTlvRead der len off tag = some (derTlv der len off tag) := by
  unfold derTlvRead derTlv
  by_cases h_room : off ≥ len ∨ len - off < 2
  · rw [if_pos h_room, if_pos (by rcases h_room with h | h; exacts [.inl h, .inr (.inl h)])]
  · rw [if_neg h_room]
    have h_first : der[off]? = some (der.getD off 0) := by
      rw [List.getD_eq_getElem?_getD, List.getElem?_eq_getElem (by omega)]
      rfl
    have h_second : der[off + 1]? = some (der.getD (off + 1) 0) := by
      rw [List.getD_eq_getElem?_getD, List.getElem?_eq_getElem (by omega)]
      rfl
    rw [h_first, h_second]
    dsimp only
    by_cases h_tag : der.getD off 0 ≠ tag
    · rw [if_pos h_tag, if_pos (.inr (.inr h_tag))]
    · have h_guard : ¬ (off ≥ len ∨ len - off < 2 ∨ der.getD off 0 ≠ tag) := by
        rintro (h | h | h)
        · omega
        · omega
        · exact h_tag h
      rw [if_neg h_tag, if_neg h_guard]
      by_cases h_short : (der.getD (off + 1) 0).toNat < 0x80
      · rw [if_pos h_short, if_pos h_short]
      · rw [if_neg h_short, if_neg h_short]
        by_cases h_octets : (der.getD (off + 1) 0).toNat % 0x80 = 0 ∨
            (der.getD (off + 1) 0).toNat % 0x80 > 8 ∨
              len - (off + 2) < (der.getD (off + 1) 0).toNat % 0x80
        · rw [if_pos h_octets, if_pos h_octets]
        · rw [if_neg h_octets, if_neg h_octets]
          rw [lengthOctetsFrom_eq 0 0 (by omega) (by simp) (by omega)]
          dsimp only
          rw [Nat.zero_mul, Nat.zero_add]

theorem readOctets_eq {der : Octets} {start n : Nat} (h : start + n ≤ der.length) :
    readOctets der start n = some (window der (start + n) start) := by
  rw [readOctets, if_pos h, window, List.drop_take, Nat.add_sub_cancel_left]

theorem ia5StringRead_eq {der : Octets} {stop : Nat} (h_stop : stop ≤ der.length)
    (cap off : Nat) : ia5StringRead der cap stop off = some (ia5String der cap stop off) := by
  rw [ia5StringRead, ia5String, derTlvRead_eq h_stop]
  cases h_tlv : derTlv der stop off derTagIa5String with
  | none => rfl
  | some p =>
    obtain ⟨start, vlen⟩ := p
    have h_inside := derTlv_inside h_stop h_tlv
    dsimp only
    by_cases h_vlen : vlen = 0 ∨ vlen ≥ cap
    · rw [if_pos h_vlen, if_pos h_vlen]
    · rw [if_neg h_vlen, if_neg h_vlen, readOctets, if_pos (by omega)]

/-- So does the whole of `tcpv4X509BundleEid`. -/
theorem bundleEidRead_eq (der : Octets) (cap : Nat) :
    bundleEidRead der cap = some (tcpv4X509BundleEid der cap) := by
  unfold bundleEidRead
  by_cases h_cap : cap = 0
  · rw [if_pos h_cap, tcpv4X509BundleEid, if_pos h_cap]
  · rw [if_neg h_cap, tcpv4X509BundleEid_eq h_cap, derTlvRead_eq (Nat.le_refl _)]
    cases h_wrapper : derTlv der der.length 0 derTagWrapper with
    | none => exact ia5StringRead_eq (Nat.le_refl _) cap 0
    | some p =>
      obtain ⟨start, vlen⟩ := p
      exact ia5StringRead_eq (derTlv_inside (Nat.le_refl _) h_wrapper).2 cap start

/-! ## The node ID -/

/-- The IA5String of a URI, bare or in a [0] wrapper.  What follows either is not looked at. -/
def HoldsUri (der uri : Octets) : Prop :=
  ∃ ia5 rest, Tlv derTagIa5String uri ia5 ∧
    (der = ia5 ++ rest ∨ ∃ wrapper rest', Tlv derTagWrapper (ia5 ++ rest) wrapper ∧
      der = wrapper ++ rest')

theorem window_whole (der : Octets) : window der der.length 0 = der := by
  rw [window, List.take_length, List.drop_zero]

theorem ia5String_eq_some_iff {der uri : Octets} {cap stop off : Nat}
    (h_stop : stop ≤ der.length) : ia5String der cap stop off = some uri ↔
      uri ≠ [] ∧ (0 : UInt8) ∉ uri ∧ uri.length < cap ∧
        ∃ ia5 rest, Tlv derTagIa5String uri ia5 ∧ window der stop off = ia5 ++ rest := by
  have h_into : ∀ start n, (der.drop start).take n = window der (start + n) start := by
    intro start n
    rw [window, List.drop_take, Nat.add_sub_cancel_left]
  unfold ia5String
  constructor
  · intro h
    split at h
    · cases h
    · rename_i start vlen h_tlv
      obtain ⟨tlv, contents, rest, h_value, h_window, h_n, -, h_contents⟩ :=
        derTlv_contents h_stop h_tlv
      dsimp only at h
      rw [h_into, h_contents] at h
      split at h
      · cases h
      · rename_i h_vlen
        split at h
        · cases h
        · rename_i h_nul
          obtain rfl := Option.some.inj h
          refine ⟨?_, h_nul, by omega, tlv, rest, h_value, h_window⟩
          rintro rfl
          exact h_vlen (.inl h_n)
  · rintro ⟨h_some, h_nul, h_cap, ia5, rest, h_value, h_window⟩
    obtain ⟨start, h_tlv, -, h_contents⟩ := derTlv_of_window h_stop h_value h_window
    have h_pos := List.length_pos_of_ne_nil h_some
    rw [h_tlv]
    dsimp only
    rw [if_neg (by omega), h_into, h_contents, if_neg h_nul]

/-- `tcpv4X509BundleEid` answers with the URIs that the input holds, where there is room. -/
theorem tcpv4X509BundleEid_eq_some_iff {der uri : Octets} {cap : Nat} :
    tcpv4X509BundleEid der cap = some uri ↔
      uri ≠ [] ∧ (0 : UInt8) ∉ uri ∧ uri.length < cap ∧ HoldsUri der uri := by
  by_cases h_cap : cap = 0
  · rw [tcpv4X509BundleEid, if_pos h_cap, h_cap]
    simp
  rw [tcpv4X509BundleEid_eq h_cap]
  cases h_wrapper : derTlv der der.length 0 derTagWrapper with
  | none =>
    dsimp only
    rw [ia5String_eq_some_iff (Nat.le_refl _), window_whole]
    refine and_congr_right fun _ => and_congr_right fun _ => and_congr_right fun _ => ?_
    constructor
    · rintro ⟨ia5, rest, h_value, h_der⟩
      exact ⟨ia5, rest, h_value, .inl h_der⟩
    · rintro ⟨ia5, rest, h_value, h_der | ⟨wrapper, rest', h_outer, h_der⟩⟩
      · exact ⟨ia5, rest, h_value, h_der⟩
      · obtain ⟨start, h_tlv, -⟩ := derTlv_of_window (Nat.le_refl _) h_outer
          ((window_whole der).trans h_der)
        rw [h_wrapper] at h_tlv
        cases h_tlv
  | some p =>
    obtain ⟨start, vlen⟩ := p
    have h_inside := derTlv_inside (Nat.le_refl _) h_wrapper
    obtain ⟨wrapper, contents, rest', h_outer, h_der, rfl, -, h_contents⟩ :=
      derTlv_contents (Nat.le_refl _) h_wrapper
    rw [window_whole] at h_der
    dsimp only
    rw [ia5String_eq_some_iff h_inside.2, h_contents]
    refine and_congr_right fun _ => and_congr_right fun _ => and_congr_right fun _ => ?_
    constructor
    · rintro ⟨ia5, rest, h_value, rfl⟩
      exact ⟨ia5, rest, h_value, .inr ⟨wrapper, rest', h_outer, h_der⟩⟩
    · rintro ⟨ia5, rest, h_value, h_bare | ⟨wrapper', rest'', h_outer', h_der'⟩⟩
      · -- The tags differ.
        obtain ⟨header, h_header⟩ := h_outer.header
        obtain ⟨header', h_header'⟩ := h_value.header
        rw [h_bare, h_header, h_header'] at h_der
        cases (List.cons.inj h_der).1
      · refine ⟨ia5, rest, h_value, ?_⟩
        have h_read := readTlv_eq_some_iff.mpr ⟨wrapper, h_outer, h_der⟩
        have h_read' := readTlv_eq_some_iff.mpr ⟨wrapper', h_outer', h_der'⟩
        rw [h_read] at h_read'
        exact (Prod.mk.inj (Option.some.inj h_read')).1

/-! ## The extensions -/

/-- The entries of an Extensions list, one after the other, and their OIDs.  What stands behind
    an OID in its entry does not matter. -/
inductive Extensions : List Octets → Octets → Prop
  | nil : Extensions [] []
  | cons {oid extnId rest entry entries : Octets} {oids : List Octets}
      (h_id : Tlv derTagOid oid extnId) (h_entry : Tlv derTagSequence (extnId ++ rest) entry)
      (h_entries : Extensions oids entries) : Extensions (oid :: oids) (entry ++ entries)

/-- The loop answers at the first entry of the OID, or at the end of the list. -/
theorem extensionsFrom_eq {oid : Octets} {oids : List Octets} {entries : Octets}
    (h : Extensions oids entries) (pre : Octets) {turns : Nat} (h_turns : entries.length ≤ turns) :
    extensionsFrom (pre ++ entries) (pre ++ entries).length oid turns pre.length =
      some (decide (oid ∈ oids)) := by
  induction h generalizing pre turns with
  | nil =>
    cases turns with
    | zero =>
      rw [extensionsFrom, if_neg (by simp)]
      simp
    | succ turns =>
      rw [extensionsFrom, if_neg (by simp)]
      simp
  | @cons id extnId rest entry entries oids h_id h_entry h_entries ih =>
    have h_two := h_entry.two_le_length
    rw [List.length_append] at h_turns
    obtain ⟨turns, rfl⟩ : ∃ n, turns = n + 1 := ⟨turns - 1, by omega⟩
    have h_rest : entries.length ≤ turns := by omega
    have h_next := ih (pre ++ entry) h_rest
    have h_pre : (pre ++ entry).length = pre.length + entry.length := List.length_append
    rw [List.append_assoc, h_pre] at h_next
    generalize h_der : pre ++ (entry ++ entries) = der at h_next ⊢
    have h_len : der.length = pre.length + (entry.length + entries.length) := by
      rw [← h_der, List.length_append, List.length_append]
    have h_window : window der der.length pre.length = entry ++ entries := by
      rw [window, List.take_length, ← h_der, List.drop_left]
    obtain ⟨start, h_seq, h_end, h_contents⟩ :=
      derTlv_of_window (Nat.le_refl _) h_entry h_window
    have h_seqEnd : start + (extnId ++ rest).length ≤ der.length := by omega
    obtain ⟨start', h_oid, h_idEnd, h_octets⟩ := derTlv_of_window h_seqEnd h_id h_contents
    have h_inside := derTlv_inside h_seqEnd h_oid
    rw [extensionsFrom, if_pos (by omega), derTlvRead_eq (Nat.le_refl _), h_seq]
    dsimp only
    rw [derTlvRead_eq h_seqEnd, h_oid]
    dsimp only
    rw [h_end, h_next]
    by_cases h_same : id.length ≠ oid.length
    · have h_ne : oid ≠ id := fun h => h_same (congrArg List.length h.symm)
      rw [if_pos h_same]
      simp [h_ne]
    · rw [if_neg h_same, readOctets_eq (by omega), h_octets]
      dsimp only
      by_cases h_eq : id = oid
      · rw [if_pos h_eq, h_eq]
        simp
      · rw [if_neg h_eq]
        simp [Ne.symm h_eq]

theorem Extensions.head {oids : List Octets} {entries : Octets} (h : Extensions oids entries)
    (h_some : entries ≠ []) : ∃ entry rest contents, entries = entry ++ rest ∧
      Tlv derTagSequence contents entry ∧ ∃ octets, contents = derTagOid :: octets := by
  cases h with
  | nil => exact absurd rfl h_some
  | cons h_id h_entry h_entries =>
    obtain ⟨header, h_header⟩ := h_id.header
    exact ⟨_, _, _, rfl, h_entry, _, by rw [h_header]; rfl⟩

theorem Extensions.eq_nil {oids : List Octets} (h : Extensions oids []) : oids = [] := by
  generalize h_entries : ([] : Octets) = entries at h
  cases h with
  | nil => rfl
  | cons h_id h_entry _ =>
    have h_two := h_entry.two_le_length
    rw [(List.append_eq_nil_iff.mp h_entries.symm).1, List.length_nil] at h_two
    omega

/-- The entries alone are not mistaken for a SEQUENCE of some. -/
theorem extensionEntries_bare {oids : List Octets} {entries : Octets}
    (h : Extensions oids entries) : extensionEntries entries = some (0, entries.length) := by
  rw [extensionEntries, derTlvRead_eq (Nat.le_refl _)]
  by_cases h_some : entries = []
  · subst h_some
    rfl
  · obtain ⟨entry, rest, contents, h_eq, h_entry, octets, h_octets⟩ := h.head h_some
    obtain ⟨start, h_tlv, h_end, h_contents⟩ := derTlv_of_window (Nat.le_refl _) h_entry
      ((window_whole entries).trans h_eq)
    rw [h_tlv]
    dsimp only
    by_cases h_whole : start + contents.length ≠ entries.length
    · rw [if_pos h_whole]
    · -- One entry that is all of the list: it begins with its OID.
      rw [if_neg h_whole, derTlvRead_eq (Nat.le_refl _)]
      rw [not_not.mp h_whole, h_octets] at h_contents
      rw [derTlv_other_tag (Nat.le_refl _) h_contents (by decide)]

/-- A SEQUENCE around the entries is passed over, and where it holds none nothing is found. -/
theorem extensionEntries_wrapped {oids : List Octets} {entries wrapped : Octets}
    (h : Extensions oids entries) (h_wrapped : Tlv derTagSequence entries wrapped) :
    ∃ off, wrapped.drop off = entries ∧ off + entries.length = wrapped.length ∧
      extensionEntries wrapped =
        some (if entries = [] then (0, wrapped.length) else (off, entries.length)) := by
  obtain ⟨start, h_tlv, h_end, h_contents⟩ := derTlv_of_window (Nat.le_refl _) h_wrapped
    ((window_whole wrapped).trans (List.append_nil wrapped).symm)
  rw [Nat.zero_add] at h_end
  rw [h_end] at h_contents
  have h_drop : wrapped.drop start = entries := by
    rw [window, List.take_length] at h_contents
    exact h_contents
  refine ⟨start, h_drop, h_end, ?_⟩
  rw [extensionEntries, derTlvRead_eq (Nat.le_refl _), h_tlv]
  dsimp only
  rw [if_neg (not_not.mpr h_end), derTlvRead_eq (Nat.le_refl _)]
  by_cases h_some : entries = []
  · rw [h_some, List.length_nil, Nat.add_zero] at h_end
    rw [if_pos h_some, derTlv_empty (by omega)]
  · obtain ⟨entry, rest, contents, h_eq, h_entry, -⟩ := h.head h_some
    obtain ⟨start', h_inner, -⟩ := derTlv_of_window (Nat.le_refl _) h_entry
      (h_contents.trans h_eq)
    rw [if_neg h_some, h_inner]

/-- A SEQUENCE with nothing in it, taken for an entry: it has no OID. -/
theorem extensionsFrom_empty {der oid : Octets} (h_wrapped : Tlv derTagSequence [] der)
    {turns : Nat} (h_turns : 0 < turns) :
    extensionsFrom der der.length oid turns 0 = some false := by
  have h_two := h_wrapped.two_le_length
  obtain ⟨start, h_tlv, h_end, -⟩ := derTlv_of_window (Nat.le_refl _) h_wrapped
    ((window_whole der).trans (List.append_nil der).symm)
  rw [List.length_nil] at h_two h_end h_tlv
  obtain ⟨turns, rfl⟩ : ∃ n, turns = n + 1 := ⟨turns - 1, by omega⟩
  rw [extensionsFrom, if_pos (by omega), derTlvRead_eq (Nat.le_refl _), h_tlv]
  dsimp only
  rw [derTlvRead_eq (by omega), derTlv_empty (by omega)]

/-- The answer for a list of extensions, in either shape. -/
theorem tcpv4X509HasExtension_eq {oids : List Octets} {entries der oid : Octets} (h_oid : oid ≠ [])
    (h : Extensions oids entries) (h_shape : der = entries ∨ Tlv derTagSequence entries der) :
    tcpv4X509HasExtension der oid = some (decide (oid ∈ oids)) := by
  rw [tcpv4X509HasExtension, if_neg h_oid]
  have h_loop : extensionsFrom entries entries.length oid entries.length 0 =
      some (decide (oid ∈ oids)) := extensionsFrom_eq h [] (Nat.le_refl _)
  rcases h_shape with rfl | h_wrapped
  · rw [extensionEntries_bare h]
    exact h_loop
  · obtain ⟨off, h_drop, h_end, h_entries⟩ := extensionEntries_wrapped h h_wrapped
    rw [h_entries]
    by_cases h_some : entries = []
    · subst h_some
      have h_two := h_wrapped.two_le_length
      rw [if_pos rfl, h.eq_nil]
      exact extensionsFrom_empty h_wrapped (by omega)
    · rw [if_neg h_some]
      dsimp only
      rw [h_drop]
      exact h_loop

/-! ## Any input -/

/-- Each turn of the loop takes it further, and none reads outside the input. -/
theorem extensionsFrom_total {der : Octets} {len : Nat} (h_len : len ≤ der.length) (oid : Octets)
    {turns off : Nat} (h_turns : len ≤ off + turns) :
    ∃ answer, extensionsFrom der len oid turns off = some answer := by
  induction turns generalizing off with
  | zero =>
    rw [extensionsFrom, if_neg (by omega)]
    exact ⟨false, rfl⟩
  | succ turns ih =>
    rw [extensionsFrom]
    by_cases h_off : off < len
    · rw [if_pos h_off, derTlvRead_eq h_len]
      cases h_seq : derTlv der len off derTagSequence with
      | none => exact ⟨false, rfl⟩
      | some p =>
        obtain ⟨start, seqLen⟩ := p
        have h_entry := derTlv_inside h_len h_seq
        have h_seqEnd : start + seqLen ≤ der.length := by omega
        dsimp only
        rw [derTlvRead_eq h_seqEnd]
        cases h_oid : derTlv der (start + seqLen) start derTagOid with
        | none => exact ⟨false, rfl⟩
        | some p =>
          obtain ⟨start', idLen⟩ := p
          have h_id := derTlv_inside h_seqEnd h_oid
          have h_left : len ≤ start + seqLen + turns := by omega
          have h_next := ih h_left
          dsimp only
          by_cases h_same : idLen ≠ oid.length
          · rw [if_pos h_same]
            exact h_next
          · rw [if_neg h_same, readOctets_eq (by omega)]
            dsimp only
            by_cases h_eq : window der (start' + idLen) start' = oid
            · rw [if_pos h_eq]
              exact ⟨true, rfl⟩
            · rw [if_neg h_eq]
              exact h_next
    · rw [if_neg h_off]
      exact ⟨false, rfl⟩

theorem extensionEntries_total (der : Octets) :
    ∃ off len, extensionEntries der = some (off, len) ∧ off + len ≤ der.length := by
  rw [extensionEntries, derTlvRead_eq (Nat.le_refl _)]
  cases h_seq : derTlv der der.length 0 derTagSequence with
  | none => exact ⟨0, der.length, rfl, by omega⟩
  | some p =>
    obtain ⟨start, vlen⟩ := p
    have h_inside := derTlv_inside (Nat.le_refl _) h_seq
    dsimp only
    by_cases h_whole : start + vlen ≠ der.length
    · rw [if_pos h_whole]
      exact ⟨0, der.length, rfl, by omega⟩
    · rw [if_neg h_whole, derTlvRead_eq (Nat.le_refl _)]
      cases derTlv der der.length start derTagSequence with
      | none => exact ⟨0, der.length, rfl, by omega⟩
      | some q => exact ⟨start, vlen, rfl, h_inside.2⟩

theorem hasExtension_reads (der oid : Octets) :
    ∃ answer, tcpv4X509HasExtension der oid = some answer := by
  rw [tcpv4X509HasExtension]
  by_cases h_oid : oid = []
  · rw [if_pos h_oid]
    exact ⟨false, rfl⟩
  · obtain ⟨off, len, h_entries, h_inside⟩ := extensionEntries_total der
    have h_len : len ≤ (der.drop off).length := by
      rw [List.length_drop]
      omega
    rw [if_neg h_oid, h_entries]
    exact extensionsFrom_total h_len oid (by omega)

/-- Both decoders read every encoding of what they look for, find nothing that is not there, and
    come to an answer on any input without a read outside of it. -/
theorem certificate_fields :
    (∀ uri ia5 cap, uri ≠ [] → (0 : UInt8) ∉ uri → uri.length < cap →
      Tlv derTagIa5String uri ia5 → tcpv4X509BundleEid ia5 cap = some uri ∧
        ∀ wrapper, Tlv derTagWrapper ia5 wrapper → tcpv4X509BundleEid wrapper cap = some uri) ∧
    (∀ oids entries der oid, oid ≠ [] → Extensions oids entries →
      (der = entries ∨ Tlv derTagSequence entries der) →
      (tcpv4X509HasExtension der oid = some true ↔ oid ∈ oids)) ∧
    (∀ der cap, bundleEidRead der cap = some (tcpv4X509BundleEid der cap)) ∧
    (∀ der oid, ∃ answer, tcpv4X509HasExtension der oid = some answer) ∧
    ∀ der cap uri, tcpv4X509BundleEid der cap = some uri → HoldsUri der uri := by
  refine ⟨?_, ?_, bundleEidRead_eq, hasExtension_reads, ?_⟩
  · intro uri ia5 cap h_some h_nul h_cap h_ia5
    refine ⟨tcpv4X509BundleEid_eq_some_iff.mpr ⟨h_some, h_nul, h_cap, ia5, [], h_ia5, ?_⟩, ?_⟩
    · exact .inl (List.append_nil ia5).symm
    · intro wrapper h_wrapper
      refine tcpv4X509BundleEid_eq_some_iff.mpr ⟨h_some, h_nul, h_cap, ia5, [], h_ia5, .inr ?_⟩
      exact ⟨wrapper, [], by rw [List.append_nil]; exact h_wrapper, (List.append_nil wrapper).symm⟩
  · intro oids entries der oid h_oid h h_shape
    rw [tcpv4X509HasExtension_eq h_oid h h_shape]
    simp
  · intro der cap uri h
    exact (tcpv4X509BundleEid_eq_some_iff.mp h).2.2.2

/-- A length of 3 in the form with eight length octets. -/
def threeInEight : Octets := 0x88 :: beBytes 8 3

theorem certificate_fields_eight :
    tcpv4X509BundleEid (0x16 :: (threeInEight ++ [0x64, 0x74, 0x6e])) 16 =
      some [0x64, 0x74, 0x6e] := by
  have h_length : Length 3 threeInEight := .long 8 (by omega) (by omega) (by omega)
  have h_ia5 : Tlv derTagIa5String [0x64, 0x74, 0x6e]
      (0x16 :: (threeInEight ++ [0x64, 0x74, 0x6e])) := ⟨threeInEight, h_length, rfl⟩
  exact (certificate_fields.1 _ _ 16 (by simp) (by decide) (by decide) h_ia5).1

end IonContrib.Tcpv4
