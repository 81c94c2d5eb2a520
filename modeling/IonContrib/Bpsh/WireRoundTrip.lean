/-
  IonContrib.Bpsh.WireRoundTrip

  `bpsh_decode` on what `bpsh_encode` wrote, and both on everything.

  What is written is a frame (`spells_of_encode`), so it is read back, if it is
  all there: the length is returned as an `int`, and from 2^32 octets on that
  may be a length of the front only.
-/
import IonContrib.Bpsh.WireExact

namespace IonContrib.Bpsh.Wire

open Octets Cbor

/-- The frame with what its type carries and nothing else. -/
def BpshFrame.carried (frame : BpshFrame) : BpshFrame :=
  match kindOf frame.msgType.toNat with
  | some .bytes => { frame with exitCode := 0, exitCause := 0 }
  | some .exit => { frame with payload := [] }
  | _ => { frame with payload := [], exitCode := 0, exitCause := 0 }

theorem toNat_ofInt (n : Int) : ((UInt64.ofInt n).toNat : Int) = n % 2 ^ 64 := by
  have h_lt : (n % 2 ^ 64).toNat < 2 ^ 64 := by omega
  rw [UInt64.ofInt, UInt64.toNat_ofNat_of_lt' h_lt]
  omega

/-- A version is the same behind a detour through 64 bits. -/
theorem ofInt_version (v : Int32) : Int32.ofInt (UInt64.ofInt v.toInt).toNat = v := by
  have h_low := v.le_toInt
  have h_high := v.toInt_lt
  have h_cut : (v.toInt % 2 ^ 64).bmod (2 ^ 32) = v.toInt := by
    rw [Int.bmod_def]
    omega
  apply Int32.toInt_inj.mp
  rw [Int32.toInt_ofInt, toNat_ofInt]
  exact h_cut

theorem signedHead_encode {c : CborCalls} (h_c : c.Correct) {value : Int}
    (h : -2 ^ 31 ≤ value ∧ value < 2 ^ 31) : SignedHead value (cborEncodeSignedInt c value) := by
  unfold cborEncodeSignedInt
  split
  · rename_i h_sign
    refine .inl ⟨_, h_c.encodeInteger _, ?_⟩
    rw [toNat_ofInt]
    omega
  · rename_i h_sign
    have h_head := h_c.encodeInteger (UInt64.ofInt (-1 - value))
    split
    · rename_i h_nil
      have h_len := h_head.length
      rw [h_nil, List.length_nil] at h_len
      omega
    · rename_i b rest h_cons
      rw [h_cons] at h_head
      refine .inr ⟨_, h_head.negative, ?_⟩
      rw [toNat_ofInt]
      omega

/-! ## What is written -/

section

variable {c : CborCalls} (h_c : c.Correct)
include h_c

theorem spellsBody_encode {frame : BpshFrame} {text : Octets}
    (h : encodeBody c frame = some text) (h_len : text.length < 2 ^ 64) :
    ∃ kind body, kindOf frame.msgType.toNat = some kind ∧ SpellsBody kind body text ∧
      body.fill { frame with payload := [], exitCode := 0, exitCause := 0 } = frame.carried := by
  unfold encodeBody at h
  unfold BpshFrame.carried
  split at h
  · rename_i h_kind
    obtain rfl := Option.some.inj h
    obtain ⟨head, h_head, h_text⟩ := h_c.encodeByteString []
    rw [h_text, List.append_nil, h_kind]
    exact ⟨.empty, .empty, rfl, .empty h_head, rfl⟩
  · rename_i h_kind
    obtain rfl := Option.some.inj h
    obtain ⟨head, h_head, h_text⟩ := h_c.encodeByteString frame.payload
    rw [h_text, List.length_append] at h_len
    rw [Nat.mod_eq_of_lt (by omega)] at h_head
    rw [h_text, h_kind]
    exact ⟨.bytes, .bytes frame.payload, rfl, .bytes h_head, rfl⟩
  · rename_i h_kind
    obtain rfl := Option.some.inj h
    have h_code := signedHead_encode h_c ⟨frame.exitCode.le_toInt, frame.exitCode.toInt_lt⟩
    have h_exit := SpellsBody.exit (h_c.encodeArrayOpen 2 (by decide)) h_code
      (h_c.encodeInteger frame.exitCause.toUInt64)
    rw [← List.append_assoc] at h_exit
    rw [h_kind]
    refine ⟨.exit, _, rfl, h_exit, ?_⟩
    simp [Body.fill]
  · cases h

omit h_c in
theorem bpshEncode_some {frame : BpshFrame} {buflen : Nat} {written : Octets} {rc : Int}
    (h : bpshEncode c frame buflen = some (written, rc)) :
    ∃ body, encodeBody c frame = some body ∧ written = encodeHeader c frame ++ body ∧
      rc = returned written.length := by
  unfold bpshEncode at h
  split at h
  · cases h
  split at h
  · cases h
  rename_i body h_body
  dsimp only at h
  split at h
  · cases h
  · obtain ⟨rfl, rfl⟩ := Prod.mk.inj (Option.some.inj h)
    exact ⟨body, h_body, rfl, rfl⟩

/-- **What is written is a frame**, of what the type of the frame carries. -/
theorem spells_of_encode {frame : BpshFrame} {buflen : Nat} {written : Octets} {rc : Int}
    (h : bpshEncode c frame buflen = some (written, rc)) (h_len : written.length < 2 ^ 64) :
    ∃ items, Spells narrow items written ∧ items.frame = frame.carried := by
  obtain ⟨text, h_body, rfl, -⟩ := bpshEncode_some h
  rw [List.length_append] at h_len
  obtain ⟨kind, body, h_kind, h_spells, h_fill⟩ :=
    spellsBody_encode h_c h_body (Nat.lt_of_le_of_lt (Nat.le_add_left _ _) h_len)
  have h_type : kindOf (narrow frame.msgType.toUInt64.toNat) = some kind := by
    rw [← h_kind, narrow, UInt32.toNat_toUInt64, Nat.mod_eq_of_lt frame.msgType.toNat_lt]
  have h_text : Spells narrow ⟨(UInt64.ofInt frame.version.toInt).toNat,
      frame.msgType.toUInt64.toNat, frame.sessionId.toNat, frame.seqNum.toNat, body⟩ _ :=
    .mk (h_c.encodeArrayOpen 5 (by decide)) (h_c.encodeInteger _) (h_c.encodeInteger _)
      (h_c.encodeInteger _) (h_c.encodeInteger _) h_type h_spells
  rw [encodeHeader]
  simp only [List.append_assoc]
  refine ⟨_, h_text, ?_⟩
  rw [← h_fill, Items.frame]
  simp [ofInt_version]

/-- All but the payload is short. -/
theorem length_encode_le {frame : BpshFrame} {buflen : Nat} {written : Octets} {rc : Int}
    (h : bpshEncode c frame buflen = some (written, rc)) :
    written.length ≤ frame.carried.payload.length + 73 := by
  obtain ⟨text, h_body, rfl, -⟩ := bpshEncode_some h
  have h_open := (h_c.encodeArrayOpen 5 (by decide)).length
  have h_version := (h_c.encodeInteger (UInt64.ofInt frame.version.toInt)).length
  have h_type := (h_c.encodeInteger frame.msgType.toUInt64).length
  have h_session := (h_c.encodeInteger frame.sessionId).length
  have h_seq := (h_c.encodeInteger frame.seqNum).length
  have h_text : text.length ≤ frame.carried.payload.length + 28 := by
    unfold encodeBody at h_body
    unfold BpshFrame.carried
    split at h_body
    · rename_i h_kind
      obtain rfl := Option.some.inj h_body
      obtain ⟨head, h_head, h_text⟩ := h_c.encodeByteString []
      have h_len := h_head.length
      rw [h_text, List.append_nil]
      omega
    · rename_i h_kind
      obtain rfl := Option.some.inj h_body
      obtain ⟨head, h_head, h_text⟩ := h_c.encodeByteString frame.payload
      have h_len := h_head.length
      rw [h_text, h_kind, List.length_append]
      dsimp only
      omega
    · rename_i h_kind
      obtain rfl := Option.some.inj h_body
      have h_array := (h_c.encodeArrayOpen 2 (by decide)).length
      have h_cause := (h_c.encodeInteger frame.exitCause.toUInt64).length
      have h_code : (cborEncodeSignedInt c frame.exitCode.toInt).length ≤ 9 := by
        have h_value := signedHead_encode h_c ⟨frame.exitCode.le_toInt, frame.exitCode.toInt_lt⟩
        rcases h_value with ⟨m, h_head, -⟩ | ⟨m, h_head, -⟩
        · exact h_head.length.2
        · exact h_head.length.2
      rw [List.length_append, List.length_append]
      omega
    · cases h_body
  rw [List.length_append, encodeHeader]
  simp only [List.length_append]
  omega

/-- What is decoded of the octets whose number is returned is the frame, with the payload inside
    the buffer. -/
def ReadBack (c : CborCalls) (frame : BpshFrame) (written : Octets) (rc : Int) : Prop :=
  ∃ d, bpshDecode c (written.take rc.toNat) = some d ∧ d.frame = frame.carried ∧ d.rc = rc ∧
    d.payloadAt + d.frame.payload.length ≤ rc.toNat ∧
    d.frame.payload = ((written.take rc.toNat).drop d.payloadAt).take d.frame.payload.length

omit h_c in
theorem payload_fill (body : Body) (frame : BpshFrame) (h : frame.payload = []) :
    (body.fill frame).payload = body.octets := by
  cases body with
  | empty => exact h
  | bytes bs => rfl
  | exit code cause => exact h

omit h_c in
/-- The payload stands at the end of the frame. -/
theorem Spells.payload {read : Nat → Nat} {items : Items} {text : Octets}
    (h : Spells read items text) : ∃ front, text = front ++ items.frame.payload := by
  have h_payload : items.frame.payload = items.body.octets := payload_fill _ _ rfl
  rw [h_payload]
  cases h with
  | @mk array version msgType sessionId seqNum body kind h_array h_version h_type h_session h_seq
      h_kind h_body =>
    suffices h_end : ∃ front, body = front ++ items.body.octets by
      obtain ⟨front, h_front⟩ := h_end
      exact ⟨array ++ (version ++ (msgType ++ (sessionId ++ (seqNum ++ front)))), by
        rw [h_front]
        simp only [List.append_assoc]⟩
    generalize items.body = b at h_body
    cases h_body with
    | empty => exact ⟨body, (List.append_nil _).symm⟩
    | @bytes head bs => exact ⟨head, rfl⟩
    | exit => exact ⟨_, (List.append_nil _).symm⟩

theorem readBack_iff {frame : BpshFrame} {buflen : Nat} {written : Octets} {rc : Int}
    (h : bpshEncode c frame buflen = some (written, rc)) (h_rc : 0 ≤ rc) :
    ReadBack c frame written rc ↔ written.length < 2 ^ 32 := by
  have h_le := length_encode_le h_c h
  obtain ⟨text, h_body, h_written, h_returned⟩ := bpshEncode_some h
  have h_int := returned_lt written.length
  rw [← h_returned] at h_int
  constructor
  · -- No payload is as long as what is missing.
    rintro ⟨d, h_decode, h_frame, -, h_inside, -⟩
    rw [h_frame] at h_inside
    omega
  · intro h_short
    rw [h_returned] at h_rc
    have h_lt := (returned_nonneg_iff h_short).mp h_rc
    have h_all := returned_of_lt h_lt
    obtain ⟨items, h_spells, h_items⟩ := spells_of_encode h_c h (by omega)
    obtain ⟨front, h_front⟩ := h_spells.payload
    have h_octets : items.frame.payload = items.body.octets := payload_fill _ _ rfl
    have h_take : written.take (written.length % 2 ^ 32) = written ++ [] := by
      rw [Nat.mod_eq_of_lt h_short, List.take_length, List.append_nil]
    have h_len := congrArg List.length h_front
    rw [List.length_append] at h_len
    have h_at : written.length - items.body.octets.length = front.length := by
      rw [← h_octets]
      omega
    have h_count : rc.toNat = written.length := by
      rw [h_returned, h_all, Int.toNat_natCast]
    unfold ReadBack
    rw [h_count, List.take_length]
    refine ⟨_, (bpshDecode_eq_some_iff h_c).mpr ⟨items, written, [], h_take, h_spells, rfl⟩,
      h_items, ?_, ?_, ?_⟩
    · dsimp only
      exact h_returned.symm
    · dsimp only
      rw [h_at]
      omega
    · dsimp only
      rw [h_at, h_front, List.drop_left, List.take_length]

end

/-- **The codec**: whatever the encoder takes is read back exactly if it is all there, and what the
    decoder takes is strictly a frame exactly if it is plain. -/
theorem bpshCodec_iff {c : CborCalls} (h_c : c.Correct) :
    (∀ frame buflen written rc, bpshEncode c frame buflen = some (written, rc) → 0 ≤ rc →
      (ReadBack c frame written rc ↔ written.length < 2 ^ 32)) ∧
    ∀ input, Strict c input ↔ PlainInput input :=
  ⟨fun _ _ _ _ h h_rc => readBack_iff h_c h h_rc, strict_iff h_c⟩

/-! ## The calls on octets -/

/-- The calls as `cbor.h` describes them. -/
def headCalls : CborCalls where
  encodeInteger value := encodeHead 0 value.toNat
  encodeByteString bs := encodeHead 2 (bs.length % 2 ^ 64) ++ bs
  encodeArrayOpen size := if size = 0xffffffffffffffff then [0x9f] else encodeHead 4 size.toNat
  decodeInteger input := (readHead 0 input).map fun p => (UInt64.ofNat p.1, p.2)
  decodeByteString max input :=
    (readHead 2 input).bind fun p =>
      if p.1 ≤ max.toNat then some (UInt64.ofNat p.1, p.2) else none
  decodeArrayOpen size input :=
    (readHead 4 input).bind fun p => if p.1 = size.toNat then some p.2 else none

theorem headCalls_correct : headCalls.Correct where
  encodeInteger value := head_encodeHead (by decide) value.toNat_lt
  encodeByteString bs := ⟨_, head_encodeHead (by decide) (Nat.mod_lt _ (by decide)), rfl⟩
  encodeArrayOpen size h_size := by
    rw [headCalls]
    dsimp only
    rw [if_neg h_size]
    exact head_encodeHead (by decide) size.toNat_lt
  decodeInteger input v k := by
    rw [← readHead_eq_some_iff, headCalls, Option.map_eq_some_iff]
    constructor
    · rintro ⟨⟨m, k'⟩, h_read, h_eq⟩
      obtain ⟨rfl, rfl⟩ := Prod.mk.inj h_eq
      obtain ⟨head, rest, -, h_head, -⟩ := readHead_eq_some_iff.mp h_read
      rwa [toNat_value h_head]
    · intro h_read
      exact ⟨_, h_read, by simp⟩
  decodeByteString max input n k := by
    rw [← readHead_eq_some_iff, headCalls, Option.bind_eq_some_iff]
    constructor
    · rintro ⟨⟨m, k'⟩, h_read, h_max⟩
      dsimp only at h_max
      split at h_max
      · rename_i h_le
        obtain ⟨rfl, rfl⟩ := Prod.mk.inj (Option.some.inj h_max)
        obtain ⟨head, rest, -, h_head, -⟩ := readHead_eq_some_iff.mp h_read
        rw [UInt64.le_iff_toNat_le, toNat_value h_head]
        exact ⟨h_le, h_read⟩
      · cases h_max
    · rintro ⟨h_le, h_read⟩
      refine ⟨_, h_read, ?_⟩
      dsimp only
      rw [if_pos (UInt64.le_iff_toNat_le.mp h_le), UInt64.ofNat_toNat]
  decodeArrayOpen size input k _ _ := by
    rw [← readHead_eq_some_iff, headCalls, Option.bind_eq_some_iff]
    constructor
    · rintro ⟨⟨m, k'⟩, h_read, h_size⟩
      dsimp only at h_size
      split at h_size
      · rename_i h_eq
        obtain rfl := Option.some.inj h_size
        rwa [← h_eq]
      · cases h_size
    · intro h_read
      exact ⟨_, h_read, if_pos rfl⟩

/-- An exit of session 7 with code -1. -/
def sampleExit : BpshFrame := ⟨1, 8, 7, 9, [], -1, 0⟩

/-- It is written in eight octets and read back. -/
theorem bpshCodec_iff_exit :
    bpshEncode headCalls sampleExit 64 = some ([0x85, 1, 8, 7, 9, 0x82, 0x20, 0], 8) ∧
      ReadBack headCalls sampleExit [0x85, 1, 8, 7, 9, 0x82, 0x20, 0] 8 := by
  obtain ⟨h_back, -⟩ := bpshCodec_iff headCalls_correct
  have h_encode : bpshEncode headCalls sampleExit 64 =
      some ([0x85, 1, 8, 7, 9, 0x82, 0x20, 0], 8) := by
    decide
  exact ⟨h_encode, (h_back _ _ _ _ h_encode (by decide)).mpr (by decide)⟩

/-- Octets that spell a frame of version 2 with message type 2^32 + 2. -/
def laxInput : Octets := [0x85, 0x02, 0x1b, 0, 0, 0, 1, 0, 0, 0, 2, 0x07, 0x09, 0x40]

/-- They are taken for an INIT_ACK. -/
theorem bpshDecode_lax :
    bpshDecode headCalls laxInput = some ⟨⟨2, 2, 7, 9, [], 0, 0⟩, 14, 14⟩ ∧
      ¬ Strict headCalls laxInput := by
  have h_decode : bpshDecode headCalls laxInput = some ⟨⟨2, 2, 7, 9, [], 0, 0⟩, 14, 14⟩ := by
    decide
  refine ⟨h_decode, fun h_strict => ?_⟩
  obtain ⟨items, text, rest, h_text, h_spells, h_d⟩ :=
    (bpshDecode_eq_some_iff headCalls_correct).mp h_decode
  have h_len := congrArg List.length h_text
  rw [List.length_take, List.length_append, show laxInput.length = 14 from rfl] at h_len
  obtain ⟨h_version, -, -⟩ :=
    (strict_iff headCalls_correct _).mp h_strict items text rest h_text (by omega) h_spells
  have h_frame : items.frame.version = Int32.ofInt items.version := by
    rw [Items.frame]
    cases items.body with
    | empty => rfl
    | bytes bs => rfl
    | exit code cause => rfl
  have h_two : (2 : Int32) = items.frame.version := congrArg (fun d => d.frame.version) h_d
  rw [h_frame, h_version] at h_two
  exact absurd h_two (by decide)

end IonContrib.Bpsh.Wire
