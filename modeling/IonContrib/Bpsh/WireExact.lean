/-
  IonContrib.Bpsh.WireExact

  What `bpsh_decode` makes of any octets, and of those that `bpsh_encode` wrote.

  A frame as it stands in octets is five items with numbers of 64 bits
  (`Items`, `Spells`).  The decoder reads just these, but it asks which kind of
  item is fifth after it has cut the message type to 32 bits (`narrow`), and it
  asks nothing about the version and the cause of an exit.
-/
import IonContrib.Bpsh.Wire

namespace IonContrib.Bpsh.Wire

open Octets Cbor

/-! ## Frames as they are spelled -/

/-- The fifth item. -/
inductive Body where
  | empty
  | bytes (bs : Octets)
  | exit (code : Int) (cause : Nat)

/-- The five items, with the numbers as they were encoded. -/
structure Items where
  version : Nat
  msgType : Nat
  sessionId : Nat
  seqNum : Nat
  body : Body

inductive SpellsBody : Kind → Body → Octets → Prop
  | empty {head : Octets} (h_head : Head 2 0 head) : SpellsBody .empty .empty head
  | bytes {head bs : Octets} (h_head : Head 2 bs.length head) :
      SpellsBody .bytes (.bytes bs) (head ++ bs)
  | exit {array head head' : Octets} {code : Int} {cause : Nat} (h_array : Head 4 2 array)
      (h_code : SignedHead code head) (h_cause : Head 0 cause head') :
      SpellsBody .exit (.exit code cause) (array ++ (head ++ head'))

/-- `text` is a frame of these items, the kind of the fifth being the one for `read msgType`. -/
inductive Spells (read : Nat → Nat) (items : Items) : Octets → Prop
  | mk {array version msgType sessionId seqNum body : Octets} {kind : Kind}
      (h_array : Head 4 5 array) (h_version : Head 0 items.version version)
      (h_type : Head 0 items.msgType msgType) (h_session : Head 0 items.sessionId sessionId)
      (h_seq : Head 0 items.seqNum seqNum) (h_kind : kindOf (read items.msgType) = some kind)
      (h_body : SpellsBody kind items.body body) :
      Spells read items (array ++ (version ++ (msgType ++ (sessionId ++ (seqNum ++ body)))))

/-- `(BpshMsgType) val`. -/
def narrow (msgType : Nat) : Nat := msgType % 2 ^ 32

def Body.octets : Body → Octets
  | .bytes bs => bs
  | _ => []

/-- What the fifth item becomes in a frame. -/
def Body.fill : Body → BpshFrame → BpshFrame
  | .empty, frame => frame
  | .bytes bs, frame => { frame with payload := bs }
  | .exit code cause, frame =>
    { frame with exitCode := Int32.ofInt code, exitCause := UInt32.ofNat cause }

/-- What is left of the items in a frame. -/
def Items.frame (items : Items) : BpshFrame :=
  items.body.fill ⟨Int32.ofInt items.version, UInt32.ofNat items.msgType,
    UInt64.ofNat items.sessionId, UInt64.ofNat items.seqNum, [], 0, 0⟩

theorem SpellsBody.append_inj {kind : Kind} {body body' : Body} {text text' rest rest' : Octets}
    (h : SpellsBody kind body text) (h' : SpellsBody kind body' text')
    (h_eq : text ++ rest = text' ++ rest') : body = body' ∧ text = text' ∧ rest = rest' := by
  cases h with
  | empty h_head =>
    cases h' with
    | empty h_head' =>
      obtain ⟨-, -, h_text⟩ := h_head.append_inj h_head' h_eq
      exact ⟨rfl, h_text⟩
  | bytes h_head =>
    cases h' with
    | bytes h_head' =>
      rw [List.append_assoc, List.append_assoc] at h_eq
      obtain ⟨-, h_len, rfl, h_bytes⟩ := h_head.append_inj h_head' h_eq
      obtain ⟨rfl, rfl⟩ := List.append_inj h_bytes h_len
      exact ⟨rfl, rfl, rfl⟩
  | exit h_array h_code h_cause =>
    cases h' with
    | exit h_array' h_code' h_cause' =>
      simp only [List.append_assoc] at h_eq
      obtain ⟨-, -, rfl, h_eq₁⟩ := h_array.append_inj h_array' h_eq
      obtain ⟨rfl, rfl, h_eq₂⟩ := h_code.append_inj h_code' h_eq₁
      obtain ⟨-, rfl, rfl, rfl⟩ := h_cause.append_inj h_cause' h_eq₂
      exact ⟨rfl, rfl, rfl⟩

/-- A text begins with one frame at most. -/
theorem Spells.append_inj {read : Nat → Nat} {items items' : Items}
    {text text' rest rest' : Octets} (h : Spells read items text) (h' : Spells read items' text')
    (h_eq : text ++ rest = text' ++ rest') : items = items' ∧ text = text' ∧ rest = rest' := by
  obtain ⟨version, msgType, sessionId, seqNum, body⟩ := items
  obtain ⟨version', msgType', sessionId', seqNum', body'⟩ := items'
  cases h with
  | mk h_array h_version h_type h_session h_seq h_kind h_body =>
    cases h' with
    | mk h_array' h_version' h_type' h_session' h_seq' h_kind' h_body' =>
      simp only [List.append_assoc] at h_eq
      obtain ⟨-, -, rfl, h_eq₁⟩ := h_array.append_inj h_array' h_eq
      obtain ⟨-, h_v, rfl, h_eq₂⟩ := h_version.append_inj h_version' h_eq₁
      obtain ⟨-, h_t, rfl, h_eq₃⟩ := h_type.append_inj h_type' h_eq₂
      obtain ⟨-, h_s, rfl, h_eq₄⟩ := h_session.append_inj h_session' h_eq₃
      obtain ⟨-, h_q, rfl, h_eq₅⟩ := h_seq.append_inj h_seq' h_eq₄
      dsimp only at h_v h_t h_s h_q h_kind h_kind'
      subst h_v h_t h_s h_q
      obtain rfl := Option.some.inj (h_kind.symm.trans h_kind')
      obtain ⟨h_b, rfl, rfl⟩ := h_body.append_inj h_body' h_eq₅
      dsimp only at h_b
      rw [h_b]
      exact ⟨rfl, rfl, rfl⟩

/-! ## Reading items -/

section

variable {c : CborCalls} (h_c : c.Correct) {rest rest' : Octets}
include h_c

theorem readInteger_iff {v : UInt64} : readInteger c rest = some (v, rest') ↔
    ∃ head, rest = head ++ rest' ∧ Head 0 v.toNat head := by
  rw [readInteger, Option.map_eq_some_iff]
  constructor
  · rintro ⟨⟨v', k⟩, h_read, h_eq⟩
    obtain ⟨rfl, rfl⟩ := Prod.mk.inj h_eq
    obtain ⟨head, tail, rfl, h_head, rfl⟩ := (h_c.decodeInteger rest v' k).mp h_read
    exact ⟨head, by rw [List.drop_left], h_head⟩
  · rintro ⟨head, rfl, h_head⟩
    refine ⟨(v, head.length), (h_c.decodeInteger _ _ _).mpr ⟨head, rest', rfl, h_head, rfl⟩, ?_⟩
    rw [List.drop_left]

theorem readArrayOpen_iff {size : UInt64} (h_size : size ≠ 0 ∧ size ≠ 0xffffffffffffffff) :
    readArrayOpen c size rest = some rest' ↔
      ∃ head, rest = head ++ rest' ∧ Head 4 size.toNat head := by
  rw [readArrayOpen, Option.map_eq_some_iff]
  constructor
  · rintro ⟨k, h_read, rfl⟩
    obtain ⟨head, tail, rfl, h_head, rfl⟩ :=
      (h_c.decodeArrayOpen size rest k h_size.1 h_size.2).mp h_read
    exact ⟨head, by rw [List.drop_left], h_head⟩
  · rintro ⟨head, rfl, h_head⟩
    refine ⟨head.length, (h_c.decodeArrayOpen _ _ _ h_size.1 h_size.2).mpr
      ⟨head, rest', rfl, h_head, rfl⟩, ?_⟩
    rw [List.drop_left]

theorem readByteString_iff {max n : UInt64} : readByteString c max rest = some (n, rest') ↔
    n ≤ max ∧ ∃ head, rest = head ++ rest' ∧ Head 2 n.toNat head := by
  rw [readByteString, Option.map_eq_some_iff]
  constructor
  · rintro ⟨⟨n', k⟩, h_read, h_eq⟩
    obtain ⟨rfl, rfl⟩ := Prod.mk.inj h_eq
    obtain ⟨h_max, head, tail, rfl, h_head, rfl⟩ := (h_c.decodeByteString max rest n' k).mp h_read
    exact ⟨h_max, head, by rw [List.drop_left], h_head⟩
  · rintro ⟨h_max, head, rfl, h_head⟩
    refine ⟨(n, head.length),
      (h_c.decodeByteString _ _ _ _).mpr ⟨h_max, head, rest', rfl, h_head, rfl⟩, ?_⟩
    rw [List.drop_left]

end

/-- A head is read as the number it spells. -/
theorem toNat_value {major m : Nat} {head : Octets} (h : Head major m head) :
    (UInt64.ofNat m).toNat = m :=
  UInt64.toNat_ofNat_of_lt' h.value_lt

section

variable {c : CborCalls} (h_c : c.Correct)
include h_c

theorem readInteger_head {m : Nat} {head : Octets} (h : Head 0 m head) (rest : Octets) :
    readInteger c (head ++ rest) = some (UInt64.ofNat m, rest) :=
  (readInteger_iff h_c).mpr ⟨head, rfl, by rwa [toNat_value h]⟩

theorem readByteString_head {m : Nat} {head : Octets} (h : Head 2 m head) (rest : Octets)
    {max : UInt64} (h_max : m ≤ max.toNat) :
    readByteString c max (head ++ rest) = some (UInt64.ofNat m, rest) := by
  refine (readByteString_iff h_c).mpr ⟨?_, head, rfl, by rwa [toNat_value h]⟩
  rwa [UInt64.le_iff_toNat_le, toNat_value h]

end

/-- What is left of a number in 32 bits does not depend on how it was cut to 64. -/
theorem ofInt_toVast (m : Nat) : Int32.ofInt (toVast m) = Int32.ofInt m := by
  apply Int32.toInt_inj.mp
  rw [Int32.toInt_ofInt, Int32.toInt_ofInt]
  exact Int.bmod_bmod_of_dvd ⟨2 ^ 32, rfl⟩

theorem ofInt_sub_toVast (m : Nat) : Int32.ofInt (-1 - toVast m) = Int32.ofInt (-1 - m) := by
  have h_cut : (toVast m).bmod Int32.size = (m : Int).bmod Int32.size :=
    Int.bmod_bmod_of_dvd ⟨2 ^ 32, rfl⟩
  apply Int32.toInt_inj.mp
  rw [Int32.toInt_ofInt, Int32.toInt_ofInt, Int.sub_bmod, h_cut, ← Int.sub_bmod]

theorem readSignedInt_some {rest rest' : Octets} {e' : Int}
    (h : readSignedInt rest = some (e', rest')) :
    ∃ e head, rest = head ++ rest' ∧ SignedHead e head ∧ Int32.ofInt e' = Int32.ofInt e := by
  rw [readSignedInt, Option.map_eq_some_iff] at h
  obtain ⟨⟨e₁, k⟩, h_read, h_eq⟩ := h
  dsimp only at h_eq
  obtain ⟨rfl, rfl⟩ := Prod.mk.inj h_eq
  unfold cborDecodeSignedInt at h_read
  split at h_read
  · cases h_read
  rename_i major magnitude k' h_decode
  obtain ⟨head, tail, rfl, h_head, rfl⟩ := decodeHead_eq_some_iff.mp h_decode
  split at h_read
  · rename_i h_major
    obtain ⟨rfl, rfl⟩ := Prod.mk.inj (Option.some.inj h_read)
    rw [h_major] at h_head
    exact ⟨magnitude, head, by rw [List.drop_left], .inl ⟨magnitude, h_head, rfl⟩,
      ofInt_toVast magnitude⟩
  split at h_read
  · rename_i h_major
    obtain ⟨rfl, rfl⟩ := Prod.mk.inj (Option.some.inj h_read)
    rw [h_major] at h_head
    exact ⟨-1 - magnitude, head, by rw [List.drop_left], .inr ⟨magnitude, h_head, rfl⟩,
      ofInt_sub_toVast magnitude⟩
  · cases h_read

theorem readSignedInt_head {e : Int} {head : Octets} (h : SignedHead e head) (rest : Octets) :
    ∃ e', readSignedInt (head ++ rest) = some (e', rest) ∧ Int32.ofInt e' = Int32.ofInt e := by
  rcases h with ⟨m, h_head, rfl⟩ | ⟨m, h_head, rfl⟩
  · refine ⟨toVast m, ?_, ofInt_toVast m⟩
    rw [readSignedInt, cborDecodeSignedInt, h_head.decode rest]
    dsimp only
    rw [if_pos rfl, Option.map_some, List.drop_left]
  · refine ⟨-1 - toVast m, ?_, ofInt_sub_toVast m⟩
    rw [readSignedInt, cborDecodeSignedInt, h_head.decode rest]
    dsimp only
    rw [if_neg (by decide), if_pos rfl, Option.map_some, List.drop_left]

/-! ## Reading frames -/

section

variable {c : CborCalls} (h_c : c.Correct)
include h_c

theorem spellsBody_of_decode {frame frame' : BpshFrame} {rest payload rest' : Octets}
    (h : decodeBody c frame rest = some (frame', payload, rest')) :
    ∃ kind body text, kindOf frame.msgType.toNat = some kind ∧ SpellsBody kind body text ∧
      rest = text ++ rest' ∧ payload = body.octets ++ rest' ∧ frame' = body.fill frame := by
  unfold decodeBody at h
  split at h
  · rename_i h_kind
    obtain ⟨⟨n, rest₁⟩, h_read, h_frame⟩ := Option.bind_eq_some_iff.mp h
    obtain ⟨h_max, head, rfl, h_head⟩ := (readByteString_iff h_c).mp h_read
    cases h_frame
    have h_zero : n.toNat = 0 := Nat.le_zero.mp h_max
    rw [h_zero] at h_head
    exact ⟨.empty, .empty, head, h_kind, .empty h_head, rfl, rfl, rfl⟩
  · rename_i h_kind
    obtain ⟨⟨n, rest₁⟩, h_read, h_frame⟩ := Option.bind_eq_some_iff.mp h
    obtain ⟨h_max, head, rfl, h_head⟩ := (readByteString_iff h_c).mp h_read
    dsimp only at h_frame
    split at h_frame
    · cases h_frame
    · rename_i h_room
      cases h_frame
      have h_take : (payload.take n.toNat).length = n.toNat := List.length_take_of_le (by omega)
      rw [← h_take] at h_head
      refine ⟨.bytes, .bytes (payload.take n.toNat), head ++ payload.take n.toNat, h_kind,
        .bytes h_head, ?_, ?_, rfl⟩
      · rw [List.append_assoc, List.take_append_drop]
      · exact (List.take_append_drop _ _).symm
  · rename_i h_kind
    obtain ⟨rest₁, h_open, h_exit⟩ := Option.bind_eq_some_iff.mp h
    obtain ⟨⟨code', rest₂⟩, h_signed, h_rest⟩ := Option.bind_eq_some_iff.mp h_exit
    obtain ⟨⟨val, rest₃⟩, h_val, h_frame⟩ := Option.bind_eq_some_iff.mp h_rest
    obtain ⟨array, rfl, h_array⟩ := (readArrayOpen_iff h_c (by decide)).mp h_open
    obtain ⟨code, head, rfl, h_code, h_cut⟩ := readSignedInt_some h_signed
    obtain ⟨head', rfl, h_cause⟩ := (readInteger_iff h_c).mp h_val
    cases h_frame
    refine ⟨.exit, .exit code val.toNat, array ++ (head ++ head'), h_kind,
      .exit h_array h_code h_cause, ?_, rfl, ?_⟩
    · simp only [List.append_assoc]
    · rw [Body.fill, h_cut]
      rfl
  · cases h

theorem decodeBody_of_spells {frame : BpshFrame} {kind : Kind} {body : Body} {text rest : Octets}
    (h_kind : kindOf frame.msgType.toNat = some kind) (h_body : SpellsBody kind body text)
    (h_len : (text ++ rest).length < 2 ^ 64) :
    decodeBody c frame (text ++ rest) = some (body.fill frame, body.octets ++ rest, rest) := by
  unfold decodeBody
  rw [h_kind]
  cases h_body with
  | empty h_head =>
    dsimp only
    rw [readByteString_head h_c h_head rest (Nat.zero_le _)]
    rfl
  | @bytes head bs h_head =>
    rw [List.append_assoc] at h_len ⊢
    have h_max : bs.length ≤ (UInt64.ofNat (head ++ (bs ++ rest)).length).toNat := by
      rw [UInt64.toNat_ofNat_of_lt' h_len, List.length_append, List.length_append]
      omega
    dsimp only
    rw [readByteString_head h_c h_head (bs ++ rest) h_max]
    dsimp only [Option.bind_eq_bind, Option.bind_some]
    rw [toNat_value h_head, if_neg (by rw [List.length_append]; omega), List.take_left,
      List.drop_left]
    rfl
  | @exit array head head' code cause h_array h_code h_cause =>
    obtain ⟨code', h_read, h_cut⟩ := readSignedInt_head h_code (head' ++ rest)
    have h_open : readArrayOpen c 2 (array ++ (head ++ (head' ++ rest))) =
        some (head ++ (head' ++ rest)) :=
      (readArrayOpen_iff h_c (by decide)).mpr ⟨array, rfl, h_array⟩
    simp only [List.append_assoc]
    rw [h_open]
    dsimp only [Option.bind_eq_bind, Option.bind_some]
    rw [h_read]
    dsimp only [Option.bind_some]
    rw [readInteger_head h_c h_cause rest]
    dsimp only [Option.bind_some]
    rw [h_cut, UInt64.toUInt32_ofNat']
    rfl

/-- What is decoded stands in the octets, and the type has been cut before it was looked at. -/
theorem spells_of_decodeFrame {buffered payload rest : Octets} {frame : BpshFrame}
    (h : decodeFrame c buffered = some (frame, payload, rest)) :
    ∃ items text, buffered = text ++ rest ∧ Spells narrow items text ∧ frame = items.frame ∧
      payload = items.body.octets ++ rest := by
  unfold decodeFrame at h
  obtain ⟨rest₁, h_open, h₁⟩ := Option.bind_eq_some_iff.mp h
  obtain ⟨⟨version, rest₂⟩, r₁, h₂⟩ := Option.bind_eq_some_iff.mp h₁
  obtain ⟨⟨msgType, rest₃⟩, r₂, h₃⟩ := Option.bind_eq_some_iff.mp h₂
  obtain ⟨⟨sessionId, rest₄⟩, r₃, h₄⟩ := Option.bind_eq_some_iff.mp h₃
  obtain ⟨⟨seqNum, rest₅⟩, r₄, h_decode⟩ := Option.bind_eq_some_iff.mp h₄
  obtain ⟨array, rfl, h_array⟩ := (readArrayOpen_iff h_c (by decide)).mp h_open
  obtain ⟨head₁, rfl, h_version⟩ := (readInteger_iff h_c).mp r₁
  obtain ⟨head₂, rfl, h_type⟩ := (readInteger_iff h_c).mp r₂
  obtain ⟨head₃, rfl, h_session⟩ := (readInteger_iff h_c).mp r₃
  obtain ⟨head₄, rfl, h_seq⟩ := (readInteger_iff h_c).mp r₄
  obtain ⟨kind, body, text, h_kind, h_body, rfl, rfl, rfl⟩ := spellsBody_of_decode h_c h_decode
  refine ⟨⟨version.toNat, msgType.toNat, sessionId.toNat, seqNum.toNat, body⟩, _, ?_,
    .mk h_array h_version h_type h_session h_seq ?_ h_body, ?_, rfl⟩
  · simp only [List.append_assoc]
  · exact h_kind
  · simp [Items.frame]

theorem decodeFrame_of_spells {items : Items} {text : Octets} (h : Spells narrow items text)
    (rest : Octets) (h_len : (text ++ rest).length < 2 ^ 64) :
    decodeFrame c (text ++ rest) = some (items.frame, items.body.octets ++ rest, rest) := by
  cases h with
  | @mk array version msgType sessionId seqNum body kind h_array h_version h_type h_session h_seq
      h_kind h_body =>
    have h_open : ∀ tail, readArrayOpen c 5 (array ++ tail) = some tail := fun tail =>
      (readArrayOpen_iff h_c (by decide)).mpr ⟨array, rfl, h_array⟩
    have h_end : (body ++ rest).length < 2 ^ 64 := by
      simp only [List.length_append] at h_len ⊢
      omega
    unfold decodeFrame
    simp only [List.append_assoc]
    rw [h_open]
    dsimp only [Option.bind_eq_bind, Option.bind_some]
    rw [readInteger_head h_c h_version]
    dsimp only [Option.bind_some]
    rw [readInteger_head h_c h_type]
    dsimp only [Option.bind_some]
    rw [readInteger_head h_c h_session]
    dsimp only [Option.bind_some]
    rw [readInteger_head h_c h_seq]
    dsimp only [Option.bind_some]
    rw [UInt64.toUInt32_ofNat', toNat_value h_version, decodeBody_of_spells h_c ?_ h_body h_end]
    · rfl
    · rw [← h_kind, UInt32.toNat_ofNat']
      rfl

/-- What is made of any octets. -/
theorem bpshDecode_eq_some_iff {input : Octets} {d : Decoded} :
    bpshDecode c input = some d ↔ ∃ items text rest,
      input.take (input.length % 2 ^ 32) = text ++ rest ∧ Spells narrow items text ∧
        d = ⟨items.frame, text.length - items.body.octets.length, returned text.length⟩ := by
  have h_mod : input.length % 2 ^ 32 ≤ input.length := Nat.mod_le _ _
  have h_lt : input.length % 2 ^ 32 < 2 ^ 32 := Nat.mod_lt _ (by decide)
  have h_take : (input.take (input.length % 2 ^ 32)).length = input.length % 2 ^ 32 :=
    List.length_take_of_le h_mod
  constructor
  · intro h
    unfold bpshDecode at h
    split at h
    · cases h
    dsimp only at h
    split at h
    · cases h
    · rename_i frame payload rest h_frame
      obtain ⟨items, text, h_text, h_spells, rfl, rfl⟩ := spells_of_decodeFrame h_c h_frame
      obtain rfl := Option.some.inj h
      refine ⟨items, text, rest, h_text, h_spells, ?_⟩
      rw [h_text, List.length_append] at h_take
      rw [← h_take, List.length_append, Nat.add_sub_add_right, Nat.add_sub_cancel]
  · rintro ⟨items, text, rest, h_text, h_spells, rfl⟩
    rw [h_text, List.length_append] at h_take
    have h_ne : input ≠ [] := by
      rintro rfl
      have h_nil : text = [] := by
        rw [List.take_nil] at h_text
        exact (List.append_eq_nil_iff.mp h_text.symm).1
      cases h_spells with
      | mk h_array =>
        have h_len := h_array.length
        rw [List.append_eq_nil_iff] at h_nil
        rw [h_nil.1, List.length_nil] at h_len
        omega
    have h_decode := decodeFrame_of_spells h_c h_spells rest (by
      rw [List.length_append]
      omega)
    unfold bpshDecode
    rw [if_neg h_ne]
    dsimp only
    rw [h_text, h_decode]
    dsimp only
    rw [← h_take, List.length_append, Nat.add_sub_add_right, Nat.add_sub_cancel]

end

/-! ## What is accepted -/

/-- `bpsh_decode` does not return a negative number. -/
def Accepted (c : CborCalls) (input : Octets) : Prop := ∃ d, bpshDecode c input = some d ∧ 0 ≤ d.rc

/-- An exit has a code that is an `int` and a cause that is defined. -/
def Body.Proper : Body → Prop
  | .exit code cause => -2 ^ 31 ≤ code ∧ code < 2 ^ 31 ∧ cause ≤ 4
  | _ => True

/-- What is accepted begins with a frame of the version of the protocol, whose numbers are defined
    as they were encoded, and whose items are all there and of the right kind. -/
def Strict (c : CborCalls) (input : Octets) : Prop :=
  Accepted c input → ∃ items text rest, input = text ++ rest ∧ Spells id items text ∧
    items.version = bpshVersion ∧ items.body.Proper

/-- If the octets that are buffered begin with a frame for its message type cut to 32 bits, its
    version is the one of the protocol, its type has not been cut, and its exit is proper. -/
def PlainInput (input : Octets) : Prop :=
  ∀ items text rest, input.take (input.length % 2 ^ 32) = text ++ rest → text.length < 2 ^ 31 →
    Spells narrow items text →
      items.version = bpshVersion ∧ items.msgType < 2 ^ 32 ∧ items.body.Proper

theorem returned_nonneg_iff {n : Nat} (h : n < 2 ^ 32) : 0 ≤ returned n ↔ n < 2 ^ 31 := by
  unfold returned
  rw [Int.bmod_def]
  omega

theorem returned_lt (n : Nat) : returned n < 2 ^ 31 := by
  unfold returned
  rw [Int.bmod_def]
  omega

theorem returned_of_lt {n : Nat} (h : n < 2 ^ 31) : returned n = n := by
  unfold returned
  rw [Int.bmod_def]
  omega

theorem kindOf_lt {n : Nat} {kind : Kind} (h : kindOf n = some kind) : n < 2 ^ 32 := by
  unfold kindOf at h
  split at h <;> first | omega | cases h

/-- One frame has one kind, cut or not. -/
theorem Spells.of_narrow {items : Items} {text : Octets} (h : Spells narrow items text)
    (h_type : items.msgType < 2 ^ 32) : Spells id items text := by
  cases h with
  | mk h_array h_version h_msg h_session h_seq h_kind h_body =>
    rw [narrow, Nat.mod_eq_of_lt h_type] at h_kind
    exact .mk h_array h_version h_msg h_session h_seq h_kind h_body

theorem Spells.narrow {items : Items} {text : Octets} (h : Spells id items text) :
    items.msgType < 2 ^ 32 ∧ Spells narrow items text := by
  cases h with
  | mk h_array h_version h_msg h_session h_seq h_kind h_body =>
    have h_type := kindOf_lt h_kind
    rw [← Nat.mod_eq_of_lt h_type] at h_kind
    exact ⟨h_type, .mk h_array h_version h_msg h_session h_seq h_kind h_body⟩

/-- A frame that is buffered is shorter than what an `int` cannot tell. -/
theorem length_buffered {input text rest : Octets}
    (h : input.take (input.length % 2 ^ 32) = text ++ rest) : text.length < 2 ^ 32 := by
  have h_lt : input.length % 2 ^ 32 < 2 ^ 32 := Nat.mod_lt _ (by decide)
  have h_len := congrArg List.length h
  rw [List.length_take, List.length_append] at h_len
  omega

theorem accepted_iff {c : CborCalls} (h_c : c.Correct) {input : Octets} :
    Accepted c input ↔ ∃ items text rest, input.take (input.length % 2 ^ 32) = text ++ rest ∧
      Spells narrow items text ∧ text.length < 2 ^ 31 := by
  constructor
  · rintro ⟨d, h_decode, h_rc⟩
    obtain ⟨items, text, rest, h_text, h_spells, h_d⟩ := (bpshDecode_eq_some_iff h_c).mp h_decode
    rw [h_d] at h_rc
    dsimp only at h_rc
    exact ⟨items, text, rest, h_text, h_spells,
      (returned_nonneg_iff (length_buffered h_text)).mp h_rc⟩
  · rintro ⟨items, text, rest, h_text, h_spells, h_short⟩
    refine ⟨_, (bpshDecode_eq_some_iff h_c).mpr ⟨items, text, rest, h_text, h_spells, rfl⟩, ?_⟩
    dsimp only
    exact (returned_nonneg_iff (length_buffered h_text)).mpr h_short

theorem strict_iff {c : CborCalls} (h_c : c.Correct) (input : Octets) :
    Strict c input ↔ PlainInput input := by
  unfold Strict
  rw [accepted_iff h_c]
  constructor
  · intro h_strict items text rest h_text h_short h_spells
    obtain ⟨items', text', rest', h_input, h_spells', h_version, h_proper⟩ :=
      h_strict ⟨items, text, rest, h_text, h_spells, h_short⟩
    obtain ⟨h_type, h_narrow⟩ := h_spells'.narrow
    -- What is buffered is the front of the input, and that has one frame at its front.
    have h_same : text ++ (rest ++ input.drop (input.length % 2 ^ 32)) = text' ++ rest' := by
      rw [← h_input, ← List.append_assoc, ← h_text, List.take_append_drop]
    obtain ⟨rfl, -, -⟩ := h_spells.append_inj h_narrow h_same
    exact ⟨h_version, h_type, h_proper⟩
  · rintro h_plain ⟨items, text, rest, h_text, h_spells, h_short⟩
    obtain ⟨h_version, h_type, h_proper⟩ := h_plain items text rest h_text h_short h_spells
    refine ⟨items, text, rest ++ input.drop (input.length % 2 ^ 32), ?_, h_spells.of_narrow h_type,
      h_version, h_proper⟩
    rw [← List.append_assoc, ← h_text, List.take_append_drop]

end IonContrib.Bpsh.Wire
