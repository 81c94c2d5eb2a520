/-
  IonContrib.Tcpv4.Streaming

  The two readers that take a message header off the stream piece by piece
  (`recvXferSegmentHdr`, `recvSessInit`), with the buffers they read it into.

  What each is held to is the decoder on the whole stream
  (`recvXferSegmentHdrInto_eq`, `recvSessInitInto_eq`): the reader gets what the
  decoder gets and leaves what the decoder does not take, unless something is
  announced that is over this end's limit.  Both theorems follow the pieces of the
  stream, and at each the front of the buffer is what has been read (`Filled`).
-/
import IonContrib.Lib.Into
import IonContrib.Tcpv4.Codec

namespace IonContrib.Tcpv4

open Octets

/-! ## The readers -/

/-- Why a reader gives up on a stream that has not ended. -/
inductive Refused where
  | nodeId
  | extension
  /-- Another message than the one that is due. -/
  | unexpected (type : UInt8)
  | noMemory
  | malformed
  deriving DecidableEq, Repr

/-- The end of `recvXferSegmentHdr`: the data length, and the decoder. -/
def recvXferSegmentHdrEnd (buf : Octets) (off : Nat) (s : Octets) : Into Refused XferSegment :=
  (recvInto buf off 8 s).bind fun buf s =>
    let off := off + 8
    if off > buf.length then .refused .malformed
    else
      match tcpv4MsgDecodeXferSegmentHdr (buf.take off) with
      | .ok seg used => if used = off then .got seg s else .refused .malformed
      | _ => .refused .malformed

/-- The list of extension items that only START has. -/
def recvXferSegmentHdrExt (buf s : Octets) : Into Refused XferSegment :=
  (recvInto buf 10 4 s).bind fun buf s =>
    let extLen := beNat ((buf.drop 10).take 4)
    if extLen > tcpv4MaxExtLen then .refused .extension
    else if extLen > 0 then
      (recvInto buf 14 extLen s).bind fun buf s => recvXferSegmentHdrEnd buf (14 + extLen) s
    else recvXferSegmentHdrEnd buf 14 s

/-- `recvXferSegmentHdr`, the type octet taken, with its buffer as the caller has it. -/
def recvXferSegmentHdrInto (buf s : Octets) : Into Refused XferSegment :=
  (putInto buf 0 [tmsgXferSegment] s).bind fun buf s =>
    (recvInto buf 1 9 s).bind fun buf s =>
      if hasFlag (buf.getD 1 0) tmsgFlagStart then recvXferSegmentHdrExt buf s
      else recvXferSegmentHdrEnd buf 10 s

/-- `tcpv4MsgDecodeSessInit (buf, off, &peer) == off`. -/
def sessInitOf (buf : Octets) (off : Nat) (s : Octets) : Into Refused SessInit :=
  match tcpv4MsgDecodeSessInit (buf.take off) with
  | .ok peer used => if used = off then .got peer s else .refused .malformed
  | _ => .refused .malformed

/-- The end of `recvSessInit`: the list of extension items, and the decoder. -/
def recvSessInitEnd (buf : Octets) (off : Nat) (s : Octets) : Into Refused SessInit :=
  (recvInto buf off 4 s).bind fun buf s =>
    let extLen := beNat ((buf.drop off).take 4)
    let off := off + 4
    if extLen > tcpv4MaxExtLen then .refused .extension
    else if extLen > 0 then
      (recvInto buf off extLen s).bind fun buf s => sessInitOf buf (off + extLen) s
    else sessInitOf buf off s

/-- The length of `fixed`: type, keepalive, 2 MRUs, node ID length. -/
def sessInitFixedLen : Nat := 21

/-- The node ID, into a block for the whole message.  `mem` is how its `MTAKE` ends. -/
def recvSessInitNode (mem : Bool) (fixed s : Octets) : Into Refused SessInit :=
  let nodeIdLen := beNat ((fixed.drop 19).take 2)
  if nodeIdLen ≥ tcpv4MaxNodeIdLen then .refused .nodeId
  else if !mem then .refused .noMemory
  else
    let buf := List.replicate (sessInitFixedLen + nodeIdLen + 4 + tcpv4MaxExtLen) 0
    (putInto buf 0 (fixed.take sessInitFixedLen) s).bind fun buf s =>
      if nodeIdLen > 0 then
        (recvInto buf sessInitFixedLen nodeIdLen s).bind fun buf s =>
          recvSessInitEnd buf (sessInitFixedLen + nodeIdLen) s
      else recvSessInitEnd buf sessInitFixedLen s

/-- `recvSessInit` up to `applySessInit`. -/
def recvSessInitInto (mem : Bool) (fixed s : Octets) : Into Refused SessInit :=
  (recvInto fixed 0 1 s).bind fun fixed s =>
    let type := fixed.getD 0 0
    -- SESS_TERM and MSG_REJECT are no SESS_INIT either; they differ in what is sent or said.
    if type ≠ tmsgSessInit then .refused (.unexpected type)
    else (recvInto fixed 1 20 s).bind fun fixed s => recvSessInitNode mem fixed s

/-! ## What the decoders answer on a stream -/

/-- The decoder's answer for a stream, and what it leaves of it. -/
def onStream {μ : Type} (decode : Octets → Decoded μ) (s : Octets) : Into Refused μ :=
  match decode s with
  | .ok m used => .got m (s.drop used)
  | .need => .ended
  | .bad => .ended

theorem onStream_of_not_ok {μ : Type} {decode : Octets → Decoded μ} {s : Octets}
    (h : ∀ m used, decode s ≠ .ok m used) : onStream decode s = .ended := by
  unfold onStream
  cases h_dec : decode s with
  | need => rfl
  | bad => rfl
  | ok m used => exact absurd h_dec (h m used)

theorem onStream_of_ok {μ : Type} {decode : Octets → Decoded μ} {s : Octets} {m : μ} {used : Nat}
    (h : decode s = .ok m used) : onStream decode s = .got m (s.drop used) := by
  rw [onStream, h]

/-- A list of extension items is announced that is over the limit. -/
def xferExtOver (s : Octets) : Bool :=
  hasFlag (s.headD 0) tmsgFlagStart && 13 ≤ s.length &&
    beNat ((s.drop 9).take 4) > tcpv4MaxExtLen

/-- A node ID is announced that is over the limit. -/
def sessNodeIdOver (s : Octets) : Bool :=
  21 ≤ s.length && beNat ((s.drop 19).take 2) ≥ tcpv4MaxNodeIdLen

/-- The same for the list of extension items behind the node ID. -/
def sessExtOver (s : Octets) : Bool :=
  let nodeIdLen := beNat ((s.drop 19).take 2)
  25 + nodeIdLen ≤ s.length && beNat ((s.drop (21 + nodeIdLen)).take 4) > tcpv4MaxExtLen

/-- What a segment header's decoder accepts is all there. -/
theorem xferSegment_length {s : Octets} {m : XferSegment} {used : Nat}
    (h : tcpv4MsgDecodeXferSegmentHdr (tmsgXferSegment :: s) = .ok m used) :
    17 ≤ s.length ∧ (hasFlag (s.headD 0) tmsgFlagStart = true →
      21 + beNat ((s.drop 9).take 4) ≤ s.length) := by
  obtain ⟨h_range, h_used, h_wire⟩ := lawful_xferSegment.of_decode h
  have h_s : s = m.body ++ s.drop (used - 1) := by
    have h_cut := (List.take_append_drop used (tmsgXferSegment :: s)).symm
    rw [← h_wire] at h_cut
    have h_pos : used = (used - 1) + 1 := by
      have h_len := congrArg List.length h_wire
      rw [List.length_take_of_le h_used] at h_len
      simp only [List.singleton_append, List.length_cons] at h_len
      omega
    rw [h_pos, List.drop_succ_cons] at h_cut
    exact (List.cons.inj h_cut).2
  have h_start : m.isStart = hasFlag (s.headD 0) tmsgFlagStart := by
    rw [h_s]
    rfl
  rw [← h_start]
  unfold XferSegment.body at h_s
  cases h_m : m.isStart with
  | true =>
    rw [h_m, if_pos rfl] at h_s
    have h_ext : (s.drop 9).take 4 = beBytes 4 m.xferExt.length := by
      rw [h_s]
      simp
    have h_len := congrArg List.length h_s
    simp only [List.length_append, List.length_cons, length_beBytes] at h_len
    rw [h_ext, beNat_beBytes h_range.xferExt]
    exact ⟨by omega, fun _ => by omega⟩
  | false =>
    rw [h_m, if_neg Bool.false_ne_true] at h_s
    have h_len := congrArg List.length h_s
    simp only [List.length_append, List.length_cons, length_beBytes, List.length_nil] at h_len
    exact ⟨by omega, nofun⟩

/-- ... and it accepts what is all there. -/
theorem tcpv4MsgDecodeXferSegmentHdr_start {flags : UInt8} {id lens ext data : Octets}
    (t : Octets) (h_start : hasFlag flags tmsgFlagStart = true) (h_id : id.length = 8)
    (h_lens : lens.length = 4) (h_ext : ext.length = beNat lens) (h_data : data.length = 8) :
    tcpv4MsgDecodeXferSegmentHdr
        (tmsgXferSegment :: flags :: (id ++ (lens ++ (ext ++ (data ++ t))))) =
      .ok ⟨flags, beNat id, ext, beNat data⟩ (22 + ext.length) := by
  have h_bytes := rBytes_append ext (data ++ t) (0 + 1 + 1 + 8 + 4)
  unfold tcpv4MsgDecodeXferSegmentHdr
  simp only [rInit, rU8_cons, rU64_append _ _ h_id, h_start, rU32_append _ _ h_lens, ← h_ext,
    h_bytes, rU64_append _ _ h_data]
  simp
  omega

theorem tcpv4MsgDecodeXferSegmentHdr_next {flags : UInt8} {id data : Octets}
    (t : Octets) (h_start : hasFlag flags tmsgFlagStart = false) (h_id : id.length = 8)
    (h_data : data.length = 8) :
    tcpv4MsgDecodeXferSegmentHdr (tmsgXferSegment :: flags :: (id ++ (data ++ t))) =
      .ok ⟨flags, beNat id, [], beNat data⟩ 18 := by
  unfold tcpv4MsgDecodeXferSegmentHdr
  simp only [rInit, rU8_cons, rU64_append _ _ h_id, h_start, rU64_append _ _ h_data]
  simp

/-! ## XFER_SEGMENT -/

/-- The data length of a segment header whose front part is in the buffer. -/
theorem recvXferSegmentHdrEnd_eq {buf bytes s : Octets} {cap off : Nat}
    (h : Filled buf cap bytes) (h_off : bytes.length = off) (h_room : off + 8 ≤ cap)
    (h_short : s.length < 8 → onStream tcpv4MsgDecodeXferSegmentHdr (bytes ++ s) = .ended)
    (h_full : ∀ data, data.length = 8 → ∃ m, ∀ t,
      tcpv4MsgDecodeXferSegmentHdr (bytes ++ (data ++ t)) = .ok m (off + 8)) :
    recvXferSegmentHdrEnd buf off s = onStream tcpv4MsgDecodeXferSegmentHdr (bytes ++ s) := by
  unfold recvXferSegmentHdrEnd
  by_cases h_len : s.length < 8
  · rw [recvInto_short h h_room h_len, h_short h_len]
    rfl
  · obtain ⟨data, t, rfl, h_data⟩ := exists_piece (Nat.not_lt.mp h_len)
    obtain ⟨m, h_m⟩ := h_full data h_data
    obtain ⟨buf', h_recv, h_buf⟩ := recvInto_filled (ε := Refused) off t h h_off h_data h_room
    -- What the decoder is given is all that has been read.
    have h_take : buf'.take (off + 8) = bytes ++ (data ++ []) := by
      have h_front := h_buf.front
      rw [List.length_append, h_off, h_data] at h_front
      rw [h_front, List.append_nil]
    have h_rest : (bytes ++ (data ++ t)).drop (off + 8) = t := by
      rw [← List.append_assoc, ← h_off, ← h_data, ← List.length_append, List.drop_left]
    rw [h_recv, Into.bind_got, onStream_of_ok (h_m t), h_rest]
    simp only
    rw [if_neg (by rw [h_buf.size]; omega), h_take, h_m]
    exact if_pos rfl

/-- A header that is not all there is not accepted. -/
theorem xferSegment_need {s : Octets}
    (h : s.length < 17 ∨ hasFlag (s.headD 0) tmsgFlagStart = true ∧
      s.length < 21 + beNat ((s.drop 9).take 4)) :
    onStream tcpv4MsgDecodeXferSegmentHdr (tmsgXferSegment :: s) = .ended := by
  refine onStream_of_not_ok fun m used h_dec => ?_
  obtain ⟨h_all, h_ext⟩ := xferSegment_length h_dec
  rcases h with h_len | ⟨h_start, h_len⟩
  · omega
  · have h_le := h_ext h_start
    omega

/-- The branch of a START segment, behind flags and Transfer ID. -/
theorem recvXferSegmentHdrExt_eq {buf id : Octets} {flags : UInt8}
    (h : Filled buf segHdrCap (tmsgXferSegment :: flags :: id)) (h_id : id.length = 8)
    (h_start : hasFlag flags tmsgFlagStart = true) (s : Octets) :
    recvXferSegmentHdrExt buf s =
      if xferExtOver (flags :: (id ++ s)) then .refused .extension
      else onStream tcpv4MsgDecodeXferSegmentHdr (tmsgXferSegment :: flags :: (id ++ s)) := by
  have h_room : segHdrCap = 1056 := rfl
  have h_max : tcpv4MaxExtLen = 1024 := rfl
  have h_bytes : (tmsgXferSegment :: flags :: id).length = 10 := by simp [h_id]
  have h_announced : ((flags :: (id ++ s)).drop 9).take 4 = s.take 4 := by
    rw [List.drop_succ_cons, ← h_id, List.drop_left]
  rw [recvXferSegmentHdrExt, xferExtOver, h_announced]
  by_cases h_short : s.length < 4
  · rw [recvInto_short h (by omega) h_short, Into.bind_ended, if_neg, xferSegment_need]
    · refine .inl ?_
      rw [List.length_cons, List.length_append]
      omega
    · simp only [Bool.and_eq_true, decide_eq_true_eq, List.length_cons, List.length_append]
      omega
  obtain ⟨lens, s₁, rfl, h_lens⟩ := exists_piece (Nat.not_lt.mp h_short)
  rw [← h_lens, List.take_left] at h_announced ⊢
  obtain ⟨buf₁, h_recv, h_one⟩ := recvInto_filled (ε := Refused) 10 s₁ h h_bytes rfl
    (show 10 + lens.length ≤ segHdrCap by omega)
  have h_extLen : (buf₁.drop 10).take lens.length = lens :=
    h_one.field _ [] (by rw [List.append_nil]) h_bytes rfl
  rw [h_recv, Into.bind_got]
  simp only [h_extLen]
  by_cases h_over : beNat lens > tcpv4MaxExtLen
  · rw [if_pos h_over, if_pos]
    simp only [Bool.and_eq_true, decide_eq_true_eq, List.headD_cons, List.length_cons,
      List.length_append]
    exact ⟨⟨h_start, by omega⟩, h_over⟩
  rw [if_neg h_over,
    recvInto_or (f := fun buf s => recvXferSegmentHdrEnd buf (14 + beNat lens) s)
      (by rw [h_one.size]; omega) (fun h_none => by rw [h_none]),
    if_neg (by simp [h_over])]
  by_cases h_short : s₁.length < beNat lens
  · rw [recvInto_short h_one (by omega) h_short, Into.bind_ended, xferSegment_need]
    refine .inr ⟨h_start, ?_⟩
    rw [← h_lens, h_announced]
    simp only [List.length_cons, List.length_append]
    omega
  obtain ⟨ext, s₂, rfl, h_ext⟩ := exists_piece (Nat.not_lt.mp h_short)
  obtain ⟨buf₂, h_recv, h_two⟩ := recvInto_filled (ε := Refused) 14 s₂ h_one
    (by rw [List.length_append, h_bytes, h_lens]) h_ext (by omega)
  have h_all : tmsgXferSegment :: flags :: (id ++ (lens ++ (ext ++ s₂))) =
      tmsgXferSegment :: flags :: id ++ lens ++ ext ++ s₂ := by simp
  rw [h_recv, Into.bind_got, h_all]
  refine recvXferSegmentHdrEnd_eq h_two ?_ (by omega) (fun h_len => ?_) (fun data h_data => ?_)
  · simp only [List.length_append, h_bytes]
    omega
  · rw [← h_all, xferSegment_need]
    refine .inr ⟨h_start, ?_⟩
    rw [← h_lens, h_announced]
    simp only [List.length_cons, List.length_append]
    omega
  · refine ⟨⟨flags, beNat id, ext, beNat data⟩, fun t => ?_⟩
    have h_used : 14 + beNat lens + 8 = 22 + ext.length := by omega
    rw [h_used, ← tcpv4MsgDecodeXferSegmentHdr_start t h_start h_id h_lens h_ext h_data]
    simp

/-- **The streaming reader of a segment header** gets what the decoder gets on the whole stream,
    unless the list of extension items that is announced is over the limit. -/
theorem recvXferSegmentHdrInto_eq {buf : Octets} (h_cap : buf.length = segHdrCap) (s : Octets) :
    recvXferSegmentHdrInto buf s =
      if xferExtOver s then .refused .extension
      else onStream tcpv4MsgDecodeXferSegmentHdr (tmsgXferSegment :: s) := by
  have h_room : segHdrCap = 1056 := rfl
  obtain ⟨buf₁, h_put, h_one⟩ := putInto_filled (ε := Refused) 0 s (Filled.empty buf) rfl
    (show 0 + [tmsgXferSegment].length ≤ buf.length by rw [h_cap, h_room]; simp)
  rw [recvXferSegmentHdrInto, h_put, Into.bind_got]
  rw [h_cap, List.nil_append] at h_one
  by_cases h_short : s.length < 9
  · rw [recvInto_short h_one (by omega) h_short, Into.bind_ended, if_neg, xferSegment_need]
    · exact .inl (by omega)
    · simp only [xferExtOver, Bool.and_eq_true, decide_eq_true_eq]
      omega
  obtain ⟨head, s₁, rfl, h_head⟩ := exists_piece (Nat.not_lt.mp h_short)
  obtain ⟨buf₂, h_recv, h_two⟩ := recvInto_filled (ε := Refused) 1 s₁ h_one rfl h_head (by omega)
  obtain ⟨flags, id, rfl⟩ : ∃ flags id, head = flags :: id :=
    List.exists_cons_of_length_eq_add_one h_head
  have h_id : id.length = 8 := by simpa using h_head
  have h_flags : buf₂.getD 1 0 = flags := h_two.octet [tmsgXferSegment] id rfl rfl
  rw [h_recv, Into.bind_got, h_flags]
  cases h_start : hasFlag flags tmsgFlagStart with
  | true => exact recvXferSegmentHdrExt_eq h_two h_id h_start s₁
  | false =>
    rw [if_neg Bool.false_ne_true, if_neg (by simp [xferExtOver, h_start])]
    refine recvXferSegmentHdrEnd_eq h_two (by simp [h_id]) (by omega) (fun h_len => ?_) ?_
    · refine xferSegment_need (s := flags :: id ++ s₁) (.inl ?_)
      rw [List.length_append, h_head]
      omega
    · intro data h_data
      exact ⟨_, fun t => tcpv4MsgDecodeXferSegmentHdr_next t h_start h_id h_data⟩

/-! ## SESS_INIT -/

/-- What a SESS_INIT's decoder accepts is all there. -/
theorem sessInit_length {s : Octets} {m : SessInit} {used : Nat}
    (h : tcpv4MsgDecodeSessInit s = .ok m used) :
    25 + beNat ((s.drop 19).take 2) +
      beNat ((s.drop (21 + beNat ((s.drop 19).take 2))).take 4) ≤ s.length := by
  obtain ⟨h_range, h_used, h_wire⟩ := lawful_sessInit.of_decode h
  have h_s : s = tmsgSessInit :: m.body ++ s.drop used := by
    conv_lhs => rw [← List.take_append_drop used s, ← h_wire]
    rfl
  have h_node : (s.drop 19).take 2 = beBytes 2 m.nodeId.length := by
    have h_split : s = (tmsgSessInit :: beBytes 2 m.keepalive ++ beBytes 8 m.segmentMru ++
        beBytes 8 m.transferMru) ++ (beBytes 2 m.nodeId.length ++
          (m.nodeId ++ (beBytes 4 m.sessExt.length ++ (m.sessExt ++ s.drop used)))) := by
      conv_lhs => rw [h_s]
      simp [SessInit.body]
    rw [h_split, List.drop_left' (by simp), List.take_left' (by simp)]
  have h_ext : (s.drop (21 + m.nodeId.length)).take 4 = beBytes 4 m.sessExt.length := by
    have h_split : s = (tmsgSessInit :: beBytes 2 m.keepalive ++ beBytes 8 m.segmentMru ++
        beBytes 8 m.transferMru ++ beBytes 2 m.nodeId.length ++ m.nodeId) ++
          (beBytes 4 m.sessExt.length ++ (m.sessExt ++ s.drop used)) := by
      conv_lhs => rw [h_s]
      simp [SessInit.body]
    rw [h_split, List.drop_left' (by simp; omega), List.take_left' (by simp)]
  rw [h_node, beNat_beBytes h_range.nodeId, h_ext, beNat_beBytes h_range.sessExt, h_s]
  simp only [SessInit.body, List.length_append, List.length_cons, length_beBytes]
  omega

/-- ... and it accepts what is all there. -/
theorem tcpv4MsgDecodeSessInit_pieces {keepalive segmentMru transferMru nodeLen nodeId extLen
    ext : Octets} (t : Octets) (h_keepalive : keepalive.length = 2)
    (h_segment : segmentMru.length = 8) (h_transfer : transferMru.length = 8)
    (h_nodeLen : nodeLen.length = 2) (h_node : nodeId.length = beNat nodeLen)
    (h_extLen : extLen.length = 4) (h_ext : ext.length = beNat extLen) :
    tcpv4MsgDecodeSessInit (tmsgSessInit :: (keepalive ++ (segmentMru ++ (transferMru ++
        (nodeLen ++ (nodeId ++ (extLen ++ (ext ++ t)))))))) =
      .ok ⟨beNat keepalive, beNat segmentMru, beNat transferMru, nodeId, ext⟩
        (25 + nodeId.length + ext.length) := by
  have h_nodeId := rBytes_append nodeId (extLen ++ (ext ++ t)) (0 + 1 + 2 + 8 + 8 + 2)
  have h_list := rBytes_append ext t (0 + 1 + 2 + 8 + 8 + 2 + nodeId.length + 4)
  unfold tcpv4MsgDecodeSessInit
  simp only [rInit, rU8_cons, rU16_append _ _ h_keepalive, rU64_append _ _ h_segment,
    rU64_append _ _ h_transfer, rU16_append _ _ h_nodeLen, ← h_node, h_nodeId,
    rU32_append _ _ h_extLen, ← h_ext, h_list]
  simp
  omega

/-- A SESS_INIT that is not all there is not accepted. -/
theorem sessInit_need {s : Octets} (h : s.length < 25 + beNat ((s.drop 19).take 2) +
      beNat ((s.drop (21 + beNat ((s.drop 19).take 2))).take 4)) :
    onStream tcpv4MsgDecodeSessInit s = .ended := by
  refine onStream_of_not_ok fun m used h_dec => ?_
  have h_all := sessInit_length h_dec
  omega

/-- The last step: everything has been read. -/
theorem sessInitOf_eq {buf bytes t : Octets} {cap off : Nat} (peer : SessInit)
    (h : Filled buf cap bytes) (h_off : bytes.length = off)
    (h_decode : ∀ t, tcpv4MsgDecodeSessInit (bytes ++ t) = .ok peer off) :
    sessInitOf buf off t = onStream tcpv4MsgDecodeSessInit (bytes ++ t) := by
  have h_take : buf.take off = bytes ++ [] := by
    rw [← h_off, h.front, List.append_nil]
  rw [sessInitOf, h_take, h_decode, onStream_of_ok (h_decode t), ← h_off, List.drop_left]
  exact if_pos rfl

/-- The list of extension items, behind a node ID within the limit. -/
theorem recvSessInitEnd_eq {buf bytes : Octets} {cap nodeIdLen : Nat} (h : Filled buf cap bytes)
    (h_bytes : bytes.length = 21 + nodeIdLen) (h_cap : cap = 21 + nodeIdLen + 4 + tcpv4MaxExtLen)
    (h_len : beNat ((bytes.drop 19).take 2) = nodeIdLen)
    (h_decode : ∀ lens ext, lens.length = 4 → ext.length = beNat lens →
      ∃ peer, ∀ t, tcpv4MsgDecodeSessInit (bytes ++ (lens ++ (ext ++ t))) =
        .ok peer (21 + nodeIdLen + 4 + ext.length)) (s : Octets) :
    recvSessInitEnd buf (21 + nodeIdLen) s =
      if sessExtOver (bytes ++ s) then .refused .extension
      else onStream tcpv4MsgDecodeSessInit (bytes ++ s) := by
  have h_fixed : beNat (((bytes ++ s).drop 19).take 2) = nodeIdLen := by
    rw [List.drop_append_of_le_length (by omega), List.take_append_of_le_length, h_len]
    rw [List.length_drop]
    omega
  have h_announced : ((bytes ++ s).drop (21 + nodeIdLen)).take 4 = s.take 4 := by
    rw [← h_bytes, List.drop_left]
  rw [recvSessInitEnd, sessExtOver, h_fixed]
  simp only [h_announced]
  by_cases h_short : s.length < 4
  · rw [recvInto_short h (by omega) h_short, Into.bind_ended, if_neg, sessInit_need]
    · rw [h_fixed, List.length_append]
      omega
    · simp only [Bool.and_eq_true, decide_eq_true_eq, List.length_append]
      omega
  obtain ⟨lens, s₁, rfl, h_lens⟩ := exists_piece (Nat.not_lt.mp h_short)
  have h_take : (lens ++ s₁).take 4 = lens := List.take_left' h_lens
  obtain ⟨buf₁, h_recv, h_one⟩ := recvInto_filled (ε := Refused) (21 + nodeIdLen) s₁ h h_bytes
    h_lens (by omega)
  have h_extLen : (buf₁.drop (21 + nodeIdLen)).take 4 = lens :=
    h_one.field _ [] (by rw [List.append_nil]) h_bytes h_lens
  rw [h_take] at h_announced
  rw [h_recv, Into.bind_got, h_take]
  simp only [h_extLen]
  by_cases h_over : beNat lens > tcpv4MaxExtLen
  · rw [if_pos h_over, if_pos]
    simp only [Bool.and_eq_true, decide_eq_true_eq, List.length_append]
    exact ⟨by omega, h_over⟩
  rw [if_neg h_over,
    recvInto_or (f := fun buf s => sessInitOf buf (21 + nodeIdLen + 4 + beNat lens) s)
      (by rw [h_one.size]; omega) (fun h_none => by rw [h_none]),
    if_neg (by simp [h_over])]
  by_cases h_short : s₁.length < beNat lens
  · rw [recvInto_short h_one (by omega) h_short, Into.bind_ended, sessInit_need]
    rw [h_fixed, h_announced]
    simp only [List.length_append]
    omega
  obtain ⟨ext, s₂, rfl, h_ext⟩ := exists_piece (Nat.not_lt.mp h_short)
  obtain ⟨buf₂, h_recv, h_two⟩ := recvInto_filled (ε := Refused) (21 + nodeIdLen + 4) s₂ h_one
    (by rw [List.length_append, h_bytes, h_lens]) h_ext (by omega)
  obtain ⟨peer, h_peer⟩ := h_decode lens ext h_lens h_ext
  have h_all : bytes ++ (lens ++ (ext ++ s₂)) = bytes ++ lens ++ ext ++ s₂ := by simp
  rw [h_recv, Into.bind_got, h_all]
  refine sessInitOf_eq peer h_two ?_ (fun t => ?_)
  · simp only [List.length_append, h_bytes]
    omega
  · rw [← h_ext, ← h_peer t]
    simp

/-- Behind the fixed part. -/
theorem recvSessInitNode_eq (mem : Bool) {fixed mrus : Octets}
    (h : Filled fixed sessInitFixedLen (tmsgSessInit :: mrus)) (h_mrus : mrus.length = 20)
    (s : Octets) :
    recvSessInitNode mem fixed s =
      if sessNodeIdOver (tmsgSessInit :: (mrus ++ s)) then .refused .nodeId
      else if !mem then .refused .noMemory
      else if sessExtOver (tmsgSessInit :: (mrus ++ s)) then .refused .extension
      else onStream tcpv4MsgDecodeSessInit (tmsgSessInit :: (mrus ++ s)) := by
  have h_room : sessInitFixedLen = 21 := rfl
  have h_max : tcpv4MaxNodeIdLen = 256 := rfl
  obtain ⟨nums, nodeLen, rfl, h_nums⟩ := exists_piece (show 18 ≤ mrus.length by omega)
  rw [List.length_append, h_nums] at h_mrus
  have h_bytes : (tmsgSessInit :: (nums ++ nodeLen)).length = 21 := by
    rw [List.length_cons, List.length_append]
    omega
  have h_whole : fixed.take sessInitFixedLen = tmsgSessInit :: (nums ++ nodeLen) := by
    have h_front := h.front
    rwa [h_bytes] at h_front
  have h_nodeLen : (fixed.drop 19).take 2 = nodeLen :=
    h.field (tmsgSessInit :: nums) [] (by simp) (by simp [h_nums]) (by omega)
  have h_announced : ((tmsgSessInit :: (nums ++ nodeLen ++ s)).drop 19).take 2 = nodeLen := by
    rw [List.drop_succ_cons, List.append_assoc, ← h_nums, List.drop_left,
      List.take_left' (by omega)]
  have h_nodeId : sessNodeIdOver (tmsgSessInit :: (nums ++ nodeLen ++ s)) =
      decide (beNat nodeLen ≥ tcpv4MaxNodeIdLen) := by
    have h_fixed : decide (21 ≤ (tmsgSessInit :: (nums ++ nodeLen ++ s)).length) = true := by
      rw [decide_eq_true_eq, List.length_cons, List.length_append, List.length_append]
      omega
    rw [sessNodeIdOver, h_announced, h_fixed, Bool.true_and]
  rw [recvSessInitNode, h_nodeId]
  simp only [h_nodeLen, h_whole]
  by_cases h_over : beNat nodeLen ≥ tcpv4MaxNodeIdLen
  · rw [if_pos h_over, if_pos (decide_eq_true h_over)]
  have h_within : ¬ decide (beNat nodeLen ≥ tcpv4MaxNodeIdLen) = true := by simpa using h_over
  rw [if_neg h_over, if_neg h_within]
  cases mem with
  | false => rfl
  | true =>
    simp only [Bool.not_true, Bool.false_eq_true, if_false]
    obtain ⟨buf, h_put, h_buf⟩ := putInto_filled (ε := Refused) 0 s
      (Filled.empty (List.replicate (sessInitFixedLen + beNat nodeLen + 4 + tcpv4MaxExtLen) 0)) rfl
      (show 0 + (tmsgSessInit :: (nums ++ nodeLen)).length ≤ _ by
        rw [h_bytes, List.length_replicate]
        omega)
    rw [List.nil_append, List.length_replicate] at h_buf
    rw [h_put, Into.bind_got,
      recvInto_or (f := fun buf s => recvSessInitEnd buf (sessInitFixedLen + beNat nodeLen) s)
        (by rw [h_buf.size]; omega) (fun h_none => by rw [h_none, Nat.add_zero])]
    by_cases h_short : s.length < beNat nodeLen
    · -- The stream ends within the node ID.
      have h_len : (tmsgSessInit :: (nums ++ nodeLen ++ s)).length < 25 + beNat nodeLen := by
        rw [List.length_cons, List.length_append, List.length_append]
        omega
      rw [recvInto_short h_buf (by omega) h_short, Into.bind_ended, if_neg, sessInit_need]
      · rw [h_announced]
        omega
      · rw [sessExtOver, h_announced]
        simp only [Bool.and_eq_true, decide_eq_true_eq]
        omega
    obtain ⟨nodeId, s₁, rfl, h_nodeIdLen⟩ := exists_piece (Nat.not_lt.mp h_short)
    obtain ⟨buf₁, h_recv, h_one⟩ := recvInto_filled (ε := Refused) sessInitFixedLen s₁ h_buf
      (h_bytes.trans h_room.symm) h_nodeIdLen (by omega)
    have h_all : tmsgSessInit :: (nums ++ nodeLen ++ (nodeId ++ s₁)) =
        tmsgSessInit :: (nums ++ nodeLen) ++ nodeId ++ s₁ := by simp
    rw [h_recv, Into.bind_got, h_all]
    refine recvSessInitEnd_eq h_one ?_ rfl ?_ (fun lens ext h_lens h_ext => ?_) s₁
    · rw [List.length_append, h_bytes, h_nodeIdLen]
    · rw [List.append_assoc] at h_announced
      have h_split : tmsgSessInit :: (nums ++ nodeLen) ++ nodeId =
          tmsgSessInit :: nums ++ (nodeLen ++ nodeId) := by simp
      rw [h_split, List.drop_left' (by simp [h_nums]), List.take_left' (by omega)]
    · obtain ⟨keepalive, mrus, rfl, h_keepalive⟩ := exists_piece (show 2 ≤ nums.length by omega)
      rw [List.length_append, h_keepalive] at h_nums
      obtain ⟨segmentMru, transferMru, rfl, h_segment⟩ := exists_piece (show 8 ≤ mrus.length by omega)
      rw [List.length_append, h_segment] at h_nums
      refine ⟨⟨beNat keepalive, beNat segmentMru, beNat transferMru, nodeId, ext⟩, fun t => ?_⟩
      have h_used : 21 + beNat nodeLen + 4 + ext.length = 25 + nodeId.length + ext.length := by omega
      rw [h_used, ← tcpv4MsgDecodeSessInit_pieces t h_keepalive h_segment (by omega) (by omega)
        h_nodeIdLen h_lens h_ext]
      simp

/-- What `recvSessInit` comes to on a stream. -/
def sessInitAnswer (mem : Bool) : Octets → Into Refused SessInit
  | [] => .ended
  | type :: s =>
    if type ≠ tmsgSessInit then .refused (.unexpected type)
    else if sessNodeIdOver (type :: s) then .refused .nodeId
    else if 20 ≤ s.length && !mem then .refused .noMemory
    else if sessExtOver (type :: s) then .refused .extension
    else onStream tcpv4MsgDecodeSessInit (type :: s)

/-- **The streaming reader of a SESS_INIT** gets what the decoder gets on the whole stream,
    unless a node ID or a list of extension items is announced that is over the limit, another
    message comes, or there is no memory for it. -/
theorem recvSessInitInto_eq (mem : Bool) {fixed : Octets}
    (h_cap : fixed.length = sessInitFixedLen) (s : Octets) :
    recvSessInitInto mem fixed s = sessInitAnswer mem s := by
  have h_room : sessInitFixedLen = 21 := rfl
  cases s with
  | nil =>
    rw [recvSessInitInto, recvInto_short (Filled.empty fixed) (by omega) (by simp)]
    rfl
  | cons type s =>
    obtain ⟨fixed₁, h_recv, h_one⟩ := recvInto_filled (ε := Refused) 0 s (Filled.empty fixed) rfl
      (show [type].length = 1 from rfl) (by omega)
    rw [h_cap, List.nil_append] at h_one
    have h_type : fixed₁.getD 0 0 = type := h_one.octet [] [] rfl rfl
    rw [List.singleton_append] at h_recv
    rw [recvSessInitInto, h_recv, Into.bind_got, sessInitAnswer]
    simp only [h_type]
    by_cases h_is : type ≠ tmsgSessInit
    · rw [if_pos h_is, if_pos h_is]
    obtain rfl : type = tmsgSessInit := not_not.mp h_is
    rw [if_neg h_is, if_neg h_is]
    by_cases h_short : s.length < 20
    · -- The stream ends within the fixed part.
      rw [recvInto_short h_one (by omega) h_short, Into.bind_ended, if_neg, if_neg, if_neg,
        sessInit_need]
      · rw [List.length_cons]
        omega
      · simp only [sessExtOver, Bool.and_eq_true, decide_eq_true_eq, List.length_cons]
        omega
      · simp only [Bool.and_eq_true, decide_eq_true_eq]
        omega
      · simp only [sessNodeIdOver, Bool.and_eq_true, decide_eq_true_eq, List.length_cons]
        omega
    obtain ⟨mrus, s₁, rfl, h_mrus⟩ := exists_piece (Nat.not_lt.mp h_short)
    obtain ⟨fixed₂, h_recv, h_two⟩ := recvInto_filled (ε := Refused) 1 s₁ h_one rfl h_mrus
      (by omega)
    rw [List.singleton_append] at h_two
    rw [h_recv, Into.bind_got, recvSessInitNode_eq mem h_two h_mrus]
    have h_len : decide (20 ≤ (mrus ++ s₁).length) = true := by
      rw [decide_eq_true_eq, List.length_append]
      omega
    rw [h_len, Bool.true_and]

/-! ## The readers without their buffers -/

theorem recvXferSegmentHdrEnd_toRecv {buf bytes s : Octets} {cap off : Nat}
    (h : Filled buf cap bytes) (h_off : bytes.length = off) (h_room : off + 8 ≤ cap) :
    (recvXferSegmentHdrEnd buf off s).toRecv =
      (tcpv4ConnRecv 8 s).bind fun dataLen s => xferSegmentHdrOf cap (bytes ++ dataLen) s := by
  refine toRecv_bind_recvInto h h_off h_room fun buf' piece t h_buf h_piece => ?_
  have h_len : (bytes ++ piece).length = off + 8 := by
    rw [List.length_append, h_off, h_piece]
  have h_take : buf'.take (off + 8) = bytes ++ piece := by
    rw [← h_len, h_buf.front]
  simp only
  rw [h_take, h_buf.size, xferSegmentHdrOf, h_len, if_neg (by omega), if_neg (by omega)]
  cases tcpv4MsgDecodeXferSegmentHdr (bytes ++ piece) with
  | need => rfl
  | bad => rfl
  | ok seg used =>
    simp only
    split <;> rfl

/-- `recvXferSegmentHdr` on the pieces alone is what it is in its buffer. -/
theorem recvXferSegmentHdrInto_toRecv {buf : Octets} (h_cap : buf.length = segHdrCap)
    (s : Octets) : (recvXferSegmentHdrInto buf s).toRecv = recvXferSegmentHdr segHdrCap s := by
  have h_room : segHdrCap = 1056 := rfl
  have h_max : tcpv4MaxExtLen = 1024 := rfl
  obtain ⟨buf₁, h_put, h_one⟩ := putInto_filled (ε := Refused) 0 s (Filled.empty buf) rfl
    (show 0 + [tmsgXferSegment].length ≤ buf.length by rw [h_cap, h_room]; simp)
  rw [recvXferSegmentHdrInto, h_put, Into.bind_got]
  rw [h_cap, List.nil_append] at h_one
  refine toRecv_bind_recvInto h_one rfl (by omega) fun buf₂ head s₁ h_two h_head => ?_
  have h_flags : buf₂.getD 1 0 = head.headD 0 := by
    obtain ⟨flags, id, rfl⟩ := List.exists_cons_of_length_eq_add_one h_head
    exact h_two.octet [tmsgXferSegment] id rfl rfl
  have h_len : ([tmsgXferSegment] ++ head).length = 10 := by
    rw [List.length_append, h_head]
    rfl
  simp only [h_flags]
  by_cases h_start : hasFlag (head.headD 0) tmsgFlagStart = true
  · rw [if_pos h_start, if_pos h_start]
    refine toRecv_bind_recvInto h_two h_len (by omega) fun buf₃ lens s₂ h_three h_lens => ?_
    have h_extLen : (buf₃.drop 10).take 4 = lens :=
      h_three.field _ [] (by rw [List.append_nil]) h_len h_lens
    simp only [h_extLen]
    by_cases h_over : beNat lens > tcpv4MaxExtLen
    · rw [if_pos h_over, if_pos h_over]
      rfl
    · rw [if_neg h_over, if_neg h_over,
        recvInto_or (f := fun buf s => recvXferSegmentHdrEnd buf (14 + beNat lens) s)
          (by rw [h_three.size]; omega) (fun h_none => by rw [h_none])]
      have h_off : ([tmsgXferSegment] ++ head ++ lens).length = 14 := by
        rw [List.length_append, h_len, h_lens]
      refine toRecv_bind_recvInto h_three h_off (by omega) fun buf₄ ext s₃ h_four h_ext => ?_
      have h_all : ([tmsgXferSegment] ++ head ++ lens ++ ext).length = 14 + beNat lens := by
        rw [List.length_append, h_off, h_ext]
      exact recvXferSegmentHdrEnd_toRecv h_four h_all (by omega)
  · rw [if_neg h_start, if_neg h_start]
    exact recvXferSegmentHdrEnd_toRecv h_two h_len (by omega)

theorem sessInitOf_toRecv {buf bytes s : Octets} {cap off : Nat} (h : Filled buf cap bytes)
    (h_off : bytes.length = off) :
    (sessInitOf buf off s).toRecv =
      match tcpv4MsgDecodeSessInit bytes with
      | .ok peer used => if used = bytes.length then .got peer s else .fail
      | _ => .fail := by
  have h_take : buf.take off = bytes := by rw [← h_off, h.front]
  rw [sessInitOf, h_take, h_off]
  cases tcpv4MsgDecodeSessInit bytes with
  | need => rfl
  | bad => rfl
  | ok peer used =>
    simp only
    split <;> rfl

/-- The same of `recvSessInit`, as long as there is memory. -/
theorem recvSessInitInto_toRecv {fixed : Octets} (h_cap : fixed.length = sessInitFixedLen)
    (s : Octets) : (recvSessInitInto true fixed s).toRecv = recvSessInit s := by
  have h_room : sessInitFixedLen = 21 := rfl
  have h_max : tcpv4MaxNodeIdLen = 256 := rfl
  have h_empty := Filled.empty fixed
  rw [h_cap] at h_empty
  refine toRecv_bind_recvInto h_empty rfl (by omega) fun fixed₁ piece s₁ h_one h_piece => ?_
  obtain ⟨type, rfl⟩ : ∃ type, piece = [type] := List.length_eq_one_iff.mp h_piece
  have h_type : fixed₁.getD 0 0 = type := h_one.octet [] [] rfl rfl
  simp only [h_type]
  by_cases h_is : type ≠ tmsgSessInit
  · rw [if_pos h_is, if_pos (by simpa using h_is)]
    rfl
  obtain rfl : type = tmsgSessInit := not_not.mp h_is
  rw [if_neg h_is, if_neg (by simp)]
  refine toRecv_bind_recvInto h_one rfl (by omega) fun fixed₂ mrus s₂ h_two h_mrus => ?_
  have h_len : ([] ++ [tmsgSessInit] ++ mrus).length = 21 := by simp [h_mrus]
  have h_whole : fixed₂.take sessInitFixedLen = [] ++ [tmsgSessInit] ++ mrus := by
    rw [h_room, ← h_len, h_two.front]
  have h_nodeLen : (fixed₂.drop 19).take 2 = mrus.drop 18 :=
    h_two.field ([tmsgSessInit] ++ mrus.take 18) [] (by simp) (by simp; omega) (by simp; omega)
  rw [recvSessInitNode, recvSessInitRest]
  simp only [h_nodeLen, h_whole]
  by_cases h_over : beNat (mrus.drop 18) ≥ tcpv4MaxNodeIdLen
  · rw [if_pos h_over, if_pos h_over]
    rfl
  rw [if_neg h_over, if_neg h_over]
  simp only [Bool.not_true, Bool.false_eq_true, if_false]
  generalize h_n : beNat (mrus.drop 18) = nodeIdLen at h_over ⊢
  obtain ⟨buf, h_put, h_buf⟩ := putInto_filled (ε := Refused) 0 s₂
    (Filled.empty (List.replicate (sessInitFixedLen + nodeIdLen + 4 + tcpv4MaxExtLen) 0)) rfl
    (show 0 + ([] ++ [tmsgSessInit] ++ mrus).length ≤ _ by
      rw [h_len, List.length_replicate]
      omega)
  rw [List.nil_append, List.length_replicate] at h_buf
  rw [h_put, Into.bind_got,
    recvInto_or (f := fun buf s => recvSessInitEnd buf (sessInitFixedLen + nodeIdLen) s)
      (by rw [h_buf.size]; omega) (fun h_none => by rw [h_none, Nat.add_zero])]
  refine toRecv_bind_recvInto h_buf (h_len.trans h_room.symm) (by omega)
    fun buf₁ nodeId s₃ h_node h_nodeId => ?_
  have h_off : ([] ++ [tmsgSessInit] ++ mrus ++ nodeId).length = sessInitFixedLen + nodeIdLen := by
    rw [List.length_append, h_len, h_nodeId, h_room]
  refine toRecv_bind_recvInto h_node h_off (by omega) fun buf₂ lens s₄ h_four h_lens => ?_
  have h_extLen : (buf₂.drop (sessInitFixedLen + nodeIdLen)).take 4 = lens :=
    h_four.field _ [] (by rw [List.append_nil]) h_off h_lens
  simp only [h_extLen]
  by_cases h_ext : beNat lens > tcpv4MaxExtLen
  · rw [if_pos h_ext, if_pos h_ext]
    rfl
  rw [if_neg h_ext, if_neg h_ext,
    recvInto_or (f := fun buf s => sessInitOf buf (sessInitFixedLen + nodeIdLen + 4 + beNat lens) s)
      (by rw [h_four.size]; omega) (fun h_none => by rw [h_none, Nat.add_zero])]
  have h_end : ([] ++ [tmsgSessInit] ++ mrus ++ nodeId ++ lens).length =
      sessInitFixedLen + nodeIdLen + 4 := by
    rw [List.length_append, h_off, h_lens]
  refine toRecv_bind_recvInto h_four h_end (by omega) fun buf₃ ext s₅ h_five h_piece => ?_
  refine (sessInitOf_toRecv h_five ?_).trans rfl
  rw [List.length_append, h_end, h_piece]

/-! ## The readers and the codec -/

/-- With its tag in front, a message is never malformed to its decoder. -/
theorem tagged_ne_bad {μ : Type} (tag s : Octets) (fields : Reader → μ × Reader) :
    tagged tag fields (tag ++ s) ≠ .bad := by
  rw [tagged, if_neg (by rw [List.length_append]; omega), List.take_left,
    if_neg (not_not_intro rfl)]
  by_cases h_ok : (fields ⟨(tag ++ s).drop tag.length, tag.length, true⟩).2.ok = true
  · rw [if_pos h_ok]
    intro h
    cases h
  · rw [if_neg h_ok]
    intro h
    cases h

/-- **The streaming readers agree with the codec.**  On every stream each gets the message that
    the decoder gets and leaves what the decoder does not take; it gives up on a stream that has
    not ended only over a limit of this end or, for a SESS_INIT, because another message comes
    or there is no memory; and it writes inside of its buffers. -/
theorem streaming_readers (mem : Bool) {buf fixed : Octets} (h_buf : buf.length = segHdrCap)
    (h_fixed : fixed.length = sessInitFixedLen) (s : Octets) :
    (recvXferSegmentHdrInto buf s =
        if xferExtOver s then .refused .extension
        else onStream tcpv4MsgDecodeXferSegmentHdr (tmsgXferSegment :: s)) ∧
      recvSessInitInto mem fixed s = sessInitAnswer mem s ∧
      tcpv4MsgDecodeXferSegmentHdr (tmsgXferSegment :: s) ≠ .bad ∧
      tcpv4MsgDecodeSessInit (tmsgSessInit :: s) ≠ .bad := by
  refine ⟨recvXferSegmentHdrInto_eq h_buf s, recvSessInitInto_eq mem h_fixed s, ?_, ?_⟩
  · rw [tcpv4MsgDecodeXferSegmentHdr_eq]
    exact tagged_ne_bad [tmsgXferSegment] s _
  · rw [tcpv4MsgDecodeSessInit_eq]
    exact tagged_ne_bad [tmsgSessInit] s _

/-- On two octets, which are no whole message of either kind. -/
theorem streaming_readers_short :
    (recvXferSegmentHdrInto (List.replicate segHdrCap 0) [0x04, 0x00] =
        if xferExtOver [0x04, 0x00] then .refused .extension
        else onStream tcpv4MsgDecodeXferSegmentHdr (tmsgXferSegment :: [0x04, 0x00])) ∧
      recvSessInitInto true (List.replicate sessInitFixedLen 0) [0x04, 0x00] =
        sessInitAnswer true [0x04, 0x00] ∧
      tcpv4MsgDecodeXferSegmentHdr (tmsgXferSegment :: [0x04, 0x00]) ≠ .bad ∧
      tcpv4MsgDecodeSessInit (tmsgSessInit :: [0x04, 0x00]) ≠ .bad :=
  streaming_readers true List.length_replicate List.length_replicate [0x04, 0x00]

/-- A stream that begins with a SESS_TERM is given up on though nothing in it is over a limit,
    and it has not ended. -/
theorem sessInit_unexpected :
    recvSessInitInto true (List.replicate sessInitFixedLen 0) [tmsgSessTerm, 0, 0] =
        .refused (.unexpected tmsgSessTerm) ∧
      ¬ ∀ mem fixed s why, fixed.length = sessInitFixedLen →
        recvSessInitInto mem fixed s = .refused why → why = .nodeId ∨ why = .extension := by
  have h_refused : recvSessInitInto true (List.replicate sessInitFixedLen 0) [tmsgSessTerm, 0, 0] =
      .refused (.unexpected tmsgSessTerm) := by decide
  refine ⟨h_refused, fun h_all => ?_⟩
  rcases h_all _ _ _ _ List.length_replicate h_refused with h | h
  · cases h
  · cases h

end IonContrib.Tcpv4
