/-
  IonContrib.Tcpv4.Codec

  The whole TCPCLv4 wire format.  Each decoder is a tag and the fields behind
  it (`decodeXferAck_eq` and its like), each encoder writes the tag and the
  same fields, so the laws of a format hold of every message
  (`tcpv4_codec_lawful`): round trip with anything behind, one encoding per
  message, and no decision on a message that is not complete.

  A KEEPALIVE has no decoder: its type octet is all there is.
-/
import IonContrib.Fields
import IonContrib.Tcpv4.Negotiate

namespace IonContrib.Tcpv4

open Octets

structure SessInit.InRange (m : SessInit) : Prop where
  keepalive : m.keepalive < 256 ^ 2
  segmentMru : m.segmentMru < 256 ^ 8
  transferMru : m.transferMru < 256 ^ 8
  nodeId : m.nodeId.length < 256 ^ 2
  sessExt : m.sessExt.length < 256 ^ 4

structure XferSegment.InRange (m : XferSegment) : Prop where
  transferId : m.transferId < 256 ^ 8
  dataLength : m.dataLength < 256 ^ 8
  xferExt : m.xferExt.length < 256 ^ 4
  /-- Only START has a list of extension items. -/
  start : m.isStart = false → m.xferExt = []

structure XferAck.InRange (m : XferAck) : Prop where
  transferId : m.transferId < 256 ^ 8
  ackLength : m.ackLength < 256 ^ 8

def XferRefuse.InRange (m : XferRefuse) : Prop := m.transferId < 256 ^ 8

/-! ## Fields -/

def sessInitFields : Reader → SessInit × Reader :=
  Reader.andThen rU16 fun keepalive => Reader.andThen rU64 fun segmentMru =>
    Reader.andThen rU64 fun transferMru => Reader.andThen (counted rU16) fun nodeId =>
      Reader.andThen (counted rU32) fun sessExt r =>
        (⟨keepalive, segmentMru, transferMru, nodeId, sessExt⟩, r)

def SessInit.body (m : SessInit) : Octets :=
  beBytes 2 m.keepalive ++ (beBytes 8 m.segmentMru ++ (beBytes 8 m.transferMru ++
    (beBytes 2 m.nodeId.length ++ m.nodeId ++ (beBytes 4 m.sessExt.length ++ m.sessExt))))

theorem field_sessInit : Field sessInitFields SessInit.body SessInit.InRange := by
  refine Field.congr (Field.u16.andThen SessInit.keepalive (fun keepalive =>
    Field.u64.andThen SessInit.segmentMru (fun segmentMru =>
      Field.u64.andThen SessInit.transferMru (fun transferMru =>
        (field_counted Field.u16).andThen SessInit.nodeId (fun nodeId =>
          (field_counted Field.u32).andThen SessInit.sessExt (fun sessExt =>
            Field.done (SessInit.mk keepalive segmentMru transferMru nodeId sessExt)) ?_) ?_) ?_) ?_) ?_)
    (fun m _ => ?_) (fun m => ?_)
  · rintro sessExt m rfl
    rfl
  · rintro nodeId m ⟨-, h_m⟩
    rw [h_m]
  · rintro transferMru m ⟨-, -, h_m⟩
    rw [h_m]
  · rintro segmentMru m ⟨-, -, -, h_m⟩
    rw [h_m]
  · rintro keepalive m ⟨-, -, -, -, h_m⟩
    rw [h_m]
  · simp [SessInit.body]
  · constructor
    · rintro ⟨h_keepalive, h_segment, h_transfer, h_node, h_ext, -⟩
      exact ⟨h_keepalive, h_segment, h_transfer, h_node, h_ext⟩
    · rintro ⟨h_keepalive, h_segment, h_transfer, h_node, h_ext⟩
      exact ⟨h_keepalive, h_segment, h_transfer, h_node, h_ext, rfl⟩

/-- The list of extension items that only START has. -/
def xferExtField (flags : UInt8) : Reader → Octets × Reader :=
  if hasFlag flags tmsgFlagStart then counted rU32 else fun r => ([], r)

theorem field_xferExt (flags : UInt8) : Field (xferExtField flags)
    (fun ext => if hasFlag flags tmsgFlagStart then beBytes 4 ext.length ++ ext else [])
    (fun ext => ext.length < 256 ^ 4 ∧ (hasFlag flags tmsgFlagStart = false → ext = [])) := by
  unfold xferExtField
  cases h_start : hasFlag flags tmsgFlagStart with
  | true =>
    refine (field_counted Field.u32).congr (fun _ _ => rfl) fun ext => ?_
    exact (and_iff_left nofun).symm
  | false =>
    refine (Field.done []).congr (fun _ _ => rfl) fun ext => ?_
    refine ⟨?_, fun h => h.2 rfl⟩
    rintro rfl
    exact ⟨by decide, fun _ => rfl⟩

def xferSegmentFields : Reader → XferSegment × Reader :=
  Reader.andThen rU8 fun flags => Reader.andThen rU64 fun transferId =>
    Reader.andThen (xferExtField flags) fun xferExt => Reader.andThen rU64 fun dataLength r =>
      (⟨flags, transferId, xferExt, dataLength⟩, r)

theorem field_xferSegment : Field xferSegmentFields XferSegment.body XferSegment.InRange := by
  refine Field.congr (Field.u8.andThen XferSegment.flags (fun flags =>
    Field.u64.andThen XferSegment.transferId (fun transferId =>
      (field_xferExt flags).andThen XferSegment.xferExt (fun xferExt =>
        Field.u64.andThen XferSegment.dataLength (fun dataLength =>
          Field.done (XferSegment.mk flags transferId xferExt dataLength)) ?_) ?_) ?_) ?_)
    (fun m _ => ?_) (fun m => ?_)
  · rintro dataLength m rfl
    rfl
  · rintro xferExt m ⟨-, h_m⟩
    rw [h_m]
  · rintro transferId m ⟨-, -, h_m⟩
    rw [h_m]
  · rintro flags m ⟨-, -, -, h_m⟩
    rw [h_m]
  · unfold XferSegment.body XferSegment.isStart
    cases hasFlag m.flags tmsgFlagStart <;> simp
  · constructor
    · rintro ⟨-, h_id, ⟨h_ext, h_start⟩, h_data, -⟩
      exact ⟨h_id, h_data, h_ext, h_start⟩
    · rintro ⟨h_id, h_data, h_ext, h_start⟩
      exact ⟨trivial, h_id, ⟨h_ext, h_start⟩, h_data, rfl⟩

def xferAckFields : Reader → XferAck × Reader :=
  Reader.andThen rU8 fun flags => Reader.andThen rU64 fun transferId =>
    Reader.andThen rU64 fun ackLength r => (⟨flags, transferId, ackLength⟩, r)

theorem field_xferAck : Field xferAckFields XferAck.body XferAck.InRange := by
  refine Field.congr (Field.u8.andThen XferAck.flags (fun flags =>
    Field.u64.andThen XferAck.transferId (fun transferId =>
      Field.u64.andThen XferAck.ackLength (fun ackLength =>
        Field.done (XferAck.mk flags transferId ackLength)) ?_) ?_) ?_)
    (fun m _ => ?_) (fun m => ?_)
  · rintro ackLength m rfl
    rfl
  · rintro transferId m ⟨-, h_m⟩
    rw [h_m]
  · rintro flags m ⟨-, -, h_m⟩
    rw [h_m]
  · simp [XferAck.body]
  · constructor
    · rintro ⟨-, h_id, h_len, -⟩
      exact ⟨h_id, h_len⟩
    · rintro ⟨h_id, h_len⟩
      exact ⟨trivial, h_id, h_len, rfl⟩

def xferRefuseFields : Reader → XferRefuse × Reader :=
  Reader.andThen rU8 fun reason => Reader.andThen rU64 fun transferId r => (⟨reason, transferId⟩, r)

theorem field_xferRefuse : Field xferRefuseFields XferRefuse.body XferRefuse.InRange := by
  refine Field.congr (Field.u8.andThen XferRefuse.reason (fun reason =>
    Field.u64.andThen XferRefuse.transferId (fun transferId =>
      Field.done (XferRefuse.mk reason transferId)) ?_) ?_) (fun m _ => ?_) (fun m => ?_)
  · rintro transferId m rfl
    rfl
  · rintro reason m ⟨-, h_m⟩
    rw [h_m]
  · simp [XferRefuse.body]
  · exact ⟨fun h => h.2.1, fun h => ⟨trivial, h, rfl⟩⟩

def sessTermFields : Reader → SessTerm × Reader :=
  Reader.andThen rU8 fun flags => Reader.andThen rU8 fun reason r => (⟨flags, reason⟩, r)

theorem field_sessTerm : Field sessTermFields (fun m => [m.flags, m.reason]) fun _ => True := by
  refine Field.congr (Field.u8.andThen SessTerm.flags
    (fun flags => Field.u8.andThen SessTerm.reason
      (fun reason => Field.done (SessTerm.mk flags reason)) ?_) ?_)
    (fun _ _ => rfl) (fun _ => by simp)
  · rintro reason m rfl
    rfl
  · rintro flags m ⟨-, h_m⟩
    rw [h_m]

def msgRejectFields : Reader → MsgReject × Reader :=
  Reader.andThen rU8 fun reason => Reader.andThen rU8 fun rejectedType r =>
    (⟨reason, rejectedType⟩, r)

theorem field_msgReject :
    Field msgRejectFields (fun m => [m.reason, m.rejectedType]) fun _ => True := by
  refine Field.congr (Field.u8.andThen MsgReject.reason
    (fun reason => Field.u8.andThen MsgReject.rejectedType
      (fun rejectedType => Field.done (MsgReject.mk reason rejectedType)) ?_) ?_)
    (fun _ _ => rfl) (fun _ => by simp)
  · rintro rejectedType m rfl
    rfl
  · rintro reason m ⟨-, h_m⟩
    rw [h_m]

/-! ## Decoders -/

section

-- The decoders are compared as they are written, not by running the readers.
attribute [local irreducible] rU8 rU16 rU32 rU64 rBytes hasFlag

private theorem need_unless {μ : Type} (ok : Bool) (d : Decoded μ) :
    (if (!ok) = true then Decoded.need else d) = if ok = true then d else .need := by
  cases ok <;> rfl

theorem tcpv4MsgDecodeSessInit_eq :
    tcpv4MsgDecodeSessInit = tagged [tmsgSessInit] sessInitFields := by
  funext buf
  rw [tagged_type (by decide)]
  unfold tcpv4MsgDecodeSessInit
  exact if_congr Iff.rfl rfl (need_unless _ _)

theorem tcpv4MsgDecodeXferSegmentHdr_eq :
    tcpv4MsgDecodeXferSegmentHdr = tagged [tmsgXferSegment] xferSegmentFields := by
  funext buf
  rw [tagged_type (by decide)]
  unfold tcpv4MsgDecodeXferSegmentHdr
  refine if_congr Iff.rfl rfl ?_
  unfold xferSegmentFields Reader.andThen xferExtField
  rcases rU8 (rU8 (rInit buf)).2 with ⟨flags, r⟩
  dsimp only
  cases hasFlag flags tmsgFlagStart with
  | true => exact (if_pos rfl).trans (need_unless _ _)
  | false => exact (if_neg Bool.false_ne_true).trans (need_unless _ _)

theorem tcpv4MsgDecodeXferAck_eq :
    tcpv4MsgDecodeXferAck = tagged [tmsgXferAck] xferAckFields := by
  funext buf
  rw [tagged_type (by decide)]
  rfl

theorem tcpv4MsgDecodeXferRefuse_eq :
    tcpv4MsgDecodeXferRefuse = tagged [tmsgXferRefuse] xferRefuseFields := by
  funext buf
  rw [tagged_type (by decide)]
  rfl

theorem tcpv4MsgDecodeSessTerm_eq :
    tcpv4MsgDecodeSessTerm = tagged [tmsgSessTerm] sessTermFields := by
  funext buf
  rw [tagged_type (by decide)]
  rfl

theorem tcpv4MsgDecodeMsgReject_eq :
    tcpv4MsgDecodeMsgReject = tagged [tmsgMsgReject] msgRejectFields := by
  funext buf
  rw [tagged_type (by decide)]
  rfl

end

/-! ## Encoders -/

theorem wrote_sessInit (cap : Nat) (m : SessInit) :
    ∃ w : Writer, tcpv4MsgEncodeSessInit cap m = w.result ∧ w.Wrote cap ([tmsgSessInit] ++ m.body) := by
  have h := ((((((((wInit_wrote cap).u8 tmsgSessInit).u16 m.keepalive).u64 m.segmentMru).u64
    m.transferMru).u16 m.nodeId.length).bytes m.nodeId).u32 m.sessExt.length).bytes m.sessExt
  exact ⟨_, rfl, by simpa [SessInit.body] using h⟩

theorem wrote_xferSegment (cap : Nat) (m : XferSegment) :
    ∃ w : Writer, tcpv4MsgEncodeXferSegmentHdr cap m = w.result ∧
      w.Wrote cap ([tmsgXferSegment] ++ m.body) := by
  have h := (((wInit_wrote cap).u8 tmsgXferSegment).u8 m.flags).u64 m.transferId
  unfold tcpv4MsgEncodeXferSegmentHdr XferSegment.body
  cases m.isStart with
  | true =>
    have h_ext := ((h.u32 m.xferExt.length).bytes m.xferExt).u64 m.dataLength
    exact ⟨_, rfl, by simpa using h_ext⟩
  | false => exact ⟨_, rfl, by simpa using h.u64 m.dataLength⟩

theorem wrote_xferAck (cap : Nat) (m : XferAck) :
    ∃ w : Writer, tcpv4MsgEncodeXferAck cap m = w.result ∧ w.Wrote cap ([tmsgXferAck] ++ m.body) := by
  have h := ((((wInit_wrote cap).u8 tmsgXferAck).u8 m.flags).u64 m.transferId).u64 m.ackLength
  exact ⟨_, rfl, by simpa [XferAck.body] using h⟩

theorem wrote_xferRefuse (cap : Nat) (m : XferRefuse) :
    ∃ w : Writer, tcpv4MsgEncodeXferRefuse cap m = w.result ∧
      w.Wrote cap ([tmsgXferRefuse] ++ m.body) := by
  have h := (((wInit_wrote cap).u8 tmsgXferRefuse).u8 m.reason).u64 m.transferId
  exact ⟨_, rfl, by simpa [XferRefuse.body] using h⟩

theorem wrote_sessTerm (cap : Nat) (m : SessTerm) :
    ∃ w : Writer, tcpv4MsgEncodeSessTerm cap m = w.result ∧
      w.Wrote cap ([tmsgSessTerm] ++ [m.flags, m.reason]) := by
  have h := (((wInit_wrote cap).u8 tmsgSessTerm).u8 m.flags).u8 m.reason
  exact ⟨_, rfl, by simpa using h⟩

theorem wrote_msgReject (cap : Nat) (m : MsgReject) :
    ∃ w : Writer, tcpv4MsgEncodeMsgReject cap m = w.result ∧
      w.Wrote cap ([tmsgMsgReject] ++ [m.reason, m.rejectedType]) := by
  have h := (((wInit_wrote cap).u8 tmsgMsgReject).u8 m.reason).u8 m.rejectedType
  exact ⟨_, rfl, by simpa using h⟩

theorem lawful_sessInit : Lawful tcpv4MsgEncodeSessInit tcpv4MsgDecodeSessInit
    (fun m => [tmsgSessInit] ++ m.body) SessInit.InRange := by
  rw [tcpv4MsgDecodeSessInit_eq]
  exact tagged_lawful wrote_sessInit field_sessInit

theorem lawful_xferSegment : Lawful tcpv4MsgEncodeXferSegmentHdr tcpv4MsgDecodeXferSegmentHdr
    (fun m => [tmsgXferSegment] ++ m.body) XferSegment.InRange := by
  rw [tcpv4MsgDecodeXferSegmentHdr_eq]
  exact tagged_lawful wrote_xferSegment field_xferSegment

theorem lawful_xferAck : Lawful tcpv4MsgEncodeXferAck tcpv4MsgDecodeXferAck
    (fun m => [tmsgXferAck] ++ m.body) XferAck.InRange := by
  rw [tcpv4MsgDecodeXferAck_eq]
  exact tagged_lawful wrote_xferAck field_xferAck

theorem lawful_xferRefuse : Lawful tcpv4MsgEncodeXferRefuse tcpv4MsgDecodeXferRefuse
    (fun m => [tmsgXferRefuse] ++ m.body) XferRefuse.InRange := by
  rw [tcpv4MsgDecodeXferRefuse_eq]
  exact tagged_lawful wrote_xferRefuse field_xferRefuse

theorem lawful_sessTerm : Lawful tcpv4MsgEncodeSessTerm tcpv4MsgDecodeSessTerm
    (fun m => [tmsgSessTerm] ++ [m.flags, m.reason]) fun _ => True := by
  rw [tcpv4MsgDecodeSessTerm_eq]
  exact tagged_lawful wrote_sessTerm field_sessTerm

theorem lawful_msgReject : Lawful tcpv4MsgEncodeMsgReject tcpv4MsgDecodeMsgReject
    (fun m => [tmsgMsgReject] ++ [m.reason, m.rejectedType]) fun _ => True := by
  rw [tcpv4MsgDecodeMsgReject_eq]
  exact tagged_lawful wrote_msgReject field_msgReject

end IonContrib.Tcpv4
