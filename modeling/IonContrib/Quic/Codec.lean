/-
  IonContrib.Quic.Codec

  The whole QUICCL wire format of `quicmsg.c`.

  A decoder is the type octet and the fields behind it (`decodeMsg_eq_tagged`),
  an encoder writes the same octets, so the laws of `IonContrib.Fields` hold of
  every message (`quicMsg_codec_lawful`).  What makes a segment header different
  from the others is its list of extension items, which only START has.
-/
import IonContrib.Fields
import IonContrib.Quic.Signal

namespace IonContrib.Quic

open Octets

def quicMsgEncodeXferRefuse (cap : Nat) (m : QuicXferRefuse) : Option Octets :=
  let w := wInit cap
  let w := wU8 w qmsgXferRefuse
  let w := wU8 w m.reason
  (wU64 w m.transferId).result

structure QuicSessInit.InRange (m : QuicSessInit) : Prop where
  keepalive : m.keepalive < 256 ^ 2
  segmentMru : m.segmentMru < 256 ^ 8
  datagramMru : m.datagramMru < 256 ^ 8
  transferMru : m.transferMru < 256 ^ 8
  nodeId : m.nodeId.length < 256 ^ 2
  sessExt : m.sessExt.length < 256 ^ 4

structure QuicXferAck.InRange (m : QuicXferAck) : Prop where
  segmentId : m.segmentId < 256 ^ 2
  transferId : m.transferId < 256 ^ 8
  ackLength : m.ackLength < 256 ^ 8

def QuicXferRefuse.InRange (m : QuicXferRefuse) : Prop := m.transferId < 256 ^ 8

def QuicSessTerm.InRange (m : QuicSessTerm) : Prop := m.sessExt.length < 256 ^ 4

/-! ## Octets behind the type -/

def QuicSessInit.body (m : QuicSessInit) : Octets :=
  beBytes 2 m.keepalive ++ (beBytes 8 m.segmentMru ++ (beBytes 8 m.datagramMru ++
    (beBytes 8 m.transferMru ++ (beBytes 2 m.nodeId.length ++ m.nodeId ++
      (beBytes 4 m.sessExt.length ++ m.sessExt)))))

def QuicXferSegment.body (m : QuicXferSegment) : Octets :=
  m.flags :: (beBytes 2 m.segmentId ++ (beBytes 2 m.totalSegments ++ (beBytes 8 m.transferId ++
    ((if m.isStart then beBytes 4 m.xferExt.length ++ m.xferExt else []) ++
      (beBytes 8 m.segmentLength ++ (beBytes 8 m.bundleLength ++ [m.serviceMode]))))))

def QuicXferAck.body (m : QuicXferAck) : Octets :=
  m.flags :: (beBytes 2 m.segmentId ++ (beBytes 8 m.transferId ++ beBytes 8 m.ackLength))

def QuicXferRefuse.body (m : QuicXferRefuse) : Octets := m.reason :: beBytes 8 m.transferId

def QuicSessTerm.body (m : QuicSessTerm) : Octets :=
  m.flags :: m.reason :: (beBytes 4 m.sessExt.length ++ m.sessExt)

/-! ## Fields -/

theorem field_ext : Field extField (fun bs => beBytes 4 bs.length ++ bs)
    (fun bs => bs.length < 256 ^ 4) :=
  field_counted Field.u32

theorem field_sessInit : Field QuicSessInit.fields QuicSessInit.body QuicSessInit.InRange := by
  have h_fields : QuicSessInit.fields = Reader.andThen rU16 fun keepalive =>
      Reader.andThen rU64 fun segmentMru => Reader.andThen rU64 fun datagramMru =>
        Reader.andThen rU64 fun transferMru => Reader.andThen (counted rU16) fun nodeId =>
          Reader.andThen extField fun sessExt r =>
            (⟨keepalive, segmentMru, datagramMru, transferMru, nodeId, sessExt⟩, r) := rfl
  rw [h_fields]
  refine Field.congr (Field.u16.andThen QuicSessInit.keepalive (fun keepalive =>
    Field.u64.andThen QuicSessInit.segmentMru (fun segmentMru =>
      Field.u64.andThen QuicSessInit.datagramMru (fun datagramMru =>
        Field.u64.andThen QuicSessInit.transferMru (fun transferMru =>
          (field_counted Field.u16).andThen QuicSessInit.nodeId (fun nodeId =>
            field_ext.andThen QuicSessInit.sessExt (fun sessExt => Field.done
              (QuicSessInit.mk keepalive segmentMru datagramMru transferMru nodeId sessExt))
              ?_) ?_) ?_) ?_) ?_) ?_)
    (fun m _ => ?_) (fun m => ?_)
  · rintro sessExt m rfl
    rfl
  · rintro nodeId m ⟨-, h_m⟩
    rw [h_m]
  · rintro transferMru m ⟨-, -, h_m⟩
    rw [h_m]
  · rintro datagramMru m ⟨-, -, -, h_m⟩
    rw [h_m]
  · rintro segmentMru m ⟨-, -, -, -, h_m⟩
    rw [h_m]
  · rintro keepalive m ⟨-, -, -, -, -, h_m⟩
    rw [h_m]
  · simp [QuicSessInit.body]
  · constructor
    · rintro ⟨h_keepalive, h_segment, h_datagram, h_transfer, h_node, h_ext, -⟩
      exact ⟨h_keepalive, h_segment, h_datagram, h_transfer, h_node, h_ext⟩
    · rintro ⟨h_keepalive, h_segment, h_datagram, h_transfer, h_node, h_ext⟩
      exact ⟨h_keepalive, h_segment, h_datagram, h_transfer, h_node, h_ext, rfl⟩

theorem field_xferExt (flags : UInt8) : Field (xferExtField flags)
    (fun ext => if hasFlag flags qmsgFlagStart then beBytes 4 ext.length ++ ext else [])
    (fun ext => ext.length < 256 ^ 4 ∧ (hasFlag flags qmsgFlagStart = false → ext = [])) := by
  unfold xferExtField
  cases h_start : hasFlag flags qmsgFlagStart with
  | true =>
    refine field_ext.congr (fun _ _ => rfl) fun ext => ?_
    exact (and_iff_left nofun).symm
  | false =>
    refine (Field.done []).congr (fun _ _ => rfl) fun ext => ?_
    refine ⟨?_, fun h => h.2 rfl⟩
    rintro rfl
    exact ⟨by decide, fun _ => rfl⟩

theorem field_xferSegment :
    Field QuicXferSegment.fields QuicXferSegment.body QuicXferSegment.Fits := by
  refine Field.congr (Field.u8.andThen QuicXferSegment.flags (fun flags =>
    Field.u16.andThen QuicXferSegment.segmentId (fun segmentId =>
      Field.u16.andThen QuicXferSegment.totalSegments (fun totalSegments =>
        Field.u64.andThen QuicXferSegment.transferId (fun transferId =>
          (field_xferExt flags).andThen QuicXferSegment.xferExt (fun xferExt =>
            Field.u64.andThen QuicXferSegment.segmentLength (fun segmentLength =>
              Field.u64.andThen QuicXferSegment.bundleLength (fun bundleLength =>
                Field.u8.andThen QuicXferSegment.serviceMode (fun serviceMode => Field.done
                  (QuicXferSegment.mk flags segmentId totalSegments transferId xferExt
                    segmentLength bundleLength serviceMode)) ?_) ?_) ?_) ?_) ?_) ?_) ?_) ?_)
    (fun m _ => ?_) (fun m => ?_)
  · rintro serviceMode m rfl
    rfl
  · rintro bundleLength m ⟨-, h_m⟩
    rw [h_m]
  · rintro segmentLength m ⟨-, -, h_m⟩
    rw [h_m]
  · rintro xferExt m ⟨-, -, -, h_m⟩
    rw [h_m]
  · rintro transferId m ⟨-, -, -, -, h_m⟩
    rw [h_m]
  · rintro totalSegments m ⟨-, -, -, -, -, h_m⟩
    rw [h_m]
  · rintro segmentId m ⟨-, -, -, -, -, -, h_m⟩
    rw [h_m]
  · rintro flags m ⟨-, -, -, -, -, -, -, h_m⟩
    rw [h_m]
  · unfold QuicXferSegment.body QuicXferSegment.isStart
    cases hasFlag m.flags qmsgFlagStart <;> simp
  · constructor
    · rintro ⟨-, h_seg, h_total, h_id, ⟨h_ext, h_start⟩, h_len, h_bundle, -, -⟩
      exact ⟨h_seg, h_total, h_id, h_ext, h_start, h_len, h_bundle⟩
    · rintro ⟨h_seg, h_total, h_id, h_ext, h_start, h_len, h_bundle⟩
      exact ⟨trivial, h_seg, h_total, h_id, ⟨h_ext, h_start⟩, h_len, h_bundle, trivial, rfl⟩

theorem field_xferAck : Field QuicXferAck.fields QuicXferAck.body QuicXferAck.InRange := by
  refine Field.congr (Field.u8.andThen QuicXferAck.flags (fun flags =>
    Field.u16.andThen QuicXferAck.segmentId (fun segmentId =>
      Field.u64.andThen QuicXferAck.transferId (fun transferId =>
        Field.u64.andThen QuicXferAck.ackLength (fun ackLength => Field.done
          (QuicXferAck.mk flags segmentId transferId ackLength)) ?_) ?_) ?_) ?_)
    (fun m _ => ?_) (fun m => ?_)
  · rintro ackLength m rfl
    rfl
  · rintro transferId m ⟨-, h_m⟩
    rw [h_m]
  · rintro segmentId m ⟨-, -, h_m⟩
    rw [h_m]
  · rintro flags m ⟨-, -, -, h_m⟩
    rw [h_m]
  · simp [QuicXferAck.body]
  · constructor
    · rintro ⟨-, h_seg, h_id, h_len, -⟩
      exact ⟨h_seg, h_id, h_len⟩
    · rintro ⟨h_seg, h_id, h_len⟩
      exact ⟨trivial, h_seg, h_id, h_len, rfl⟩

theorem field_xferRefuse :
    Field QuicXferRefuse.fields QuicXferRefuse.body QuicXferRefuse.InRange := by
  refine Field.congr (Field.u8.andThen QuicXferRefuse.reason (fun reason =>
    Field.u64.andThen QuicXferRefuse.transferId (fun transferId =>
      Field.done (QuicXferRefuse.mk reason transferId)) ?_) ?_) (fun m _ => ?_) (fun m => ?_)
  · rintro transferId m rfl
    rfl
  · rintro reason m ⟨-, h_m⟩
    rw [h_m]
  · simp [QuicXferRefuse.body]
  · exact ⟨fun h => h.2.1, fun h => ⟨trivial, h, rfl⟩⟩

theorem field_sessTerm : Field QuicSessTerm.fields QuicSessTerm.body QuicSessTerm.InRange := by
  refine Field.congr (Field.u8.andThen QuicSessTerm.flags (fun flags =>
    Field.u8.andThen QuicSessTerm.reason (fun reason =>
      field_ext.andThen QuicSessTerm.sessExt (fun sessExt =>
        Field.done (QuicSessTerm.mk flags reason sessExt)) ?_) ?_) ?_)
    (fun m _ => ?_) (fun m => ?_)
  · rintro sessExt m rfl
    rfl
  · rintro reason m ⟨-, h_m⟩
    rw [h_m]
  · rintro flags m ⟨-, -, h_m⟩
    rw [h_m]
  · simp [QuicSessTerm.body]
  · exact ⟨fun h => h.2.2.1, fun h => ⟨trivial, trivial, h, rfl⟩⟩

theorem field_msgReject :
    Field QuicMsgReject.fields (fun m => [m.rejectedType, m.reason]) fun _ => True := by
  refine Field.congr (Field.u8.andThen QuicMsgReject.rejectedType
    (fun rejectedType => Field.u8.andThen QuicMsgReject.reason
      (fun reason => Field.done (QuicMsgReject.mk rejectedType reason)) ?_) ?_)
    (fun _ _ => rfl) (fun _ => by simp)
  · rintro reason m rfl
    rfl
  · rintro rejectedType m ⟨-, h_m⟩
    rw [h_m]

/-! ## Decoders and encoders -/

section

-- The two are compared as they are written, not by running the readers.
attribute [local irreducible] rU8

theorem decodeMsg_eq_tagged {μ : Type} {type : UInt8} (h_type : type ≠ 0)
    (fields : Reader → μ × Reader) : decodeMsg type fields = tagged [type] fields := by
  funext buf
  rw [tagged_type h_type]
  unfold decodeMsg
  refine if_congr Iff.rfl rfl ?_
  -- The decoders ask whether octets were missing, the format whether there were enough.
  show (if (!(fields (rU8 (rInit buf)).2).2.ok) = true then Decoded.need else _) = _
  cases h_ok : (fields (rU8 (rInit buf)).2).2.ok with
  | true => simp [h_ok]
  | false => simp [h_ok]

end

theorem decodeMsg_lawful {μ : Type} {encode : Nat → μ → Option Octets} {type : UInt8}
    {fields : Reader → μ × Reader} {enc : μ → Octets} {InRange : μ → Prop} (h_type : type ≠ 0)
    (h_encode : ∀ cap m, ∃ w : Writer, encode cap m = w.result ∧ w.Wrote cap ([type] ++ enc m))
    (h : Field fields enc InRange) :
    Lawful encode (decodeMsg type fields) (fun m => [type] ++ enc m) InRange := by
  rw [decodeMsg_eq_tagged h_type]
  exact tagged_lawful h_encode h

theorem wrote_sessInit (cap : Nat) (m : QuicSessInit) :
    ∃ w : Writer, quicMsgEncodeSessInit cap m = w.result ∧
      w.Wrote cap ([qmsgSessInit] ++ m.body) := by
  have h := (((((((((wInit_wrote cap).u8 qmsgSessInit).u16 m.keepalive).u64 m.segmentMru).u64
    m.datagramMru).u64 m.transferMru).u16 m.nodeId.length).bytes m.nodeId).u32
      m.sessExt.length).bytes m.sessExt
  exact ⟨_, rfl, by simpa [QuicSessInit.body] using h⟩

theorem wrote_xferSegment (cap : Nat) (m : QuicXferSegment) :
    ∃ w : Writer, quicMsgEncodeXferSegmentHdr cap m = w.result ∧
      w.Wrote cap ([qmsgXferSegment] ++ m.body) := by
  have h := (((((wInit_wrote cap).u8 qmsgXferSegment).u8 m.flags).u16 m.segmentId).u16
    m.totalSegments).u64 m.transferId
  unfold quicMsgEncodeXferSegmentHdr QuicXferSegment.body
  cases m.isStart with
  | true =>
    have h_ext := ((((h.u32 m.xferExt.length).bytes m.xferExt).u64 m.segmentLength).u64
      m.bundleLength).u8 m.serviceMode
    exact ⟨_, rfl, by simpa using h_ext⟩
  | false =>
    exact ⟨_, rfl, by simpa using ((h.u64 m.segmentLength).u64 m.bundleLength).u8 m.serviceMode⟩

theorem wrote_xferAck (cap : Nat) (m : QuicXferAck) :
    ∃ w : Writer, quicMsgEncodeXferAck cap m = w.result ∧ w.Wrote cap ([qmsgXferAck] ++ m.body) := by
  have h := (((((wInit_wrote cap).u8 qmsgXferAck).u8 m.flags).u16 m.segmentId).u64
    m.transferId).u64 m.ackLength
  exact ⟨_, rfl, by simpa [QuicXferAck.body] using h⟩

theorem wrote_xferRefuse (cap : Nat) (m : QuicXferRefuse) :
    ∃ w : Writer, quicMsgEncodeXferRefuse cap m = w.result ∧
      w.Wrote cap ([qmsgXferRefuse] ++ m.body) := by
  have h := (((wInit_wrote cap).u8 qmsgXferRefuse).u8 m.reason).u64 m.transferId
  exact ⟨_, rfl, by simpa [QuicXferRefuse.body] using h⟩

theorem wrote_sessTerm (cap : Nat) (m : QuicSessTerm) :
    ∃ w : Writer, quicMsgEncodeSessTerm cap m = w.result ∧
      w.Wrote cap ([qmsgSessTerm] ++ m.body) := by
  have h := (((((wInit_wrote cap).u8 qmsgSessTerm).u8 m.flags).u8 m.reason).u32
    m.sessExt.length).bytes m.sessExt
  exact ⟨_, rfl, by simpa [QuicSessTerm.body] using h⟩

theorem wrote_msgReject (cap : Nat) (m : QuicMsgReject) :
    ∃ w : Writer, quicMsgEncodeMsgReject cap m = w.result ∧
      w.Wrote cap ([qmsgMsgReject] ++ [m.rejectedType, m.reason]) := by
  have h := (((wInit_wrote cap).u8 qmsgMsgReject).u8 m.rejectedType).u8 m.reason
  exact ⟨_, rfl, by simpa using h⟩

theorem lawful_sessInit : Lawful quicMsgEncodeSessInit quicMsgDecodeSessInit
    (fun m => [qmsgSessInit] ++ m.body) QuicSessInit.InRange := by
  have h_type : qmsgSessInit ≠ 0 := by decide
  have h := decodeMsg_lawful h_type wrote_sessInit field_sessInit
  exact h

theorem lawful_xferSegment : Lawful quicMsgEncodeXferSegmentHdr quicMsgDecodeXferSegmentHdr
    (fun m => [qmsgXferSegment] ++ m.body) QuicXferSegment.Fits := by
  have h_type : qmsgXferSegment ≠ 0 := by decide
  exact decodeMsg_lawful h_type wrote_xferSegment field_xferSegment

theorem lawful_xferAck : Lawful quicMsgEncodeXferAck quicMsgDecodeXferAck
    (fun m => [qmsgXferAck] ++ m.body) QuicXferAck.InRange := by
  have h_type : qmsgXferAck ≠ 0 := by decide
  exact decodeMsg_lawful h_type wrote_xferAck field_xferAck

theorem lawful_xferRefuse : Lawful quicMsgEncodeXferRefuse quicMsgDecodeXferRefuse
    (fun m => [qmsgXferRefuse] ++ m.body) QuicXferRefuse.InRange := by
  have h_type : qmsgXferRefuse ≠ 0 := by decide
  exact decodeMsg_lawful h_type wrote_xferRefuse field_xferRefuse

theorem lawful_sessTerm : Lawful quicMsgEncodeSessTerm quicMsgDecodeSessTerm
    (fun m => [qmsgSessTerm] ++ m.body) QuicSessTerm.InRange := by
  have h_type : qmsgSessTerm ≠ 0 := by decide
  exact decodeMsg_lawful h_type wrote_sessTerm field_sessTerm

theorem lawful_msgReject : Lawful quicMsgEncodeMsgReject quicMsgDecodeMsgReject
    (fun m => [qmsgMsgReject] ++ [m.rejectedType, m.reason]) fun _ => True := by
  have h_type : qmsgMsgReject ≠ 0 := by decide
  exact decodeMsg_lawful h_type wrote_msgReject field_msgReject

end IonContrib.Quic
