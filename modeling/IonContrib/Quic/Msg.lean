/-
  IonContrib.Quic.Msg

  The messages of `quicmsg.c` that travel on the data streams and in datagrams.

  A decoder is `XferSegment.fields` and the like, run behind the type octet.
  What a decoder takes is not changed by octets that arrive behind it
  (`quicMsgDecodeXferSegmentHdr_append`), so a front part of a header is always
  answered with `need` (`quicMsgDecodeXferSegmentHdr_short`).
-/
import IonContrib.Cursor

namespace IonContrib.Quic

open Octets

def qmsgXferSegment : UInt8 := 0x02
def qmsgXferAck : UInt8 := 0x03
def qmsgXferRefuse : UInt8 := 0x04

def qmsgFlagEnd : UInt8 := 0x01
def qmsgFlagStart : UInt8 := 0x02

def qmsgSvcReliable : UInt8 := 0
def qmsgSvcUnreliable : UInt8 := 2

/-! ## Messages -/

structure QuicXferSegment where
  flags : UInt8
  segmentId : Nat
  totalSegments : Nat
  transferId : Nat
  xferExt : Octets
  segmentLength : Nat
  bundleLength : Nat
  serviceMode : UInt8
  deriving DecidableEq, Repr

structure QuicXferAck where
  flags : UInt8
  segmentId : Nat
  transferId : Nat
  ackLength : Nat
  deriving DecidableEq, Repr

structure QuicXferRefuse where
  reason : UInt8
  transferId : Nat
  deriving DecidableEq, Repr

def QuicXferSegment.isStart (m : QuicXferSegment) : Bool := hasFlag m.flags qmsgFlagStart

def QuicXferSegment.isEnd (m : QuicXferSegment) : Bool := hasFlag m.flags qmsgFlagEnd

/-- The flags of a segment that has START if `p`, and END if `q`. -/
theorem hasFlag_startEnd (p q : Prop) [Decidable p] [Decidable q] :
    hasFlag ((if p then qmsgFlagStart else 0) ||| (if q then qmsgFlagEnd else 0))
        qmsgFlagStart = decide p ∧
      hasFlag ((if p then qmsgFlagStart else 0) ||| (if q then qmsgFlagEnd else 0))
        qmsgFlagEnd = decide q := by
  by_cases h_p : p <;> by_cases h_q : q <;> simp only [h_p, h_q, if_true, if_false] <;> decide

/-! ## Encoders -/

def quicMsgEncodeXferSegmentHdr (cap : Nat) (m : QuicXferSegment) : Option Octets :=
  let w := wInit cap
  let w := wU8 w qmsgXferSegment
  let w := wU8 w m.flags
  let w := wU16 w m.segmentId
  let w := wU16 w m.totalSegments
  let w := wU64 w m.transferId
  let w := if m.isStart then wBytes (wU32 w m.xferExt.length) m.xferExt else w
  let w := wU64 w m.segmentLength
  let w := wU64 w m.bundleLength
  (wU8 w m.serviceMode).result

def quicMsgEncodeXferAck (cap : Nat) (m : QuicXferAck) : Option Octets :=
  let w := wInit cap
  let w := wU8 w qmsgXferAck
  let w := wU8 w m.flags
  let w := wU16 w m.segmentId
  let w := wU64 w m.transferId
  (wU64 w m.ackLength).result

/-! ## Decoders -/

/-- A decoder: the type octet, the fields behind it, and whether there was enough. -/
def decodeMsg {μ : Type} (type : UInt8) (fields : Reader → μ × Reader) (buf : Octets) :
    Decoded μ :=
  let (t, r) := rU8 (rInit buf)
  if t != type then (if r.ok then .bad else .need)
  else
    let (m, r) := fields r
    if !r.ok then .need else .ok m r.off

/-- `xferExt` and `xferExtLen`, which only a START segment has. -/
def xferExtField (flags : UInt8) : Reader → Octets × Reader :=
  if hasFlag flags qmsgFlagStart then
    Reader.andThen rU32 fun len => Reader.andThen (rBytes · len) fun ext r => (ext.getD [], r)
  else fun r => ([], r)

def QuicXferSegment.fields : Reader → QuicXferSegment × Reader :=
  Reader.andThen rU8 fun flags =>
  Reader.andThen rU16 fun segmentId =>
  Reader.andThen rU16 fun totalSegments =>
  Reader.andThen rU64 fun transferId =>
  Reader.andThen (xferExtField flags) fun ext =>
  Reader.andThen rU64 fun segmentLength =>
  Reader.andThen rU64 fun bundleLength =>
  Reader.andThen rU8 fun serviceMode r =>
    (⟨flags, segmentId, totalSegments, transferId, ext, segmentLength, bundleLength,
      serviceMode⟩, r)

def QuicXferAck.fields : Reader → QuicXferAck × Reader :=
  Reader.andThen rU8 fun flags =>
  Reader.andThen rU16 fun segmentId =>
  Reader.andThen rU64 fun transferId =>
  Reader.andThen rU64 fun ackLength r => (⟨flags, segmentId, transferId, ackLength⟩, r)

def QuicXferRefuse.fields : Reader → QuicXferRefuse × Reader :=
  Reader.andThen rU8 fun reason => Reader.andThen rU64 fun transferId r => (⟨reason, transferId⟩, r)

def quicMsgDecodeXferSegmentHdr (buf : Octets) : Decoded QuicXferSegment :=
  decodeMsg qmsgXferSegment QuicXferSegment.fields buf

def quicMsgDecodeXferAck (buf : Octets) : Decoded QuicXferAck :=
  decodeMsg qmsgXferAck QuicXferAck.fields buf

def quicMsgDecodeXferRefuse (buf : Octets) : Decoded QuicXferRefuse :=
  decodeMsg qmsgXferRefuse QuicXferRefuse.fields buf

/-! ## Decoders and octets that arrive later -/

theorem stable_xferExtField (flags : UInt8) : Reader.Stable (xferExtField flags) := by
  unfold xferExtField
  split
  · exact Reader.stable_rU32.andThen fun len => (Reader.stable_rBytes len).andThen fun ext =>
      Reader.stable_pure (ext.getD [])
  · exact Reader.stable_pure []

theorem stable_segmentFields : Reader.Stable QuicXferSegment.fields := by
  refine Reader.stable_rU8.andThen fun flags => ?_
  refine Reader.stable_rU16.andThen fun segmentId => ?_
  refine Reader.stable_rU16.andThen fun totalSegments => ?_
  refine Reader.stable_rU64.andThen fun transferId => ?_
  refine (stable_xferExtField flags).andThen fun ext => ?_
  refine Reader.stable_rU64.andThen fun segmentLength => ?_
  refine Reader.stable_rU64.andThen fun bundleLength => ?_
  exact Reader.stable_rU8.andThen fun serviceMode => Reader.stable_pure _

theorem stable_ackFields : Reader.Stable QuicXferAck.fields := by
  refine Reader.stable_rU8.andThen fun flags => ?_
  refine Reader.stable_rU16.andThen fun segmentId => ?_
  refine Reader.stable_rU64.andThen fun transferId => ?_
  exact Reader.stable_rU64.andThen fun ackLength => Reader.stable_pure _

theorem stable_refuseFields : Reader.Stable QuicXferRefuse.fields := by
  refine Reader.stable_rU8.andThen fun reason => ?_
  exact Reader.stable_rU64.andThen fun transferId => Reader.stable_pure _

/-- A decoder on a buffer that is not empty. -/
theorem decodeMsg_cons {μ : Type} (type : UInt8) (fields : Reader → μ × Reader) (b : UInt8)
    (bs : Octets) :
    decodeMsg type fields (b :: bs) =
      if b = type then
        if (fields ⟨bs, 1, true⟩).2.ok then .ok (fields ⟨bs, 1, true⟩).1 (fields ⟨bs, 1, true⟩).2.off
        else .need
      else .bad := by
  simp only [decodeMsg, rInit, rU8_cons, bne_iff_ne, ne_eq, ite_not, if_true, Bool.not_eq_true',
    Nat.zero_add]
  by_cases h_type : b = type
  · rw [if_pos h_type, if_pos h_type]
    cases (fields ⟨bs, 1, true⟩).2.ok with
    | true => rfl
    | false => rfl
  · rw [if_neg h_type, if_neg h_type]

theorem decodeMsg_nil {μ : Type} {type : UInt8} {fields : Reader → μ × Reader}
    (hf : Reader.Stable fields) : decodeMsg type fields [] = .need := by
  have h_stuck : (fields ⟨[], 0, false⟩).2.ok = false := by
    refine Bool.eq_false_iff.mpr fun h_ok => ?_
    cases hf.ok h_ok
  simp only [decodeMsg, rInit, rU8, h_stuck]
  cases (0 != type) with
  | true => rfl
  | false => rfl

/-- What a decoder takes it also takes when more octets follow, and it takes no more than
    there is. -/
theorem decodeMsg_append {μ : Type} {type : UInt8} {fields : Reader → μ × Reader}
    (hf : Reader.Stable fields) {buf : Octets} {m : μ} {used : Nat}
    (h : decodeMsg type fields buf = .ok m used) (t : Octets) :
    decodeMsg type fields (buf ++ t) = .ok m used ∧ used ≤ buf.length := by
  cases buf with
  | nil =>
    rw [decodeMsg_nil hf] at h
    cases h
  | cons b bs =>
    rw [decodeMsg_cons] at h
    by_cases h_type : b = type
    · rw [if_pos h_type] at h
      by_cases h_ok : (fields ⟨bs, 1, true⟩).2.ok = true
      · rw [if_pos h_ok, Decoded.ok.injEq] at h
        have h_more := hf.more h_ok t
        have h_moves := hf.moves h_ok
        rw [Reader.more] at h_more
        rw [List.cons_append, decodeMsg_cons, if_pos h_type, h_more]
        refine ⟨by simp only [Reader.more, h_ok, if_true, h.1, h.2], ?_⟩
        simp only [List.length_cons] at h_moves ⊢
        omega
      · rw [if_neg h_ok] at h
        cases h
    · rw [if_neg h_type] at h
      cases h

/-- A front part of something a decoder takes whole makes it ask for more. -/
theorem decodeMsg_short {μ : Type} {type : UInt8} {fields : Reader → μ × Reader}
    (hf : Reader.Stable fields) {p q : Octets} {m : μ}
    (h : decodeMsg type fields (p ++ q) = .ok m (p ++ q).length) (h_q : q ≠ []) :
    decodeMsg type fields p = .need := by
  cases h_p : decodeMsg type fields p with
  | need => rfl
  | bad =>
    cases p with
    | nil =>
      rw [decodeMsg_nil hf] at h_p
      cases h_p
    | cons b bs =>
      rw [decodeMsg_cons] at h_p
      rw [List.cons_append, decodeMsg_cons] at h
      by_cases h_type : b = type
      · rw [if_pos h_type] at h_p
        split at h_p
        · cases h_p
        · cases h_p
      · rw [if_neg h_type] at h
        cases h
  | ok m' used =>
    obtain ⟨h_all, h_used⟩ := decodeMsg_append hf h_p q
    rw [h, Decoded.ok.injEq] at h_all
    have h_pos : 0 < q.length := List.length_pos_iff.mpr h_q
    rw [List.length_append] at h_all
    omega

/-! ## Round trips -/

/-- A segment header the wire format has room for. -/
structure QuicXferSegment.Fits (m : QuicXferSegment) : Prop where
  segmentId_lt : m.segmentId < 2 ^ 16
  total_lt : m.totalSegments < 2 ^ 16
  id_lt : m.transferId < 2 ^ 64
  ext_lt : m.xferExt.length < 2 ^ 32
  ext_start : m.isStart = false → m.xferExt = []
  length_lt : m.segmentLength < 2 ^ 64
  bundle_lt : m.bundleLength < 2 ^ 64

/-- A segment header on the wire. -/
def QuicXferSegment.hdr (m : QuicXferSegment) : Octets :=
  qmsgXferSegment :: m.flags :: (beBytes 2 m.segmentId ++ (beBytes 2 m.totalSegments ++
    (beBytes 8 m.transferId ++
      ((if m.isStart then beBytes 4 m.xferExt.length ++ m.xferExt else []) ++
        (beBytes 8 m.segmentLength ++ (beBytes 8 m.bundleLength ++ [m.serviceMode]))))))

theorem QuicXferSegment.length_hdr (m : QuicXferSegment) :
    m.hdr.length = 31 + if m.isStart then 4 + m.xferExt.length else 0 := by
  cases h_start : m.isStart with
  | true =>
    simp only [QuicXferSegment.hdr, h_start, if_true, List.length_cons, List.length_append,
      length_beBytes, List.length_nil]
    omega
  | false => simp [QuicXferSegment.hdr, h_start]

theorem quicMsgEncodeXferSegmentHdr_eq {cap : Nat} {m : QuicXferSegment}
    (h : 35 + m.xferExt.length ≤ cap) : quicMsgEncodeXferSegmentHdr cap m = some m.hdr := by
  cases h_start : m.isStart with
  | true =>
    simp (disch := simp; omega) only [quicMsgEncodeXferSegmentHdr, wInit, h_start, if_true,
      wU8_fits, wU16_fits, wU32_fits, wU64_fits, wBytes_fits]
    simp [Writer.result, QuicXferSegment.hdr, h_start]
  | false =>
    simp (disch := simp; omega) only [quicMsgEncodeXferSegmentHdr, wInit, h_start, if_false,
      wU8_fits, wU16_fits, wU64_fits, Bool.false_eq_true]
    simp [Writer.result, QuicXferSegment.hdr, h_start]

theorem quicMsgEncodeXferAck_eq {cap : Nat} (m : QuicXferAck) (h : 20 ≤ cap) :
    quicMsgEncodeXferAck cap m = some (qmsgXferAck :: m.flags :: (beBytes 2 m.segmentId ++
      (beBytes 8 m.transferId ++ beBytes 8 m.ackLength))) := by
  simp (disch := simp; omega) only [quicMsgEncodeXferAck, wInit, wU8_fits, wU16_fits, wU64_fits]
  simp [Writer.result]

theorem xferExtField_append {m : QuicXferSegment} (hm : m.Fits) (t : Octets) (off : Nat) :
    xferExtField m.flags
      ⟨(if m.isStart then beBytes 4 m.xferExt.length ++ m.xferExt else []) ++ t, off, true⟩ =
        (m.xferExt, ⟨t, off + if m.isStart then 4 + m.xferExt.length else 0, true⟩) := by
  cases h_start : m.isStart with
  | true =>
    have h_flag : hasFlag m.flags qmsgFlagStart = true := h_start
    have h_len : beNat (beBytes 4 m.xferExt.length) = m.xferExt.length :=
      beNat_beBytes (by have := hm.ext_lt; omega)
    have h_four : (beBytes 4 m.xferExt.length).length = 4 := length_beBytes _ _
    simp only [xferExtField, h_flag, if_true, Reader.andThen, List.append_assoc,
      rU32_append _ _ h_four, h_len, rBytes_append, Option.getD_some, Nat.add_assoc]
  | false =>
    have h_flag : hasFlag m.flags qmsgFlagStart = false := h_start
    simp [xferExtField, h_flag, hm.ext_start h_start]

/-- A decoder takes exactly what the encoder wrote. -/
theorem quicMsgDecodeXferSegmentHdr_hdr {m : QuicXferSegment} (hm : m.Fits) (t : Octets) :
    quicMsgDecodeXferSegmentHdr (m.hdr ++ t) = .ok m m.hdr.length := by
  have h_seg : beNat (beBytes 2 m.segmentId) = m.segmentId :=
    beNat_beBytes (by have := hm.segmentId_lt; omega)
  have h_total : beNat (beBytes 2 m.totalSegments) = m.totalSegments :=
    beNat_beBytes (by have := hm.total_lt; omega)
  have h_id : beNat (beBytes 8 m.transferId) = m.transferId :=
    beNat_beBytes (by have := hm.id_lt; omega)
  have h_len : beNat (beBytes 8 m.segmentLength) = m.segmentLength :=
    beNat_beBytes (by have := hm.length_lt; omega)
  have h_bundle : beNat (beBytes 8 m.bundleLength) = m.bundleLength :=
    beNat_beBytes (by have := hm.bundle_lt; omega)
  rw [m.length_hdr]
  simp only [quicMsgDecodeXferSegmentHdr, QuicXferSegment.hdr, List.cons_append, decodeMsg_cons,
    if_true, QuicXferSegment.fields, Reader.andThen, rU8_cons, List.append_assoc]
  simp (disch := simp) only [rU16_append, rU64_append]
  rw [xferExtField_append hm]
  simp (disch := simp) only [rU64_append]
  simp only [h_seg, h_total, h_id, h_len, h_bundle, List.nil_append, rU8_cons, if_true,
    Decoded.ok.injEq, true_and]
  omega

/-- A front part of a header is not enough. -/
theorem quicMsgDecodeXferSegmentHdr_short {m : QuicXferSegment} (hm : m.Fits) {p q : Octets}
    (h_split : m.hdr = p ++ q) (h_q : q ≠ []) : quicMsgDecodeXferSegmentHdr p = .need := by
  have h_all := quicMsgDecodeXferSegmentHdr_hdr hm []
  rw [List.append_nil, h_split] at h_all
  exact decodeMsg_short stable_segmentFields h_all h_q

/-- What is taken from the front of a buffer is taken from a longer one, too. -/
theorem quicMsgDecodeXferSegmentHdr_append {buf : Octets} {m : QuicXferSegment} {used : Nat}
    (h : quicMsgDecodeXferSegmentHdr buf = .ok m used) (t : Octets) :
    quicMsgDecodeXferSegmentHdr (buf ++ t) = .ok m used ∧ used ≤ buf.length :=
  decodeMsg_append stable_segmentFields h t

end IonContrib.Quic
