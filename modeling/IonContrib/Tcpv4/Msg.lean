/-
  IonContrib.Tcpv4.Msg

  The TCPCLv4 wire codec (`tcpv4msg.c`) for the messages of an established
  session, and `recvXferSegmentHdr` (`tcpv4rx.c`), which takes an
  XFER_SEGMENT header off the stream a field at a time.

  The message type octet is read by the message loop, so the parsers of this
  file start after it.
-/
import IonContrib.Cursor
import IonContrib.Lib.Recv

namespace IonContrib.Tcpv4

open Octets

/-! ## Codes -/

def tmsgXferSegment : UInt8 := 0x01
def tmsgXferAck : UInt8 := 0x02
def tmsgXferRefuse : UInt8 := 0x03
def tmsgKeepalive : UInt8 := 0x04
def tmsgSessTerm : UInt8 := 0x05
def tmsgMsgReject : UInt8 := 0x06
def tmsgSessInit : UInt8 := 0x07

def tmsgFlagEnd : UInt8 := 0x01
def tmsgFlagStart : UInt8 := 0x02

def tmsgRefuseCompleted : UInt8 := 0x01
def tmsgRefuseNoResources : UInt8 := 0x02
def tmsgRefuseExtFailure : UInt8 := 0x05
def tmsgRefuseSessTerm : UInt8 := 0x06

def tmsgRejectTypeUnknown : UInt8 := 0x01
def tmsgRejectUnexpected : UInt8 := 0x03

def tmsgTermFlagReply : UInt8 := 0x01
def tmsgTermUnknown : UInt8 := 0x00
def tmsgTermIdleTimeout : UInt8 := 0x01
def tmsgTermResourceExhaustion : UInt8 := 0x05

def tmsgExtCritical : UInt8 := 0x01
def tmsgXferextLength : Nat := 0x0001
def tmsgXferextLengthLen : Nat := 13

def tcpv4MaxExtLen : Nat := 1024

/-! ## Messages -/

structure XferSegment where
  flags : UInt8
  transferId : Nat
  xferExt : Octets
  dataLength : Nat
  deriving DecidableEq, Repr

structure XferAck where
  flags : UInt8
  transferId : Nat
  ackLength : Nat
  deriving DecidableEq, Repr

structure XferRefuse where
  reason : UInt8
  transferId : Nat
  deriving DecidableEq, Repr

structure SessTerm where
  flags : UInt8
  reason : UInt8
  deriving DecidableEq, Repr

structure MsgReject where
  reason : UInt8
  rejectedType : UInt8
  deriving DecidableEq, Repr

structure ExtItem where
  flags : UInt8
  type : Nat
  length : Nat
  value : Octets
  deriving DecidableEq, Repr

def XferSegment.isStart (m : XferSegment) : Bool := hasFlag m.flags tmsgFlagStart

def XferSegment.isEnd (m : XferSegment) : Bool := hasFlag m.flags tmsgFlagEnd

/-! ## Encoders -/

def tcpv4MsgEncodeXferSegmentHdr (cap : Nat) (m : XferSegment) : Option Octets :=
  let w := wInit cap
  let w := wU8 w tmsgXferSegment
  let w := wU8 w m.flags
  let w := wU64 w m.transferId
  let w := if m.isStart then wBytes (wU32 w m.xferExt.length) m.xferExt else w
  (wU64 w m.dataLength).result

def tcpv4MsgEncodeXferAck (cap : Nat) (m : XferAck) : Option Octets :=
  let w := wInit cap
  let w := wU8 w tmsgXferAck
  let w := wU8 w m.flags
  let w := wU64 w m.transferId
  (wU64 w m.ackLength).result

def tcpv4MsgEncodeXferRefuse (cap : Nat) (m : XferRefuse) : Option Octets :=
  let w := wInit cap
  let w := wU8 w tmsgXferRefuse
  let w := wU8 w m.reason
  (wU64 w m.transferId).result

def tcpv4MsgEncodeKeepalive (cap : Nat) : Option Octets :=
  (wU8 (wInit cap) tmsgKeepalive).result

def tcpv4MsgEncodeSessTerm (cap : Nat) (m : SessTerm) : Option Octets :=
  (wU8 (wU8 (wU8 (wInit cap) tmsgSessTerm) m.flags) m.reason).result

def tcpv4MsgEncodeMsgReject (cap : Nat) (m : MsgReject) : Option Octets :=
  (wU8 (wU8 (wU8 (wInit cap) tmsgMsgReject) m.reason) m.rejectedType).result

def tcpv4MsgEncodeXferLengthExt (cap : Nat) (length : Nat) : Option Octets :=
  let w := wInit cap
  let w := wU8 w 0
  let w := wU16 w tmsgXferextLength
  let w := wU16 w 8
  (wU64 w length).result

/-! ## Decoders -/

def tcpv4MsgDecodeXferSegmentHdr (buf : Octets) : Decoded XferSegment :=
  let (type, r) := rU8 (rInit buf)
  if type != tmsgXferSegment then (if r.ok then .bad else .need)
  else
    let (flags, r) := rU8 r
    let (transferId, r) := rU64 r
    if hasFlag flags tmsgFlagStart then
      let (extLen, r) := rU32 r
      let (ext, r) := rBytes r extLen
      let (dataLength, r) := rU64 r
      if !r.ok then .need else .ok ⟨flags, transferId, ext.getD [], dataLength⟩ r.off
    else
      let (dataLength, r) := rU64 r
      if !r.ok then .need else .ok ⟨flags, transferId, [], dataLength⟩ r.off

def tcpv4MsgDecodeXferAck (buf : Octets) : Decoded XferAck :=
  let (type, r) := rU8 (rInit buf)
  if type != tmsgXferAck then (if r.ok then .bad else .need)
  else
    let (flags, r) := rU8 r
    let (transferId, r) := rU64 r
    let (ackLength, r) := rU64 r
    if r.ok then .ok ⟨flags, transferId, ackLength⟩ r.off else .need

def tcpv4MsgDecodeXferRefuse (buf : Octets) : Decoded XferRefuse :=
  let (type, r) := rU8 (rInit buf)
  if type != tmsgXferRefuse then (if r.ok then .bad else .need)
  else
    let (reason, r) := rU8 r
    let (transferId, r) := rU64 r
    if r.ok then .ok ⟨reason, transferId⟩ r.off else .need

def tcpv4MsgDecodeSessTerm (buf : Octets) : Decoded SessTerm :=
  let (type, r) := rU8 (rInit buf)
  if type != tmsgSessTerm then (if r.ok then .bad else .need)
  else
    let (flags, r) := rU8 r
    let (reason, r) := rU8 r
    if r.ok then .ok ⟨flags, reason⟩ r.off else .need

def tcpv4MsgDecodeMsgReject (buf : Octets) : Decoded MsgReject :=
  let (type, r) := rU8 (rInit buf)
  if type != tmsgMsgReject then (if r.ok then .bad else .need)
  else
    let (reason, r) := rU8 r
    let (rejectedType, r) := rU8 r
    if r.ok then .ok ⟨reason, rejectedType⟩ r.off else .need

/-! ## Extension items -/

/-- What `tcpv4MsgNextExtItem` answers: 0, -1, or an item and what is left of the
    list behind it. -/
inductive ExtWalk where
  | done
  | bad
  | item (it : ExtItem) (rest : Octets)
  deriving DecidableEq, Repr

/-- The list is given from the offset of the next item on. -/
def tcpv4MsgNextExtItem (list : Octets) : ExtWalk :=
  if list.isEmpty then .done
  else
    let (flags, r) := rU8 (rInit list)
    let (type, r) := rU16 r
    let (length, r) := rU16 r
    let (value, r) := rBytes r length
    if !r.ok then .bad else .item ⟨flags, type, length, value.getD []⟩ r.rest

/-- Each item takes at least one octet, so the length of the list is fuel enough
    for a walk over it. -/
def findXferLengthFrom : Nat → Octets → Option Nat
  | 0, _ => none
  | fuel + 1, list =>
    match tcpv4MsgNextExtItem list with
    | .done => none
    | .bad => none
    | .item it rest =>
      if it.type != tmsgXferextLength || it.length != 8 then findXferLengthFrom fuel rest
      else some (beNat it.value)

/-- `some` when the item is there (the function returns 1), `none` when it is absent
    or the list is malformed. -/
def tcpv4MsgFindXferLength (list : Octets) : Option Nat :=
  findXferLengthFrom (list.length + 1) list

def hasCriticalExtFrom : Nat → Octets → Bool
  | 0, _ => true
  | fuel + 1, list =>
    match tcpv4MsgNextExtItem list with
    | .done => false
    | .bad => true
    | .item it rest =>
      if hasFlag it.flags tmsgExtCritical then true else hasCriticalExtFrom fuel rest

def segmentHasCriticalExt (seg : XferSegment) : Bool :=
  hasCriticalExtFrom (seg.xferExt.length + 1) seg.xferExt

/-! ## Taking messages off the stream -/

/-- `tcpv4ConnRecv` returns once it has all the octets it was asked for, so a read
    on a stream that has fewer waits. -/
def tcpv4ConnRecv (len : Nat) (s : Octets) : Recv Octets := Recv.take len s

/-- A fixed-size message: `len` octets after the type, all of which the decoder takes. -/
def recvFixed {μ : Type} (type : UInt8) (len : Nat) (decode : Octets → Decoded μ)
    (s : Octets) : Recv μ :=
  (tcpv4ConnRecv len s).bind fun body s =>
    match decode (type :: body) with
    | .ok m used => if used = len + 1 then .got m s else .fail
    | _ => .fail

/-- `return decode(buf, off) == off ? 0 : -1`, once every field has been read. -/
def xferSegmentHdrOf (cap : Nat) (buf s : Octets) : Recv XferSegment :=
  if buf.length > cap then .fail
  else
    match tcpv4MsgDecodeXferSegmentHdr buf with
    | .ok m used => if used = buf.length then .got m s else .fail
    | _ => .fail

def recvXferSegmentHdr (cap : Nat) (s : Octets) : Recv XferSegment :=
  (tcpv4ConnRecv 9 s).bind fun head s =>
    if hasFlag (head.headD 0) tmsgFlagStart then
      (tcpv4ConnRecv 4 s).bind fun lenOctets s =>
        let extLen := beNat lenOctets
        if extLen > tcpv4MaxExtLen then .fail
        else
          (tcpv4ConnRecv extLen s).bind fun ext s =>
            (tcpv4ConnRecv 8 s).bind fun dataLen s =>
              xferSegmentHdrOf cap (tmsgXferSegment :: head ++ lenOctets ++ ext ++ dataLen) s
    else
      (tcpv4ConnRecv 8 s).bind fun dataLen s =>
        xferSegmentHdrOf cap (tmsgXferSegment :: head ++ dataLen) s

/-- `handleXferSegment`'s header buffer. -/
def segHdrCap : Nat := 32 + tcpv4MaxExtLen

def recvXferAck (s : Octets) : Recv XferAck := recvFixed tmsgXferAck 17 tcpv4MsgDecodeXferAck s

def recvXferRefuse (s : Octets) : Recv XferRefuse :=
  recvFixed tmsgXferRefuse 9 tcpv4MsgDecodeXferRefuse s

def recvSessTerm (s : Octets) : Recv SessTerm := recvFixed tmsgSessTerm 2 tcpv4MsgDecodeSessTerm s

def tcpv4RecvMsgReject (s : Octets) : Recv MsgReject :=
  recvFixed tmsgMsgReject 2 tcpv4MsgDecodeMsgReject s

/-! ## Readers wait for the whole message -/

theorem stable_recvFixed {μ : Type} (type : UInt8) (len : Nat) (decode : Octets → Decoded μ) :
    Recv.Stable (recvFixed type len decode) := by
  refine (Recv.stable_take len).bind fun body => ?_
  cases decode (type :: body) with
  | need => exact Recv.stable_fail
  | bad => exact Recv.stable_fail
  | ok m used =>
    by_cases h : used = len + 1
    · simpa [h] using Recv.stable_got m
    · simpa [h] using Recv.stable_fail

theorem stable_xferSegmentHdrOf (cap : Nat) (buf : Octets) :
    Recv.Stable (xferSegmentHdrOf cap buf) := by
  unfold xferSegmentHdrOf
  by_cases h_cap : buf.length > cap
  · simpa [h_cap] using Recv.stable_fail
  cases h_dec : tcpv4MsgDecodeXferSegmentHdr buf with
  | need => simpa [h_cap] using Recv.stable_fail
  | bad => simpa [h_cap] using Recv.stable_fail
  | ok m used =>
    by_cases h : used = buf.length
    · simpa [h_cap, h] using Recv.stable_got m
    · simpa [h_cap, h] using Recv.stable_fail

theorem stable_recvXferSegmentHdr (cap : Nat) : Recv.Stable (recvXferSegmentHdr cap) := by
  refine (Recv.stable_take 9).bind fun head => ?_
  by_cases h_start : hasFlag (head.headD 0) tmsgFlagStart
  · simp only [h_start, if_true]
    refine (Recv.stable_take 4).bind fun lenOctets => ?_
    by_cases h_ext : beNat lenOctets > tcpv4MaxExtLen
    · simpa [h_ext] using Recv.stable_fail
    · simp only [h_ext, if_false]
      exact (Recv.stable_take _).bind fun ext => (Recv.stable_take 8).bind fun dataLen =>
        stable_xferSegmentHdrOf cap _
  · simp only [h_start, Bool.false_eq_true, if_false]
    exact (Recv.stable_take 8).bind fun dataLen => stable_xferSegmentHdrOf cap _

/-! ## Round trips -/

/-- A segment header the wire format has room for. -/
structure XferSegment.Fits (m : XferSegment) : Prop where
  id_lt : m.transferId < 2 ^ 64
  data_lt : m.dataLength < 2 ^ 64
  ext_le : m.xferExt.length ≤ tcpv4MaxExtLen
  ext_start : m.isStart = false → m.xferExt = []

/-- What follows the type octet of an XFER_SEGMENT header. -/
def XferSegment.body (m : XferSegment) : Octets :=
  m.flags :: beBytes 8 m.transferId ++
    (if m.isStart then beBytes 4 m.xferExt.length ++ m.xferExt else []) ++
    beBytes 8 m.dataLength

theorem tcpv4MsgEncodeXferSegmentHdr_eq {cap : Nat} {m : XferSegment}
    (h : 22 + m.xferExt.length ≤ cap) :
    tcpv4MsgEncodeXferSegmentHdr cap m = some (tmsgXferSegment :: m.body) := by
  cases h_start : m.isStart with
  | true =>
    simp (disch := simp; omega) only [tcpv4MsgEncodeXferSegmentHdr, wInit, h_start, if_true,
      wU8_fits, wU32_fits, wU64_fits, wBytes_fits]
    simp [Writer.result, XferSegment.body, h_start]
  | false =>
    simp (disch := simp; omega) only [tcpv4MsgEncodeXferSegmentHdr, wInit, h_start, if_false,
      wU8_fits, wU64_fits, Bool.false_eq_true]
    simp [Writer.result, XferSegment.body, h_start]

theorem tcpv4MsgDecodeXferSegmentHdr_body {m : XferSegment} (hm : m.Fits) (t : Octets) :
    tcpv4MsgDecodeXferSegmentHdr (tmsgXferSegment :: m.body ++ t) =
      .ok m (m.body.length + 1) := by
  obtain ⟨flags, id, ext, dl⟩ := m
  obtain ⟨h_id, h_dl, h_ext, h_nil⟩ := hm
  simp only [tcpv4MaxExtLen] at h_id h_dl h_ext
  have h_len : ext.length < 256 ^ 4 := by omega
  cases h_start : hasFlag flags tmsgFlagStart with
  | true =>
    simp only [XferSegment.body, XferSegment.isStart, h_start, if_true, rInit, List.append_assoc,
      List.cons_append, tcpv4MsgDecodeXferSegmentHdr, rU8_cons, bne_self_eq_false,
      Bool.false_eq_true, if_false]
    simp (disch := simp) only [rU64_append, rU32_append, beNat_beBytes h_len, rBytes_append]
    simp [beNat_beBytes (k := 8) (by simpa using h_id), beNat_beBytes (k := 8) (by simpa using h_dl)]
    omega
  | false =>
    obtain rfl : ext = [] := h_nil (by simpa [XferSegment.isStart] using h_start)
    simp only [XferSegment.body, XferSegment.isStart, h_start, if_false, rInit, List.append_assoc,
      List.cons_append, tcpv4MsgDecodeXferSegmentHdr, rU8_cons, bne_self_eq_false,
      Bool.false_eq_true, List.append_nil]
    simp (disch := simp) only [rU64_append]
    simp [beNat_beBytes (k := 8) (by simpa using h_id), beNat_beBytes (k := 8) (by simpa using h_dl)]

/-- The header reader takes exactly what the encoder wrote. -/
theorem recvXferSegmentHdr_body {m : XferSegment} (hm : m.Fits) (t : Octets) :
    recvXferSegmentHdr segHdrCap (m.body ++ t) = .got m t := by
  have h_dec := tcpv4MsgDecodeXferSegmentHdr_body hm []
  rw [List.append_nil] at h_dec
  obtain ⟨flags, id, ext, dl⟩ := m
  obtain ⟨-, -, h_ext, -⟩ := hm
  simp only at h_ext
  have h_lt : ext.length < 256 ^ 4 := by
    simp only [tcpv4MaxExtLen] at h_ext
    omega
  have h_beNat : beNat (beBytes 4 ext.length) = ext.length := beNat_beBytes h_lt
  have h_ok : ¬ beNat (beBytes 4 ext.length) > tcpv4MaxExtLen := by omega
  have h_head : (flags :: beBytes 8 id).length = 9 := by simp
  cases h_start : hasFlag flags tmsgFlagStart with
  | true =>
    simp only [XferSegment.body, XferSegment.isStart, h_start, if_true] at h_dec ⊢
    rw [recvXferSegmentHdr, tcpv4ConnRecv]
    simp only [List.append_assoc]
    rw [Recv.take_append _ h_head]
    simp only [Recv.bind_got, List.headD_cons, h_start, if_true, tcpv4ConnRecv]
    rw [Recv.take_append _ (length_beBytes 4 _)]
    rw [Recv.bind_got, if_neg h_ok, h_beNat, Recv.take_append _ rfl, Recv.bind_got,
      Recv.take_append _ (length_beBytes 8 _), Recv.bind_got]
    simp only [List.append_assoc, List.cons_append] at h_dec ⊢
    have h_cap : ¬ (tmsgXferSegment :: (flags :: (beBytes 8 id ++
        (beBytes 4 ext.length ++ (ext ++ beBytes 8 dl))))).length > segHdrCap := by
      simp only [List.length_cons, List.length_append, length_beBytes, segHdrCap]
      omega
    rw [xferSegmentHdrOf, if_neg h_cap, h_dec]
    simp
  | false =>
    simp only [XferSegment.body, XferSegment.isStart, h_start, Bool.false_eq_true, if_false,
      List.append_nil] at h_dec ⊢
    rw [recvXferSegmentHdr, tcpv4ConnRecv, List.append_assoc, Recv.take_append _ h_head]
    simp only [Recv.bind_got, List.headD_cons, h_start, Bool.false_eq_true, if_false,
      tcpv4ConnRecv]
    rw [Recv.take_append _ (length_beBytes 8 _), Recv.bind_got]
    simp only [List.cons_append] at h_dec ⊢
    have h_cap : ¬ (tmsgXferSegment :: (flags :: (beBytes 8 id ++ beBytes 8 dl))).length >
        segHdrCap := by
      simp only [List.length_cons, List.length_append, length_beBytes, segHdrCap]
      omega
    rw [xferSegmentHdrOf, if_neg h_cap, h_dec]
    simp

/-- A list of extension items that is too long is not read. -/
theorem recvXferSegmentHdr_long {m : XferSegment} (h_start : m.isStart = true)
    (h_long : tcpv4MaxExtLen < m.xferExt.length) (h_lt : m.xferExt.length < 2 ^ 32)
    (t : Octets) : recvXferSegmentHdr segHdrCap (m.body ++ t) = .fail := by
  obtain ⟨flags, id, ext, dl⟩ := m
  simp only [XferSegment.isStart] at h_start
  simp only at h_long h_lt
  have h_beNat : beNat (beBytes 4 ext.length) = ext.length := beNat_beBytes (by omega)
  have h_over : beNat (beBytes 4 ext.length) > tcpv4MaxExtLen := by omega
  have h_head : (flags :: beBytes 8 id).length = 9 := by simp
  simp only [XferSegment.body, XferSegment.isStart, h_start, if_true]
  rw [recvXferSegmentHdr, tcpv4ConnRecv]
  simp only [List.append_assoc]
  rw [Recv.take_append _ h_head]
  simp only [Recv.bind_got, List.headD_cons, h_start, if_true, tcpv4ConnRecv]
  rw [Recv.take_append _ (length_beBytes 4 _), Recv.bind_got, if_pos h_over]

def XferAck.body (m : XferAck) : Octets :=
  m.flags :: beBytes 8 m.transferId ++ beBytes 8 m.ackLength

theorem tcpv4MsgEncodeXferAck_eq (m : XferAck) :
    tcpv4MsgEncodeXferAck 18 m = some (tmsgXferAck :: m.body) := by
  simp (disch := simp) only [tcpv4MsgEncodeXferAck, wInit, wU8_fits, wU64_fits]
  simp [Writer.result, XferAck.body]

theorem recvXferAck_body {m : XferAck} (h_id : m.transferId < 2 ^ 64)
    (h_len : m.ackLength < 2 ^ 64) (t : Octets) : recvXferAck (m.body ++ t) = .got m t := by
  have h_dec : tcpv4MsgDecodeXferAck (tmsgXferAck :: m.body) = .ok m 18 := by
    simp only [XferAck.body, tcpv4MsgDecodeXferAck, rInit, List.cons_append, rU8_cons,
      bne_self_eq_false, Bool.false_eq_true, if_false]
    simp (disch := simp) only [rU64_append, rU64_exact]
    simp [beNat_beBytes (k := 8) (by simpa using h_id), beNat_beBytes (k := 8) (by simpa using h_len)]
  rw [recvXferAck, recvFixed, tcpv4ConnRecv, Recv.take_append _ (by simp [XferAck.body]),
    Recv.bind_got, h_dec]
  rfl

def XferRefuse.body (m : XferRefuse) : Octets := m.reason :: beBytes 8 m.transferId

theorem tcpv4MsgEncodeXferRefuse_eq (m : XferRefuse) :
    tcpv4MsgEncodeXferRefuse 10 m = some (tmsgXferRefuse :: m.body) := by
  simp (disch := simp) only [tcpv4MsgEncodeXferRefuse, wInit, wU8_fits, wU64_fits]
  simp [Writer.result, XferRefuse.body]

theorem recvXferRefuse_body {m : XferRefuse} (h_id : m.transferId < 2 ^ 64) (t : Octets) :
    recvXferRefuse (m.body ++ t) = .got m t := by
  have h_dec : tcpv4MsgDecodeXferRefuse (tmsgXferRefuse :: m.body) = .ok m 10 := by
    simp only [XferRefuse.body, tcpv4MsgDecodeXferRefuse, rInit, rU8_cons,
      bne_self_eq_false, Bool.false_eq_true, if_false]
    simp (disch := simp) only [rU64_exact]
    simp [beNat_beBytes (k := 8) (by simpa using h_id)]
  rw [recvXferRefuse, recvFixed, tcpv4ConnRecv, Recv.take_append _ (by simp [XferRefuse.body]),
    Recv.bind_got, h_dec]
  rfl

theorem recvSessTerm_body (m : SessTerm) (t : Octets) :
    recvSessTerm ([m.flags, m.reason] ++ t) = .got m t := by
  rw [recvSessTerm, recvFixed, tcpv4ConnRecv,
    Recv.take_append t (show [m.flags, m.reason].length = 2 from rfl)]
  rfl

theorem tcpv4RecvMsgReject_body (m : MsgReject) (t : Octets) :
    tcpv4RecvMsgReject ([m.reason, m.rejectedType] ++ t) = .got m t := by
  rw [tcpv4RecvMsgReject, recvFixed, tcpv4ConnRecv,
    Recv.take_append t (show [m.reason, m.rejectedType].length = 2 from rfl)]
  rfl

/-! ## The Transfer Length item -/

theorem tcpv4MsgEncodeXferLengthExt_eq (length : Nat) :
    tcpv4MsgEncodeXferLengthExt tmsgXferextLengthLen length =
      some (0 :: (beBytes 2 tmsgXferextLength ++ (beBytes 2 8 ++ beBytes 8 length))) := by
  simp (disch := simp) only [tcpv4MsgEncodeXferLengthExt, tmsgXferextLengthLen, wInit, wU8_fits,
    wU16_fits, wU64_fits]
  simp [Writer.result]

theorem tcpv4MsgNextExtItem_length (length : Nat) :
    tcpv4MsgNextExtItem (0 :: (beBytes 2 tmsgXferextLength ++ (beBytes 2 8 ++ beBytes 8 length))) =
      .item ⟨0, tmsgXferextLength, 8, beBytes 8 length⟩ [] := by
  simp only [tcpv4MsgNextExtItem, List.isEmpty_cons, Bool.false_eq_true, if_false, rInit, rU8_cons]
  simp (disch := simp) only [rU16_append]
  have h_type : beNat (beBytes 2 tmsgXferextLength) = tmsgXferextLength := by decide
  have h_len : beNat (beBytes 2 8) = 8 := by decide
  have h_val := rBytes_append (beBytes 8 length) [] (0 + 1 + 2 + 2)
  rw [length_beBytes, List.append_nil] at h_val
  simp only [h_type, h_len, h_val]
  simp

/-- The item `sendSegments` puts on a START segment is the one the receiver finds. -/
theorem tcpv4MsgFindXferLength_encoded {length : Nat} (h : length < 2 ^ 64) :
    tcpv4MsgFindXferLength
      (0 :: (beBytes 2 tmsgXferextLength ++ (beBytes 2 8 ++ beBytes 8 length))) = some length := by
  rw [tcpv4MsgFindXferLength, findXferLengthFrom, tcpv4MsgNextExtItem_length]
  simp [beNat_beBytes (k := 8) (by simpa using h)]

/-- ... and it is not marked critical. -/
theorem segmentHasCriticalExt_encoded {seg : XferSegment} {length : Nat}
    (h_ext : seg.xferExt =
      0 :: (beBytes 2 tmsgXferextLength ++ (beBytes 2 8 ++ beBytes 8 length))) :
    segmentHasCriticalExt seg = false := by
  rw [segmentHasCriticalExt, h_ext, hasCriticalExtFrom, tcpv4MsgNextExtItem_length]
  simp [hasFlag, hasCriticalExtFrom, tcpv4MsgNextExtItem]

end IonContrib.Tcpv4
