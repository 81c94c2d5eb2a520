/-
  IonContrib.Quic.Stream

  The reliable service of `quicsession.c`: `frameBundle` and `doSend` put a
  bundle on the data stream of its priority, `recvStreamDataCb`,
  `deliverBundles` and `xferReassemble` take it off.

  QUIC keeps the octets of each stream in order and loses none of them, but it
  hands over those of different streams in any order.  The receiver has one
  buffer for all data streams.  So its parser stays in step with the frames as
  long as no chunk of a stream comes in the middle of a frame of another one:
  `Ahead` says what the receiver holds of the frame that is under way, and
  `parse_ahead` carries it over any number of octets.
-/
import IonContrib.Lib.Doubling
import IonContrib.Lib.Lts
import IonContrib.Quic.Datagram

namespace IonContrib.Quic

open Octets

/-! ## Sender -/

def frameSegment (txid len nSeg segId thisLen : Nat) : QuicXferSegment where
  flags := (if segId = 0 then qmsgFlagStart else 0) |||
    (if segId = nSeg - 1 then qmsgFlagEnd else 0)
  segmentId := segId % 2 ^ 16
  totalSegments := nSeg % 2 ^ 16
  transferId := txid
  xferExt := []
  segmentLength := thisLen
  bundleLength := len
  serviceMode := qmsgSvcReliable

/-- The loop of `frameBundle`: `rounds` segments from number `segId` on, `src` being what
    remains of the bundle. -/
def frameFrom (segMru txid len nSeg cap : Nat) : Nat → Nat → Octets → Octets → Option Octets
  | 0, _, _, framed => some framed
  | rounds + 1, segId, src, framed =>
    let thisLen := if src.length > segMru then segMru else src.length
    let seg := frameSegment txid len nSeg segId thisLen
    (quicMsgEncodeXferSegmentHdr (cap - framed.length) seg).bind fun hdr =>
      frameFrom segMru txid len nSeg cap rounds (segId + 1) (src.drop thisLen)
        (framed ++ hdr ++ src.take thisLen)

/-- The number of segments; the sum is that of `uint64_t`. -/
def frameSegments (segMru len : Nat) : Nat :=
  let nSeg := (len + segMru - 1) % 2 ^ 64 / segMru
  if nSeg < 1 then 1 else nSeg

def frameSegMru (peerSegmentMru : Nat) : Nat :=
  if peerSegmentMru ≠ 0 then peerSegmentMru else quicclaBufsz

def frameBundle (peerSegmentMru txid : Nat) (bundle : Octets) (mem : Bool) : Option Octets :=
  let segMru := frameSegMru peerSegmentMru
  let nSeg := frameSegments segMru bundle.length
  if !mem then none
  else frameFrom segMru txid bundle.length nSeg (bundle.length + nSeg * 40) nSeg 0 bundle []

/-- Which of the four data streams: expedited, normal, bulk, no priority. -/
def priorityStream (ordinal : Nat) : Fin 4 :=
  if ordinal ≥ 192 then 0 else if ordinal ≥ 128 then 1 else if ordinal ≥ 1 then 2 else 3

/-! ## Receiver -/

/-- The fields of `QuicConn` that the data streams are received into.  `xfer` is the first
    `xferLen` octets of the buffer, `rxBuf` the first `rxLen` of the other. -/
structure StreamRx where
  ackStreamId : Int
  rxBuf : Octets
  rxCap : Nat
  xfer : Octets
  xferCap : Nat
  xferBundleLen : Nat
  xferActive : Bool
  ackTransferId : Nat
  ackSegId : Nat
  ackFlags : UInt8
  ackCumLen : Nat
  ackPending : Bool
  deriving DecidableEq

def StreamRx.init : StreamRx where
  ackStreamId := -1
  rxBuf := []
  rxCap := quicclaBufsz
  xfer := []
  xferCap := 0
  xferBundleLen := 0
  xferActive := false
  ackTransferId := 0
  ackSegId := 0
  ackFlags := 0
  ackCumLen := 0
  ackPending := false

/-- What one call gets from outside: whether `MTAKE` answers for either buffer, and which of the
    bundles of the call, if any, the delivery callback does not take. -/
structure StreamEnv where
  rxMem : Bool
  xferMem : Bool
  refuses : Option Nat
  deriving DecidableEq

structure XferOut where
  rx : StreamRx
  delivered : Option Octets
  ok : Bool
  deriving DecidableEq

def xferBegin (q : StreamRx) (seg : QuicXferSegment) : StreamRx :=
  if seg.isStart then
    { q with xfer := [], xferBundleLen := seg.bundleLength, xferActive := true }
  else q

def xferGrow (q : StreamRx) (want : Nat) (mem : Bool) : Option StreamRx :=
  if want > q.xferCap then
    let cap := if q.xferCap = 0 then quicclaBufsz else q.xferCap
    if mem then some { q with xferCap := doubleUntil want cap want } else none
  else some q

/-- The octets are in the buffer: queue the acknowledgement, and deliver at END. -/
def xferStore (q : StreamRx) (seg : QuicXferSegment) (segData : Octets) (takes : Bool) :
    XferOut :=
  let q := { q with
    xfer := q.xfer ++ segData
    ackTransferId := seg.transferId
    ackSegId := seg.segmentId
    ackFlags := seg.flags
    ackCumLen := q.xfer.length + segData.length
    ackPending := true }
  if !seg.isEnd then ⟨q, none, true⟩
  else
    let q := { q with xferActive := false }
    if q.xfer.length ≠ q.xferBundleLen then ⟨q, none, false⟩ else ⟨q, some q.xfer, takes⟩

def xferReassemble (q : StreamRx) (seg : QuicXferSegment) (segData : Octets)
    (mem takes : Bool) : XferOut :=
  let q := xferBegin q seg
  if !q.xferActive then ⟨q, none, false⟩
  else if seg.segmentLength > q.xferBundleLen ∨
      q.xfer.length > q.xferBundleLen - seg.segmentLength then ⟨q, none, false⟩
  else
    match xferGrow q (q.xfer.length + seg.segmentLength) mem with
    | none => ⟨q, none, false⟩
    | some q => xferStore q seg segData takes

/-- What `deliverBundles` leaves behind, the bundles it passed to the delivery callback, and
    whether it returned 0. -/
structure ParseOut where
  rx : StreamRx
  delivered : List Octets
  ok : Bool
  deriving DecidableEq

/-- The loop of `deliverBundles` at the octets `buf` that are left.  Each round takes at least
    one octet, so the length of the buffer is fuel enough. -/
def deliverBundlesFrom (env : StreamEnv) :
    Nat → StreamRx → Octets → List Octets → ParseOut
  | 0, q, buf, delivered => ⟨{ q with rxBuf := buf }, delivered, true⟩
  | fuel + 1, q, buf, delivered =>
    let stop : ParseOut := ⟨{ q with rxBuf := buf }, delivered, true⟩
    let fail : ParseOut := ⟨q, delivered, false⟩
    match buf with
    | [] => stop
    | type :: _ =>
      if type = qmsgXferSegment then
        match quicMsgDecodeXferSegmentHdr buf with
        | .need => stop
        | .bad => fail
        | .ok seg hdr =>
          if seg.segmentLength > quicclaBufsz ∨ seg.bundleLength > quicclaBufsz then fail
          else if buf.length - hdr < seg.segmentLength then stop
          else
            let out := xferReassemble q seg ((buf.drop hdr).take seg.segmentLength) env.xferMem
              (env.refuses ≠ some delivered.length)
            let delivered := delivered ++ out.delivered.toList
            if !out.ok then ⟨out.rx, delivered, false⟩
            else
              deliverBundlesFrom env fuel out.rx (buf.drop (hdr + seg.segmentLength)) delivered
      else if type = qmsgXferAck then
        match quicMsgDecodeXferAck buf with
        | .need => stop
        | .bad => fail
        | .ok _ hdr => deliverBundlesFrom env fuel q (buf.drop hdr) delivered
      else if type = qmsgXferRefuse then
        match quicMsgDecodeXferRefuse buf with
        | .need => stop
        | .bad => fail
        | .ok _ hdr => deliverBundlesFrom env fuel q (buf.drop hdr) delivered
      else fail

def deliverBundles (env : StreamEnv) (q : StreamRx) : ParseOut :=
  deliverBundlesFrom env (q.rxBuf.length + 1) q q.rxBuf []

def rxGrow (q : StreamRx) (want : Nat) (mem : Bool) : Option StreamRx :=
  if want > q.rxCap then
    if mem then some { q with rxCap := doubleUntil want (q.rxCap * 2) want } else none
  else some q

/-- `recvStreamDataCb` for a stream other than the signalling stream. -/
def recvStreamDataCb (env : StreamEnv) (q : StreamRx) (streamId : Int) (data : Octets) :
    ParseOut :=
  let q := { q with ackStreamId := streamId }
  match rxGrow q (q.rxBuf.length + data.length) env.rxMem with
  | none => ⟨q, [], false⟩
  | some q => deliverBundles env { q with rxBuf := q.rxBuf ++ data }

/-! ## A session -/

/-- A bundle on a data stream, and its octets there. -/
structure Sent where
  bundle : Octets
  framed : Octets
  deriving DecidableEq

/-- One direction of a session.  `sent` is what QUIC was handed on each of the data streams,
    `got` how many octets of it have been handed over at the other end. -/
structure Link where
  peerSegmentMru : Nat
  nextTxId : Nat
  dataStreams : Fin 4 → Int
  sent : Fin 4 → List Sent
  got : Fin 4 → Nat
  rx : StreamRx
  failed : Bool
  delivered : List Octets

def streamOctets (sent : List Sent) : Octets := sent.flatMap Sent.framed

inductive LinkAct where
  /-- A SESS_INIT of the peer. -/
  | negotiate (segmentMru : Nat)
  | send (bundle : Octets) (ordinal : Nat) (mem : Bool)
  /-- QUIC hands over the next `n` octets of a stream. -/
  | chunk (stream : Fin 4) (n : Nat) (env : StreamEnv)

namespace Link

def init (dataStreams : Fin 4 → Int) : Link where
  peerSegmentMru := 0
  nextTxId := 0
  dataStreams := dataStreams
  sent _ := []
  got _ := 0
  rx := StreamRx.init
  failed := false
  delivered := []

def doSend (w : Link) (bundle : Octets) (ordinal : Nat) (mem : Bool) : Link :=
  let next := { w with nextTxId := (w.nextTxId + 1) % 2 ^ 64 }
  match frameBundle w.peerSegmentMru w.nextTxId bundle mem with
  | none => next
  | some framed =>
    let i := priorityStream ordinal
    { next with sent := Function.update w.sent i (w.sent i ++ [⟨bundle, framed⟩]) }

def recvChunk (w : Link) (i : Fin 4) (n : Nat) (env : StreamEnv) : Link :=
  let data := ((streamOctets (w.sent i)).drop (w.got i)).take n
  let out := recvStreamDataCb env w.rx (w.dataStreams i) data
  { w with
    got := Function.update w.got i (w.got i + n)
    rx := out.rx
    failed := !out.ok
    delivered := w.delivered ++ out.delivered }

/-- Nothing happens any more on a session that has failed. -/
def step (w : Link) (a : LinkAct) : Option Link :=
  if w.failed then none
  else
    match a with
    | .negotiate segmentMru =>
      if segmentMru < 2 ^ 64 then some { w with peerSegmentMru := segmentMru } else none
    | .send bundle ordinal mem =>
      if bundle.length ≤ quicclaBufsz then some (w.doSend bundle ordinal mem) else none
    | .chunk i n env =>
      if 0 < n ∧ w.got i + n ≤ (streamOctets (w.sent i)).length then some (w.recvChunk i n env)
      else none

end Link

/-! ## The segments of a frame -/

/-- The length of the next segment when `src` is left. -/
def segLen (segMru : Nat) (src : Octets) : Nat :=
  if src.length > segMru then segMru else src.length

theorem segLen_le (segMru : Nat) (src : Octets) : segLen segMru src ≤ src.length := by
  unfold segLen
  split <;> omega

@[simp] theorem length_take_segLen (segMru : Nat) (src : Octets) :
    (src.take (segLen segMru src)).length = segLen segMru src := by
  rw [List.length_take, Nat.min_eq_left (segLen_le segMru src)]

/-- A segment with its data. -/
abbrev Segment := QuicXferSegment × Octets

def segWire (s : Segment) : Octets := s.1.hdr ++ s.2

/-- The segments that `frameFrom` writes. -/
def frameSegs (segMru txid len nSeg : Nat) : Nat → Nat → Octets → List Segment
  | 0, _, _ => []
  | rounds + 1, segId, src =>
    (frameSegment txid len nSeg segId (segLen segMru src), src.take (segLen segMru src)) ::
      frameSegs segMru txid len nSeg rounds (segId + 1) (src.drop (segLen segMru src))

theorem hasFlag_frameSegment (txid len nSeg segId thisLen : Nat) :
    (frameSegment txid len nSeg segId thisLen).isStart = decide (segId = 0) ∧
      (frameSegment txid len nSeg segId thisLen).isEnd = decide (segId = nSeg - 1) :=
  hasFlag_startEnd (segId = 0) (segId = nSeg - 1)

theorem frameSegment_fits {txid len thisLen : Nat} (nSeg segId : Nat) (h_txid : txid < 2 ^ 64)
    (h_len : len < 2 ^ 64) (h_this : thisLen ≤ len) :
    (frameSegment txid len nSeg segId thisLen).Fits where
  segmentId_lt := Nat.mod_lt _ (by omega)
  total_lt := Nat.mod_lt _ (by omega)
  id_lt := h_txid
  ext_lt := by simp [frameSegment]
  ext_start _ := rfl
  length_lt := Nat.lt_of_le_of_lt h_this h_len
  bundle_lt := h_len

theorem length_hdr_frameSegment (txid len nSeg segId thisLen : Nat) :
    31 ≤ (frameSegment txid len nSeg segId thisLen).hdr.length ∧
      (frameSegment txid len nSeg segId thisLen).hdr.length ≤ 35 := by
  have h_ext : (frameSegment txid len nSeg segId thisLen).xferExt = [] := rfl
  rw [QuicXferSegment.length_hdr, h_ext, List.length_nil]
  split <;> omega

/-- `frameBundle` has room for every header, so it writes all the segments. -/
theorem frameFrom_eq {segMru txid len nSeg cap rounds segId : Nat} {src framed : Octets}
    (h_cap : framed.length + src.length + rounds * 40 ≤ cap) :
    frameFrom segMru txid len nSeg cap rounds segId src framed =
      some (framed ++ (frameSegs segMru txid len nSeg rounds segId src).flatMap segWire) := by
  induction rounds generalizing segId src framed with
  | zero => simp [frameFrom, frameSegs]
  | succ rounds ih =>
    have h_hdr := length_hdr_frameSegment txid len nSeg segId (segLen segMru src)
    have h_this := segLen_le segMru src
    have h_enc : quicMsgEncodeXferSegmentHdr (cap - framed.length)
        (frameSegment txid len nSeg segId (segLen segMru src)) =
        some (frameSegment txid len nSeg segId (segLen segMru src)).hdr := by
      apply quicMsgEncodeXferSegmentHdr_eq
      show 35 + 0 ≤ cap - framed.length
      omega
    unfold segLen at h_enc
    simp only [frameFrom, h_enc, Option.bind_some]
    rw [ih]
    · simp [frameSegs, segWire, segLen]
    · have h_take := length_take_segLen segMru src
      unfold segLen at h_take h_hdr
      simp only [List.length_append, h_take, List.length_drop]
      unfold segLen at h_this
      omega

/-- There are segments enough for the whole bundle. -/
theorem le_frameSegments {segMru len : Nat} (h_mru : 0 < segMru) (h_lt : segMru < 2 ^ 64)
    (h_len : len ≤ quicclaBufsz) : len ≤ frameSegments segMru len * segMru := by
  have h_buf : quicclaBufsz = 262144 := rfl
  unfold frameSegments
  by_cases h_wrap : len + segMru - 1 < 2 ^ 64
  · rw [Nat.mod_eq_of_lt h_wrap]
    have h_div := Nat.div_add_mod (len + segMru - 1) segMru
    have h_mod := Nat.mod_lt (len + segMru - 1) h_mru
    rw [Nat.mul_comm] at h_div
    generalize (len + segMru - 1) / segMru = n at h_div
    show len ≤ (if n < 1 then 1 else n) * segMru
    split
    · next h_zero =>
      obtain rfl : n = 0 := by omega
      omega
    · omega
  · -- The sum wraps round only if one segment takes it all.
    have h_one : len ≤ segMru := by omega
    generalize (len + segMru - 1) % 2 ^ 64 / segMru = n
    show len ≤ (if n < 1 then 1 else n) * segMru
    split
    · omega
    · next h_some => exact Nat.le_trans h_one (Nat.le_mul_of_pos_left segMru (by omega))

theorem frameSegments_pos (segMru len : Nat) : 0 < frameSegments segMru len := by
  unfold frameSegments
  generalize (len + segMru - 1) % 2 ^ 64 / segMru = n
  show 0 < if n < 1 then 1 else n
  split <;> omega

/-- A frame on the wire. -/
def Frame (bundle framed : Octets) : Prop :=
  ∃ segMru txid, 0 < segMru ∧ segMru < 2 ^ 64 ∧ txid < 2 ^ 64 ∧
    framed = (frameSegs segMru txid bundle.length (frameSegments segMru bundle.length)
      (frameSegments segMru bundle.length) 0 bundle).flatMap segWire

theorem frameBundle_frame {peerSegmentMru txid : Nat} {bundle framed : Octets} {mem : Bool}
    (h_mru : peerSegmentMru < 2 ^ 64) (h_txid : txid < 2 ^ 64)
    (h : frameBundle peerSegmentMru txid bundle mem = some framed) : Frame bundle framed := by
  have h_buf : quicclaBufsz = 262144 := rfl
  cases mem with
  | false => cases h
  | true =>
    refine ⟨frameSegMru peerSegmentMru, txid, ?_, ?_, h_txid, ?_⟩
    · unfold frameSegMru
      split <;> omega
    · unfold frameSegMru
      split <;> omega
    · have h_eq : frameFrom (frameSegMru peerSegmentMru) txid bundle.length _
          (bundle.length + frameSegments (frameSegMru peerSegmentMru) bundle.length * 40) _ 0
          bundle [] = some framed := h
      rw [frameFrom_eq (by simp)] at h_eq
      exact (Option.some.inj h_eq).symm

/-! ## The parser on a segment, and on a part of one -/

/-- A segment that the receiver does not turn away for its size. -/
structure SegmentOk (s : Segment) : Prop where
  fits : s.1.Fits
  length : s.1.segmentLength = s.2.length
  small : s.2.length ≤ quicclaBufsz
  bundle : s.1.bundleLength ≤ quicclaBufsz

theorem head_hdr (m : QuicXferSegment) : ∃ bs, m.hdr = qmsgXferSegment :: bs := ⟨_, rfl⟩

/-- A whole segment is taken off the buffer and reassembled. -/
theorem deliverBundlesFrom_segment {s : Segment} (h : SegmentOk s) (env : StreamEnv) (fuel : Nat)
    (q : StreamRx) (rest : Octets) (delivered : List Octets) :
    deliverBundlesFrom env (fuel + 1) q (segWire s ++ rest) delivered =
      (let out := xferReassemble q s.1 s.2 env.xferMem (env.refuses ≠ some delivered.length)
      let delivered := delivered ++ out.delivered.toList
      if !out.ok then ⟨out.rx, delivered, false⟩
      else deliverBundlesFrom env fuel out.rx rest delivered) := by
  have h_dec := quicMsgDecodeXferSegmentHdr_hdr h.fits (s.2 ++ rest)
  rw [← List.append_assoc] at h_dec
  have h_size : ¬(s.1.segmentLength > quicclaBufsz ∨ s.1.bundleLength > quicclaBufsz) := by
    have h_length := h.length
    have h_small := h.small
    have h_bundle := h.bundle
    omega
  have h_here : ¬((segWire s ++ rest).length - s.1.hdr.length < s.1.segmentLength) := by
    rw [h.length]
    simp only [segWire, List.length_append]
    omega
  have h_data : ((segWire s ++ rest).drop s.1.hdr.length).take s.1.segmentLength = s.2 := by
    rw [h.length, segWire, List.append_assoc, List.drop_left, List.take_left]
  have h_rest : (segWire s ++ rest).drop (s.1.hdr.length + s.1.segmentLength) = rest := by
    rw [h.length, ← List.length_append]
    exact List.drop_left
  obtain ⟨bs, h_hdr⟩ := head_hdr s.1
  have h_cons : segWire s ++ rest = qmsgXferSegment :: (bs ++ s.2 ++ rest) := by
    simp [segWire, h_hdr]
  have h_dec' : quicMsgDecodeXferSegmentHdr (segWire s ++ rest) = .ok s.1 s.1.hdr.length := h_dec
  rw [h_cons] at h_dec' h_here h_data h_rest ⊢
  rw [deliverBundlesFrom]
  simp only [if_true, h_dec', if_neg h_size, if_neg h_here, h_data, h_rest]

/-- A part of a segment stays in the buffer. -/
theorem deliverBundlesFrom_short {s : Segment} (h : SegmentOk s) {n : Nat}
    (h_n : n < (segWire s).length) (env : StreamEnv) (fuel : Nat) (q : StreamRx)
    (delivered : List Octets) :
    deliverBundlesFrom env fuel q ((segWire s).take n) delivered =
      ⟨{ q with rxBuf := (segWire s).take n }, delivered, true⟩ := by
  cases fuel with
  | zero => rfl
  | succ fuel =>
    obtain ⟨bs, h_hdr⟩ := head_hdr s.1
    cases n with
    | zero => rfl
    | succ n =>
      have h_cons : (segWire s).take (n + 1) = qmsgXferSegment :: (bs ++ s.2).take n := by
        simp [segWire, h_hdr]
      have h_stop : quicMsgDecodeXferSegmentHdr ((segWire s).take (n + 1)) = .need ∨
          quicMsgDecodeXferSegmentHdr ((segWire s).take (n + 1)) = .ok s.1 s.1.hdr.length ∧
            ((segWire s).take (n + 1)).length - s.1.hdr.length < s.1.segmentLength := by
        rcases Nat.lt_or_ge (n + 1) s.1.hdr.length with h_in | h_past
        · left
          have h_take : (segWire s).take (n + 1) = s.1.hdr.take (n + 1) :=
            List.take_append_of_le_length (by omega)
          rw [h_take]
          apply quicMsgDecodeXferSegmentHdr_short h.fits (List.take_append_drop (n + 1) _).symm
          rw [ne_eq, List.drop_eq_nil_iff]
          omega
        · right
          have h_take : (segWire s).take (n + 1) =
              s.1.hdr ++ s.2.take (n + 1 - s.1.hdr.length) := by
            rw [segWire, List.take_append, List.take_of_length_le h_past]
          rw [h_take]
          refine ⟨quicMsgDecodeXferSegmentHdr_hdr h.fits _, ?_⟩
          rw [h.length]
          simp only [segWire, List.length_append] at h_n
          simp only [List.length_append, List.length_take]
          omega
      rw [h_cons] at h_stop ⊢
      rw [deliverBundlesFrom]
      rcases h_stop with h_need | ⟨h_dec, h_few⟩
      · simp only [if_true, h_need]
      · have h_size : ¬(s.1.segmentLength > quicclaBufsz ∨ s.1.bundleLength > quicclaBufsz) := by
          have h_length := h.length
          have h_small := h.small
          have h_bundle := h.bundle
          omega
        simp only [if_true, h_dec, if_neg h_size, if_pos h_few]

/-! ## Reassembly -/

/-- The receiver has the segments of a frame before number `segId`; there are `rounds` more, with
    the octets `src`. -/
structure Remains (segMru : Nat) (q : StreamRx) (bundle : Octets) (segId rounds : Nat)
    (src : Octets) : Prop where
  count : segId + rounds = frameSegments segMru bundle.length
  room : src.length ≤ rounds * segMru
  fresh : segId = 0 → src = bundle
  running : 0 < segId → q.xferActive = true ∧ q.xferBundleLen = bundle.length ∧
    q.xfer ++ src = bundle

/-- What the transfer looks like once START has been looked at. -/
theorem Remains.begin {segMru txid : Nat} {q : StreamRx} {bundle src : Octets}
    {segId rounds thisLen : Nat} (h : Remains segMru q bundle segId rounds src) :
    ∃ taken, taken ++ src = bundle ∧
      xferBegin q (frameSegment txid bundle.length (frameSegments segMru bundle.length) segId
        thisLen) = { q with xfer := taken, xferBundleLen := bundle.length, xferActive := true } := by
  have h_start := (hasFlag_frameSegment txid bundle.length (frameSegments segMru bundle.length)
    segId thisLen).1
  unfold xferBegin
  rw [h_start]
  by_cases h_first : segId = 0
  · refine ⟨[], h.fresh h_first, ?_⟩
    rw [if_pos (by simpa using h_first)]
    rfl
  · obtain ⟨h_active, h_len, h_all⟩ := h.running (by omega)
    refine ⟨q.xfer, h_all, ?_⟩
    rw [if_neg (by simpa using h_first), ← h_active, ← h_len]

theorem xferGrow_of_mem (q : StreamRx) (want : Nat) :
    ∃ cap, xferGrow q want true = some { q with xferCap := cap } := by
  unfold xferGrow
  split
  · exact ⟨_, rfl⟩
  · exact ⟨q.xferCap, rfl⟩

/-- A segment of the bundle that the transfer has room for goes behind what is there. -/
theorem xferReassemble_eq {q : StreamRx} {seg : QuicXferSegment} {taken : Octets} {len : Nat}
    (h_begin : xferBegin q seg = { q with
      xfer := taken, xferBundleLen := len, xferActive := true })
    (h_fits : taken.length + seg.segmentLength ≤ len) (segData : Octets) (takes : Bool) :
    ∃ cap, xferReassemble q seg segData true takes =
      xferStore { q with
        xfer := taken, xferBundleLen := len, xferActive := true, xferCap := cap } seg segData
        takes := by
  obtain ⟨cap, h_grow⟩ := xferGrow_of_mem
    { q with xfer := taken, xferBundleLen := len, xferActive := true }
    (taken.length + seg.segmentLength)
  have h_room : ¬(seg.segmentLength > len ∨ taken.length > len - seg.segmentLength) := by omega
  refine ⟨cap, ?_⟩
  unfold xferReassemble
  rw [h_begin]
  simp only [Bool.not_true, Bool.false_eq_true, if_false, if_neg h_room, h_grow]

theorem xferStore_more {q : StreamRx} {seg : QuicXferSegment} (h_end : seg.isEnd = false)
    (segData : Octets) (takes : Bool) :
    ∃ q', xferStore q seg segData takes = ⟨q', none, true⟩ ∧ q'.xfer = q.xfer ++ segData ∧
      q'.xferActive = q.xferActive ∧ q'.xferBundleLen = q.xferBundleLen := by
  unfold xferStore
  rw [h_end]
  exact ⟨_, rfl, rfl, rfl, rfl⟩

theorem xferStore_end {q : StreamRx} {seg : QuicXferSegment} (h_end : seg.isEnd = true)
    {segData : Octets} (h_len : (q.xfer ++ segData).length = q.xferBundleLen) (takes : Bool) :
    ∃ q', xferStore q seg segData takes = ⟨q', some (q.xfer ++ segData), takes⟩ := by
  unfold xferStore
  rw [h_end]
  simp only [Bool.not_true, Bool.false_eq_true, if_false, ne_eq, h_len, not_true]
  exact ⟨_, rfl⟩

/-- The next segment of a frame: the last one delivers the bundle. -/
theorem Remains.step {segMru txid : Nat} {q : StreamRx} {bundle src : Octets}
    {segId rounds : Nat} (h : Remains segMru q bundle segId (rounds + 1) src) :
    ∃ q', xferReassemble q
        (frameSegment txid bundle.length (frameSegments segMru bundle.length) segId
          (segLen segMru src)) (src.take (segLen segMru src)) true true =
        ⟨q', if rounds = 0 then some bundle else none, true⟩ ∧
      (rounds ≠ 0 → Remains segMru q' bundle (segId + 1) rounds
        (src.drop (segLen segMru src))) := by
  obtain ⟨taken, h_bundle, h_begin⟩ := @Remains.begin _ txid _ _ _ _ _ (segLen segMru src) h
  have h_end := (hasFlag_frameSegment txid bundle.length (frameSegments segMru bundle.length)
    segId (segLen segMru src)).2
  have h_this := segLen_le segMru src
  have h_sum : taken.length + src.length = bundle.length := by
    rw [← List.length_append, h_bundle]
  have h_count := h.count
  have h_room := h.room
  obtain ⟨cap, h_eq⟩ := xferReassemble_eq h_begin
    (show taken.length + segLen segMru src ≤ bundle.length by omega)
    (src.take (segLen segMru src)) true
  rw [h_eq]
  cases rounds with
  | zero =>
    -- The last segment takes all that is left.
    have h_all : segLen segMru src = src.length := by
      unfold segLen
      split <;> omega
    have h_whole : taken ++ src.take (segLen segMru src) = bundle := by
      rw [h_all, List.take_length, h_bundle]
    have h_last : segId = frameSegments segMru bundle.length - 1 := by omega
    rw [decide_eq_true h_last] at h_end
    obtain ⟨q', h_store⟩ := @xferStore_end { q with
      xfer := taken, xferBundleLen := bundle.length, xferActive := true, xferCap := cap } _ h_end
      (src.take (segLen segMru src)) (congrArg List.length h_whole) true
    refine ⟨q', ?_, fun h_not => absurd rfl h_not⟩
    rw [h_store]
    show (⟨q', some (taken ++ src.take (segLen segMru src)), true⟩ : XferOut) = _
    rw [h_whole]
    rfl
  | succ rounds =>
    have h_more : segId ≠ frameSegments segMru bundle.length - 1 := by omega
    rw [decide_eq_false h_more] at h_end
    obtain ⟨q', h_store, h_xfer, h_active, h_len⟩ := xferStore_more h_end
      (q := { q with
        xfer := taken, xferBundleLen := bundle.length, xferActive := true, xferCap := cap })
      (src.take (segLen segMru src)) true
    refine ⟨q', h_store, fun _ => ⟨by omega, ?_, by omega, fun _ => ⟨h_active, h_len, ?_⟩⟩⟩
    · rw [List.length_drop]
      unfold segLen
      rw [Nat.succ_mul] at h_room
      split <;> omega
    · rw [h_xfer]
      show taken ++ src.take (segLen segMru src) ++ src.drop (segLen segMru src) = bundle
      rw [List.append_assoc, List.take_append_drop, h_bundle]

/-! ## The frame under way -/

/-- A bundle that `doSend` put on a data stream. -/
structure Sent.Ok (f : Sent) : Prop where
  small : f.bundle.length ≤ quicclaBufsz
  frame : Frame f.bundle f.framed

/-- A place between two segments of a frame: the octets `taken` of the frame come before it, the
    segment number `segId` comes next, and `rounds` more after that. -/
structure Place where
  segMru : Nat
  txid : Nat
  segId : Nat
  rounds : Nat
  src : Octets
  taken : Octets

namespace Place

def next (p : Place) (bundle : Octets) : Segment :=
  (frameSegment p.txid bundle.length (frameSegments p.segMru bundle.length) p.segId
    (segLen p.segMru p.src), p.src.take (segLen p.segMru p.src))

/-- The segments after the next one. -/
def later (p : Place) (bundle : Octets) : List Segment :=
  frameSegs p.segMru p.txid bundle.length (frameSegments p.segMru bundle.length) p.rounds
    (p.segId + 1) (p.src.drop (segLen p.segMru p.src))

/-- The place `p` is in the frame `f`, and the receiver `q` has got there. -/
structure Reached (p : Place) (q : StreamRx) (f : Sent) : Prop where
  mru : 0 < p.segMru ∧ p.segMru < 2 ^ 64
  txid : p.txid < 2 ^ 64
  remains : Remains p.segMru q f.bundle p.segId (p.rounds + 1) p.src
  short : p.src.length ≤ f.bundle.length
  framed : f.framed = p.taken ++ (segWire (p.next f.bundle) ++
    (p.later f.bundle).flatMap segWire)

/-- The place after the next segment. -/
def succ (p : Place) (bundle : Octets) (rounds : Nat) : Place where
  segMru := p.segMru
  txid := p.txid
  segId := p.segId + 1
  rounds := rounds
  src := p.src.drop (segLen p.segMru p.src)
  taken := p.taken ++ segWire (p.next bundle)

theorem Reached.segmentOk {p : Place} {q : StreamRx} {f : Sent} (h : p.Reached q f)
    (h_f : f.Ok) : SegmentOk (p.next f.bundle) where
  fits := by
    apply frameSegment_fits _ _ h.txid
    · have h_small := h_f.small
      have h_buf : quicclaBufsz = 262144 := rfl
      omega
    · exact Nat.le_trans (segLen_le _ _) h.short
  length := (length_take_segLen p.segMru p.src).symm
  small := by
    show (p.src.take (segLen p.segMru p.src)).length ≤ quicclaBufsz
    rw [length_take_segLen]
    have h_this := segLen_le p.segMru p.src
    have h_short := h.short
    have h_small := h_f.small
    omega
  bundle := h_f.small

/-- Only the transfer counts, not what is in the buffer. -/
theorem Reached.of_buffer {p : Place} {q : StreamRx} {f : Sent} (h : p.Reached q f)
    (buf : Octets) : p.Reached { q with rxBuf := buf } f where
  mru := h.mru
  txid := h.txid
  remains := ⟨h.remains.count, h.remains.room, h.remains.fresh, h.remains.running⟩
  short := h.short
  framed := h.framed

/-- The next segment takes the receiver to the next place, or to the end of the frame. -/
theorem Reached.step {p : Place} {q : StreamRx} {f : Sent} (h : p.Reached q f) :
    ∃ q', xferReassemble q (p.next f.bundle).1 (p.next f.bundle).2 true true =
        ⟨q', if p.rounds = 0 then some f.bundle else none, true⟩ ∧
      ∀ rounds, p.rounds = rounds + 1 → (p.succ f.bundle rounds).Reached q' f := by
  obtain ⟨q', h_eq, h_more⟩ := @Remains.step _ p.txid _ _ _ _ _ h.remains
  refine ⟨q', h_eq, fun rounds h_rounds => ⟨h.mru, h.txid, ?_, ?_, ?_⟩⟩
  · have h_remains := h_more (by omega)
    rw [h_rounds] at h_remains
    exact h_remains
  · show (p.src.drop _).length ≤ _
    rw [List.length_drop]
    have h_short := h.short
    omega
  · have h_framed := h.framed
    rw [later, h_rounds] at h_framed
    rw [h_framed]
    show _ = p.taken ++ segWire (p.next f.bundle) ++ _
    rw [List.append_assoc]
    rfl

/-- The start of a frame, for a receiver that is between two frames. -/
theorem exists_reached_start (q : StreamRx) {f : Sent} (h_f : f.Ok) :
    ∃ p : Place, p.Reached q f ∧ p.taken = [] := by
  obtain ⟨segMru, txid, h_mru, h_lt, h_txid, h_framed⟩ := h_f.frame
  obtain ⟨rounds, h_rounds⟩ :=
    Nat.exists_eq_add_of_lt (frameSegments_pos segMru f.bundle.length)
  rw [Nat.zero_add] at h_rounds
  refine ⟨⟨segMru, txid, 0, rounds, f.bundle, []⟩, ⟨⟨h_mru, h_lt⟩, h_txid, ?_, ?_, ?_⟩, rfl⟩
  · refine ⟨by simpa using h_rounds.symm, ?_, fun _ => rfl, fun h_pos => absurd h_pos (by simp)⟩
    show f.bundle.length ≤ (rounds + 1) * segMru
    rw [← h_rounds]
    exact le_frameSegments h_mru h_lt h_f.small
  · exact Nat.le_refl _
  · rw [h_framed]
    -- The first of the segments is taken off the list.
    have h_segs : frameSegs segMru txid f.bundle.length (frameSegments segMru f.bundle.length)
        (frameSegments segMru f.bundle.length) 0 f.bundle =
        frameSegs segMru txid f.bundle.length (frameSegments segMru f.bundle.length)
          (rounds + 1) 0 f.bundle := by
      rw [← h_rounds]
    rw [h_segs]
    rfl

end Place

/-- What the receiver holds, `off` octets into the first of the frames `ahead`: the part of the
    next segment that has arrived. -/
def Ahead (q : StreamRx) (ahead : List Sent) (off : Nat) : Prop :=
  match ahead with
  | [] => off = 0 ∧ q.rxBuf = []
  | f :: _ => ∃ p : Place, p.Reached q f ∧ ∃ n, n < (segWire (p.next f.bundle)).length ∧
    q.rxBuf = (segWire (p.next f.bundle)).take n ∧ off = p.taken.length + n

/-- Nothing is held between two frames. -/
theorem Ahead.of_nil {q : StreamRx} (h_buf : q.rxBuf = []) {ahead : List Sent}
    (h_ok : ∀ f ∈ ahead, f.Ok) : Ahead q ahead 0 := by
  cases ahead with
  | nil => exact ⟨rfl, h_buf⟩
  | cons f later =>
    obtain ⟨p, h_p, h_taken⟩ := Place.exists_reached_start q (h_ok f List.mem_cons_self)
    refine ⟨p, h_p, 0, ?_, h_buf, by rw [h_taken]; rfl⟩
    obtain ⟨bs, h_hdr⟩ := head_hdr (p.next f.bundle).1
    simp [segWire, h_hdr]

theorem Ahead.rxBuf_eq_nil {q : StreamRx} {ahead : List Sent} (h : Ahead q ahead 0) :
    q.rxBuf = [] := by
  cases ahead with
  | nil => exact h.2
  | cons f later =>
    obtain ⟨p, -, n, -, h_buf, h_off⟩ := h
    obtain rfl : n = 0 := by omega
    rw [h_buf, List.take_zero]

/-- The frame under way has not arrived whole. -/
theorem Ahead.off_lt {q : StreamRx} {f : Sent} {later : List Sent} {off : Nat}
    (h : Ahead q (f :: later) off) : off < f.framed.length := by
  obtain ⟨p, h_p, n, h_n, -, rfl⟩ := h
  rw [h_p.framed, List.length_append, List.length_append]
  omega

/-- What is to come on a stream, from a place in the frame `f` on. -/
def Place.octetsAhead (p : Place) (f : Sent) (later : List Sent) : Octets :=
  segWire (p.next f.bundle) ++ ((p.later f.bundle).flatMap segWire ++ streamOctets later)

theorem Place.octetsAhead_succ {p : Place} {f : Sent} {rounds : Nat}
    (h_rounds : p.rounds = rounds + 1) (later : List Sent) :
    (p.later f.bundle).flatMap segWire ++ streamOctets later =
      (p.succ f.bundle rounds).octetsAhead f later := by
  have h_later : p.later f.bundle =
      (p.succ f.bundle rounds).next f.bundle :: (p.succ f.bundle rounds).later f.bundle := by
    unfold Place.later
    rw [h_rounds]
    rfl
  rw [h_later, List.flatMap_cons, List.append_assoc]
  rfl

theorem Place.Reached.octetsAhead_start {p : Place} {q : StreamRx} {f : Sent}
    (h : p.Reached q f) (h_taken : p.taken = []) (later : List Sent) :
    streamOctets (f :: later) = p.octetsAhead f later := by
  have h_framed := h.framed
  rw [h_taken, List.nil_append] at h_framed
  rw [streamOctets, List.flatMap_cons, h_framed, List.append_assoc]
  rfl

/-- The parser on the next `n` octets of a stream, whatever `n` is: it delivers the bundles of
    the frames that end there, and holds the part of a segment that is left. -/
theorem parse_ahead {env : StreamEnv} (h_mem : env.xferMem = true) (h_takes : env.refuses = none)
    {fuel n : Nat} {q : StreamRx} {f : Sent} {later : List Sent} {p : Place}
    {delivered : List Octets} (h_p : p.Reached q f) (h_ok : ∀ g ∈ f :: later, g.Ok)
    (h_n : n ≤ (p.octetsAhead f later).length) (h_fuel : n < fuel) :
    ∃ q' done ahead off, f :: later = done ++ ahead ∧
      deliverBundlesFrom env fuel q ((p.octetsAhead f later).take n) delivered =
        ⟨q', delivered ++ done.map Sent.bundle, true⟩ ∧
      Ahead q' ahead off ∧ p.taken.length + n = (streamOctets done).length + off := by
  induction fuel generalizing n q f later p delivered with
  | zero => omega
  | succ fuel ih =>
    have h_seg := h_p.segmentOk (h_ok f List.mem_cons_self)
    rcases Nat.lt_or_ge n (segWire (p.next f.bundle)).length with h_short | h_whole
    · -- Not even the next segment is there.
      refine ⟨{ q with rxBuf := (segWire (p.next f.bundle)).take n }, [], f :: later,
        p.taken.length + n, rfl, ?_, ⟨p, h_p.of_buffer _, n, h_short, rfl, rfl⟩, ?_⟩
      · rw [Place.octetsAhead, List.take_append_of_le_length (by omega),
          deliverBundlesFrom_short h_seg h_short]
        simp
      · simp [streamOctets]
    · obtain ⟨q', h_step, h_next⟩ := h_p.step
      obtain ⟨k, rfl⟩ : ∃ k, n = (segWire (p.next f.bundle)).length + k :=
        ⟨n - (segWire (p.next f.bundle)).length, by omega⟩
      have h_pos : 0 < (segWire (p.next f.bundle)).length := by
        obtain ⟨bs, h_hdr⟩ := head_hdr (p.next f.bundle).1
        simp [segWire, h_hdr]
      rw [Place.octetsAhead, List.take_length_add_append, deliverBundlesFrom_segment h_seg, h_mem,
        h_takes]
      rw [Place.octetsAhead, List.length_append] at h_n
      have h_taking : decide ((none : Option Nat) ≠ some delivered.length) = true := by simp
      simp only [h_taking, h_step, Bool.not_true, Bool.false_eq_true, if_false]
      cases h_rounds : p.rounds with
      | succ rounds =>
        -- The frame goes on.
        rw [if_neg (by omega), Option.toList_none, List.append_nil,
          Place.octetsAhead_succ h_rounds]
        rw [Place.octetsAhead_succ h_rounds] at h_n
        obtain ⟨q'', done, ahead, off, h_split, h_run, h_ahead, h_off⟩ :=
          @ih k q' f later (p.succ f.bundle rounds) delivered (h_next rounds h_rounds) h_ok
            (by omega) (by omega)
        refine ⟨q'', done, ahead, off, h_split, h_run, h_ahead, ?_⟩
        rw [← h_off]
        simp only [Place.succ, List.length_append]
        omega
      | zero =>
        -- The frame ends here, and another one may begin.
        have h_end : p.later f.bundle = [] := by
          unfold Place.later
          rw [h_rounds]
          rfl
        have h_framed : f.framed.length =
            p.taken.length + (segWire (p.next f.bundle)).length := by
          rw [h_p.framed, h_end]
          simp
        rw [if_pos rfl, Option.toList_some, h_end, List.flatMap_nil, List.nil_append]
        rw [h_end, List.flatMap_nil, List.nil_append] at h_n
        cases later with
        | nil =>
          have h_nil : (streamOctets []).take k = [] := by simp [streamOctets]
          refine ⟨{ q' with rxBuf := [] }, [f], [], 0, rfl, ?_, ⟨rfl, rfl⟩, ?_⟩
          · rw [h_nil]
            cases fuel <;> rfl
          · simp only [streamOctets, List.flatMap_nil, List.length_nil] at h_n
            simp only [streamOctets, List.flatMap_cons, List.flatMap_nil, List.append_nil]
            omega
        | cons g later =>
          have h_ok' : ∀ g' ∈ g :: later, g'.Ok := fun g' h_mem =>
            h_ok g' (List.mem_cons_of_mem f h_mem)
          obtain ⟨p', h_p', h_taken⟩ :=
            Place.exists_reached_start q' (h_ok' g List.mem_cons_self)
          rw [h_p'.octetsAhead_start h_taken]
          rw [h_p'.octetsAhead_start h_taken] at h_n
          obtain ⟨q'', done, ahead, off, h_split, h_run, h_ahead, h_off⟩ :=
            @ih k q' g later p' (delivered ++ [f.bundle]) h_p' h_ok' (by omega) (by omega)
          refine ⟨q'', f :: done, ahead, off, by rw [h_split]; rfl, ?_, h_ahead, ?_⟩
          · rw [h_run]
            simp
          · rw [h_taken, List.length_nil, Nat.zero_add] at h_off
            simp only [streamOctets, List.flatMap_cons, List.length_append] at h_off ⊢
            omega

theorem rxGrow_of_mem (q : StreamRx) (want : Nat) :
    ∃ cap, rxGrow q want true = some { q with rxCap := cap } := by
  unfold rxGrow
  split
  · exact ⟨_, rfl⟩
  · exact ⟨q.rxCap, rfl⟩

theorem Ahead.of_same {q q' : StreamRx} {ahead : List Sent} {off : Nat} (h : Ahead q ahead off)
    (h_buf : q'.rxBuf = q.rxBuf) (h_xfer : q'.xfer = q.xfer)
    (h_active : q'.xferActive = q.xferActive) (h_len : q'.xferBundleLen = q.xferBundleLen) :
    Ahead q' ahead off := by
  cases ahead with
  | nil => exact ⟨h.1, h_buf.trans h.2⟩
  | cons f later =>
    obtain ⟨p, h_p, n, h_n, h_rx, h_off⟩ := h
    refine ⟨p, ⟨h_p.mru, h_p.txid, ⟨?_, ?_, ?_, ?_⟩, h_p.short, h_p.framed⟩, n, h_n,
      h_buf.trans h_rx, h_off⟩
    · exact h_p.remains.count
    · exact h_p.remains.room
    · exact h_p.remains.fresh
    · rw [h_active, h_len, h_xfer]
      exact h_p.remains.running

/-- A chunk of the stream whose frame is under way. -/
theorem recvStreamDataCb_ahead {env : StreamEnv} (h_rxMem : env.rxMem = true)
    (h_mem : env.xferMem = true) (h_takes : env.refuses = none) {q : StreamRx}
    {ahead : List Sent} {off n : Nat} (h : Ahead q ahead off) (h_ok : ∀ g ∈ ahead, g.Ok)
    (h_pos : 0 < n) (h_n : off + n ≤ (streamOctets ahead).length) (streamId : Int) :
    ∃ q' done ahead' off', ahead = done ++ ahead' ∧
      recvStreamDataCb env q streamId (((streamOctets ahead).drop off).take n) =
        ⟨q', done.map Sent.bundle, true⟩ ∧
      Ahead q' ahead' off' ∧ off + n = (streamOctets done).length + off' := by
  cases ahead with
  | nil =>
    simp only [streamOctets, List.flatMap_nil, List.length_nil] at h_n
    omega
  | cons f later =>
    have h_held : Ahead { q with ackStreamId := streamId } (f :: later) off :=
      h.of_same rfl rfl rfl rfl
    obtain ⟨p, h_p, k, h_k, h_buf, rfl⟩ := h_held
    -- What is in the buffer and the chunk are the next `k + n` octets.
    have h_octets : streamOctets (f :: later) = p.taken ++ p.octetsAhead f later := by
      rw [streamOctets, List.flatMap_cons, h_p.framed]
      simp only [List.append_assoc, Place.octetsAhead, streamOctets]
    have h_data : ((streamOctets (f :: later)).drop (p.taken.length + k)).take n =
        ((p.octetsAhead f later).drop k).take n := by
      rw [h_octets, List.drop_length_add_append]
    have h_rx : (segWire (p.next f.bundle)).take k = (p.octetsAhead f later).take k := by
      rw [Place.octetsAhead, List.take_append_of_le_length (by omega)]
    rw [h_octets, List.length_append] at h_n
    rw [h_data]
    obtain ⟨cap, h_grow⟩ := rxGrow_of_mem { q with ackStreamId := streamId }
      (q.rxBuf.length + (((p.octetsAhead f later).drop k).take n).length)
    unfold recvStreamDataCb
    simp only [h_rxMem, h_grow]
    have h_all : q.rxBuf ++ ((p.octetsAhead f later).drop k).take n =
        (p.octetsAhead f later).take (k + n) := by
      rw [show q.rxBuf = (segWire (p.next f.bundle)).take k from h_buf, h_rx, List.take_add]
    rw [h_all]
    unfold deliverBundles
    have h_len : ((p.octetsAhead f later).take (k + n)).length = k + n := by
      rw [List.length_take]
      omega
    have h_p' : p.Reached { q with
        ackStreamId := streamId, rxCap := cap,
        rxBuf := (p.octetsAhead f later).take (k + n) } f :=
      ⟨h_p.mru, h_p.txid, ⟨h_p.remains.count, h_p.remains.room, h_p.remains.fresh,
        h_p.remains.running⟩, h_p.short, h_p.framed⟩
    obtain ⟨q', done, ahead', off', h_split, h_run, h_ahead, h_off⟩ :=
      @parse_ahead _ h_mem h_takes (((p.octetsAhead f later).take (k + n)).length + 1) (k + n)
        _ _ _ _ [] h_p' h_ok (by omega) (by omega)
    refine ⟨q', done, ahead', off', h_split, ?_, h_ahead, by omega⟩
    rw [List.nil_append] at h_run
    exact h_run

/-! ## Frames that have arrived -/

/-- The frames all of whose octets are among the first `got` of the stream. -/
def arrivedFrames : List Sent → Nat → List Sent
  | [], _ => []
  | f :: later, got =>
    if f.framed.length ≤ got then f :: arrivedFrames later (got - f.framed.length) else []

/-- How many of the first `got` octets of the stream belong to a frame that has not arrived. -/
def inFrame : List Sent → Nat → Nat
  | [], got => got
  | f :: later, got =>
    if f.framed.length ≤ got then inFrame later (got - f.framed.length) else got

/-- The counters of a stream that has got to a place in the first of the frames `ahead`. -/
theorem arrived_append (done : List Sent) {ahead : List Sent} {off : Nat}
    (h_off : ahead = [] ∧ off = 0 ∨ ∃ f later, ahead = f :: later ∧ off < f.framed.length) :
    arrivedFrames (done ++ ahead) ((streamOctets done).length + off) = done ∧
      inFrame (done ++ ahead) ((streamOctets done).length + off) = off := by
  induction done with
  | nil =>
    simp only [streamOctets, List.flatMap_nil, List.length_nil, Nat.zero_add, List.nil_append]
    rcases h_off with ⟨rfl, rfl⟩ | ⟨f, later, rfl, h_lt⟩
    · exact ⟨rfl, rfl⟩
    · unfold arrivedFrames inFrame
      rw [if_neg (by omega), if_neg (by omega)]
      exact ⟨rfl, rfl⟩
  | cons f done ih =>
    have h_len : (streamOctets (f :: done)).length =
        f.framed.length + (streamOctets done).length := by
      simp [streamOctets]
    rw [List.cons_append, h_len]
    unfold arrivedFrames inFrame
    rw [if_pos (by omega), if_pos (by omega),
      show f.framed.length + (streamOctets done).length + off - f.framed.length =
        (streamOctets done).length + off by omega, ih.1, ih.2]
    exact ⟨rfl, rfl⟩

/-- The bundles whose octets have all arrived, stream by stream. -/
def Link.arrived (w : Link) : List Octets :=
  (List.finRange 4).flatMap fun i => (arrivedFrames (w.sent i) (w.got i)).map Sent.bundle

/-- A chunk comes when no other stream is in the middle of a frame, and there is memory for it
    and the bundles it completes are taken. -/
def Link.Apart (w : Link) : LinkAct → Prop
  | .chunk i _ env => (∀ j, j ≠ i → inFrame (w.sent j) (w.got j) = 0) ∧
    env.rxMem = true ∧ env.xferMem = true ∧ env.refuses = none
  | _ => True

instance (w : Link) : DecidablePred w.Apart
  | .chunk _ _ _ => inferInstanceAs (Decidable (_ ∧ _ ∧ _ ∧ _))
  | .negotiate _ => .isTrue trivial
  | .send _ _ _ => .isTrue trivial

theorem Sent.Ok.framed_pos {f : Sent} (h : f.Ok) : 0 < f.framed.length := by
  obtain ⟨p, h_p, -⟩ := Place.exists_reached_start StreamRx.init h
  obtain ⟨bs, h_hdr⟩ := head_hdr (p.next f.bundle).1
  rw [h_p.framed]
  simp [segWire, h_hdr]

/-! ## The invariant of a session -/

/-- On every stream the frames `done` have arrived; only on the stream `cur` the receiver may be
    in the middle of one. -/
structure Along (w : Link) (cur : Fin 4) (done ahead : Fin 4 → List Sent) (off : Fin 4 → Nat) :
    Prop where
  split : ∀ i, w.sent i = done i ++ ahead i
  got : ∀ i, w.got i = (streamOctets (done i)).length + off i
  others : ∀ i, i ≠ cur → off i = 0
  held : Ahead w.rx (ahead cur) (off cur)
  delivered : w.delivered.Perm ((List.finRange 4).flatMap fun i => (done i).map Sent.bundle)

structure LinkOk (w : Link) : Prop where
  up : w.failed = false
  mru : w.peerSegmentMru < 2 ^ 64
  txid : w.nextTxId < 2 ^ 64
  sent : ∀ i, ∀ f ∈ w.sent i, f.Ok
  along : ∃ cur done ahead off, Along w cur done ahead off

theorem LinkOk.init (dataStreams : Fin 4 → Int) : LinkOk (Link.init dataStreams) where
  up := rfl
  mru := Nat.two_pow_pos 64
  txid := Nat.two_pow_pos 64
  sent i f h_f := by cases h_f
  along := ⟨0, fun _ => [], fun _ => [], fun _ => 0, fun _ => rfl, fun _ => rfl, fun _ _ => rfl,
    ⟨rfl, rfl⟩, by simp [Link.init]⟩

/-- The counters say where the streams are. -/
theorem Along.counters {w : Link} (h_ok : ∀ i, ∀ f ∈ w.sent i, f.Ok) {cur : Fin 4}
    {done ahead : Fin 4 → List Sent} {off : Fin 4 → Nat} (h : Along w cur done ahead off)
    (i : Fin 4) :
    arrivedFrames (w.sent i) (w.got i) = done i ∧ inFrame (w.sent i) (w.got i) = off i := by
  rw [h.split i, h.got i]
  apply arrived_append
  cases h_ahead : ahead i with
  | nil =>
    refine .inl ⟨rfl, ?_⟩
    by_cases h_cur : i = cur
    · subst h_cur
      have h_held := h.held
      rw [h_ahead] at h_held
      exact h_held.1
    · exact h.others i h_cur
  | cons f later =>
    refine .inr ⟨f, later, rfl, ?_⟩
    by_cases h_cur : i = cur
    · subst h_cur
      have h_held := h.held
      rw [h_ahead] at h_held
      exact h_held.off_lt
    · rw [h.others i h_cur]
      apply (h_ok i f ?_).framed_pos
      rw [h.split i, h_ahead]
      simp

theorem Along.arrived {w : Link} (h_ok : ∀ i, ∀ f ∈ w.sent i, f.Ok) {cur : Fin 4}
    {done ahead : Fin 4 → List Sent} {off : Fin 4 → Nat} (h : Along w cur done ahead off) :
    w.arrived = (List.finRange 4).flatMap fun i => (done i).map Sent.bundle := by
  unfold Link.arrived
  congr 1
  funext i
  rw [(h.counters h_ok i).1]

/-- Where no other stream is in the middle of a frame, the next chunk may be on the stream `i`. -/
theorem Along.turn {w : Link} (h_ok : ∀ i, ∀ f ∈ w.sent i, f.Ok) {cur i : Fin 4}
    {done ahead : Fin 4 → List Sent} {off : Fin 4 → Nat} (h : Along w cur done ahead off)
    (h_apart : ∀ j, j ≠ i → inFrame (w.sent j) (w.got j) = 0) : Along w i done ahead off := by
  have h_off : ∀ j, j ≠ i → off j = 0 := by
    intro j h_j
    rw [← (h.counters h_ok j).2]
    exact h_apart j h_j
  refine ⟨h.split, h.got, h_off, ?_, h.delivered⟩
  by_cases h_cur : i = cur
  · rw [h_cur]
    exact h.held
  · have h_held := h.held
    rw [h_off cur (Ne.symm h_cur)] at h_held
    rw [h.others i h_cur]
    apply Ahead.of_nil h_held.rxBuf_eq_nil
    intro f h_f
    apply h_ok i f
    rw [h.split i]
    exact List.mem_append_right _ h_f

/-- The octets that are to come are those of the frames ahead. -/
theorem Along.data {w : Link} {cur : Fin 4} {done ahead : Fin 4 → List Sent}
    {off : Fin 4 → Nat} (h : Along w cur done ahead off) (i : Fin 4) :
    (streamOctets (w.sent i)).drop (w.got i) = (streamOctets (ahead i)).drop (off i) ∧
      (streamOctets (w.sent i)).length =
        (streamOctets (done i)).length + (streamOctets (ahead i)).length := by
  have h_octets : streamOctets (w.sent i) = streamOctets (done i) ++ streamOctets (ahead i) := by
    rw [h.split i]
    exact List.flatMap_append
  rw [h_octets, h.got i]
  exact ⟨List.drop_length_add_append _, List.length_append⟩

/-- What is added to one of the lists is added to all of them together. -/
theorem flatMap_update_perm {ι α : Type*} [DecidableEq ι] {l : List ι} (h_nodup : l.Nodup)
    {i : ι} (h_i : i ∈ l) (f : ι → List α) (more : List α) :
    (l.flatMap f ++ more).Perm (l.flatMap (Function.update f i (f i ++ more))) := by
  induction l with
  | nil => cases h_i
  | cons j l ih =>
    obtain ⟨h_j, h_l⟩ := List.nodup_cons.mp h_nodup
    rw [List.flatMap_cons, List.flatMap_cons]
    rcases List.mem_cons.mp h_i with rfl | h_i
    · have h_rest : l.flatMap (Function.update f i (f i ++ more)) = l.flatMap f := by
        apply List.flatMap_congr
        intro k h_k
        have h_ne : k ≠ i := by
          rintro rfl
          exact h_j h_k
        exact Function.update_of_ne h_ne _ _
      rw [Function.update_self, h_rest, List.append_assoc, List.append_assoc]
      exact List.perm_append_comm.append_left (f i)
    · have h_ne : j ≠ i := by
        rintro rfl
        exact h_j h_i
      rw [Function.update_of_ne h_ne, List.append_assoc]
      exact (ih h_l h_i).append_left (f j)

/-! ## Steps and runs -/

/-- A bundle put on a stream changes nothing about what has arrived. -/
theorem LinkOk.doSend {w : Link} (h : LinkOk w) {bundle : Octets}
    (h_small : bundle.length ≤ quicclaBufsz) (ordinal : Nat) (mem : Bool) :
    LinkOk (w.doSend bundle ordinal mem) := by
  have h_next : (w.nextTxId + 1) % 2 ^ 64 < 2 ^ 64 := Nat.mod_lt _ (Nat.two_pow_pos 64)
  obtain ⟨cur, done, ahead, off, h_along⟩ := h.along
  unfold Link.doSend
  cases h_frame : frameBundle w.peerSegmentMru w.nextTxId bundle mem with
  | none =>
    exact ⟨h.up, h.mru, h_next, h.sent, cur, done, ahead, off, h_along.split, h_along.got,
      h_along.others, h_along.held, h_along.delivered⟩
  | some framed =>
    have h_new : Sent.Ok ⟨bundle, framed⟩ := ⟨h_small, frameBundle_frame h.mru h.txid h_frame⟩
    let i := priorityStream ordinal
    let ahead' := Function.update ahead i (ahead i ++ [⟨bundle, framed⟩])
    have h_other : ∀ j, j ≠ i → ahead' j = ahead j := fun j h_j =>
      Function.update_of_ne h_j _ _
    have h_here : ahead' i = ahead i ++ [⟨bundle, framed⟩] := Function.update_self _ _ _
    refine ⟨h.up, h.mru, h_next, ?_, cur, done, ahead', off, ?_, h_along.got, h_along.others, ?_,
      h_along.delivered⟩
    · intro j f (h_f : f ∈ Function.update w.sent i (w.sent i ++ [⟨bundle, framed⟩]) j)
      by_cases h_j : j = i
      · subst h_j
        rw [Function.update_self, List.mem_append, List.mem_singleton] at h_f
        rcases h_f with h_f | rfl
        · exact h.sent i f h_f
        · exact h_new
      · rw [Function.update_of_ne h_j] at h_f
        exact h.sent j f h_f
    · intro j
      show Function.update w.sent i (w.sent i ++ [⟨bundle, framed⟩]) j = _
      by_cases h_j : j = i
      · subst h_j
        rw [h_here, Function.update_self, h_along.split, List.append_assoc]
      · rw [h_other j h_j, Function.update_of_ne h_j]
        exact h_along.split j
    · show Ahead w.rx (ahead' cur) (off cur)
      have h_held := h_along.held
      by_cases h_cur : cur = i
      · subst h_cur
        rw [h_here]
        cases h_ahead : ahead i with
        | nil =>
          rw [h_ahead] at h_held
          rw [h_held.1]
          apply Ahead.of_nil h_held.2
          intro f h_f
          rw [List.nil_append, List.mem_singleton] at h_f
          rw [h_f]
          exact h_new
        | cons f later =>
          rw [h_ahead] at h_held
          exact h_held
      · rw [h_other cur h_cur]
        exact h_held

/-- A chunk that comes when no other stream is in the middle of a frame. -/
theorem LinkOk.recvChunk {w : Link} (h : LinkOk w) {i : Fin 4} {n : Nat} {env : StreamEnv}
    (h_apart : w.Apart (.chunk i n env)) (h_pos : 0 < n)
    (h_n : w.got i + n ≤ (streamOctets (w.sent i)).length) : LinkOk (w.recvChunk i n env) := by
  obtain ⟨cur, done, ahead, off, h_cur⟩ := h.along
  obtain ⟨h_others, h_rxMem, h_mem, h_takes⟩ := h_apart
  have h_along := h_cur.turn h.sent h_others
  obtain ⟨h_data, h_len⟩ := h_along.data i
  have h_got := h_along.got i
  have h_ok : ∀ f ∈ ahead i, f.Ok := by
    intro f h_f
    apply h.sent i f
    rw [h_along.split i]
    exact List.mem_append_right _ h_f
  obtain ⟨q', more, ahead', off', h_split, h_run, h_ahead, h_off⟩ :=
    recvStreamDataCb_ahead h_rxMem h_mem h_takes h_along.held h_ok h_pos
      (show off i + n ≤ (streamOctets (ahead i)).length by omega) (w.dataStreams i)
  have h_chunk : w.recvChunk i n env = { w with
      got := Function.update w.got i (w.got i + n)
      rx := q'
      failed := false
      delivered := w.delivered ++ more.map Sent.bundle } := by
    unfold Link.recvChunk
    rw [h_data]
    simp only [h_run]
    rfl
  rw [h_chunk]
  have h_done : ∀ j, (Function.update done i (done i ++ more) j).map Sent.bundle =
      Function.update (fun j => (done j).map Sent.bundle) i
        ((done i).map Sent.bundle ++ more.map Sent.bundle) j := by
    intro j
    by_cases h_j : j = i
    · subst h_j
      simp
    · simp [Function.update_of_ne h_j]
  refine ⟨rfl, h.mru, h.txid, h.sent, i, Function.update done i (done i ++ more),
    Function.update ahead i ahead', Function.update off i off', ?_, ?_, ?_, ?_, ?_⟩
  · intro j
    by_cases h_j : j = i
    · subst h_j
      rw [Function.update_self, Function.update_self, List.append_assoc, ← h_split]
      exact h_along.split j
    · rw [Function.update_of_ne h_j, Function.update_of_ne h_j]
      exact h_along.split j
  · intro j
    show Function.update w.got i (w.got i + n) j = _
    by_cases h_j : j = i
    · subst h_j
      rw [Function.update_self, Function.update_self, Function.update_self]
      have h_more : (streamOctets (done j ++ more)).length =
          (streamOctets (done j)).length + (streamOctets more).length := by
        simp [streamOctets]
      omega
    · rw [Function.update_of_ne h_j, Function.update_of_ne h_j, Function.update_of_ne h_j]
      exact h_along.got j
  · intro j h_j
    rw [Function.update_of_ne h_j]
    exact h_along.others j h_j
  · rw [Function.update_self, Function.update_self]
    exact h_ahead
  · show (w.delivered ++ more.map Sent.bundle).Perm _
    simp only [h_done]
    exact (h_along.delivered.append_right _).trans
      (flatMap_update_perm (List.nodup_finRange 4) (List.mem_finRange i)
        (fun j => (done j).map Sent.bundle) (more.map Sent.bundle))

theorem LinkOk.step {w w' : Link} {a : LinkAct} (h : LinkOk w) (h_apart : w.Apart a)
    (h_step : w.step a = some w') : LinkOk w' := by
  unfold Link.step at h_step
  rw [h.up] at h_step
  simp only [Bool.false_eq_true, if_false] at h_step
  cases a with
  | negotiate segmentMru =>
    dsimp only at h_step
    split at h_step
    · next h_lt =>
      obtain rfl := Option.some.inj h_step
      obtain ⟨cur, done, ahead, off, h_along⟩ := h.along
      exact ⟨rfl, h_lt, h.txid, h.sent, cur, done, ahead, off, h_along.split, h_along.got,
        h_along.others, h_along.held, h_along.delivered⟩
    · cases h_step
  | send bundle ordinal mem =>
    dsimp only at h_step
    split at h_step
    · next h_small =>
      obtain rfl := Option.some.inj h_step
      exact h.doSend h_small ordinal mem
    · cases h_step
  | chunk i n env =>
    dsimp only at h_step
    split at h_step
    · next h_n =>
      obtain rfl := Option.some.inj h_step
      exact h.recvChunk h_apart h_n.1 h_n.2
    · cases h_step

/-- As long as no chunk comes in the middle of a frame of another stream, the session does not
    fail, and what has been delivered are the bundles whose octets have all arrived, each once
    and byte for byte. -/
theorem run_delivers {dataStreams : Fin 4 → Int} {as : List LinkAct} {w : Link}
    (h_meets : Lts.Meets Link.step Link.Apart (Link.init dataStreams) as)
    (h_run : Lts.run Link.step (Link.init dataStreams) as = some w) :
    w.failed = false ∧ w.delivered.Perm w.arrived := by
  have h : LinkOk w := Lts.run_invariant_of_meets
    (fun _ _ _ h_ok h_apart h_step => LinkOk.step h_ok h_apart h_step)
    (LinkOk.init dataStreams) h_meets h_run
  obtain ⟨cur, done, ahead, off, h_along⟩ := h.along
  refine ⟨h.up, ?_⟩
  rw [h_along.arrived h.sent]
  exact h_along.delivered

/-- The streams of the entity that opened the connection. -/
def clientStreams (i : Fin 4) : Int := 4 * (i.val + 1)

def calm : StreamEnv := ⟨true, true, none⟩

/-- The run of two bundles in two chunks each, one stream after the other. -/
theorem run_delivers_two :
    ∃ w, Lts.run Link.step (Link.init clientStreams)
        [.negotiate 2, .send [9, 9, 9] 200 true, .send [4, 5] 130 true, .chunk 0 36 calm,
          .chunk 0 33 calm, .chunk 1 20 calm, .chunk 1 17 calm] = some w ∧
      w.arrived = [[9, 9, 9], [4, 5]] ∧ w.delivered.Perm w.arrived := by
  have h_some : (Lts.run Link.step (Link.init clientStreams)
      [.negotiate 2, .send [9, 9, 9] 200 true, .send [4, 5] 130 true, .chunk 0 36 calm,
        .chunk 0 33 calm, .chunk 1 20 calm, .chunk 1 17 calm]).map Link.arrived =
      some [[9, 9, 9], [4, 5]] := by decide +kernel
  obtain ⟨w, h_run, h_arrived⟩ := Option.map_eq_some_iff.mp h_some
  exact ⟨w, h_run, h_arrived, (run_delivers (by decide +kernel) h_run).2⟩

/-- A chunk with the second bundle comes when an octet of the first has arrived: the receiver
    takes the type and the flags of the second frame for the rest of the first bundle, delivers
    that, and fails. -/
theorem streams_mixed :
    (Lts.run Link.step (Link.init clientStreams)
      [.send [9, 9, 9] 200 true, .send [4, 5] 130 true, .chunk 0 36 calm, .chunk 1 37 calm]).map
        (fun w => (w.failed, w.delivered, w.arrived)) =
      some (true, [[9, 2, 3]], [[4, 5]]) := by decide +kernel

end IonContrib.Quic
