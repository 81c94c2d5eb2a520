/-
  IonContrib.Quic.Acks

  Where an XFER_ACK goes: `recvStreamDataCb`, `prepareAck` and `writeConn`.

  A connection has one `ackStreamId`.  Whatever comes on a data stream sets it,
  be it a segment or an acknowledgement of the peer, and it is looked at when
  the XFER_ACK is written, piece by piece.  So the message goes out where its
  transfer came from, in one piece, as long as nothing comes on another stream
  before it is out (`acks_in_place`), and not in general (`acks_misplaced`).

  `AckConn` follows a connection and remembers what the code forgets: on which
  stream each octet came, what was put into the buffers to be sent, and on
  which stream each octet of it was handed to QUIC.
-/
import IonContrib.Quic.RxBounds

namespace IonContrib.Quic

open Octets Lts

/-! ## What has come -/

/-- The transfer that had a segment last, that segment, and the streams that the octets of the
    transfer have come on so far. -/
structure Carried where
  transferId : Nat
  segmentId : Nat
  streams : List Int
  deriving DecidableEq

/-- A segment, with the streams its octets have come on. -/
def Carried.add (carried : Carried) (s : QuicXferSegment × List Int) : Carried where
  transferId := s.1.transferId
  segmentId := s.1.segmentId
  streams := if s.1.isStart then s.2 else carried.streams ++ s.2

def segmentAt (buf : Octets) : List QuicXferSegment :=
  match quicMsgDecodeXferSegmentHdr buf with
  | .ok seg _ => [seg]
  | _ => []

/-- The segments that are there as a whole; `tags` are the streams of the octets. -/
def segmentsFrom : Nat → Octets → List Int → List (QuicXferSegment × List Int)
  | 0, _, _ => []
  | fuel + 1, buf, tags =>
    match dataMsgLen buf with
    | none => []
    | some n => (segmentAt buf).map (·, tags.take n) ++ segmentsFrom fuel (buf.drop n) (tags.drop n)

/-! ## What is written -/

/-- What is put into the buffers to be sent: framed bundles, and acknowledgements of a transfer. -/
inductive Message where
  | bundle (framed : Octets)
  | ack (m : QuicXferAck) (carried : Carried)
  deriving DecidableEq

def Message.octets : Message → Octets
  | .bundle framed => framed
  | .ack m _ => (quicMsgEncodeXferAck sizeofAckBuf m).getD []

/-- An acknowledgement belongs on the stream all of its transfer has come on. -/
def Message.Belongs (streamId : Int) : Message → Prop
  | .bundle _ => True
  | .ack m carried => m.transferId = carried.transferId ∧ m.segmentId = carried.segmentId ∧
    carried.streams ≠ [] ∧ ∀ s ∈ carried.streams, s = streamId

/-- An octet that was handed to QUIC: the stream, the number of the message, and the place in it. -/
structure Written where
  streamId : Int
  msg : Nat
  pos : Nat
  octet : UInt8
  deriving DecidableEq

structure AckConn where
  qc : QuicConn
  /-- The streams that the octets in `rxBuf` have come on. -/
  tags : List Int
  carried : Carried
  messages : List Message
  /-- The numbers of the framed bundle and of what is in `ackBuf`. -/
  framed : Nat
  ack : Nat
  written : List Written

namespace AckConn

def init (dataStreams : Fin 4 → Int) : AckConn :=
  ⟨QuicConn.init dataStreams, [], ⟨0, 0, []⟩, [], 0, 0, []⟩

def recvTags (c : AckConn) (streamId : Int) (data : Octets) : List Int :=
  c.tags ++ List.replicate data.length streamId

/-- The segments that are whole with the octets that come. -/
def segments (c : AckConn) (streamId : Int) (data : Octets) : List (QuicXferSegment × List Int) :=
  segmentsFrom ((c.qc.rx.rxBuf ++ data).length + 1) (c.qc.rx.rxBuf ++ data)
    (c.recvTags streamId data)

def recvCarried (c : AckConn) (streamId : Int) (data : Octets) : Carried :=
  (c.segments streamId data).foldl Carried.add c.carried

/-- The octets of message `i` that a round of `writeConn` hands over. -/
def lent (c : AckConn) (p : Pick) (i n : Nat) : List Written :=
  (List.range n).map fun k => ⟨p.streamId, i, p.off + k, c.qc.heap.memory p.block (p.off + k)⟩

/-- Signalling is left out, it has a stream of its own. -/
def lentBy (c : AckConn) (n : Nat) : List Written :=
  match c.qc.pick with
  | none => []
  | some p =>
    match p.chan with
    | .signalling => []
    | .data => c.lent p c.framed n
    | .ack => c.lent p c.ack n

/-- What is remembered of a step that leads to `qc`. -/
def seen (c : AckConn) (a : ConnAct) (qc : QuicConn) : AckConn :=
  match a with
  | .doSend _ _ _ =>
    match qc.sendData with
    | none => { c with qc := qc }
    | some b => { c with
        qc := qc
        framed := c.messages.length
        messages := c.messages ++ [.bundle ((qc.heap.memory b).read qc.sendLen)] }
  | .recvData _ streamId data => { c with
      qc := qc
      tags := (c.recvTags streamId data).drop
        ((c.recvTags streamId data).length - qc.rx.rxBuf.length)
      carried := c.recvCarried streamId data }
  | .prepareAck =>
    if c.qc.ackDue then { c with
      qc := qc
      ack := c.messages.length
      messages := c.messages ++ [.ack c.qc.xferAck c.carried] }
    else { c with qc := qc }
  | .writeStream n => { c with qc := qc, written := c.written ++ c.lentBy n }
  | _ => { c with qc := qc }

def step (c : AckConn) (a : ConnAct) : Option AckConn := (c.qc.step a).map (c.seen a)

/-- The octets written on a stream. -/
def on (c : AckConn) (streamId : Int) : List Written :=
  c.written.filter fun w => w.streamId = streamId

/-- All octets of message `i`, on a stream. -/
def whole (c : AckConn) (streamId : Int) (i : Nat) : List Written :=
  match c.messages[i]? with
  | none => []
  | some m => m.octets.mapIdx fun k b => ⟨streamId, i, k, b⟩

/-- What was written on each stream is whole messages one after the other, the last of which may
    have only begun, no message twice, and every acknowledgement belongs there. -/
def InPlace (c : AckConn) : Prop := ∀ streamId, ∃ ms : List Nat, ms.Nodup ∧
  c.on streamId <+: ms.flatMap (c.whole streamId) ∧
  ∀ i ∈ ms, ∃ m, c.messages[i]? = some m ∧ m.Belongs streamId

/-- Nothing comes on another stream while an acknowledgement is to be written, and no bundle is
    begun on its stream when it has begun. -/
def Orderly (c : AckConn) : ConnAct → Prop
  | .recvData _ streamId data =>
    (c.qc.ackBufOff < c.qc.ackBufLen → streamId = c.qc.rx.ackStreamId) ∧
    -- A transfer that is to be acknowledged then has come on that stream alone.
    (c.qc.rx.ackPending = true ∨ c.segments streamId data ≠ [] →
      ∀ s ∈ (c.recvCarried streamId data).streams, s = streamId)
  | .doSend _ ordinal _ =>
    0 < c.qc.ackBufOff → c.qc.ackBufOff < c.qc.ackBufLen →
      c.qc.dataStreams (priorityStream ordinal) ≠ c.qc.rx.ackStreamId
  | _ => True

instance (c : AckConn) : DecidablePred c.Orderly
  | .recvData _ _ _ => inferInstanceAs (Decidable ((_ → _) ∧ (_ ∨ _ → ∀ s ∈ _, _)))
  | .doSend _ _ _ => inferInstanceAs (Decidable (_ → _ → _))
  | .negotiate _ => .isTrue trivial
  | .wakeWaiters => .isTrue trivial
  | .doSendEnd => .isTrue trivial
  | .sigQueue _ _ => .isTrue trivial
  | .prepareAck => .isTrue trivial
  | .writeStream _ => .isTrue trivial
  | .acked _ _ => .isTrue trivial
  | .fail => .isTrue trivial

/-! ## Receiving -/

/-- What an acknowledgement that is due says of the transfer. -/
def Names (q : StreamRx) (carried : Carried) : Prop :=
  q.ackPending = true → q.ackTransferId = carried.transferId ∧ q.ackSegId = carried.segmentId ∧
    carried.streams ≠ []

/-- A segment that was taken is to be acknowledged. -/
theorem xferReassemble_names {q : StreamRx} {seg : QuicXferSegment} {segData : Octets}
    {mem takes : Bool} (h : (xferReassemble q seg segData mem takes).ok = true) :
    let rx := (xferReassemble q seg segData mem takes).rx
    rx.ackPending = true ∧ rx.ackTransferId = seg.transferId ∧ rx.ackSegId = seg.segmentId ∧
      rx.ackStreamId = q.ackStreamId := by
  have h_begin : (xferBegin q seg).ackStreamId = q.ackStreamId := by
    unfold xferBegin
    split <;> rfl
  unfold xferReassemble at h ⊢
  dsimp only at h ⊢
  split at h
  · cases h
  · next h_active =>
    rw [if_neg h_active]
    split at h
    · cases h
    · next h_room =>
      rw [if_neg h_room]
      cases h_grow : xferGrow (xferBegin q seg)
          ((xferBegin q seg).xfer.length + seg.segmentLength) mem with
      | none =>
        rw [h_grow] at h
        cases h
      | some q₁ =>
        have h_q₁ : q₁.ackStreamId = (xferBegin q seg).ackStreamId := by
          unfold xferGrow at h_grow
          dsimp only at h_grow
          split at h_grow
          · obtain ⟨-, h_eq⟩ := Option.ite_none_right_eq_some.mp h_grow
            obtain rfl := Option.some.inj h_eq
            rfl
          · exact congrArg StreamRx.ackStreamId (Option.some.inj h_grow).symm
        dsimp only
        unfold xferStore
        dsimp only
        split
        · exact ⟨rfl, rfl, rfl, h_q₁.trans h_begin⟩
        · split
          · exact ⟨rfl, rfl, rfl, h_q₁.trans h_begin⟩
          · exact ⟨rfl, rfl, rfl, h_q₁.trans h_begin⟩

/-- What a call of `deliverBundles` leaves of the acknowledgement that is due, `segs` being the
    segments it took. -/
structure RxNamed (q : StreamRx) (buf : Octets) (carried : Carried)
    (segs : List (QuicXferSegment × List Int)) (out : ParseOut) : Prop where
  streamId : out.rx.ackStreamId = q.ackStreamId
  length : out.rx.rxBuf.length ≤ buf.length
  names : Names out.rx (segs.foldl Carried.add carried)
  same : segs = [] → out.rx.ackPending = q.ackPending

theorem segmentAt_of_ne {buf : Octets} (h : buf.head? ≠ some qmsgXferSegment) :
    segmentAt buf = [] := by
  cases buf with
  | nil =>
    rw [segmentAt, quicMsgDecodeXferSegmentHdr, decodeMsg_nil stable_segmentFields]
  | cons type rest =>
    have h_type : ¬ type = qmsgXferSegment := fun h_eq => h (congrArg some h_eq)
    rw [segmentAt, quicMsgDecodeXferSegmentHdr, decodeMsg_cons, if_neg h_type]

theorem segmentsFrom_stop {buf : Octets} (h : dataMsgLen buf = none) (fuel : Nat)
    (tags : List Int) : segmentsFrom (fuel + 1) buf tags = [] := by
  rw [segmentsFrom, h]

theorem segmentsFrom_next {buf : Octets} {n : Nat} (h : dataMsgLen buf = some n) (fuel : Nat)
    (tags : List Int) :
    segmentsFrom (fuel + 1) buf tags =
      (segmentAt buf).map (·, tags.take n) ++ segmentsFrom fuel (buf.drop n) (tags.drop n) := by
  rw [segmentsFrom, h]

/-- What a message that is taken makes of the acknowledgement that is due. -/
theorem xferHandle_named {buf : Octets} {m : XferMsg} {n : Nat} (h_front : xferFront buf = .ok m n)
    {q : StreamRx} {carried : Carried} {tags : List Int} (h_names : Names q carried)
    (h_tags : tags.take n ≠ []) {mem takes : Bool} (h_ok : (xferHandle q mem takes m).ok = true) :
    (xferHandle q mem takes m).rx.ackStreamId = q.ackStreamId ∧
      Names (xferHandle q mem takes m).rx
        (((segmentAt buf).map (·, tags.take n)).foldl Carried.add carried) ∧
      (segmentAt buf = [] → (xferHandle q mem takes m).rx.ackPending = q.ackPending) := by
  rcases xferFront_ok h_front with ⟨seg, hdr, -, h_dec, -, -, -, rfl, -⟩ | ⟨h_head, h_same⟩
  · have h_at : segmentAt buf = [seg] := by
      rw [segmentAt, h_dec]
    obtain ⟨-, h_id, h_seg, h_stream⟩ := xferReassemble_names h_ok
    rw [h_at]
    refine ⟨h_stream, fun _ => ⟨h_id, h_seg, ?_⟩, fun h_nil => by cases h_nil⟩
    show (carried.add (seg, tags.take n)).streams ≠ []
    rw [Carried.add]
    dsimp only
    split
    · exact h_tags
    · exact List.append_ne_nil_of_right_ne_nil _ h_tags
  · rw [h_same, segmentAt_of_ne h_head]
    exact ⟨rfl, h_names, fun _ => rfl⟩

theorem deliverBundlesFrom_named {env : StreamEnv} {fuel : Nat} {q : StreamRx} {buf : Octets}
    {delivered : List Octets} {tags : List Int} {carried : Carried} (h_names : Names q carried)
    (h_tags : tags.length = buf.length)
    (h_ok : (deliverBundlesFrom env fuel q buf delivered).ok = true) :
    RxNamed q buf carried (segmentsFrom fuel buf tags)
      (deliverBundlesFrom env fuel q buf delivered) := by
  induction fuel generalizing q buf delivered tags carried with
  | zero => exact ⟨rfl, Nat.le_refl _, h_names, fun _ => rfl⟩
  | succ fuel ih =>
    rw [deliverBundlesFrom_eq] at h_ok ⊢
    have h_len := dataMsgLen_eq buf
    cases h_msg : xferFront buf with
    | need =>
      rw [h_msg] at h_len
      rw [segmentsFrom_stop h_len]
      exact ⟨rfl, Nat.le_refl _, h_names, fun _ => rfl⟩
    | bad =>
      rw [h_msg] at h_ok
      cases h_ok
    | ok m n =>
      have h_some := xferFront_ne_nil (Or.inr ⟨m, n, h_msg⟩)
      obtain ⟨h_pos, h_le, -⟩ := settled_xferFront.ok h_some h_msg
      have h_taken : tags.take n ≠ [] := by
        apply List.ne_nil_of_length_pos
        rw [List.length_take, h_tags]
        omega
      rw [h_msg] at h_ok h_len
      rw [segmentsFrom_next h_len]
      rw [frontDeliver] at h_ok ⊢
      cases h_done : (xferHandle q env.xferMem
          (decide (env.refuses ≠ some delivered.length)) m).ok with
      | false =>
        rw [h_done] at h_ok
        cases h_ok
      | true =>
        obtain ⟨h_stream, h_named, h_same⟩ := xferHandle_named h_msg h_names h_taken h_done
        rw [h_done, if_pos rfl] at h_ok
        rw [if_pos rfl]
        have h_rest : (tags.drop n).length = (buf.drop n).length := by
          rw [List.length_drop, List.length_drop, h_tags]
        obtain ⟨h_stream', h_length, h_named', h_same'⟩ := ih h_named h_rest h_ok
        rw [List.length_drop] at h_length
        refine ⟨h_stream'.trans h_stream, by omega, ?_, fun h_nil => ?_⟩
        · rw [List.foldl_append]
          exact h_named'
        · obtain ⟨h_at, h_none⟩ := List.append_eq_nil_iff.mp h_nil
          exact (h_same' h_none).trans (h_same (List.map_eq_nil_iff.mp h_at))

theorem recvStreamDataCb_named {env : StreamEnv} {q : StreamRx} {streamId : Int} {data : Octets}
    {tags : List Int} {carried : Carried} (h_names : Names q carried)
    (h_tags : tags.length = (q.rxBuf ++ data).length)
    (h_ok : (recvStreamDataCb env q streamId data).ok = true) :
    RxNamed { q with ackStreamId := streamId } (q.rxBuf ++ data) carried
      (segmentsFrom ((q.rxBuf ++ data).length + 1) (q.rxBuf ++ data) tags)
      (recvStreamDataCb env q streamId data) := by
  unfold recvStreamDataCb at h_ok ⊢
  dsimp only at h_ok ⊢
  cases h_grow : rxGrow { q with ackStreamId := streamId } (q.rxBuf.length + data.length)
      env.rxMem with
  | none =>
    rw [h_grow] at h_ok
    cases h_ok
  | some q₁ =>
    rw [h_grow] at h_ok
    obtain ⟨cap, rfl⟩ : ∃ cap, q₁ = { q with ackStreamId := streamId, rxCap := cap } := by
      unfold rxGrow at h_grow
      split at h_grow
      · obtain ⟨-, h_eq⟩ := Option.ite_none_right_eq_some.mp h_grow
        exact ⟨_, (Option.some.inj h_eq).symm⟩
      · exact ⟨q.rxCap, (Option.some.inj h_grow).symm⟩
    obtain ⟨h_stream, h_length, h_named, h_same⟩ := deliverBundlesFrom_named
      (show Names { q with ackStreamId := streamId, rxCap := cap, rxBuf := q.rxBuf ++ data } carried
        from h_names) h_tags h_ok
    exact ⟨h_stream, h_length, h_named, h_same⟩

/-! ## Messages -/

theorem whole_eq {c : AckConn} {streamId : Int} {i : Nat} {m : Message}
    (h : c.messages[i]? = some m) :
    c.whole streamId i = m.octets.mapIdx fun k b => ⟨streamId, i, k, b⟩ := by
  rw [whole, h]

/-- What is handed over at `p` is message `i`. -/
structure Lends (c : AckConn) (p : Pick) (i : Nat) (m : Message) : Prop where
  message : c.messages[i]? = some m
  belongs : m.Belongs p.streamId
  length : m.octets.length = p.len
  octets : ∀ k b, m.octets[k]? = some b → c.qc.heap.memory p.block k = b

/-- The octets of message `i` that were handed over, if it is the one at `p`. -/
def begun (c : AckConn) (streamId : Int) (i : Nat) : Option Pick → List Written
  | none => []
  | some p => if p.streamId = streamId then (c.whole streamId i).take p.off else []

theorem begun_some {c : AckConn} {p : Pick} (i : Nat) :
    c.begun p.streamId i (some p) = (c.whole p.streamId i).take p.off := if_pos rfl

theorem begun_of_ne {c : AckConn} {p : Pick} {streamId : Int} (i : Nat)
    (h : p.streamId ≠ streamId) : c.begun streamId i (some p) = [] := if_neg h

theorem begun_zero {c : AckConn} {p : Pick} {streamId : Int} (i : Nat) (h : p.off = 0) :
    c.begun streamId i (some p) = [] := by
  rw [begun, h, List.take_zero]
  split <;> rfl

/-- A round goes on where the one before has stopped. -/
theorem take_append_lent {c : AckConn} {p : Pick} {i n : Nat} {m : Message} (h : c.Lends p i m)
    (h_n : p.off + n ≤ p.len) :
    (c.whole p.streamId i).take p.off ++ c.lent p i n =
      (c.whole p.streamId i).take (p.off + n) := by
  have h_whole : c.whole p.streamId i = (List.range p.len).map fun k =>
      ⟨p.streamId, i, k, c.qc.heap.memory p.block k⟩ := by
    rw [whole_eq h.message]
    refine List.ext_getElem? fun k => ?_
    rw [List.getElem?_mapIdx, List.getElem?_map]
    by_cases h_k : k < p.len
    · obtain ⟨b, h_b⟩ : ∃ b, m.octets[k]? = some b :=
        ⟨_, List.getElem?_eq_getElem (by rw [h.length]; exact h_k)⟩
      rw [h_b, List.getElem?_range h_k, ← h.octets k b h_b]
      rfl
    · rw [List.getElem?_eq_none (by rw [h.length]; omega),
        List.getElem?_eq_none (by rw [List.length_range]; omega)]
      rfl
  rw [h_whole, lent, ← List.map_take, ← List.map_take, List.take_range, List.take_range,
    Nat.min_eq_left (by omega), Nat.min_eq_left h_n, List.range_add, List.map_append, List.map_map]
  rfl

/-! ## The invariant -/

/-- What was written on a stream: the messages `ms`, and what has begun. -/
structure StreamOk (c : AckConn) (streamId : Int) (ms : List Nat) : Prop where
  nodup : ms.Nodup
  known : ∀ i ∈ ms, ∃ m, c.messages[i]? = some m ∧ m.Belongs streamId
  data : ∀ p, c.qc.pickData = some p → c.framed ∉ ms
  ack : ∀ p, c.qc.pickAck = some p → c.ack ∉ ms
  written : c.on streamId = ms.flatMap (c.whole streamId) ++
    c.begun streamId c.framed c.qc.pickData ++ c.begun streamId c.ack c.qc.pickAck

structure AcksOk (c : AckConn) : Prop where
  blocks : BlocksOk c.qc
  sendDone : c.qc.sendDone = true → c.qc.pickData = none
  tags : c.tags.length = c.qc.rx.rxBuf.length
  due : c.qc.rx.ackPending = true → (Message.ack c.qc.xferAck c.carried).Belongs c.qc.rx.ackStreamId
  data : ∀ p, c.qc.pickData = some p → ∃ m, c.Lends p c.framed m
  ack : ∀ p, c.qc.pickAck = some p → ∃ m, c.Lends p c.ack m
  /-- When some of the acknowledgement is out, the bundle is for another stream. -/
  apart : ∀ p p', c.qc.pickData = some p → c.qc.pickAck = some p' → 0 < p'.off →
    p.streamId ≠ p'.streamId
  distinct : ∀ p p', c.qc.pickData = some p → c.qc.pickAck = some p' → c.framed ≠ c.ack
  streams : ∀ streamId, ∃ ms, c.StreamOk streamId ms

theorem AcksOk.init (dataStreams : Fin 4 → Int) : AcksOk (AckConn.init dataStreams) where
  blocks := BlocksOk.init dataStreams
  sendDone _ := rfl
  tags := rfl
  due h := by cases h
  data p h := by cases h
  ack p h := by cases h
  apart p p' h := by cases h
  distinct p p' h := by cases h
  streams streamId := ⟨[], List.nodup_nil, fun i h => (by cases h), fun p h => (by cases h),
    fun p h => (by cases h), rfl⟩

theorem pickData_some {qc : QuicConn} {p : Pick} (h : qc.pickData = some p) :
    ∃ b, qc.sendData = some b ∧ qc.sendOff < qc.sendLen ∧ 0 ≤ qc.sendStreamId ∧
      p = ⟨.data, b, qc.sendOff, qc.sendLen, qc.sendStreamId⟩ := by
  obtain ⟨b, h_b, h_if⟩ := Option.bind_eq_some_iff.mp h
  obtain ⟨⟨h_off, h_stream⟩, h_eq⟩ := Option.ite_none_right_eq_some.mp h_if
  exact ⟨b, h_b, h_off, h_stream, (Option.some.inj h_eq).symm⟩

theorem pickAck_some {qc : QuicConn} {p : Pick} (h : qc.pickAck = some p) :
    qc.ackBufOff < qc.ackBufLen ∧ 0 ≤ qc.rx.ackStreamId ∧
      p = ⟨.ack, ackBuf, qc.ackBufOff, qc.ackBufLen, qc.rx.ackStreamId⟩ := by
  obtain ⟨⟨h_off, h_stream⟩, h_eq⟩ := Option.ite_none_right_eq_some.mp h
  exact ⟨h_off, h_stream, (Option.some.inj h_eq).symm⟩

theorem AcksOk.known_data {c : AckConn} (h : AcksOk c) {p : Pick} (h_p : c.qc.pickData = some p) :
    c.framed < c.messages.length := by
  obtain ⟨m, h_m⟩ := h.data p h_p
  exact (List.getElem?_eq_some_iff.mp h_m.message).1

theorem AcksOk.known_ack {c : AckConn} (h : AcksOk c) {p : Pick} (h_p : c.qc.pickAck = some p) :
    c.ack < c.messages.length := by
  obtain ⟨m, h_m⟩ := h.ack p h_p
  exact (List.getElem?_eq_some_iff.mp h_m.message).1

/-- The streams are as they have to be: what has begun on one belongs to its messages. -/
theorem AcksOk.inPlace {c : AckConn} (h : AcksOk c) : c.InPlace := by
  intro streamId
  obtain ⟨ms, h_ms⟩ := h.streams streamId
  -- Message `i` has begun, and nothing else.
  have h_begun : ∀ p i, i ∉ ms → (∃ m, c.Lends p i m) → p.streamId = streamId →
      c.on streamId = ms.flatMap (c.whole streamId) ++ (c.whole streamId i).take p.off →
      ∃ ms : List Nat, ms.Nodup ∧ c.on streamId <+: ms.flatMap (c.whole streamId) ∧
        ∀ i ∈ ms, ∃ m, c.messages[i]? = some m ∧ m.Belongs streamId := by
    rintro p i h_new ⟨m, h_m⟩ rfl h_on
    refine ⟨ms ++ [i], ?_, ?_, ?_⟩
    · rw [List.nodup_append_comm]
      exact List.nodup_cons.mpr ⟨h_new, h_ms.nodup⟩
    · rw [h_on, List.flatMap_append, List.flatMap_singleton]
      exact List.prefix_append_right_inj _ |>.mpr (List.take_prefix _ _)
    · intro j h_j
      rcases List.mem_append.mp h_j with h_old | h_i
      · exact h_ms.known j h_old
      · rw [List.mem_singleton.mp h_i]
        exact ⟨m, h_m.message, h_m.belongs⟩
  have h_on := h_ms.written
  have h_whole : c.on streamId = ms.flatMap (c.whole streamId) →
      ∃ ms : List Nat, ms.Nodup ∧ c.on streamId <+: ms.flatMap (c.whole streamId) ∧
        ∀ i ∈ ms, ∃ m, c.messages[i]? = some m ∧ m.Belongs streamId := fun h_eq =>
    ⟨ms, h_ms.nodup, h_eq ▸ List.prefix_rfl, h_ms.known⟩
  -- At most one of the two has begun on this stream.
  have h_ack : c.begun streamId c.framed c.qc.pickData = [] → _ := fun h_none => by
    rw [h_none, List.append_nil] at h_on
    cases h_pick : c.qc.pickAck with
    | none =>
      rw [h_pick, begun, List.append_nil] at h_on
      exact h_whole h_on
    | some p =>
      rw [h_pick] at h_on
      by_cases h_stream : p.streamId = streamId
      · subst h_stream
        rw [begun_some] at h_on
        exact h_begun p _ (h_ms.ack p h_pick) (h.ack p h_pick) rfl h_on
      · rw [begun_of_ne _ h_stream, List.append_nil] at h_on
        exact h_whole h_on
  cases h_pick : c.qc.pickData with
  | none => exact h_ack (by rw [h_pick]; rfl)
  | some p =>
    by_cases h_stream : p.streamId = streamId
    · have h_none : c.begun streamId c.ack c.qc.pickAck = [] := by
        cases h_pickAck : c.qc.pickAck with
        | none => rfl
        | some p' =>
          by_cases h_off : p'.off = 0
          · exact begun_zero _ h_off
          · refine begun_of_ne _ fun h_same => ?_
            exact h.apart p p' h_pick h_pickAck (Nat.pos_of_ne_zero h_off)
              (h_stream.trans h_same.symm)
      subst h_stream
      rw [h_none, List.append_nil, h_pick, begun_some] at h_on
      exact h_begun p _ (h_ms.data p h_pick) (h.data p h_pick) rfl h_on
    · exact h_ack (by rw [h_pick, begun_of_ne _ h_stream])

/-! ## Steps -/

theorem message_kept {ms ms' : List Message} (h : ms <+: ms') {i : Nat} {m : Message}
    (h_m : ms[i]? = some m) : ms'[i]? = some m := by
  obtain ⟨rest, rfl⟩ := h
  rw [List.getElem?_append_left (List.getElem?_eq_some_iff.mp h_m).1, h_m]

theorem whole_kept {c c' : AckConn} (h : c.messages <+: c'.messages) {streamId : Int} {i : Nat}
    {m : Message} (h_m : c.messages[i]? = some m) : c'.whole streamId i = c.whole streamId i := by
  rw [whole_eq h_m, whole_eq (message_kept h h_m)]

theorem Lends.mono {c c' : AckConn} {p : Pick} {i : Nat} {m : Message} (h : c.Lends p i m)
    (h_messages : c.messages <+: c'.messages)
    (h_mem : c'.qc.heap.memory p.block = c.qc.heap.memory p.block) : c'.Lends p i m :=
  ⟨message_kept h_messages h.message, h.belongs, h.length, fun k b h_b => by
    rw [h_mem]
    exact h.octets k b h_b⟩

/-- What a channel hands over next stays the same, or is the last message, which is new. -/
def SameOrNew (c c' : AckConn) (i i' : Nat) (pick pick' : Option Pick) : Prop :=
  pick' = pick ∧ i' = i ∨
    pick = none ∧ i' = c.messages.length ∧ ∀ p, pick' = some p → p.off = 0 ∧ ∃ m, c'.Lends p i' m

theorem SameOrNew.begun {c c' : AckConn} {i i' : Nat} {pick pick' : Option Pick} {streamId : Int}
    (h : SameOrNew c c' i i' pick pick') (h_messages : c.messages <+: c'.messages)
    (h_lends : ∀ p, pick = some p → ∃ m, c.Lends p i m) :
    c'.begun streamId i' pick' = c.begun streamId i pick := by
  rcases h with ⟨rfl, rfl⟩ | ⟨rfl, -, h_new⟩
  · cases pick' with
    | none => rfl
    | some p =>
      obtain ⟨m, h_m⟩ := h_lends p rfl
      rw [AckConn.begun, whole_kept h_messages h_m.message]
      rfl
  · cases pick' with
    | none => rfl
    | some p => exact begun_zero i' (h_new p rfl).1

theorem SameOrNew.notMem {c c' : AckConn} {i i' : Nat} {pick pick' : Option Pick} {ms : List Nat}
    (h : SameOrNew c c' i i' pick pick') (h_old : ∀ p, pick = some p → i ∉ ms)
    (h_known : ∀ j ∈ ms, j < c.messages.length) : ∀ p, pick' = some p → i' ∉ ms := by
  rcases h with ⟨rfl, rfl⟩ | ⟨-, rfl, -⟩
  · exact h_old
  · intro p _ h_mem
    exact Nat.lt_irrefl _ (h_known _ h_mem)

/-- A step in which nothing is written. -/
theorem AcksOk.streams_of_same {c c' : AckConn} (h : AcksOk c)
    (h_messages : c.messages <+: c'.messages) (h_written : c'.written = c.written)
    (h_data : SameOrNew c c' c.framed c'.framed c.qc.pickData c'.qc.pickData)
    (h_ack : SameOrNew c c' c.ack c'.ack c.qc.pickAck c'.qc.pickAck) (streamId : Int) :
    ∃ ms, c'.StreamOk streamId ms := by
  obtain ⟨ms, h_ms⟩ := h.streams streamId
  have h_known : ∀ j ∈ ms, j < c.messages.length := by
    intro j h_j
    obtain ⟨m, h_m, -⟩ := h_ms.known j h_j
    exact (List.getElem?_eq_some_iff.mp h_m).1
  refine ⟨ms, h_ms.nodup, ?_, h_data.notMem h_ms.data h_known, h_ack.notMem h_ms.ack h_known, ?_⟩
  · intro j h_j
    obtain ⟨m, h_m, h_belongs⟩ := h_ms.known j h_j
    exact ⟨m, message_kept h_messages h_m, h_belongs⟩
  · have h_whole : ms.flatMap (c'.whole streamId) = ms.flatMap (c.whole streamId) := by
      refine List.flatMap_congr fun j h_j => ?_
      obtain ⟨m, h_m, -⟩ := h_ms.known j h_j
      exact whole_kept h_messages h_m
    rw [on, h_written, h_whole, h_data.begun h_messages h.data, h_ack.begun h_messages h.ack]
    exact h_ms.written

/-- A step that the channels and the receiving side do not notice. -/
theorem AcksOk.frame {c : AckConn} (h : AcksOk c) {qc' : QuicConn} (h_blocks : BlocksOk qc')
    (h_done : qc'.sendDone = true → qc'.pickData = none) (h_rx : qc'.rx = c.qc.rx)
    (h_data : qc'.pickData = c.qc.pickData) (h_ack : qc'.pickAck = c.qc.pickAck)
    (h_mem : ∀ p, c.qc.pickData = some p ∨ c.qc.pickAck = some p →
      qc'.heap.memory p.block = c.qc.heap.memory p.block) : AcksOk { c with qc := qc' } where
  blocks := h_blocks
  sendDone := h_done
  tags := by
    show c.tags.length = qc'.rx.rxBuf.length
    rw [h_rx]
    exact h.tags
  due := by
    show qc'.rx.ackPending = true → (Message.ack qc'.xferAck c.carried).Belongs qc'.rx.ackStreamId
    rw [QuicConn.xferAck, h_rx]
    exact h.due
  data p h_p := by
    replace h_p : c.qc.pickData = some p := h_data ▸ h_p
    obtain ⟨m, h_m⟩ := h.data p h_p
    exact ⟨m, h_m.mono List.prefix_rfl (h_mem p (.inl h_p))⟩
  ack p h_p := by
    replace h_p : c.qc.pickAck = some p := h_ack ▸ h_p
    obtain ⟨m, h_m⟩ := h.ack p h_p
    exact ⟨m, h_m.mono List.prefix_rfl (h_mem p (.inr h_p))⟩
  apart p p' h_p h_p' := h.apart p p' (h_data ▸ h_p) (h_ack ▸ h_p')
  distinct p p' h_p h_p' := h.distinct p p' (h_data ▸ h_p) (h_ack ▸ h_p')
  streams := h.streams_of_same List.prefix_rfl rfl (.inl ⟨h_data, rfl⟩) (.inl ⟨h_ack, rfl⟩)

theorem pick_block {qc : QuicConn} (h : BlocksOk qc) {p : Pick}
    (h_p : qc.pickData = some p ∨ qc.pickAck = some p) :
    qc.heap.Live p.block ∧ qc.sigTx ≠ some p.block := by
  rcases h_p with h_data | h_ack
  · obtain ⟨b, h_b, -, -, rfl⟩ := pickData_some h_data
    exact ⟨(h.sendData b h_b).1, h.apart b h_b⟩
  · obtain ⟨-, -, rfl⟩ := pickAck_some h_ack
    exact ⟨h.ackBuf, fun h_sig => (h.sigTx _ h_sig).2 rfl⟩

theorem sigGrow_memory {qc qc' : QuicConn} (h : BlocksOk qc) {len : Nat} {block : Option Memory}
    (h_grow : qc.sigGrow len block = some qc') {b : Nat} (h_live : qc.heap.Live b)
    (h_sig : qc.sigTx ≠ some b) :
    qc'.heap.memory b = qc.heap.memory b ∧ qc'.sigTx ≠ some b := by
  rcases sigGrow_some h_grow with rfl | ⟨-, -, m, cap, rfl⟩
  · exact ⟨rfl, h_sig⟩
  · refine ⟨?_, fun h_new => ?_⟩
    · cases h_old : qc.sigTx with
      | none => exact Heap.memory_alloc h.wf h_live m
      | some old =>
        have h_ne : b ≠ old := fun h_eq => h_sig (by rw [h_old, h_eq])
        exact (Heap.memory_free h_ne).trans (Heap.memory_alloc h.wf h_live m)
    · have h_lt := h.wf.fresh b h_live
      have h_eq : qc.heap.next = b := Option.some.inj h_new
      omega

theorem AcksOk.sigQueue {c : AckConn} (h : AcksOk c) (bytes : Octets) (block : Option Memory) :
    AcksOk { c with qc := c.qc.sigQueue bytes block } := by
  have h_blocks := h.blocks.sigQueue bytes block
  rcases sigQueue_cases c.qc bytes block with h_same | ⟨qc₁, h_grow, h_eq⟩
  · rw [h_same]
    exact h
  · have h_grown : ∃ heap sigTx cap, qc₁ = { c.qc with
        heap := heap, sigTx := sigTx, sigTxCap := cap } := by
      rcases sigGrow_some h_grow with rfl | ⟨-, -, m, cap, rfl⟩
      · exact ⟨_, _, _, rfl⟩
      · exact ⟨_, _, _, rfl⟩
    have h_mem : ∀ p, c.qc.pickData = some p ∨ c.qc.pickAck = some p →
        qc₁.heap.memory p.block = c.qc.heap.memory p.block ∧ qc₁.sigTx ≠ some p.block := by
      intro p h_p
      obtain ⟨h_live, h_sig⟩ := pick_block h.blocks h_p
      exact sigGrow_memory h.blocks h_grow h_live h_sig
    rcases h_eq with h_same | ⟨sigTx, h_sig, h_eq⟩
    · rw [h_same] at h_blocks ⊢
      obtain ⟨heap, _, cap, rfl⟩ := h_grown
      exact h.frame h_blocks h.sendDone rfl rfl rfl fun p h_p => (h_mem p h_p).1
    · rw [h_eq] at h_blocks ⊢
      obtain ⟨heap, _, cap, rfl⟩ := h_grown
      refine h.frame h_blocks h.sendDone rfl rfl rfl fun p h_p => ?_
      obtain ⟨h_same, h_ne⟩ := h_mem p h_p
      exact (Heap.memory_write_of_ne fun h_b => h_ne (by rw [h_b]; exact h_sig)).trans h_same

theorem AcksOk.doSendEnd {c : AckConn} (h : AcksOk c) {qc' : QuicConn}
    (h_end : c.qc.doSendEnd = some qc') (h_live : qc'.failed = false) :
    AcksOk { c with qc := qc' } := by
  have h_blocks := h.blocks.doSendEnd h_end
  obtain ⟨framed, h_framed, h_done, rfl⟩ := doSendEnd_some h_end
  -- All of the bundle has been handed over.
  have h_none : c.qc.pickData = none := by
    rcases h_done with h_done | h_failed
    · exact h.sendDone h_done
    · rw [show c.qc.failed = false from h_live] at h_failed
      cases h_failed
  refine h.frame h_blocks (fun _ => rfl) rfl h_none.symm rfl fun p h_p => ?_
  rcases h_p with h_data | h_ack
  · rw [h_none] at h_data
    cases h_data
  · obtain ⟨-, -, rfl⟩ := pickAck_some h_ack
    exact Heap.memory_free (Ne.symm (h.blocks.sendData framed h_framed).2)

theorem AcksOk.wakeWaiters {c : AckConn} (h : AcksOk c) :
    AcksOk { c with qc := c.qc.wakeWaiters } := by
  refine h.frame (h.blocks.of_eq rfl rfl rfl) (fun h_done => ?_) rfl rfl rfl fun _ _ => rfl
  rcases Bool.or_eq_true_iff.mp h_done with h_before | h_all
  · exact h.sendDone h_before
  · -- There is nothing left of the bundle.
    obtain ⟨-, h_off⟩ := Bool.and_eq_true_iff.mp h_all
    rw [Option.eq_none_iff_forall_ne_some]
    intro p h_p
    obtain ⟨-, -, h_lt, -⟩ := pickData_some h_p
    exact absurd (of_decide_eq_true h_off) (Nat.not_le_of_lt h_lt)

theorem AcksOk.ackedOffsetCb {c : AckConn} (h : AcksOk c) (streamId : Int) (n : Nat) :
    AcksOk { c with qc := c.qc.ackedOffsetCb streamId n } := by
  obtain ⟨dataAckOff, ackBufLen, h_acked, h_len⟩ := ackedOffsetCb_cases c.qc streamId n
  rw [h_acked]
  refine h.frame (h.blocks.of_eq rfl rfl rfl) h.sendDone rfl rfl ?_ fun _ _ => rfl
  rcases h_len with rfl | ⟨rfl, h_over⟩
  · rfl
  · -- The buffer is given back when nothing of it is left to hand over.
    rw [QuicConn.pickAck, QuicConn.pickAck, if_neg fun h => absurd h.1 (Nat.not_lt_zero _),
      if_neg fun h => absurd h.1 (Nat.not_lt_of_le h_over)]

/-- The message that was put in last, with the block that holds it. -/
theorem lends_last {c : AckConn} {ms : List Message} {m : Message} {p : Pick}
    (h_messages : c.messages = ms ++ [m]) (h_belongs : m.Belongs p.streamId)
    (h_len : m.octets.length = p.len)
    (h_octets : ∀ k b, m.octets[k]? = some b → c.qc.heap.memory p.block k = b) :
    c.Lends p ms.length m := by
  refine ⟨?_, h_belongs, h_len, h_octets⟩
  rw [h_messages, List.getElem?_append_right (Nat.le_refl _), Nat.sub_self]
  rfl

theorem seen_doSend_none {c : AckConn} {bundle : Octets} {ordinal : Nat} {block : Option Memory}
    (qc' : QuicConn) (h : qc'.sendData = none) :
    c.seen (.doSend bundle ordinal block) qc' = { c with qc := qc' } := by
  rw [seen, h]

theorem AcksOk.doSend {c : AckConn} (h : AcksOk c) {bundle : Octets} {ordinal : Nat}
    {block : Option Memory} (h_none : c.qc.sendData = none)
    (h_a : c.Orderly (.doSend bundle ordinal block)) :
    AcksOk (c.seen (.doSend bundle ordinal block) (c.qc.doSend bundle ordinal block)) := by
  have h_blocks := h.blocks.doSend bundle ordinal block
  have h_pick : c.qc.pickData = none := by
    rw [QuicConn.pickData, h_none]
    rfl
  rcases doSend_cases c.qc bundle ordinal block with h_same | ⟨m, framed, h_new⟩
  · rw [h_same] at h_blocks ⊢
    rw [seen_doSend_none { c.qc with nextTxId := (c.qc.nextTxId + 1) % 2 ^ 64 } h_none]
    exact h.frame h_blocks h.sendDone rfl rfl rfl fun _ _ => rfl
  · rw [h_new] at h_blocks ⊢
    rw [seen]
    dsimp only
    generalize h_heap : c.qc.heap.alloc (m.write 0 framed) = heap at h_blocks ⊢
    have h_mem : ∀ p, c.qc.pickAck = some p →
        heap.memory p.block = c.qc.heap.memory p.block := fun p h_p => by
      rw [← h_heap]
      exact Heap.memory_alloc h.blocks.wf (pick_block h.blocks (.inr h_p)).1 _
    have h_octets : ∀ k b, ((heap.memory c.qc.heap.next).read framed.length)[k]? = some b →
        heap.memory c.qc.heap.next k = b := by
      intro k b h_b
      have h_k := (List.getElem?_eq_some_iff.mp h_b).1
      rw [Memory.length_read] at h_k
      exact Option.some.inj ((Memory.getElem?_read h_k).symm.trans h_b)
    refine ⟨h_blocks, fun h_done => (by cases h_done), h.tags, h.due, ?_, ?_, ?_, ?_, ?_⟩
    · intro p h_p
      obtain ⟨b, h_b, -, -, rfl⟩ := pickData_some h_p
      obtain rfl := Option.some.inj h_b
      exact ⟨_, lends_last rfl trivial (Memory.length_read _ _) h_octets⟩
    · intro p h_p
      obtain ⟨m', h_m⟩ := h.ack p h_p
      exact ⟨m', h_m.mono (List.prefix_append _ _) (h_mem p h_p)⟩
    · intro p p' h_p h_p' h_off
      obtain ⟨b, -, -, -, rfl⟩ := pickData_some h_p
      obtain ⟨h_lt, -, rfl⟩ := pickAck_some h_p'
      exact h_a h_off h_lt
    · intro p p' _ h_p'
      exact (Nat.ne_of_lt (h.known_ack h_p')).symm
    · refine h.streams_of_same (List.prefix_append _ _) rfl (.inr ⟨h_pick, rfl, fun p h_p => ?_⟩)
        (.inl ⟨rfl, rfl⟩)
      obtain ⟨b, h_b, -, -, rfl⟩ := pickData_some h_p
      obtain rfl := Option.some.inj h_b
      exact ⟨rfl, _, lends_last rfl trivial (Memory.length_read _ _) h_octets⟩

theorem AcksOk.prepareAck {c : AckConn} (h : AcksOk c) :
    AcksOk (c.seen .prepareAck c.qc.prepareAck) := by
  have h_blocks := h.blocks.prepareAck
  rcases prepareAck_cases c.qc with ⟨h_due, h_same⟩ | ⟨h_due, bytes, h_bytes, h_new⟩
  · rw [h_same, seen, h_due]
    exact h
  · have h_pending : c.qc.rx.ackPending = true ∧ c.qc.ackBufLen = 0 := by
      unfold QuicConn.ackDue at h_due
      simp only [Bool.and_eq_true, decide_eq_true_eq] at h_due
      exact h_due.1
    have h_pick : c.qc.pickAck = none :=
      if_neg fun h_lt => by rw [h_pending.2] at h_lt; exact Nat.not_lt_zero _ h_lt.1
    have h_msg : (Message.ack c.qc.xferAck c.carried).octets = bytes := by
      rw [Message.octets, h_bytes]
      rfl
    rw [h_new] at h_blocks ⊢
    rw [seen]
    dsimp only
    rw [if_pos h_due]
    generalize h_heap : c.qc.heap.write ackBuf 0 bytes = heap at h_blocks ⊢
    have h_mem : ∀ p, c.qc.pickData = some p →
        heap.memory p.block = c.qc.heap.memory p.block := by
      intro p h_p
      obtain ⟨b, h_b, -, -, rfl⟩ := pickData_some h_p
      rw [← h_heap]
      exact Heap.memory_write_of_ne (h.blocks.sendData b h_b).2
    have h_octets : ∀ k b, (Message.ack c.qc.xferAck c.carried).octets[k]? = some b →
        heap.memory ackBuf k = b := by
      intro k b h_b
      rw [h_msg] at h_b
      rw [← h_heap, Heap.memory_write h.blocks.ackBuf]
      have h_at : (c.qc.heap.memory ackBuf).write 0 bytes (0 + k) = b := Memory.write_at h_b
      rwa [Nat.zero_add] at h_at
    refine ⟨h_blocks, h.sendDone, h.tags, fun h_due => (by cases h_due), ?_, ?_, ?_, ?_, ?_⟩
    · intro p h_p
      obtain ⟨m', h_m⟩ := h.data p h_p
      exact ⟨m', h_m.mono (List.prefix_append _ _) (h_mem p h_p)⟩
    · intro p h_p
      obtain ⟨-, -, rfl⟩ := pickAck_some h_p
      exact ⟨_, lends_last rfl (h.due h_pending.1) (congrArg List.length h_msg) h_octets⟩
    · intro p p' h_p h_p' h_off
      obtain ⟨-, -, rfl⟩ := pickAck_some h_p'
      cases h_off
    · intro p p' h_p _
      exact Nat.ne_of_lt (h.known_data h_p)
    · refine h.streams_of_same (List.prefix_append _ _) rfl (.inl ⟨rfl, rfl⟩)
        (.inr ⟨h_pick, rfl, fun p h_p => ?_⟩)
      obtain ⟨-, -, rfl⟩ := pickAck_some h_p
      exact ⟨rfl, _, lends_last rfl (h.due h_pending.1) (congrArg List.length h_msg) h_octets⟩

theorem AcksOk.recvData {c : AckConn} (h : AcksOk c) {env : StreamEnv} {streamId : Int}
    {data : Octets} (h_a : c.Orderly (.recvData env streamId data))
    (h_live : (c.qc.recvData env streamId data).failed = false) :
    AcksOk (c.seen (.recvData env streamId data) (c.qc.recvData env streamId data)) := by
  obtain ⟨h_stream, h_carried⟩ := h_a
  have h_tags : (c.recvTags streamId data).length = (c.qc.rx.rxBuf ++ data).length := by
    rw [recvTags, List.length_append, List.length_append, List.length_replicate, h.tags]
  have h_names : Names c.qc.rx c.carried := fun h_due =>
    ⟨(h.due h_due).1, (h.due h_due).2.1, (h.due h_due).2.2.1⟩
  have h_ok : (recvStreamDataCb env c.qc.rx streamId data).ok = true :=
    Bool.not_eq_false' .. |>.mp h_live
  obtain ⟨h_id, h_length, h_named, h_same⟩ := recvStreamDataCb_named h_names h_tags h_ok
  -- What is to be written stays on its stream.
  have h_ack : (c.qc.recvData env streamId data).pickAck = c.qc.pickAck := by
    rw [QuicConn.pickAck, QuicConn.pickAck]
    show (if c.qc.ackBufOff < c.qc.ackBufLen ∧
      (recvStreamDataCb env c.qc.rx streamId data).rx.ackStreamId ≥ 0 then
        some (Pick.mk .ack ackBuf c.qc.ackBufOff c.qc.ackBufLen
          (recvStreamDataCb env c.qc.rx streamId data).rx.ackStreamId) else none) = _
    by_cases h_left : c.qc.ackBufOff < c.qc.ackBufLen
    · rw [h_id, ← h_stream h_left]
    · rw [if_neg fun h => h_left h.1, if_neg fun h => h_left h.1]
  refine ⟨h.blocks.of_eq rfl rfl rfl, h.sendDone, ?_, ?_, ?_, ?_, ?_, ?_, ?_⟩
  · show ((c.recvTags streamId data).drop _).length = _
    rw [List.length_drop, h_tags]
    show _ - (_ - (recvStreamDataCb env c.qc.rx streamId data).rx.rxBuf.length) =
      (recvStreamDataCb env c.qc.rx streamId data).rx.rxBuf.length
    omega
  · intro h_due
    obtain ⟨h_transfer, h_segment, h_some⟩ := h_named h_due
    refine ⟨h_transfer, h_segment, h_some, fun s h_s => ?_⟩
    show s = (recvStreamDataCb env c.qc.rx streamId data).rx.ackStreamId
    rw [h_id]
    refine h_carried ?_ s h_s
    by_cases h_segs : c.segments streamId data = []
    · left
      exact (h_same h_segs).symm.trans h_due
    · exact .inr h_segs
  · intro p h_p
    obtain ⟨m, h_m⟩ := h.data p h_p
    exact ⟨m, h_m.mono List.prefix_rfl rfl⟩
  · intro p h_p
    obtain ⟨m, h_m⟩ := h.ack p (h_ack ▸ h_p)
    exact ⟨m, h_m.mono List.prefix_rfl rfl⟩
  · intro p p' h_p h_p'
    exact h.apart p p' h_p (h_ack ▸ h_p')
  · intro p p' h_p h_p'
    exact h.distinct p p' h_p (h_ack ▸ h_p')
  · exact h.streams_of_same List.prefix_rfl rfl (.inl ⟨rfl, rfl⟩) (.inl ⟨h_ack, rfl⟩)

/-- A round of `writeConn`, by the channel. -/
theorem writeStream_cases {qc qc' : QuicConn} {n : Nat} (h : qc.writeStream n = some qc') :
    ∃ p, qc.pick = some p ∧ n ≤ p.len - p.off ∧
      let inflight := qc.inflight ++ QuicConn.lend qc.heap p.streamId p.block p.off n
      (p.chan = .signalling ∧
          qc' = { qc with inflight := inflight, sigTxOff := qc.sigTxOff + n } ∨
        p.chan = .data ∧ qc.pickData = some p ∧
          qc' = { qc with inflight := inflight, sendOff := qc.sendOff + n } ∨
        p.chan = .ack ∧ qc.pickData = none ∧ qc.pickAck = some p ∧
          qc' = { qc with inflight := inflight, ackBufOff := qc.ackBufOff + n
                          dataTxOff := qc.dataTxOff + n }) := by
  unfold QuicConn.writeStream at h
  split at h
  · cases h
  · next p h_pick =>
    obtain ⟨h_n, h_eq⟩ := Option.ite_none_right_eq_some.mp h
    refine ⟨p, h_pick, h_n, ?_⟩
    unfold QuicConn.pick at h_pick
    rcases Option.or_eq_some_iff.mp h_pick with h_first | ⟨h_none, h_ack⟩
    · rcases Option.or_eq_some_iff.mp h_first with h_sig | ⟨-, h_data⟩
      · left
        obtain ⟨sigTx, -, h_if⟩ := Option.bind_eq_some_iff.mp h_sig
        obtain ⟨-, h_p⟩ := Option.ite_none_right_eq_some.mp h_if
        obtain rfl := Option.some.inj h_p
        exact ⟨rfl, (Option.some.inj h_eq).symm⟩
      · right
        left
        obtain ⟨b, -, -, -, rfl⟩ := pickData_some h_data
        exact ⟨rfl, h_data, (Option.some.inj h_eq).symm⟩
    · right
      right
      obtain ⟨-, -, rfl⟩ := pickAck_some h_ack
      exact ⟨rfl, (Option.or_eq_none_iff.mp h_none).2, h_ack, (Option.some.inj h_eq).symm⟩

theorem filter_lent (c : AckConn) (p : Pick) (i n : Nat) (streamId : Int) :
    (c.lent p i n).filter (fun w => w.streamId = streamId) =
      if p.streamId = streamId then c.lent p i n else [] := by
  by_cases h_stream : p.streamId = streamId
  · rw [if_pos h_stream]
    refine List.filter_eq_self.mpr fun w h_w => ?_
    obtain ⟨k, -, rfl⟩ := List.mem_map.mp h_w
    exact decide_eq_true h_stream
  · rw [if_neg h_stream]
    refine List.filter_eq_nil_iff.mpr fun w h_w => ?_
    obtain ⟨k, -, rfl⟩ := List.mem_map.mp h_w
    exact fun h => h_stream (of_decide_eq_true h)

/-- The channel behind `n` octets more of `p`. -/
def after (p : Pick) (n : Nat) : Option Pick :=
  if p.off + n < p.len then some { p with off := p.off + n } else none

theorem pickData_after {qc : QuicConn} {p : Pick} (h : qc.pickData = some p) (n : Nat)
    (inflight : List Inflight) :
    QuicConn.pickData { qc with inflight := inflight, sendOff := qc.sendOff + n } = after p n := by
  obtain ⟨b, h_b, -, h_stream, rfl⟩ := pickData_some h
  show (qc.sendData.bind fun sendData =>
    if qc.sendOff + n < qc.sendLen ∧ qc.sendStreamId ≥ 0 then
      some (Pick.mk .data sendData (qc.sendOff + n) qc.sendLen qc.sendStreamId) else none) = _
  rw [h_b, Option.bind_some, after]
  by_cases h_more : qc.sendOff + n < qc.sendLen
  · rw [if_pos ⟨h_more, h_stream⟩, if_pos h_more]
  · rw [if_neg fun h => h_more h.1, if_neg h_more]

theorem pickAck_after {qc : QuicConn} {p : Pick} (h : qc.pickAck = some p) (n : Nat)
    (inflight : List Inflight) (dataTxOff : Nat) :
    QuicConn.pickAck { qc with inflight := inflight, ackBufOff := qc.ackBufOff + n
                               dataTxOff := dataTxOff } = after p n := by
  obtain ⟨-, h_stream, rfl⟩ := pickAck_some h
  rw [QuicConn.pickAck, after]
  dsimp only
  by_cases h_more : qc.ackBufOff + n < qc.ackBufLen
  · rw [if_pos ⟨h_more, h_stream⟩, if_pos h_more]
  · rw [if_neg fun h => h_more h.1, if_neg h_more]

theorem after_some {p p' : Pick} {n : Nat} (h : after p n = some p') :
    p' = { p with off := p.off + n } := by
  obtain ⟨-, h_eq⟩ := Option.ite_none_right_eq_some.mp h
  exact (Option.some.inj h_eq).symm

/-- What a round makes of a stream on which nothing else has begun. -/
theorem on_after {c c' : AckConn} {p : Pick} {i n : Nat} {m : Message} {ms : List Nat}
    (h_lends : c.Lends p i m) (h_n : p.off + n ≤ p.len) (h_nodup : ms.Nodup) (h_new : i ∉ ms)
    (h_written : c'.written = c.written ++ c.lent p i n)
    (h_on : c.on p.streamId = ms.flatMap (c.whole p.streamId) ++
      (c.whole p.streamId i).take p.off) :
    ∃ ms' : List Nat, ms'.Nodup ∧ (∀ j ∈ ms', j ∈ ms ∨ j = i) ∧
      (∀ p', after p n = some p' → i ∉ ms') ∧
      c'.on p.streamId = ms'.flatMap (c.whole p.streamId) ++ c.begun p.streamId i (after p n) := by
  have h_on' : c'.on p.streamId = ms.flatMap (c.whole p.streamId) ++
      (c.whole p.streamId i).take (p.off + n) := by
    rw [on, h_written, List.filter_append, filter_lent, if_pos rfl, ← take_append_lent h_lends h_n,
      ← List.append_assoc, ← h_on]
    rfl
  by_cases h_more : p.off + n < p.len
  · refine ⟨ms, h_nodup, fun j h_j => .inl h_j, fun _ _ => h_new, ?_⟩
    rw [h_on', after, if_pos h_more]
    exact congrArg _ (begun_some (p := { p with off := p.off + n }) i).symm
  · -- The message is complete.
    have h_all : (c.whole p.streamId i).take (p.off + n) = c.whole p.streamId i := by
      refine List.take_of_length_le ?_
      rw [whole_eq h_lends.message, List.length_mapIdx, h_lends.length]
      omega
    refine ⟨ms ++ [i], ?_, ?_, ?_, ?_⟩
    · rw [List.nodup_append_comm]
      exact List.nodup_cons.mpr ⟨h_new, h_nodup⟩
    · intro j h_j
      exact (List.mem_append.mp h_j).imp_right List.mem_singleton.mp
    · intro p' h_p'
      rw [after, if_neg h_more] at h_p'
      cases h_p'
    · rw [h_on', h_all, after, if_neg h_more, List.flatMap_append, List.flatMap_singleton, begun,
        List.append_nil]

theorem on_of_ne {c c' : AckConn} {p : Pick} {i n : Nat} {streamId : Int}
    (h_written : c'.written = c.written ++ c.lent p i n) (h_ne : p.streamId ≠ streamId) :
    c'.on streamId = c.on streamId := by
  rw [on, h_written, List.filter_append, filter_lent, if_neg h_ne, List.append_nil]
  rfl

theorem begun_after_of_ne {c : AckConn} {p : Pick} {n : Nat} {streamId : Int} (i : Nat)
    (h_ne : p.streamId ≠ streamId) : c.begun streamId i (after p n) = [] := by
  cases h_after : after p n with
  | none => rfl
  | some p' =>
    rw [after_some h_after]
    exact begun_of_ne i h_ne

theorem Lends.after {c c' : AckConn} {p p' : Pick} {i n : Nat} {m : Message} (h : c.Lends p i m)
    (h_after : AckConn.after p n = some p') (h_messages : c'.messages = c.messages)
    (h_heap : c'.qc.heap = c.qc.heap) : c'.Lends p' i m := by
  rw [after_some h_after]
  exact ⟨by rw [h_messages]; exact h.message, h.belongs, h.length, fun k b h_b => by
    rw [h_heap]
    exact h.octets k b h_b⟩

theorem AcksOk.writeData {c : AckConn} (h : AcksOk c) {p : Pick} {n : Nat} {inflight : List Inflight}
    (h_pick : c.qc.pickData = some p) (h_n : p.off + n ≤ p.len) :
    AcksOk { c with
      qc := { c.qc with inflight := inflight, sendOff := c.qc.sendOff + n }
      written := c.written ++ c.lent p c.framed n } := by
  have h_after := pickData_after h_pick n inflight
  obtain ⟨m, h_m⟩ := h.data p h_pick
  refine ⟨h.blocks.of_eq rfl rfl rfl, fun h_done => ?_, h.tags, h.due, fun p' h_p' => ?_,
    fun p' h_p' => ?_, fun p₁ p' h_p₁ h_p' h_off => ?_, fun p₁ p' h_p₁ h_p' => ?_, ?_⟩
  · rw [h.sendDone h_done] at h_pick
    cases h_pick
  · exact ⟨m, h_m.after (h_after.symm.trans h_p') rfl rfl⟩
  · obtain ⟨m', h_m'⟩ := h.ack p' h_p'
    exact ⟨m', h_m'.mono List.prefix_rfl rfl⟩
  · rw [after_some (h_after.symm.trans h_p₁)]
    exact h.apart p p' h_pick h_p' h_off
  · exact h.distinct p p' h_pick h_p'
  · intro streamId
    obtain ⟨ms, h_ms⟩ := h.streams streamId
    have h_on := h_ms.written
    rw [h_pick] at h_on
    by_cases h_stream : p.streamId = streamId
    · subst h_stream
      have h_none : c.begun p.streamId c.ack c.qc.pickAck = [] := by
        cases h_ack : c.qc.pickAck with
        | none => rfl
        | some p' =>
          by_cases h_off : p'.off = 0
          · exact begun_zero _ h_off
          · exact begun_of_ne _ (Ne.symm (h.apart p p' h_pick h_ack (Nat.pos_of_ne_zero h_off)))
      rw [h_none, List.append_nil, begun_some] at h_on
      obtain ⟨ms', h_nodup, h_mem, h_new, h_on'⟩ := @on_after c { c with
          qc := { c.qc with inflight := inflight, sendOff := c.qc.sendOff + n }
          written := c.written ++ c.lent p c.framed n } p c.framed n m ms
        h_m h_n h_ms.nodup (h_ms.data p h_pick) rfl h_on
      refine ⟨ms', h_nodup, fun j h_j => ?_, fun p' h_p' => h_new p' (h_after.symm.trans h_p'),
        fun p' h_p' h_j => ?_, ?_⟩
      · rcases h_mem j h_j with h_old | rfl
        · exact h_ms.known j h_old
        · exact ⟨m, h_m.message, h_m.belongs⟩
      · rcases h_mem _ h_j with h_old | h_same
        · exact h_ms.ack p' h_p' h_old
        · exact h.distinct p p' h_pick h_p' h_same.symm
      · rw [h_on', h_after]
        exact ((congrArg _ h_none).trans (List.append_nil _)).symm
    · refine ⟨ms, h_ms.nodup, h_ms.known, fun p' _ => h_ms.data p h_pick, h_ms.ack, ?_⟩
      rw [begun_of_ne _ h_stream] at h_on
      rw [on_of_ne (c := c) rfl h_stream, h_on, h_after, begun_after_of_ne _ h_stream]
      rfl

theorem AcksOk.writeAck {c : AckConn} (h : AcksOk c) {p : Pick} {n : Nat} {inflight : List Inflight}
    {dataTxOff : Nat} (h_data : c.qc.pickData = none) (h_pick : c.qc.pickAck = some p)
    (h_n : p.off + n ≤ p.len) :
    AcksOk { c with
      qc := { c.qc with inflight := inflight, ackBufOff := c.qc.ackBufOff + n
                        dataTxOff := dataTxOff }
      written := c.written ++ c.lent p c.ack n } := by
  have h_after := pickAck_after h_pick n inflight dataTxOff
  obtain ⟨m, h_m⟩ := h.ack p h_pick
  have h_none : ∀ p', c.qc.pickData ≠ some p' := fun p' h_p' => by
    rw [h_data] at h_p'
    cases h_p'
  refine ⟨h.blocks.of_eq rfl rfl rfl, fun _ => h_data, h.tags, h.due,
    fun p' h_p' => absurd h_p' (h_none p'), fun p' h_p' => ?_,
    fun p₁ p' h_p₁ => absurd h_p₁ (h_none p₁), fun p₁ p' h_p₁ => absurd h_p₁ (h_none p₁), ?_⟩
  · exact ⟨m, h_m.after (h_after.symm.trans h_p') rfl rfl⟩
  · intro streamId
    obtain ⟨ms, h_ms⟩ := h.streams streamId
    have h_on := h_ms.written
    rw [h_pick, h_data, begun, List.append_nil] at h_on
    by_cases h_stream : p.streamId = streamId
    · subst h_stream
      rw [begun_some] at h_on
      obtain ⟨ms', h_nodup, h_mem, h_new, h_on'⟩ := @on_after c { c with
          qc := { c.qc with inflight := inflight, ackBufOff := c.qc.ackBufOff + n
                            dataTxOff := dataTxOff }
          written := c.written ++ c.lent p c.ack n } p c.ack n m ms
        h_m h_n h_ms.nodup (h_ms.ack p h_pick) rfl h_on
      refine ⟨ms', h_nodup, fun j h_j => ?_, fun p' h_p' => absurd h_p' (h_none p'),
        fun p' h_p' => h_new p' (h_after.symm.trans h_p'), ?_⟩
      · rcases h_mem j h_j with h_old | rfl
        · exact h_ms.known j h_old
        · exact ⟨m, h_m.message, h_m.belongs⟩
      · show _ = _ ++ AckConn.begun _ p.streamId c.framed c.qc.pickData ++ _
        rw [h_on', h_after, h_data, begun, List.append_nil]
        rfl
    · refine ⟨ms, h_ms.nodup, h_ms.known, fun p' h_p' => absurd h_p' (h_none p'),
        fun p' _ => h_ms.ack p h_pick, ?_⟩
      rw [begun_of_ne _ h_stream, List.append_nil] at h_on
      show _ = _ ++ AckConn.begun _ streamId c.framed c.qc.pickData ++ _
      rw [on_of_ne (c := c) rfl h_stream, h_on, h_after, h_data, begun_after_of_ne _ h_stream, begun,
        List.append_nil, List.append_nil]
      rfl

theorem AcksOk.writeStream {c : AckConn} (h : AcksOk c) {n : Nat} {qc' : QuicConn}
    (h_write : c.qc.writeStream n = some qc') : AcksOk (c.seen (.writeStream n) qc') := by
  obtain ⟨p, h_pick, h_n, h_cases⟩ := writeStream_cases h_write
  rw [seen, lentBy, h_pick]
  dsimp only
  rcases h_cases with ⟨h_chan, rfl⟩ | ⟨h_chan, h_data, rfl⟩ | ⟨h_chan, h_none, h_ack, rfl⟩
  · rw [h_chan]
    dsimp only
    rw [List.append_nil]
    exact h.frame (h.blocks.of_eq rfl rfl rfl) h.sendDone rfl rfl rfl fun _ _ => rfl
  · rw [h_chan]
    refine h.writeData h_data ?_
    obtain ⟨b, -, h_off, -, rfl⟩ := pickData_some h_data
    dsimp only at h_n ⊢
    omega
  · rw [h_chan]
    refine h.writeAck h_none h_ack ?_
    obtain ⟨h_off, -, rfl⟩ := pickAck_some h_ack
    dsimp only at h_n ⊢
    omega

/-- An orderly step after which the connection has not failed. -/
theorem AcksOk.step {c c' : AckConn} {a : ConnAct} (h : AcksOk c) (h_a : c.Orderly a)
    (h_step : c.step a = some c') (h_live : c'.qc.failed = false) : AcksOk c' := by
  obtain ⟨qc', h_qc, rfl⟩ := Option.map_eq_some_iff.mp h_step
  cases a with
  | negotiate segmentMru =>
    obtain ⟨-, h_eq⟩ := Option.ite_none_left_eq_some.mp h_qc
    obtain rfl := Option.some.inj h_eq
    exact h.frame (h.blocks.of_eq rfl rfl rfl) h.sendDone rfl rfl rfl fun _ _ => rfl
  | doSend bundle ordinal block =>
    obtain ⟨h_none, h_eq⟩ := Option.ite_none_right_eq_some.mp h_qc
    obtain rfl := Option.some.inj h_eq
    exact h.doSend (Option.isNone_iff_eq_none.mp h_none) h_a
  | wakeWaiters =>
    obtain rfl := Option.some.inj h_qc
    exact h.wakeWaiters
  | doSendEnd => exact h.doSendEnd h_qc h_live
  | sigQueue bytes block =>
    obtain ⟨-, h_eq⟩ := Option.ite_none_left_eq_some.mp h_qc
    obtain rfl := Option.some.inj h_eq
    exact h.sigQueue bytes block
  | recvData env streamId data =>
    obtain ⟨-, h_eq⟩ := Option.ite_none_left_eq_some.mp h_qc
    obtain rfl := Option.some.inj h_eq
    exact h.recvData h_a h_live
  | prepareAck =>
    obtain ⟨-, h_eq⟩ := Option.ite_none_left_eq_some.mp h_qc
    obtain rfl := Option.some.inj h_eq
    exact h.prepareAck
  | writeStream n =>
    obtain ⟨-, h_write⟩ := Option.ite_none_left_eq_some.mp h_qc
    exact h.writeStream h_write
  | acked streamId n =>
    obtain ⟨-, h_eq⟩ := Option.ite_none_left_eq_some.mp h_qc
    obtain rfl := Option.some.inj h_eq
    exact h.ackedOffsetCb streamId n
  | fail =>
    obtain rfl := Option.some.inj h_qc
    cases h_live

/-! ## Runs -/

theorem seen_qc (c : AckConn) (a : ConnAct) (qc' : QuicConn) : (c.seen a qc').qc = qc' := by
  unfold seen
  split
  · split <;> rfl
  · rfl
  · split <;> rfl
  · rfl
  · rfl

theorem seen_messages (c : AckConn) (a : ConnAct) (qc' : QuicConn) :
    c.messages <+: (c.seen a qc').messages := by
  unfold seen
  split
  · split
    · exact List.prefix_rfl
    · exact List.prefix_append _ _
  · exact List.prefix_rfl
  · split
    · exact List.prefix_append _ _
    · exact List.prefix_rfl
  · exact List.prefix_rfl
  · exact List.prefix_rfl

theorem seen_written {c : AckConn} {a : ConnAct} {qc' : QuicConn}
    (h : ∀ n, a ≠ .writeStream n) : (c.seen a qc').written = c.written := by
  unfold seen
  split
  · split <;> rfl
  · rfl
  · split <;> rfl
  · next n => exact absurd rfl (h n)
  · rfl

/-- What is written stays as it is. -/
theorem InPlace.mono {c c' : AckConn} (h : c.InPlace) (h_messages : c.messages <+: c'.messages)
    (h_written : c'.written = c.written) : c'.InPlace := by
  intro streamId
  obtain ⟨ms, h_nodup, h_on, h_known⟩ := h streamId
  refine ⟨ms, h_nodup, ?_, fun i h_i => ?_⟩
  · have h_whole : ms.flatMap (c'.whole streamId) = ms.flatMap (c.whole streamId) := by
      refine List.flatMap_congr fun i h_i => ?_
      obtain ⟨m, h_m, -⟩ := h_known i h_i
      exact whole_kept h_messages h_m
    rw [on, h_written, h_whole]
    exact h_on
  · obtain ⟨m, h_m, h_belongs⟩ := h_known i h_i
    exact ⟨m, message_kept h_messages h_m, h_belongs⟩

/-- A connection that has failed stays so, and nothing is written on it. -/
theorem failed_step {qc qc' : QuicConn} {a : ConnAct} (h : qc.failed = true)
    (h_step : qc.step a = some qc') : qc'.failed = true ∧ ∀ n, a ≠ .writeStream n := by
  refine ⟨?_, ?_⟩
  · cases a with
    | doSend bundle ordinal block =>
      obtain ⟨-, h_eq⟩ := Option.ite_none_right_eq_some.mp h_step
      obtain rfl := Option.some.inj h_eq
      rcases doSend_cases qc bundle ordinal block with h_same | ⟨m, framed, h_new⟩
      · rw [h_same]
        exact h
      · rw [h_new]
        exact h
    | wakeWaiters =>
      obtain rfl := Option.some.inj h_step
      exact h
    | doSendEnd =>
      obtain ⟨framed, -, -, rfl⟩ := doSendEnd_some h_step
      exact h
    | fail =>
      obtain rfl := Option.some.inj h_step
      rfl
    -- The others are steps of the I/O thread.
    | _ => simp [QuicConn.step, h] at h_step
  · rintro n rfl
    exact absurd h (Option.ite_none_left_eq_some.mp h_step).1

theorem failed_writeStream {qc qc' : QuicConn} {n : Nat}
    (h_step : qc.step (.writeStream n) = some qc') : qc'.failed = qc.failed := by
  obtain ⟨-, h_write⟩ := Option.ite_none_left_eq_some.mp h_step
  obtain ⟨p, -, -, _, _, _, _, rfl⟩ := writeStream_some h_write
  rfl

/-- What holds of a connection in every orderly run. -/
structure RunOk (c : AckConn) : Prop where
  inPlace : c.InPlace
  live : c.qc.failed = false → AcksOk c

theorem AcksOk.runOk {c : AckConn} (h : AcksOk c) : RunOk c := ⟨h.inPlace, fun _ => h⟩

theorem RunOk.step {c c' : AckConn} {a : ConnAct} (h : RunOk c) (h_a : c.Orderly a)
    (h_step : c.step a = some c') : RunOk c' := by
  cases h_live : c'.qc.failed with
  | false =>
    refine AcksOk.runOk ((h.live ?_).step h_a h_step h_live)
    obtain ⟨qc', h_qc, rfl⟩ := Option.map_eq_some_iff.mp h_step
    refine Bool.not_eq_true _ ▸ fun h_failed => ?_
    rw [seen_qc, (failed_step h_failed h_qc).1] at h_live
    cases h_live
  | true =>
    obtain ⟨qc', h_qc, rfl⟩ := Option.map_eq_some_iff.mp h_step
    -- Nothing was written in the step.
    have h_not : ∀ n, a ≠ .writeStream n := by
      rintro n rfl
      rw [seen_qc, failed_writeStream h_qc] at h_live
      exact (failed_step h_live h_qc).2 n rfl
    refine ⟨h.inPlace.mono (seen_messages c a qc') (seen_written h_not), fun h => ?_⟩
    rw [h_live] at h
    cases h

/-- In every run in which nothing comes on another stream while an acknowledgement is to be
    written, and no bundle is begun on its stream when it has begun, what is written on each stream
    is whole messages, and every acknowledgement is on the stream of its transfer. -/
theorem acks_in_place {dataStreams : Fin 4 → Int} {as : List ConnAct} {c : AckConn}
    (h_meets : Meets step Orderly (AckConn.init dataStreams) as)
    (h_run : run step (AckConn.init dataStreams) as = some c) : c.InPlace :=
  (run_invariant_of_meets (fun _ _ _ h h_a h_step => RunOk.step h h_a h_step)
    (AcksOk.init dataStreams).runOk h_meets h_run).inPlace

/-- A segment of a transfer, and an acknowledgement, of the peer. -/
def peerSegment : Octets := (frameBundle 0 0 [9] true).getD []
def peerAck : Octets := (quicMsgEncodeXferAck sizeofAckBuf ⟨3, 0, 0, 3⟩).getD []

/-- An acknowledgement is written in two pieces, with a bundle on another stream in between, and
    then one of the peer comes. -/
def inTurn : List ConnAct :=
  [.recvData calm 1 peerSegment, .prepareAck, .writeStream 10, .doSend [1, 2] 200 (some fun _ => 0),
    .writeStream 37, .writeStream 10, .recvData calm 4 peerAck]

theorem acks_in_place_inTurn : ∃ c, run step (AckConn.init clientStreams) inTurn = some c ∧
    (c.on 1).length = 20 ∧ (c.on 4).length = 37 ∧ c.InPlace := by
  have h_some : (run step (AckConn.init clientStreams) inTurn).map
      (fun c => ((c.on 1).length, (c.on 4).length)) = some (20, 37) := by decide +kernel
  obtain ⟨c, h_run, h_len⟩ := Option.map_eq_some_iff.mp h_some
  obtain ⟨h_1, h_4⟩ := Prod.mk.inj h_len
  exact ⟨c, h_run, h_1, h_4, acks_in_place (by decide +kernel) h_run⟩

/-- An acknowledgement of the peer, for a bundle on stream 4, is there with the segment on stream 1
    or comes when some of the acknowledgement of the segment is out: that goes out on stream 4, or
    in parts.  Or a bundle is begun on its stream in the middle of it. -/
theorem acks_misplaced :
    (run step (AckConn.init clientStreams)
      [.recvData calm 1 peerSegment, .recvData calm 4 peerAck, .prepareAck, .writeStream 20]).map
        (fun c => (c.messages, (c.on 4).map fun w => (w.msg, w.pos))) =
      some ([.ack ⟨3, 0, 0, 1⟩ ⟨0, 0, List.replicate 36 1⟩], (List.range 20).map fun k => (0, k)) ∧
    (run step (AckConn.init clientStreams)
      [.recvData calm 1 peerSegment, .prepareAck, .writeStream 10, .recvData calm 4 peerAck,
        .writeStream 10]).map
        (fun c => ((c.on 1).map Written.pos, (c.on 4).map Written.pos)) =
      some (List.range 10, List.range' 10 10) ∧
    (run step (AckConn.init clientStreams)
      [.recvData calm 4 peerSegment, .prepareAck, .writeStream 10,
        .doSend [1, 2] 200 (some fun _ => 0), .writeStream 37, .writeStream 10]).map
        (fun c => (c.on 4).map Written.msg) =
      some (List.replicate 10 0 ++ List.replicate 37 1 ++ List.replicate 10 0) := by
  refine ⟨?_, ?_, ?_⟩ <;> decide +kernel

end AckConn

end IonContrib.Quic
