/-
  IonContrib.Quic.Buffers

  The buffers of a connection that QUIC is handed octets from (`doSend`,
  `sigQueue`, `prepareAck`, `writeConn`), and what becomes of them when the
  peer acknowledges (`ackedOffsetCb`).

  QUIC does not copy the octets it is handed: it keeps pointers into the buffer
  and resends from there until the peer has acknowledged them.  `inflight` are
  these pointers, each with the octet that was sent.

  Steps are what the I/O thread and the sender's thread do under one lock, or
  without being disturbed: the buffers are written by the I/O thread only, but
  for the framed bundle, which belongs to the sender.
-/
import IonContrib.Lib.Heap
import IonContrib.Quic.Stream

namespace IonContrib.Quic

def quicclSigStream : Int := 0

/-- The number of the block that is `ackBuf`, a part of the connection itself. -/
def ackBuf : Nat := 0
def sizeofAckBuf : Nat := 24

/-- A pointer QUIC holds, and the stream the octet was sent on. -/
structure Inflight where
  stream : Int
  ref : Ref
  deriving DecidableEq

/-- The buffers `writeConn` drains. -/
inductive Channel where
  | signalling
  | data
  | ack
  deriving DecidableEq

/-- What `writeConn` hands over next: the channel, its buffer, how far it has been handed over,
    its length and its stream. -/
structure Pick where
  chan : Channel
  block : Nat
  off : Nat
  len : Nat
  streamId : Int

/-- The sending fields of `QuicConn`, and the receiving ones an acknowledgement is made from. -/
structure QuicConn where
  heap : Heap
  peerSegmentMru : Nat
  nextTxId : Nat
  dataStreams : Fin 4 → Int
  sendData : Option Nat
  sendLen : Nat
  sendOff : Nat
  sendDone : Bool
  sendStreamId : Int
  sigTx : Option Nat
  sigTxLen : Nat
  sigTxOff : Nat
  sigTxCap : Nat
  ackBufLen : Nat
  ackBufOff : Nat
  dataTxOff : Nat
  dataAckOff : Nat
  rx : StreamRx
  failed : Bool
  inflight : List Inflight

namespace QuicConn

def init (dataStreams : Fin 4 → Int) : QuicConn where
  heap := Heap.empty.alloc fun _ => 0
  peerSegmentMru := 0
  nextTxId := 0
  dataStreams := dataStreams
  sendData := none
  sendLen := 0
  sendOff := 0
  sendDone := false
  sendStreamId := -1
  sigTx := none
  sigTxLen := 0
  sigTxOff := 0
  sigTxCap := 0
  ackBufLen := 0
  ackBufOff := 0
  dataTxOff := 0
  dataAckOff := 0
  rx := StreamRx.init
  failed := false
  inflight := []

/-! ## Sending a bundle -/

/-- `doSend` up to where it waits; `block` is what `MTAKE` answers for the framed bundle. -/
def doSend (qc : QuicConn) (bundle : Octets) (ordinal : Nat) (block : Option Memory) : QuicConn :=
  let next := { qc with nextTxId := (qc.nextTxId + 1) % 2 ^ 64 }
  match block, frameBundle qc.peerSegmentMru qc.nextTxId bundle block.isSome with
  | some m, some framed => { next with
      heap := qc.heap.alloc (m.write 0 framed)
      sendData := some qc.heap.next
      sendLen := framed.length
      sendOff := 0
      sendDone := false
      sendStreamId := qc.dataStreams (priorityStream ordinal) }
  | _, _ => next

/-- `engineWakeWaiters`. -/
def wakeWaiters (qc : QuicConn) : QuicConn :=
  { qc with sendDone := qc.sendDone || (qc.sendData.isSome && qc.sendOff ≥ qc.sendLen) }

/-- The rest of `doSend`. -/
def doSendEnd (qc : QuicConn) : Option QuicConn :=
  match qc.sendData with
  | none => none
  | some framed =>
    if qc.sendDone || qc.failed then
      some { qc with sendData := none, heap := qc.heap.free framed }
    else none

/-! ## Signalling and acknowledgements -/

def sigGrow (qc : QuicConn) (len : Nat) (block : Option Memory) : Option QuicConn :=
  if qc.sigTxLen + len > qc.sigTxCap then
    let cap := if qc.sigTxCap ≠ 0 then qc.sigTxCap else 256
    let want := qc.sigTxLen + len
    block.map fun m =>
      let old := match qc.sigTx with
        | none => []
        | some sigTx => (qc.heap.memory sigTx).read qc.sigTxLen
      let heap := qc.heap.alloc (m.write 0 old)
      { qc with
        heap := match qc.sigTx with
          | none => heap
          | some sigTx => heap.free sigTx
        sigTx := some qc.heap.next
        sigTxCap := doubleUntil want cap want }
  else some qc

def sigQueue (qc : QuicConn) (bytes : Octets) (block : Option Memory) : QuicConn :=
  match qc.sigGrow bytes.length block with
  | none => qc
  | some qc =>
    match qc.sigTx with
    | none => qc
    | some sigTx => { qc with
        heap := qc.heap.write sigTx qc.sigTxLen bytes
        sigTxLen := qc.sigTxLen + bytes.length }

/-- `recvStreamDataCb` on a data stream. -/
def recvData (qc : QuicConn) (env : StreamEnv) (streamId : Int) (data : Octets) : QuicConn :=
  let out := recvStreamDataCb env qc.rx streamId data
  { qc with rx := out.rx, failed := !out.ok }

/-- `prepareAck` makes an XFER_ACK now. -/
def ackDue (qc : QuicConn) : Bool :=
  qc.rx.ackPending && qc.ackBufLen = 0 && 0 ≤ qc.rx.ackStreamId

/-- The latest cumulative acknowledgement. -/
def xferAck (qc : QuicConn) : QuicXferAck :=
  ⟨qc.rx.ackFlags, qc.rx.ackSegId, qc.rx.ackTransferId, qc.rx.ackCumLen⟩

def prepareAck (qc : QuicConn) : QuicConn :=
  if !qc.ackDue then qc
  else
    (quicMsgEncodeXferAck sizeofAckBuf qc.xferAck).elim qc fun bytes =>
      { qc with
        heap := qc.heap.write ackBuf 0 bytes
        ackBufLen := bytes.length
        ackBufOff := 0
        rx := { qc.rx with ackPending := false } }

/-! ## Writing, and acknowledgements of the peer -/

def pickSignalling (qc : QuicConn) : Option Pick :=
  qc.sigTx.bind fun sigTx =>
    if qc.sigTxOff < qc.sigTxLen then
      some ⟨.signalling, sigTx, qc.sigTxOff, qc.sigTxLen, quicclSigStream⟩
    else none

def pickData (qc : QuicConn) : Option Pick :=
  qc.sendData.bind fun sendData =>
    if qc.sendOff < qc.sendLen ∧ qc.sendStreamId ≥ 0 then
      some ⟨.data, sendData, qc.sendOff, qc.sendLen, qc.sendStreamId⟩
    else none

def pickAck (qc : QuicConn) : Option Pick :=
  if qc.ackBufOff < qc.ackBufLen ∧ qc.rx.ackStreamId ≥ 0 then
    some ⟨.ack, ackBuf, qc.ackBufOff, qc.ackBufLen, qc.rx.ackStreamId⟩
  else none

def pick (qc : QuicConn) : Option Pick :=
  (qc.pickSignalling.or qc.pickData).or qc.pickAck

/-- The pointers to `n` octets of a buffer. -/
def lend (heap : Heap) (streamId : Int) (block off n : Nat) : List Inflight :=
  (List.range n).map fun i => ⟨streamId, ⟨block, off + i, heap.memory block (off + i)⟩⟩

/-- One round of `writeConn`, in which QUIC takes `n` octets. -/
def writeStream (qc : QuicConn) (n : Nat) : Option QuicConn :=
  match qc.pick with
  | none => none
  | some p =>
    if n ≤ p.len - p.off then
      let qc := { qc with inflight := qc.inflight ++ lend qc.heap p.streamId p.block p.off n }
      match p.chan with
      | .signalling => some { qc with sigTxOff := qc.sigTxOff + n }
      | .data => some { qc with sendOff := qc.sendOff + n }
      | .ack => some { qc with ackBufOff := qc.ackBufOff + n, dataTxOff := qc.dataTxOff + n }
    else none

/-- QUIC lets go of the first `n` octets of a stream. -/
def dropAcked (streamId : Int) : Nat → List Inflight → List Inflight
  | 0, inflight => inflight
  | _, [] => []
  | n + 1, r :: inflight =>
    if r.stream = streamId then dropAcked streamId n inflight
    else r :: dropAcked streamId (n + 1) inflight

/-- The peer has acknowledged the next `n` octets of a stream. -/
def ackedOffsetCb (qc : QuicConn) (streamId : Int) (n : Nat) : QuicConn :=
  let qc := { qc with inflight := dropAcked streamId n qc.inflight }
  if streamId ≠ quicclSigStream then
    let qc := { qc with dataAckOff := qc.dataAckOff + n }
    if qc.ackBufOff ≥ qc.ackBufLen ∧ qc.dataAckOff ≥ qc.dataTxOff then
      { qc with ackBufLen := 0 }
    else qc
  else qc

end QuicConn

/-! ## Steps -/

inductive ConnAct where
  | negotiate (segmentMru : Nat)
  | doSend (bundle : Octets) (ordinal : Nat) (block : Option Memory)
  | wakeWaiters
  | doSendEnd
  | sigQueue (bytes : Octets) (block : Option Memory)
  | recvData (env : StreamEnv) (streamId : Int) (data : Octets)
  | prepareAck
  | writeStream (n : Nat)
  | acked (streamId : Int) (n : Nat)
  | fail

/-- The I/O thread passes over a connection that has failed. -/
def QuicConn.step (qc : QuicConn) (a : ConnAct) : Option QuicConn :=
  match a with
  | .doSend bundle ordinal block =>
    if qc.sendData.isNone then some (qc.doSend bundle ordinal block) else none
  | .doSendEnd => qc.doSendEnd
  | .wakeWaiters => some qc.wakeWaiters
  | .negotiate segmentMru =>
    if qc.failed then none else some { qc with peerSegmentMru := segmentMru }
  | .sigQueue bytes block => if qc.failed then none else some (qc.sigQueue bytes block)
  | .recvData env streamId data =>
    if qc.failed ∨ streamId = quicclSigStream then none
    else some (qc.recvData env streamId data)
  | .prepareAck => if qc.failed then none else some qc.prepareAck
  | .writeStream n => if qc.failed then none else qc.writeStream n
  | .acked streamId n =>
    if qc.failed ∨ n > qc.inflight.countP fun r => r.stream = streamId then none
    else some (qc.ackedOffsetCb streamId n)
  | .fail => some { qc with failed := true }

/-- Every octet that was handed to QUIC and has not been acknowledged is in its place. -/
def QuicConn.Intact (qc : QuicConn) : Prop := ∀ r ∈ qc.inflight, qc.heap.Holds r.ref

instance (qc : QuicConn) : Decidable qc.Intact :=
  inferInstanceAs (Decidable (∀ r ∈ qc.inflight, _))

/-- A buffer is released, moved or rewritten only when QUIC has no pointer into it. -/
def QuicConn.Covered (qc : QuicConn) : ConnAct → Prop
  -- The framed bundle goes: all of it that was handed over has been acknowledged.
  | .doSendEnd => ∀ r ∈ qc.inflight, qc.sendData ≠ some r.ref.block
  -- The signalling fits its buffer, or all of it that was handed over has been acknowledged.
  | .sigQueue bytes block => qc.sigTxLen + bytes.length ≤ qc.sigTxCap ∨ block.isNone = true ∨
    ∀ r ∈ qc.inflight, r.stream ≠ quicclSigStream
  -- So has the XFER_ACK before, when the next one is made.
  | .prepareAck => qc.ackDue = false ∨ ∀ r ∈ qc.inflight, r.ref.block ≠ ackBuf
  | _ => True

instance (qc : QuicConn) : DecidablePred qc.Covered
  | .doSendEnd => inferInstanceAs (Decidable (∀ r ∈ qc.inflight, _))
  | .sigQueue _ _ => inferInstanceAs (Decidable (_ ∨ _ ∨ ∀ r ∈ qc.inflight, _))
  | .prepareAck => inferInstanceAs (Decidable (_ ∨ ∀ r ∈ qc.inflight, _))
  | .negotiate _ => .isTrue trivial
  | .doSend _ _ _ => .isTrue trivial
  | .wakeWaiters => .isTrue trivial
  | .recvData _ _ _ => .isTrue trivial
  | .writeStream _ => .isTrue trivial
  | .acked _ _ => .isTrue trivial
  | .fail => .isTrue trivial

/-! ## The blocks -/

/-- The blocks that are in use are there, and they are different ones. -/
structure BlocksOk (qc : QuicConn) : Prop where
  wf : qc.heap.Wf
  ackBuf : qc.heap.Live ackBuf
  sendData : ∀ b, qc.sendData = some b → qc.heap.Live b ∧ b ≠ Quic.ackBuf
  sigTx : ∀ b, qc.sigTx = some b → qc.heap.Live b ∧ b ≠ Quic.ackBuf
  apart : ∀ b, qc.sendData = some b → qc.sigTx ≠ some b

theorem BlocksOk.init (dataStreams : Fin 4 → Int) : BlocksOk (QuicConn.init dataStreams) where
  wf := Heap.Wf.alloc ⟨fun b h_live => by simp [Heap.Live, Heap.empty] at h_live⟩ _
  ackBuf := Heap.live_alloc_next Heap.empty _
  sendData b h := by cases h
  sigTx b h := by cases h
  apart b h := by cases h

/-- Nothing but the blocks and what they are used for matters. -/
theorem BlocksOk.of_eq {qc qc' : QuicConn} (h : BlocksOk qc) (h_heap : qc'.heap = qc.heap)
    (h_data : qc'.sendData = qc.sendData) (h_sig : qc'.sigTx = qc.sigTx) : BlocksOk qc' := by
  obtain ⟨h_wf, h_ack, h_sendData, h_sigTx, h_apart⟩ := h
  rw [← h_heap] at h_wf h_ack
  rw [← h_heap, ← h_data] at h_sendData
  rw [← h_heap, ← h_sig] at h_sigTx
  rw [← h_data, ← h_sig] at h_apart
  exact ⟨h_wf, h_ack, h_sendData, h_sigTx, h_apart⟩

/-- `doSend` leaves the buffers as they are, or puts the framed bundle in a new block. -/
theorem doSend_cases (qc : QuicConn) (bundle : Octets) (ordinal : Nat) (block : Option Memory) :
    qc.doSend bundle ordinal block = { qc with nextTxId := (qc.nextTxId + 1) % 2 ^ 64 } ∨
    ∃ (m : Memory) (framed : Octets), qc.doSend bundle ordinal block = { qc with
      nextTxId := (qc.nextTxId + 1) % 2 ^ 64
      heap := qc.heap.alloc (m.write 0 framed)
      sendData := some qc.heap.next
      sendLen := framed.length
      sendOff := 0
      sendDone := false
      sendStreamId := qc.dataStreams (priorityStream ordinal) } := by
  unfold QuicConn.doSend
  dsimp only
  split
  · next m framed _ => exact .inr ⟨m, framed, rfl⟩
  · exact .inl rfl

theorem BlocksOk.doSend {qc : QuicConn} (h : BlocksOk qc) (bundle : Octets) (ordinal : Nat)
    (block : Option Memory) : BlocksOk (qc.doSend bundle ordinal block) := by
  rcases doSend_cases qc bundle ordinal block with h_same | ⟨m, framed, h_new⟩
  · rw [h_same]
    exact h.of_eq rfl rfl rfl
  · have h_ack := h.wf.fresh _ h.ackBuf
    rw [h_new]
    refine ⟨h.wf.alloc _, h.ackBuf.alloc h.wf _, ?_, ?_, ?_⟩
    · intro b h_b
      obtain rfl := Option.some.inj h_b
      exact ⟨Heap.live_alloc_next _ _, by omega⟩
    · intro b h_b
      exact ⟨(h.sigTx b h_b).1.alloc h.wf _, (h.sigTx b h_b).2⟩
    · intro b h_b h_sig
      obtain rfl := Option.some.inj h_b
      have h_lt := h.wf.fresh _ (h.sigTx _ h_sig).1
      omega

/-- `doSendEnd` goes on when the bundle has been handed over, or never will be. -/
theorem doSendEnd_some {qc qc' : QuicConn} (h : qc.doSendEnd = some qc') :
    ∃ framed, qc.sendData = some framed ∧ (qc.sendDone = true ∨ qc.failed = true) ∧
      qc' = { qc with sendData := none, heap := qc.heap.free framed } := by
  unfold QuicConn.doSendEnd at h
  split at h
  · cases h
  · next framed h_framed =>
    obtain ⟨h_done, h_eq⟩ := Option.ite_none_right_eq_some.mp h
    exact ⟨framed, h_framed, Bool.or_eq_true_iff.mp h_done, (Option.some.inj h_eq).symm⟩

theorem BlocksOk.doSendEnd {qc qc' : QuicConn} (h : BlocksOk qc)
    (h_end : qc.doSendEnd = some qc') : BlocksOk qc' := by
  obtain ⟨framed, h_framed, -, rfl⟩ := doSendEnd_some h_end
  refine ⟨h.wf.free _, h.ackBuf.free (Ne.symm (h.sendData framed h_framed).2), ?_, ?_, ?_⟩
  · intro b h_b
    cases h_b
  · intro b h_b
    obtain ⟨h_live, h_b_ne⟩ := h.sigTx b h_b
    refine ⟨h_live.free ?_, h_b_ne⟩
    rintro rfl
    exact h.apart b h_framed h_b
  · intro b h_b
    cases h_b

/-- The signalling buffer has room, or there is a new one and the old one is released. -/
theorem sigGrow_some {qc qc' : QuicConn} {len : Nat} {block : Option Memory}
    (h : qc.sigGrow len block = some qc') :
    qc' = qc ∨ qc.sigTxCap < qc.sigTxLen + len ∧ block.isNone = false ∧ ∃ m cap, qc' = { qc with
      heap := match qc.sigTx with
        | none => qc.heap.alloc m
        | some sigTx => (qc.heap.alloc m).free sigTx
      sigTx := some qc.heap.next
      sigTxCap := cap } := by
  unfold QuicConn.sigGrow at h
  split at h
  · next h_more =>
    obtain ⟨m, rfl, h_eq⟩ := Option.map_eq_some_iff.mp h
    exact .inr ⟨h_more, rfl, _, _, h_eq.symm⟩
  · exact .inl (Option.some.inj h).symm

theorem BlocksOk.sigGrow {qc qc' : QuicConn} (h : BlocksOk qc) {len : Nat} {block : Option Memory}
    (h_grow : qc.sigGrow len block = some qc') : BlocksOk qc' := by
  rcases sigGrow_some h_grow with rfl | ⟨-, -, m, cap, rfl⟩
  · exact h
  · have h_ack := h.wf.fresh _ h.ackBuf
    have h_live := Heap.live_alloc_next qc.heap m
    have h_apart : ∀ b, qc.sendData = some b → some qc.heap.next ≠ some b := by
      intro b h_b h_new
      obtain rfl := Option.some.inj h_new
      have h_lt := h.wf.fresh _ (h.sendData _ h_b).1
      omega
    cases h_sig : qc.sigTx with
    | none =>
      refine ⟨h.wf.alloc _, h.ackBuf.alloc h.wf _, ?_, ?_, h_apart⟩
      · intro b h_b
        exact ⟨(h.sendData b h_b).1.alloc h.wf _, (h.sendData b h_b).2⟩
      · intro b h_b
        obtain rfl := Option.some.inj h_b
        exact ⟨h_live, by omega⟩
    | some old =>
      obtain ⟨h_old, h_old_ne⟩ := h.sigTx old h_sig
      have h_old_lt := h.wf.fresh _ h_old
      refine ⟨(h.wf.alloc _).free _, (h.ackBuf.alloc h.wf _).free (Ne.symm h_old_ne), ?_, ?_,
        h_apart⟩
      · intro b h_b
        refine ⟨((h.sendData b h_b).1.alloc h.wf _).free ?_, (h.sendData b h_b).2⟩
        rintro rfl
        exact h.apart b h_b h_sig
      · intro b h_b
        obtain rfl := Option.some.inj h_b
        exact ⟨h_live.free (by omega), by omega⟩

theorem BlocksOk.write {qc : QuicConn} (h : BlocksOk qc) (block off : Nat) (data : Octets) :
    BlocksOk { qc with heap := qc.heap.write block off data } := by
  refine ⟨h.wf.write _ _ _, (Heap.live_write _ _ _ _ _).mpr h.ackBuf, ?_, ?_, h.apart⟩
  · intro b h_b
    exact ⟨(Heap.live_write _ _ _ _ _).mpr (h.sendData b h_b).1, (h.sendData b h_b).2⟩
  · intro b h_b
    exact ⟨(Heap.live_write _ _ _ _ _).mpr (h.sigTx b h_b).1, (h.sigTx b h_b).2⟩

/-- `sigQueue` appends to a buffer that has room, or does nothing. -/
theorem sigQueue_cases (qc : QuicConn) (bytes : Octets) (block : Option Memory) :
    qc.sigQueue bytes block = qc ∨
    ∃ qc₁, qc.sigGrow bytes.length block = some qc₁ ∧ (qc.sigQueue bytes block = qc₁ ∨
      ∃ sigTx, qc₁.sigTx = some sigTx ∧ qc.sigQueue bytes block = { qc₁ with
        heap := qc₁.heap.write sigTx qc₁.sigTxLen bytes
        sigTxLen := qc₁.sigTxLen + bytes.length }) := by
  unfold QuicConn.sigQueue
  cases h_grow : qc.sigGrow bytes.length block with
  | none => exact .inl rfl
  | some qc₁ =>
    refine .inr ⟨qc₁, rfl, ?_⟩
    dsimp only
    cases h_sig : qc₁.sigTx with
    | none => exact .inl rfl
    | some sigTx => exact .inr ⟨sigTx, rfl, rfl⟩

theorem BlocksOk.sigQueue {qc : QuicConn} (h : BlocksOk qc) (bytes : Octets)
    (block : Option Memory) : BlocksOk (qc.sigQueue bytes block) := by
  rcases sigQueue_cases qc bytes block with h_same | ⟨qc₁, h_grow, h_same | ⟨sigTx, -, h_eq⟩⟩
  · rw [h_same]
    exact h
  · rw [h_same]
    exact h.sigGrow h_grow
  · rw [h_eq]
    exact ((h.sigGrow h_grow).write sigTx qc₁.sigTxLen bytes).of_eq rfl rfl rfl

/-- What `prepareAck` does: it writes to the acknowledgement buffer, or nothing at all. -/
theorem prepareAck_cases (qc : QuicConn) : qc.ackDue = false ∧ qc.prepareAck = qc ∨
    qc.ackDue = true ∧ ∃ bytes, quicMsgEncodeXferAck sizeofAckBuf qc.xferAck = some bytes ∧
      qc.prepareAck = { qc with
        heap := qc.heap.write ackBuf 0 bytes
        ackBufLen := bytes.length
        ackBufOff := 0
        rx := { qc.rx with ackPending := false } } := by
  unfold QuicConn.prepareAck
  cases h_due : qc.ackDue with
  | false => exact .inl ⟨rfl, rfl⟩
  | true =>
    -- It fits the buffer.
    rw [quicMsgEncodeXferAck_eq qc.xferAck (show 20 ≤ sizeofAckBuf by decide)]
    exact .inr ⟨rfl, _, rfl, rfl⟩

theorem BlocksOk.prepareAck {qc : QuicConn} (h : BlocksOk qc) : BlocksOk qc.prepareAck := by
  rcases prepareAck_cases qc with ⟨-, h_same⟩ | ⟨-, bytes, -, h_write⟩
  · rw [h_same]
    exact h
  · rw [h_write]
    exact (h.write Quic.ackBuf 0 bytes).of_eq rfl rfl rfl

/-- A round of `writeConn` hands octets over and goes on behind them. -/
theorem writeStream_some {qc qc' : QuicConn} {n : Nat} (h : qc.writeStream n = some qc') :
    ∃ p, qc.pick = some p ∧ n ≤ p.len - p.off ∧ ∃ sigTxOff sendOff ackBufOff dataTxOff,
      qc' = { qc with
        inflight := qc.inflight ++ QuicConn.lend qc.heap p.streamId p.block p.off n
        sigTxOff := sigTxOff
        sendOff := sendOff
        ackBufOff := ackBufOff
        dataTxOff := dataTxOff } := by
  unfold QuicConn.writeStream at h
  split at h
  · cases h
  · next p h_pick =>
    obtain ⟨h_n, h_eq⟩ := Option.ite_none_right_eq_some.mp h
    refine ⟨p, h_pick, h_n, ?_⟩
    dsimp only at h_eq
    split at h_eq
    all_goals exact ⟨_, _, _, _, (Option.some.inj h_eq).symm⟩

theorem ackedOffsetCb_cases (qc : QuicConn) (streamId : Int) (n : Nat) :
    ∃ dataAckOff ackBufLen, qc.ackedOffsetCb streamId n = { qc with
      inflight := QuicConn.dropAcked streamId n qc.inflight
      dataAckOff := dataAckOff
      ackBufLen := ackBufLen } ∧
      (ackBufLen = qc.ackBufLen ∨ ackBufLen = 0 ∧ qc.ackBufLen ≤ qc.ackBufOff) := by
  unfold QuicConn.ackedOffsetCb
  dsimp only
  split
  · split
    · next h_free => exact ⟨_, _, rfl, .inr ⟨rfl, h_free.1⟩⟩
    · exact ⟨_, qc.ackBufLen, rfl, .inl rfl⟩
  · exact ⟨qc.dataAckOff, qc.ackBufLen, rfl, .inl rfl⟩

theorem BlocksOk.step {qc qc' : QuicConn} {a : ConnAct} (h : BlocksOk qc)
    (h_step : qc.step a = some qc') : BlocksOk qc' := by
  cases a with
  | negotiate segmentMru =>
    obtain ⟨-, h_eq⟩ := Option.ite_none_left_eq_some.mp h_step
    obtain rfl := Option.some.inj h_eq
    exact h.of_eq rfl rfl rfl
  | doSend bundle ordinal block =>
    obtain ⟨-, h_eq⟩ := Option.ite_none_right_eq_some.mp h_step
    obtain rfl := Option.some.inj h_eq
    exact h.doSend bundle ordinal block
  | wakeWaiters =>
    obtain rfl := Option.some.inj h_step
    exact h.of_eq rfl rfl rfl
  | doSendEnd => exact h.doSendEnd h_step
  | sigQueue bytes block =>
    obtain ⟨-, h_eq⟩ := Option.ite_none_left_eq_some.mp h_step
    obtain rfl := Option.some.inj h_eq
    exact h.sigQueue bytes block
  | recvData env streamId data =>
    obtain ⟨-, h_eq⟩ := Option.ite_none_left_eq_some.mp h_step
    obtain rfl := Option.some.inj h_eq
    exact h.of_eq rfl rfl rfl
  | prepareAck =>
    obtain ⟨-, h_eq⟩ := Option.ite_none_left_eq_some.mp h_step
    obtain rfl := Option.some.inj h_eq
    exact h.prepareAck
  | writeStream n =>
    obtain ⟨-, h_write⟩ := Option.ite_none_left_eq_some.mp h_step
    obtain ⟨p, -, -, _, _, _, _, rfl⟩ := writeStream_some h_write
    exact h.of_eq rfl rfl rfl
  | acked streamId n =>
    obtain ⟨-, h_eq⟩ := Option.ite_none_left_eq_some.mp h_step
    obtain rfl := Option.some.inj h_eq
    obtain ⟨_, _, h_acked, -⟩ := ackedOffsetCb_cases qc streamId n
    exact h.of_eq (by rw [h_acked]) (by rw [h_acked]) (by rw [h_acked])
  | fail =>
    obtain rfl := Option.some.inj h_step
    exact h.of_eq rfl rfl rfl

/-! ## What is in flight -/

structure BuffersOk (qc : QuicConn) : Prop where
  wf : qc.heap.Wf
  ackBuf : qc.heap.Live ackBuf
  sendData : ∀ b, qc.sendData = some b → qc.heap.Live b ∧ b ≠ Quic.ackBuf
  sigTx : ∀ b, qc.sigTx = some b → qc.heap.Live b ∧ b ≠ Quic.ackBuf
  apart : ∀ b, qc.sendData = some b → qc.sigTx ≠ some b
  /-- What is lent out of the signalling buffer is stream 0, in front of where it is appended. -/
  signalling : ∀ r ∈ qc.inflight, qc.sigTx = some r.ref.block →
    r.stream = quicclSigStream ∧ r.ref.pos < qc.sigTxLen
  intact : qc.Intact

theorem BuffersOk.blocks {qc : QuicConn} (h : BuffersOk qc) : BlocksOk qc :=
  ⟨h.wf, h.ackBuf, h.sendData, h.sigTx, h.apart⟩

theorem BlocksOk.buffersOk {qc : QuicConn} (h : BlocksOk qc)
    (h_sig : ∀ r ∈ qc.inflight, qc.sigTx = some r.ref.block →
      r.stream = quicclSigStream ∧ r.ref.pos < qc.sigTxLen)
    (h_intact : qc.Intact) : BuffersOk qc :=
  ⟨h.wf, h.ackBuf, h.sendData, h.sigTx, h.apart, h_sig, h_intact⟩

theorem BuffersOk.init (dataStreams : Fin 4 → Int) : BuffersOk (QuicConn.init dataStreams) :=
  (BlocksOk.init dataStreams).buffersOk (fun r h => by cases h) fun r h => by cases h

/-- The pointers QUIC holds are into blocks that were there before. -/
theorem BuffersOk.block_lt {qc : QuicConn} (h : BuffersOk qc) {r : Inflight}
    (h_r : r ∈ qc.inflight) : r.ref.block < qc.heap.next :=
  h.wf.fresh _ (h.intact r h_r).live

theorem BuffersOk.doSend {qc : QuicConn} (h : BuffersOk qc) (bundle : Octets) (ordinal : Nat)
    (block : Option Memory) : BuffersOk (qc.doSend bundle ordinal block) := by
  have h_blocks := h.blocks.doSend bundle ordinal block
  rcases doSend_cases qc bundle ordinal block with h_same | ⟨m, framed, h_new⟩
  · rw [h_same] at h_blocks ⊢
    exact h_blocks.buffersOk h.signalling h.intact
  · rw [h_new] at h_blocks ⊢
    exact h_blocks.buffersOk h.signalling fun r h_r => (h.intact r h_r).alloc h.wf _

theorem BuffersOk.doSendEnd {qc qc' : QuicConn} (h : BuffersOk qc)
    (h_covered : ∀ r ∈ qc.inflight, qc.sendData ≠ some r.ref.block)
    (h_end : qc.doSendEnd = some qc') : BuffersOk qc' := by
  have h_blocks := h.blocks.doSendEnd h_end
  obtain ⟨framed, h_framed, -, rfl⟩ := doSendEnd_some h_end
  refine h_blocks.buffersOk h.signalling fun r h_r => (h.intact r h_r).free ?_
  rintro rfl
  exact h_covered r h_r h_framed

/-- The signalling buffer has room, or the new one has. -/
theorem BuffersOk.sigGrow {qc qc' : QuicConn} (h : BuffersOk qc) {len : Nat}
    {block : Option Memory}
    (h_covered : qc.sigTxLen + len ≤ qc.sigTxCap ∨ block.isNone = true ∨
      ∀ r ∈ qc.inflight, r.stream ≠ quicclSigStream)
    (h_grow : qc.sigGrow len block = some qc') : BuffersOk qc' := by
  have h_blocks := h.blocks.sigGrow h_grow
  rcases sigGrow_some h_grow with rfl | ⟨h_more, h_mem, m, cap, rfl⟩
  · exact h
  · -- The old buffer goes, so nothing of it may be in flight.
    have h_none : ∀ r ∈ qc.inflight, qc.sigTx ≠ some r.ref.block := by
      intro r h_r h_sig
      rcases h_covered with h_fits | h_no_mem | h_acked
      · omega
      · rw [h_mem] at h_no_mem
        cases h_no_mem
      · exact h_acked r h_r (h.signalling r h_r h_sig).1
    refine h_blocks.buffersOk ?_ ?_
    · intro r h_r h_new
      have h_lt := h.block_lt h_r
      have h_next : qc.heap.next = r.ref.block := Option.some.inj h_new
      omega
    · intro r h_r
      have h_alloc := (h.intact r h_r).alloc h.wf m
      cases h_sig : qc.sigTx with
      | none => exact h_alloc
      | some old =>
        apply h_alloc.free
        rintro rfl
        exact h_none r h_r h_sig

theorem BuffersOk.sigQueue {qc : QuicConn} (h : BuffersOk qc) {bytes : Octets}
    {block : Option Memory} (h_covered : qc.Covered (.sigQueue bytes block)) :
    BuffersOk (qc.sigQueue bytes block) := by
  have h_blocks := h.blocks.sigQueue bytes block
  rcases sigQueue_cases qc bytes block with h_same | ⟨qc₁, h_grow, h_same | ⟨sigTx, h_sig, h_eq⟩⟩
  · rw [h_same]
    exact h
  · rw [h_same]
    exact h.sigGrow h_covered h_grow
  · have h₁ := h.sigGrow h_covered h_grow
    rw [h_eq] at h_blocks ⊢
    refine h_blocks.buffersOk ?_ ?_
    · intro r h_r h_block
      obtain ⟨h_stream, h_pos⟩ := h₁.signalling r h_r h_block
      refine ⟨h_stream, ?_⟩
      show r.ref.pos < qc₁.sigTxLen + bytes.length
      omega
    · -- The bytes go behind everything that has been handed over.
      intro r h_r
      apply (h₁.intact r h_r).write
      intro h_block
      left
      exact (h₁.signalling r h_r (by rw [h_sig, h_block])).2

theorem BuffersOk.prepareAck {qc : QuicConn} (h : BuffersOk qc)
    (h_covered : qc.ackDue = false ∨ ∀ r ∈ qc.inflight, r.ref.block ≠ Quic.ackBuf) :
    BuffersOk qc.prepareAck := by
  have h_blocks := h.blocks.prepareAck
  rcases prepareAck_cases qc with ⟨-, h_same⟩ | ⟨h_due, bytes, -, h_write⟩
  · rw [h_same]
    exact h
  · have h_none : ∀ r ∈ qc.inflight, r.ref.block ≠ Quic.ackBuf := by
      rcases h_covered with h_not | h_acked
      · rw [h_due] at h_not
        cases h_not
      · exact h_acked
    rw [h_write] at h_blocks ⊢
    refine h_blocks.buffersOk h.signalling fun r h_r => (h.intact r h_r).write ?_
    intro h_block
    exact absurd h_block (h_none r h_r)

theorem mem_lend {heap : Heap} {streamId : Int} {block off n : Nat} {r : Inflight}
    (h : r ∈ QuicConn.lend heap streamId block off n) : ∃ i < n, r =
      ⟨streamId, ⟨block, off + i, heap.memory block (off + i)⟩⟩ := by
  obtain ⟨i, h_i, rfl⟩ := List.mem_map.mp h
  exact ⟨i, List.mem_range.mp h_i, rfl⟩

/-- Where the octets of each channel come from. -/
structure PickOk (qc : QuicConn) (p : Pick) : Prop where
  live : qc.heap.Live p.block
  signalling : qc.sigTx = some p.block → p.streamId = quicclSigStream ∧ p.len = qc.sigTxLen

theorem BuffersOk.pick {qc : QuicConn} (h : BuffersOk qc) {p : Pick} (h_p : qc.pick = some p) :
    PickOk qc p := by
  unfold QuicConn.pick at h_p
  rcases Option.or_eq_some_iff.mp h_p with h_first | ⟨-, h_ack⟩
  · rcases Option.or_eq_some_iff.mp h_first with h_sig | ⟨-, h_data⟩
    · obtain ⟨sigTx, h_tx, h_if⟩ := Option.bind_eq_some_iff.mp h_sig
      split at h_if
      · obtain rfl := Option.some.inj h_if
        exact ⟨(h.sigTx sigTx h_tx).1, fun _ => ⟨rfl, rfl⟩⟩
      · cases h_if
    · obtain ⟨sendData, h_send, h_if⟩ := Option.bind_eq_some_iff.mp h_data
      split at h_if
      · obtain rfl := Option.some.inj h_if
        exact ⟨(h.sendData sendData h_send).1, fun h_tx => absurd h_tx (h.apart _ h_send)⟩
      · cases h_if
  · unfold QuicConn.pickAck at h_ack
    split at h_ack
    · obtain rfl := Option.some.inj h_ack
      exact ⟨h.ackBuf, fun h_tx => absurd rfl (h.sigTx _ h_tx).2⟩
    · cases h_ack

/-- Pointers into a live block are good, and those into the signalling buffer are where they
    belong. -/
theorem BuffersOk.lent {qc : QuicConn} (h : BuffersOk qc) {p : Pick} (h_p : PickOk qc p) {n : Nat}
    (h_n : n ≤ p.len - p.off) :
    BuffersOk { qc with
      inflight := qc.inflight ++ QuicConn.lend qc.heap p.streamId p.block p.off n } := by
  refine ⟨h.wf, h.ackBuf, h.sendData, h.sigTx, h.apart, ?_, ?_⟩
  · intro r h_r h_tx
    rcases List.mem_append.mp h_r with h_old | h_new
    · exact h.signalling r h_old h_tx
    · obtain ⟨i, h_i, rfl⟩ := mem_lend h_new
      obtain ⟨h_stream, h_len⟩ := h_p.signalling h_tx
      refine ⟨h_stream, ?_⟩
      show p.off + i < qc.sigTxLen
      omega
  · intro r h_r
    rcases List.mem_append.mp h_r with h_old | h_new
    · exact h.intact r h_old
    · obtain ⟨i, -, rfl⟩ := mem_lend h_new
      exact Heap.holds_memory h_p.live (p.off + i)

theorem BuffersOk.writeStream {qc qc' : QuicConn} (h : BuffersOk qc) {n : Nat}
    (h_write : qc.writeStream n = some qc') : BuffersOk qc' := by
  obtain ⟨p, h_pick, h_n, _, _, _, _, rfl⟩ := writeStream_some h_write
  -- The offsets of the channels matter to nobody else.
  have h_lent := h.lent (h.pick h_pick) h_n
  exact BlocksOk.buffersOk (h_lent.blocks.of_eq rfl rfl rfl) h_lent.signalling h_lent.intact

theorem mem_of_mem_dropAcked {streamId : Int} {n : Nat} {inflight : List Inflight} {r : Inflight}
    (h : r ∈ QuicConn.dropAcked streamId n inflight) : r ∈ inflight := by
  induction inflight generalizing n with
  | nil => cases n <;> cases h
  | cons x inflight ih =>
    cases n with
    | zero => exact h
    | succ n =>
      unfold QuicConn.dropAcked at h
      split at h
      · exact List.mem_cons_of_mem x (ih h)
      · rcases List.mem_cons.mp h with rfl | h
        · exact List.mem_cons_self
        · exact List.mem_cons_of_mem x (ih h)

theorem BuffersOk.ackedOffsetCb {qc : QuicConn} (h : BuffersOk qc) (streamId : Int) (n : Nat) :
    BuffersOk (qc.ackedOffsetCb streamId n) := by
  obtain ⟨_, _, h_acked, -⟩ := ackedOffsetCb_cases qc streamId n
  rw [h_acked]
  exact BlocksOk.buffersOk (h.blocks.of_eq rfl rfl rfl)
    (fun r h_r => h.signalling r (mem_of_mem_dropAcked h_r))
    fun r h_r => h.intact r (mem_of_mem_dropAcked h_r)

/-- A covered step keeps the buffers as they have to be. -/
theorem BuffersOk.step {qc qc' : QuicConn} {a : ConnAct} (h : BuffersOk qc)
    (h_covered : qc.Covered a) (h_step : qc.step a = some qc') : BuffersOk qc' := by
  have h_blocks := h.blocks.step h_step
  cases a with
  | negotiate segmentMru =>
    obtain ⟨-, h_eq⟩ := Option.ite_none_left_eq_some.mp h_step
    obtain rfl := Option.some.inj h_eq
    exact h_blocks.buffersOk h.signalling h.intact
  | doSend bundle ordinal block =>
    obtain ⟨-, h_eq⟩ := Option.ite_none_right_eq_some.mp h_step
    obtain rfl := Option.some.inj h_eq
    exact h.doSend bundle ordinal block
  | wakeWaiters =>
    obtain rfl := Option.some.inj h_step
    exact h_blocks.buffersOk h.signalling h.intact
  | doSendEnd => exact h.doSendEnd h_covered h_step
  | sigQueue bytes block =>
    obtain ⟨-, h_eq⟩ := Option.ite_none_left_eq_some.mp h_step
    obtain rfl := Option.some.inj h_eq
    exact h.sigQueue h_covered
  | recvData env streamId data =>
    obtain ⟨-, h_eq⟩ := Option.ite_none_left_eq_some.mp h_step
    obtain rfl := Option.some.inj h_eq
    exact h_blocks.buffersOk h.signalling h.intact
  | prepareAck =>
    obtain ⟨-, h_eq⟩ := Option.ite_none_left_eq_some.mp h_step
    obtain rfl := Option.some.inj h_eq
    exact h.prepareAck h_covered
  | writeStream n =>
    obtain ⟨-, h_write⟩ := Option.ite_none_left_eq_some.mp h_step
    exact h.writeStream h_write
  | acked streamId n =>
    obtain ⟨-, h_eq⟩ := Option.ite_none_left_eq_some.mp h_step
    obtain rfl := Option.some.inj h_eq
    exact h.ackedOffsetCb streamId n
  | fail =>
    obtain rfl := Option.some.inj h_step
    exact h_blocks.buffersOk h.signalling h.intact

end IonContrib.Quic
