/-
  IonContrib.Tcpv4.Reject

  What `handleXferSegment` does to a conforming sender.

  The receiver thread is run here on its own: `handleXferSegment` is the whole
  function, put together from the pieces of `Rx`, with memory there, BP taking
  bundles and the socket taking octets, so that only the messages can fail the
  session.  The delivery thread finishes a hand-off at any time (`delivery`)
  and at the latest when the receiver waits for it; the session starts ending
  at any time (`ending`).

  A conforming sender may abandon a transfer that has been refused and go on
  with the next START.  The receiver forgets a transfer only at its END, so it
  answers that START with MSG_REJECT.  Nothing else goes wrong but a list of
  extension items longer than `tcpv4MaxExtLen` (`run_wellServed_iff`).
-/
import IonContrib.Tcpv4.Rx

namespace IonContrib.Tcpv4

/-- The receiving end as `handleXferSegment` sees it, with what BP has been given and what
    has been sent. -/
structure Receiver where
  ending : Bool
  rx : RxSide
  dlv : DlvSide
  delivered : List Octets
  sent : List Ctrl
  deriving DecidableEq, Repr

namespace Receiver

def init : Receiver := ⟨false, RxSide.init, DlvSide.init, [], []⟩

def say (r : Receiver) (m : Ctrl) : Receiver := { r with sent := r.sent ++ [m] }

/-- The delivery thread finishes with what was handed over. -/
def awaitDelivery (r : Receiver) : Receiver :=
  if r.dlv.dlvPending then
    { r with
      dlv := { r.dlv with dlvPending := false }
      delivered := r.delivered ++ [r.dlv.bundle]
      sent := r.sent ++ [.ack r.dlv.ack] }
  else r

/-- The END branch, and the acknowledgement of every other segment. -/
def finishSegment (r : Receiver) (seg : XferSegment) : Receiver :=
  match segmentDone r.rx seg with
  | (rx, .next) => { r with rx := rx }
  | (rx, .ack m) => ({ r with rx := rx }.awaitDelivery).say (.ack m)
  | (rx, .handOver) =>
    let r := { r with rx := rx }.awaitDelivery
    { r with
      rx := (handOverTransfer r.rx r.dlv seg).1
      dlv := (handOverTransfer r.rx r.dlv seg).2 }

/-- The payload, drained or stored. -/
def takePayload (r : Receiver) (seg : XferSegment) (s : Octets) : Recv (Receiver × Bool) :=
  if r.rx.rxRefused then
    (tcpv4ConnRecv seg.dataLength s).bind fun _ s => .got (r.finishSegment seg, true) s
  else
    match rxReserve r.rx (r.rx.rxLen + seg.dataLength) true with
    | none => .got (r.say termExhausted, false) s
    | some rx =>
      (tcpv4ConnRecv seg.dataLength s).bind fun data s =>
        .got ({ r with rx := segmentStore rx data }.finishSegment seg, true) s

/-- `handleXferSegment`, reading from `s`; `false` stands for -1. -/
def handleXferSegment (cfg : RxCfg) (r : Receiver) (s : Octets) : Recv (Receiver × Bool) :=
  (recvXferSegmentHdr segHdrCap s).bind fun seg s =>
    match segmentAdmit cfg r.ending r.rx seg true with
    | (rx, .fail m) => .got ({ r with rx := rx }.say m, false) s
    | (rx, .refuse reason) =>
      (({ r with rx := rx }.awaitDelivery).say (.refuse ⟨reason, seg.transferId⟩)).takePayload
        seg s
    | (rx, .accept) => { r with rx := rx }.takePayload seg s

/-- The bundles BP has once the delivery thread is done. -/
def taken (r : Receiver) : List Octets := r.awaitDelivery.delivered

def Unrejected (r : Receiver) : Prop := ∀ m, .msgReject m ∉ r.sent

/-! ## What a segment that is let in does -/

@[simp] theorem awaitDelivery_rx (r : Receiver) : r.awaitDelivery.rx = r.rx := by
  unfold awaitDelivery
  split <;> rfl

@[simp] theorem awaitDelivery_idem (r : Receiver) :
    r.awaitDelivery.dlv.dlvPending = false := by
  by_cases h : r.dlv.dlvPending = true
  · simp [awaitDelivery, h]
  · simp [awaitDelivery, h]

@[simp] theorem taken_awaitDelivery (r : Receiver) : r.awaitDelivery.taken = r.taken := by
  rw [taken, awaitDelivery, awaitDelivery_idem, if_neg Bool.false_ne_true, taken]

@[simp] theorem unrejected_awaitDelivery (r : Receiver) :
    r.awaitDelivery.Unrejected ↔ r.Unrejected := by
  unfold awaitDelivery Unrejected
  by_cases h : r.dlv.dlvPending = true
  · simp [h]
  · simp [h]

@[simp] theorem say_rx (r : Receiver) (m : Ctrl) : (r.say m).rx = r.rx := rfl

@[simp] theorem taken_say (r : Receiver) (m : Ctrl) : (r.say m).taken = r.taken := by
  unfold taken awaitDelivery say
  by_cases h : r.dlv.dlvPending = true
  · simp [h]
  · simp [h]

theorem unrejected_say {r : Receiver} {m : Ctrl} (h : r.Unrejected)
    (hm : ∀ n, m ≠ .msgReject n) : (r.say m).Unrejected := by
  intro n h_mem
  rcases List.mem_append.mp h_mem with h_old | h_new
  · exact h n h_old
  · exact hm n (List.mem_singleton.mp h_new).symm

@[simp] theorem taken_rx (r : Receiver) (rx : RxSide) : { r with rx := rx }.taken = r.taken := by
  unfold taken awaitDelivery
  by_cases h : r.dlv.dlvPending = true
  · simp [h]
  · simp [h]

/-- Handing a transfer over puts it after what BP has. -/
theorem taken_handOver (r : Receiver) (seg : XferSegment) :
    { r with
      rx := (handOverTransfer r.rx r.dlv seg).1
      dlv := (handOverTransfer r.rx r.dlv seg).2 }.taken =
      r.delivered ++ [r.rx.rxBundle.take r.rx.rxLen] := by
  simp [taken, awaitDelivery, handOverTransfer, DlvSide.bundle]

/-- From the state in which a segment has been let in, `r`, to the one in which it has been
    dealt with, `r'`: the reassembled octets are handed over at the END and kept before it,
    unless the transfer is refused. -/
structure Dealt (r r' : Receiver) (seg : XferSegment) (data : Octets) : Prop where
  active : r'.rx.rxActive = !seg.isEnd
  id : r'.rx.rxId = r.rx.rxId
  refused : r'.rx.rxRefused = r.rx.rxRefused
  room : r'.rx.rxLen ≤ r'.rx.rxBundle.length
  kept : seg.isEnd = false → r.rx.rxRefused = false →
    r'.rx.rxBundle.take r'.rx.rxLen = r.rx.rxBundle.take r.rx.rxLen ++ data
  taken : r'.taken = if seg.isEnd && !r.rx.rxRefused
    then r.taken ++ [r.rx.rxBundle.take r.rx.rxLen ++ data] else r.taken
  unrejected : r.Unrejected → r'.Unrejected

/-- The END branch for a refused transfer. -/
theorem finishSegment_refused {r : Receiver} {seg : XferSegment} (data : Octets)
    (h_active : r.rx.rxActive = true) (h_room : r.rx.rxLen ≤ r.rx.rxBundle.length)
    (h_ref : r.rx.rxRefused = true) : Dealt r (r.finishSegment seg) seg data := by
  obtain ⟨ending, ⟨buf, len, id, active, refused⟩, dlv, delivered, sent⟩ := r
  simp only at h_active h_room h_ref
  subst h_active h_ref
  have h_fin : (⟨ending, ⟨buf, len, id, true, true⟩, dlv, delivered, sent⟩ :
      Receiver).finishSegment seg =
      ⟨ending, ⟨buf, len, id, !seg.isEnd, true⟩, dlv, delivered, sent⟩ := by
    cases h_end : seg.isEnd with
    | true => simp [finishSegment, segmentDone, h_end]
    | false => simp [finishSegment, segmentDone, h_end]
  rw [h_fin]
  refine ⟨rfl, rfl, rfl, h_room, by simp, ?_, fun h => h⟩
  have h_rx := taken_rx ⟨ending, ⟨buf, len, id, true, true⟩, dlv, delivered, sent⟩
    ⟨buf, len, id, !seg.isEnd, true⟩
  simpa using h_rx

/-- ... and for one whose payload has been stored. -/
theorem finishSegment_stored {r : Receiver} {rx : RxSide} {seg : XferSegment} {data : Octets}
    (h_active : r.rx.rxActive = true) (h_ref : r.rx.rxRefused = false)
    (h_rx : rx.rxActive = r.rx.rxActive ∧ rx.rxId = r.rx.rxId ∧ rx.rxRefused = r.rx.rxRefused)
    (h_room : rx.rxLen ≤ rx.rxBundle.length)
    (h_octets : rx.rxBundle.take rx.rxLen = r.rx.rxBundle.take r.rx.rxLen ++ data) :
    Dealt r ({ r with rx := rx }.finishSegment seg) seg data := by
  obtain ⟨h_act, h_id, h_ref'⟩ := h_rx
  rw [h_ref] at h_ref'
  cases h_end : seg.isEnd with
  | true =>
    have h_done : segmentDone rx seg = ({ rx with rxActive := false }, .handOver) := by
      simp [segmentDone, h_end, h_ref']
    have h_before := taken_rx r { rx with rxActive := false }
    simp only [finishSegment, h_done]
    refine ⟨by simp [handOverTransfer, h_end], by simpa [handOverTransfer] using h_id,
      by simp [handOverTransfer, h_ref, h_ref'], Nat.zero_le _, by simp [h_end], ?_, ?_⟩
    · -- The delivery thread is free by now, so the swap puts this bundle after the others.
      rw [taken_handOver, awaitDelivery_rx, h_octets]
      rw [Receiver.taken] at h_before
      simp [h_before, h_end, h_ref]
    · intro h
      exact (unrejected_awaitDelivery { r with rx := { rx with rxActive := false } }).mpr h
  | false =>
    have h_done : segmentDone rx seg = (rx, .ack ⟨seg.flags, seg.transferId, rx.rxLen⟩) := by
      simp [segmentDone, h_end, h_ref']
    simp only [finishSegment, h_done]
    refine ⟨by simp [h_end, h_act, h_active], by simpa using h_id, by simp [h_ref, h_ref'],
      by simpa using h_room, fun _ _ => by simpa using h_octets, by simp [h_end], ?_⟩
    intro h
    exact unrejected_say ((unrejected_awaitDelivery _).mpr h) (by simp)

/-- A segment that is let in is read to its end and dealt with. -/
theorem takePayload_spec {r : Receiver} {seg : XferSegment} {data : Octets}
    (h_active : r.rx.rxActive = true) (h_room : r.rx.rxLen ≤ r.rx.rxBundle.length)
    (h_len : data.length = seg.dataLength) :
    ∃ r', r.takePayload seg data = .got (r', true) [] ∧ Dealt r r' seg data := by
  have h_recv : tcpv4ConnRecv seg.dataLength data = .got data [] := by
    have h_take := Recv.take_append [] h_len
    rwa [List.append_nil] at h_take
  unfold takePayload
  by_cases h_ref : r.rx.rxRefused = true
  · rw [if_pos h_ref, h_recv, Recv.bind_got]
    exact ⟨_, rfl, finishSegment_refused data h_active h_room h_ref⟩
  · rw [if_neg h_ref]
    obtain ⟨rx, h_rx⟩ : ∃ rx, rxReserve r.rx (r.rx.rxLen + seg.dataLength) true = some rx := by
      unfold rxReserve
      split
      · exact ⟨_, rfl⟩
      · exact ⟨_, rfl⟩
    obtain ⟨h_len', h_id, h_act, h_ref', h_take, h_want, -⟩ := rxReserve_spec h_room h_rx
    rw [h_rx, h_recv]
    obtain ⟨h_octets, h_room'⟩ := @segmentStore_spec rx data
      (by rw [h_len', h_len]; exact h_want)
    rw [h_len', h_take] at h_octets
    exact ⟨_, rfl, finishSegment_stored h_active (by simpa using h_ref) ⟨h_act, h_id, h_ref'⟩
      h_room' h_octets⟩

end Receiver

/-! ## A sender and what it is owed -/

inductive RxEvent where
  | segment (seg : XferSegment) (data : Octets)
  | ending
  | delivery
  deriving DecidableEq, Repr

/-- A header its sender can encode at all. -/
structure XferSegment.OnWire (m : XferSegment) : Prop where
  id_lt : m.transferId < 2 ^ 64
  data_lt : m.dataLength < 2 ^ 64
  ext_lt : m.xferExt.length < 2 ^ 32
  ext_start : m.isStart = false → m.xferExt = []

/-- The receiver, and next to it what its sender knows: whether a transfer is under way,
    under which id, the octets of it sent so far, and the bundles that went out whole and
    were not refused. -/
structure Served where
  r : Receiver
  failed : Bool
  underWay : Bool
  id : Nat
  sofar : Octets
  owed : List Octets
  deriving DecidableEq, Repr

namespace Served

def init : Served := ⟨Receiver.init, false, false, 0, [], []⟩

/-- What the sender has on record after a segment the receiver has handled. -/
def record (w : Served) (r : Receiver) (seg : XferSegment) (data : Octets) : Served :=
  let sofar := if seg.isStart then data else w.sofar ++ data
  { w with
    r := r
    underWay := !seg.isEnd
    id := seg.transferId
    sofar := sofar
    owed := if seg.isEnd && !r.rx.rxRefused then w.owed ++ [sofar] else w.owed }

/-- Nothing is read any more once the session has failed. -/
def step (cfg : RxCfg) (w : Served) (e : RxEvent) : Served :=
  if w.failed then w
  else
    match e with
    | .ending => { w with r := { w.r with ending := true } }
    | .delivery => { w with r := w.r.awaitDelivery }
    | .segment seg data =>
      match w.r.handleXferSegment cfg (seg.body ++ data) with
      | .got (r, true) _ => w.record r seg data
      | .got (r, false) _ => { w with r := r, failed := true }
      | _ => { w with failed := true }

def run (cfg : RxCfg) (w : Served) (es : List RxEvent) : Served := es.foldl (step cfg) w

/-- A segment a conforming sender may send now: within the Segment MRU, and a START when
    no transfer is under way or the one under way has been refused, anything else in the
    transfer under way. -/
def MaySend (cfg : RxCfg) (w : Served) : RxEvent → Prop
  | .segment seg data =>
    seg.OnWire ∧ data.length = seg.dataLength ∧ seg.dataLength ≤ cfg.segmentMru ∧
      if seg.isStart then w.underWay = true → w.r.rx.rxRefused = true
      else w.underWay = true ∧ seg.transferId = w.id
  | _ => True

/-- A conforming sender, all along a run. -/
def Conforming (cfg : RxCfg) : Served → List RxEvent → Prop
  | _, [] => True
  | w, e :: es => (w.failed = false → MaySend cfg w e) ∧ Conforming cfg (step cfg w e) es

/-- Each START is the first segment or comes right after an END, with a list of extension
    items that the receiver has room for.  The flag says whether a transfer is under way. -/
def NoneAbandoned : Bool → List RxEvent → Prop
  | _, [] => True
  | underWay, .segment seg _ :: es =>
    (seg.isStart = true → underWay = false ∧ seg.xferExt.length ≤ tcpv4MaxExtLen) ∧
      NoneAbandoned (!seg.isEnd) es
  | underWay, .ending :: es => NoneAbandoned underWay es
  | underWay, .delivery :: es => NoneAbandoned underWay es

/-- The sender was served: no MSG_REJECT, the session goes on, and every transfer that was
    completed and not refused is with BP. -/
structure WellServed (w : Served) : Prop where
  unrejected : w.r.Unrejected
  alive : w.failed = false
  delivered : w.r.taken = w.owed

/-! ## While no transfer is abandoned -/

/-- The two ends agree on the transfer under way. -/
structure InStep (w : Served) : Prop where
  served : w.WellServed
  active : w.r.rx.rxActive = w.underWay
  id : w.underWay = true → w.r.rx.rxId = w.id
  room : w.r.rx.rxLen ≤ w.r.rx.rxBundle.length
  sofar : w.underWay = true → w.r.rx.rxRefused = false →
    w.r.rx.rxBundle.take w.r.rx.rxLen = w.sofar

theorem inStep_init : InStep init where
  served := ⟨fun m h_mem => absurd h_mem (by simp [init, Receiver.init]), rfl, rfl⟩
  active := rfl
  id := by simp [init]
  room := Nat.le_refl _
  sofar := by simp [init]

/-- **A segment the sender may send keeps the two ends in step**, if it is no START of a
    transfer while another is under way. -/
theorem step_segment {cfg : RxCfg} {w : Served} {seg : XferSegment} {data : Octets}
    (h : InStep w) (h_may : MaySend cfg w (.segment seg data))
    (h_start : seg.isStart = true →
      w.underWay = false ∧ seg.xferExt.length ≤ tcpv4MaxExtLen) :
    InStep (step cfg w (.segment seg data)) ∧
      (step cfg w (.segment seg data)).underWay = !seg.isEnd := by
  obtain ⟨h_wire, h_len, h_mru, h_turn⟩ := h_may
  have h_fits : seg.Fits := by
    refine ⟨h_wire.id_lt, h_wire.data_lt, ?_, h_wire.ext_start⟩
    cases h_s : seg.isStart with
    | true => exact (h_start h_s).2
    | false => simp [h_wire.ext_start h_s]
  obtain ⟨h_served, h_active, h_id, h_room, h_sofar⟩ := h
  obtain ⟨rx, verdict, h_adm⟩ : ∃ rx verdict,
      segmentAdmit cfg w.r.ending w.r.rx seg true = (rx, verdict) := ⟨_, _, rfl⟩
  rcases segmentAdmit_cases h_room h_adm with ⟨m, -, h_unfit⟩ | ⟨h_verdict, h_in⟩
  · -- None of the reasons to fail applies.
    exfalso
    rcases h_unfit with h_big | ⟨h_s, h_act⟩ | ⟨h_s, h_out⟩ | h_mem
    · omega
    · rw [h_active, (h_start h_s).1] at h_act
      exact absurd h_act (by decide)
    · rw [h_s] at h_turn
      obtain ⟨h_under, h_same⟩ := h_turn
      rcases h_out with h_out | h_out
      · rw [h_active, h_under] at h_out
        exact absurd h_out (by decide)
      · exact h_out (by rw [h_same, h_id h_under])
    · exact absurd h_mem (by decide)
  -- Refused now or not, the payload is taken next.
  obtain ⟨r₁, h_pay, h_rx₁, h_taken₁, h_unrej₁⟩ : ∃ r₁ : Receiver,
      w.r.handleXferSegment cfg (seg.body ++ data) = r₁.takePayload seg data ∧
        r₁.rx = rx ∧ r₁.taken = w.r.taken ∧ r₁.Unrejected := by
    rw [Receiver.handleXferSegment, recvXferSegmentHdr_body h_fits, Recv.bind_got, h_adm]
    rcases h_verdict with rfl | ⟨reason, rfl, -⟩
    · exact ⟨_, rfl, rfl, Receiver.taken_rx _ _, h_served.unrejected⟩
    · refine ⟨_, rfl, by simp, by simp, Receiver.unrejected_say ?_ (by simp)⟩
      exact (Receiver.unrejected_awaitDelivery _).mpr h_served.unrejected
  obtain ⟨r', h_got, h_dealt⟩ := @Receiver.takePayload_spec r₁ seg data
    (by rw [h_rx₁]; exact h_in.active) (by rw [h_rx₁]; exact h_in.room) h_len
  have h_step : step cfg w (.segment seg data) = w.record r' seg data := by
    simp only [step, h_served.alive, h_pay, h_got]
    rfl
  -- What has been reassembled is what the sender has sent of this transfer.
  have h_octets : r₁.rx.rxRefused = false → r₁.rx.rxBundle.take r₁.rx.rxLen ++ data =
      if seg.isStart then data else w.sofar ++ data := by
    intro h_ref
    rw [h_rx₁] at h_ref ⊢
    rw [h_in.kept]
    cases h_s : seg.isStart with
    | true => simp
    | false =>
      rw [h_s] at h_turn
      have h_old : w.r.rx.rxRefused = false := by
        cases h_was : w.r.rx.rxRefused with
        | false => rfl
        | true => rw [← h_ref, h_in.refused h_s h_was]
      simp [h_sofar h_turn.1 h_old]
  rw [h_step]
  refine ⟨⟨⟨h_dealt.unrejected h_unrej₁, h_served.alive, ?_⟩, h_dealt.active, ?_, h_dealt.room,
    ?_⟩, rfl⟩
  · simp only [record, h_dealt.taken, h_dealt.refused, h_taken₁, h_served.delivered]
    by_cases h_whole : (seg.isEnd && !r₁.rx.rxRefused) = true
    · have h_ref : r₁.rx.rxRefused = false := by
        simpa using (Bool.and_eq_true_iff.mp h_whole).2
      rw [if_pos h_whole, if_pos h_whole, h_octets h_ref]
    · rw [if_neg h_whole, if_neg h_whole]
  · intro _
    simp only [record, h_dealt.id, h_rx₁, h_in.id]
  · intro h_under h_ref
    simp only [record, Bool.not_eq_true'] at h_under h_ref ⊢
    rw [h_dealt.refused] at h_ref
    rw [h_dealt.kept h_under h_ref, h_octets h_ref]

/-- The START of a transfer while another is under way ends the session, and so does one
    with too many extension items. -/
theorem step_abandoned {cfg : RxCfg} {w : Served} {seg : XferSegment} {data : Octets}
    (h : InStep w) (h_may : MaySend cfg w (.segment seg data)) (h_start : seg.isStart = true)
    (h_bad : ¬ (w.underWay = false ∧ seg.xferExt.length ≤ tcpv4MaxExtLen)) :
    (step cfg w (.segment seg data)).failed = true := by
  obtain ⟨h_wire, -, h_mru, -⟩ := h_may
  simp only [step, h.served.alive, Bool.false_eq_true, if_false, Receiver.handleXferSegment]
  by_cases h_ext : seg.xferExt.length ≤ tcpv4MaxExtLen
  · have h_fits : seg.Fits := ⟨h_wire.id_lt, h_wire.data_lt, h_ext, h_wire.ext_start⟩
    have h_act : w.r.rx.rxActive = true := by
      rw [h.active]
      cases h_under : w.underWay with
      | true => rfl
      | false => exact absurd ⟨h_under, h_ext⟩ h_bad
    have h_adm : segmentAdmit cfg w.r.ending w.r.rx seg true =
        (w.r.rx, .fail (rejectUnexpected tmsgXferSegment)) := by
      rw [segmentAdmit, if_neg (by omega), if_pos h_start, if_pos h_act]
    rw [recvXferSegmentHdr_body h_fits, Recv.bind_got, h_adm]
  · rw [recvXferSegmentHdr_long h_start (by omega) h_wire.ext_lt]
    rfl

/-- A failed session stays as it is. -/
theorem run_failed {cfg : RxCfg} {w : Served} (es : List RxEvent) (h : w.failed = true) :
    run cfg w es = w := by
  induction es with
  | nil => rfl
  | cons e es ih =>
    have h_step : step cfg w e = w := by
      simp only [step, h, if_true]
    rw [run, List.foldl_cons, h_step]
    exact ih

/-- Nothing but a segment can put the two ends out of step. -/
theorem step_other (cfg : RxCfg) {w : Served} (h : InStep w) :
    (InStep (step cfg w .ending) ∧ (step cfg w .ending).underWay = w.underWay) ∧
      InStep (step cfg w .delivery) ∧ (step cfg w .delivery).underWay = w.underWay := by
  obtain ⟨⟨h_unrej, h_alive, h_del⟩, h_active, h_id, h_room, h_sofar⟩ := h
  have h_ending : step cfg w .ending = { w with r := { w.r with ending := true } } := by
    simp [step, h_alive]
  have h_delivery : step cfg w .delivery = { w with r := w.r.awaitDelivery } := by
    simp [step, h_alive]
  rw [h_ending, h_delivery]
  refine ⟨⟨⟨⟨h_unrej, h_alive, ?_⟩, h_active, h_id, h_room, h_sofar⟩, rfl⟩, ?_, rfl⟩
  · rw [← h_del, Receiver.taken, Receiver.taken, Receiver.awaitDelivery, Receiver.awaitDelivery]
    split <;> rfl
  · exact ⟨⟨by simpa using h_unrej, h_alive, by simpa using h_del⟩, by simpa using h_active,
      by simpa using h_id, by simpa using h_room, by simpa using h_sofar⟩

/-- **A conforming sender is served exactly if it never abandons a transfer**, from any
    state in which the two ends are in step. -/
theorem wellServed_iff_of_inStep {cfg : RxCfg} {w : Served} {es : List RxEvent}
    (h : InStep w) (h_conf : Conforming cfg w es) :
    (run cfg w es).WellServed ↔ NoneAbandoned w.underWay es := by
  induction es generalizing w with
  | nil => exact ⟨fun _ => trivial, fun _ => h.served⟩
  | cons e es ih =>
    obtain ⟨h_may, h_rest⟩ := h_conf
    have h_now := h_may h.served.alive
    rw [run, List.foldl_cons]
    cases e with
    | segment seg data =>
      by_cases h_start : seg.isStart = true →
          w.underWay = false ∧ seg.xferExt.length ≤ tcpv4MaxExtLen
      · obtain ⟨h_next, h_under⟩ := step_segment h h_now h_start
        rw [NoneAbandoned, ← h_under, and_iff_right h_start]
        exact ih h_next h_rest
      · obtain ⟨h_s, h_bad⟩ := Classical.not_imp.mp h_start
        have h_failed := step_abandoned h h_now h_s h_bad
        rw [NoneAbandoned]
        refine ⟨fun h_well => absurd h_well.alive ?_, fun h_none => absurd h_none.1 h_start⟩
        have h_stop : List.foldl (step cfg) _ es = _ := run_failed es h_failed
        rw [h_stop, h_failed]
        decide
    | ending =>
      obtain ⟨h_next, h_under⟩ := (step_other cfg h).1
      rw [NoneAbandoned, ← h_under]
      exact ih h_next h_rest
    | delivery =>
      obtain ⟨h_next, h_under⟩ := (step_other cfg h).2
      rw [NoneAbandoned, ← h_under]
      exact ih h_next h_rest

/-- **A conforming sender is served exactly if it never abandons a transfer.** -/
theorem run_wellServed_iff {cfg : RxCfg} {es : List RxEvent} (h_conf : Conforming cfg init es) :
    (run cfg init es).WellServed ↔ NoneAbandoned false es :=
  wellServed_iff_of_inStep inStep_init h_conf

/-! ## A transfer refused for a critical extension -/

def refusedCfg : RxCfg := ⟨64, 1024⟩

/-- START with a critical item of a private type. -/
def refusedStart : RxEvent := .segment ⟨tmsgFlagStart, 0, [1, 0x80, 0, 0, 0], 3⟩ [1, 2, 3]

def refusedEnd : RxEvent := .segment ⟨tmsgFlagEnd, 0, [], 1⟩ [4]

def nextTransfer : RxEvent := .segment ⟨tmsgFlagStart ||| tmsgFlagEnd, 1, [], 0⟩ []

theorem conforming_abandoning :
    Conforming refusedCfg init [refusedStart, nextTransfer] := by
  refine ⟨fun _ => ⟨⟨?_, ?_, ?_, ?_⟩, rfl, ?_, ?_⟩, fun _ => ⟨⟨?_, ?_, ?_, ?_⟩, rfl, ?_, ?_⟩,
    trivial⟩ <;> decide

/-- Sent to its END, the refused transfer does no harm. -/
theorem run_wellServed_drained :
    (run refusedCfg init [refusedStart, refusedEnd, nextTransfer]).WellServed := by
  refine (run_wellServed_iff ?_).mpr ?_
  · refine ⟨fun _ => ⟨⟨?_, ?_, ?_, ?_⟩, rfl, ?_, ?_⟩, fun _ => ⟨⟨?_, ?_, ?_, ?_⟩, rfl, ?_, ?_⟩,
      fun _ => ⟨⟨?_, ?_, ?_, ?_⟩, rfl, ?_, ?_⟩, trivial⟩ <;> decide
  · exact ⟨by decide, by decide, by decide, trivial⟩

/-- Abandoned for the next START, it ends the session with MSG_REJECT. -/
theorem abandoning_rejected :
    Conforming refusedCfg init [refusedStart, nextTransfer] ∧
      (run refusedCfg init [refusedStart, nextTransfer]).failed = true ∧
      (run refusedCfg init [refusedStart, nextTransfer]).r.sent =
        [.refuse ⟨tmsgRefuseExtFailure, 0⟩, rejectUnexpected tmsgXferSegment] ∧
      ¬ (run refusedCfg init [refusedStart, nextTransfer]).WellServed := by
  have h_failed : (run refusedCfg init [refusedStart, nextTransfer]).failed = true := by
    decide
  refine ⟨conforming_abandoning, h_failed, by decide, fun h_well => ?_⟩
  rw [h_well.alive] at h_failed
  exact absurd h_failed (by decide)

end Served

end IonContrib.Tcpv4
