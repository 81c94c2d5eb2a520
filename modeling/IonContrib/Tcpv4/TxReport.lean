/-
  IonContrib.Tcpv4.TxReport

  Every accepted bundle is reported exactly once.

  `Conn.ledger` reads the ledger off a session, and `step_ledger` shows that a
  step of any thread is a step of the ledger, whatever octets the peer sends.
  What is left is that nothing is on the lists or in anybody's hands when the
  session is destroyed (`DownOk`), which is about the order in which
  `receiverThread` takes the session down.
-/
import IonContrib.Tcpv4.Steps
import IonContrib.Tcpv4.TxLedger

namespace IonContrib.Tcpv4

def XmitPc.held : XmitPc → List Xfer
  | .reporting x _ => [x]
  | _ => []

def RxPc.held : RxPc → List Xfer
  | .reporting x _ => [x]
  | _ => []

@[simp] theorem XmitPc.held_reporting (x : Xfer) (failed : Bool) :
    (XmitPc.reporting x failed).held = [x] := rfl

@[simp] theorem RxPc.held_reporting (x : Xfer) (reject : Option Ctrl) :
    (RxPc.reporting x reject).held = [x] := rfl

def Event.returned? : Event → Option (Nat × Bool)
  | .returned r ok => some (r, ok)
  | _ => none

def Event.reported? : Event → Option Nat
  | .reported r _ _ => some r
  | _ => none

namespace Conn

/-- The transfers a thread has taken off the lists and not reported yet. -/
def held (c : Conn) : List Xfer := c.xmitPc.held ++ c.rxPc.held ++ c.dead

/-- What `queueXfer` returned, call by call. -/
def returned (c : Conn) : List (Nat × Bool) := c.log.filterMap Event.returned?

/-- The calls the done callback was called for. -/
def reported (c : Conn) : List Nat := c.log.filterMap Event.reported?

def ledger (c : Conn) : Ledger where
  tx := c.tx
  held := c.held
  senders := c.senders
  nextRef := c.nextRef
  returned := c.returned
  reported := c.reported

/-! ## Each step is a step of the ledger -/

variable {cfg : SessCfg} {c c' : Conn}

/-- A step that leaves the transmission side alone. -/
theorem ledger_eq_of (h_tx : c'.tx = c.tx) (h_held : c'.held = c.held)
    (h_senders : c'.senders = c.senders) (h_next : c'.nextRef = c.nextRef)
    (h_log : ∃ l, c'.log = c.log ++ l ∧ l.filterMap Event.returned? = [] ∧
      l.filterMap Event.reported? = []) : c'.ledger = c.ledger := by
  obtain ⟨l, h_log, h_ret, h_rep⟩ := h_log
  simp [ledger, h_tx, h_held, h_senders, h_next, returned, reported, h_log, h_ret, h_rep]

theorem ledger_sendCtrl {m : Ctrl} {o : Outcome} {b : Bool}
    (h : c.sendCtrl m o = some (c', b)) :
    c'.ledger = c.ledger ∧ c'.xmitPc = c.xmitPc ∧ c'.rxPc = c.rxPc ∧ c'.dead = c.dead := by
  rcases sendCtrl_cases h with ⟨-, -, rfl⟩ | ⟨-, n, rfl⟩
  · exact ⟨ledger_eq_of rfl rfl rfl rfl ⟨[.sent m], rfl, rfl, rfl⟩, rfl, rfl, rfl⟩
  · exact ⟨rfl, rfl, rfl, rfl⟩

theorem ledger_goOn (c : Conn) (next : RxNext) (h_held : c.rxPc.held = []) :
    (c.goOn next).ledger = c.ledger := by
  have h_loop : RxPc.loop.held = [] := rfl
  have h_failing : RxPc.failing.held = [] := rfl
  cases next with
  | loop => simp [ledger, goOn, held, h_held, h_loop, returned, reported]
  | ret clean => simp [ledger, goOn, held, h_held, h_failing, returned, reported]

theorem ledger_send {data : Octets} {o : Outcome} {b : Bool}
    (h : c.send data o = some (c', b)) :
    c'.ledger = c.ledger ∧ c'.xmitPc = c.xmitPc ∧ c'.rxPc = c.rxPc := by
  rcases send_cases h with ⟨-, -, rfl⟩ | ⟨-, n, rfl⟩
  · exact ⟨rfl, rfl, rfl⟩
  · exact ⟨rfl, rfl, rfl⟩

/-- Only the two `reporting` states hold a transfer, so moving the transmit thread between
    two others leaves the ledger alone. -/
theorem ledger_xmitPc (c : Conn) (pc : XmitPc) (h : c.xmitPc.held = []) (h' : pc.held = []) :
    { c with xmitPc := pc }.ledger = c.ledger := by
  simp [ledger, held, h, h', returned, reported]

theorem ledger_rxPc (c : Conn) (pc : RxPc) (h : c.rxPc.held = []) (h' : pc.held = []) :
    { c with rxPc := pc }.ledger = c.ledger := by
  simp [ledger, held, h, h', returned, reported]

@[simp] theorem held_afterXfer (failed : Bool) : (afterXfer failed).held = [] := by
  cases failed <;> rfl

theorem call_ledger {bundle : Octets} {o : Outcome} (h : c.call cfg bundle o = some c') :
    Ledger.Step cfg.window c.ledger c'.ledger := by
  have h_away : Ledger.Step cfg.window c.ledger
      ({ c with nextRef := c.nextRef + 1 }.note (.returned c.nextRef false)).ledger := by
    have h_eq : ({ c with nextRef := c.nextRef + 1 }.note (.returned c.nextRef false)).ledger =
        { c.ledger with
          nextRef := c.nextRef + 1, returned := c.returned ++ [(c.nextRef, false)] } := by
      simp [ledger, note, held, returned, reported, Event.returned?, Event.reported?]
    rw [h_eq]
    exact Ledger.Step.turnAway
  have h_wait : Ledger.Step cfg.window c.ledger
      { c with
        nextRef := c.nextRef + 1
        senders := c.senders ++ [newXfer c.nextRef bundle] }.ledger :=
    Ledger.Step.wait bundle
  unfold call at h
  by_cases h_drained : c.drained = true
  · simp [h_drained] at h
  by_cases h_big : bundle.length > cfg.transferMtu
  · simp only [h_drained, h_big, if_true, Bool.false_eq_true, if_false, Option.some.injEq] at h
    exact h ▸ h_away
  simp only [h_drained, h_big, if_false, Bool.false_eq_true] at h
  rcases Outcome.noMem_or h with h | h
  · exact Option.some.inj h ▸ h_away
  · exact Option.some.inj h ▸ h_wait

theorem sender_mem {r : Nat} {x : Xfer} (h : c.sender r = some x) :
    x ∈ c.senders ∧ x.ref = r :=
  ⟨List.mem_of_find?_eq_some h, by simpa using List.find?_some h⟩

theorem leave_false_ledger {r : Nat} {x : Xfer} (h : c.sender r = some x) :
    Ledger.Step cfg.window c.ledger (c.leave r false).ledger := by
  obtain ⟨h_mem, rfl⟩ := sender_mem h
  have h_eq : (c.leave x.ref false).ledger =
      { c.ledger with
        senders := c.senders.eraseP fun y => y.ref = x.ref
        returned := c.returned ++ [(x.ref, false)] } := by
    simp [ledger, leave, note, held, returned, reported, Event.returned?, Event.reported?]
  rw [h_eq]
  exact Ledger.Step.giveUp x h_mem

theorem room_ledger {r : Nat} (h : c.room cfg r = some c') :
    Ledger.Step cfg.window c.ledger c'.ledger := by
  unfold room at h
  cases h_find : c.sender r with
  | none => simp [h_find] at h
  | some x =>
    obtain ⟨h_mem, rfl⟩ := sender_mem h_find
    simp only [h_find] at h
    by_cases h_waits : queueXferWaits cfg.window c.tx x.length = true
    · simp [h_waits] at h
    by_cases h_stopped : c.tx.txStopped = true
    · simp only [h_waits, queueXferAdd, h_stopped, if_true, if_false, Bool.false_eq_true,
        Option.some.injEq] at h
      exact h ▸ leave_false_ledger h_find
    · rw [Bool.not_eq_true] at h_waits h_stopped
      have h_add : queueXferAdd c.tx x = ((queueXferAdd c.tx x).1, true) := by
        simp [queueXferAdd, h_stopped]
      rw [h_waits, h_add] at h
      simp only [Bool.false_eq_true, if_false, if_true, Option.some.injEq] at h
      have h_eq : c'.ledger = { c.ledger with
          tx := (queueXferAdd c.tx x).1
          senders := c.senders.eraseP fun y => y.ref = x.ref
          returned := c.returned ++ [(x.ref, true)] } := by
        simp [← h, ledger, leave, note, held, returned, reported, Event.returned?,
          Event.reported?]
      rw [h_eq]
      exact Ledger.Step.accept x h_mem h_waits h_stopped

theorem timeout_ledger {r : Nat} (h : c.timeout cfg r = some c') :
    Ledger.Step cfg.window c.ledger c'.ledger := by
  unfold timeout at h
  cases h_find : c.sender r with
  | none => simp [h_find] at h
  | some x =>
    simp only [h_find] at h
    by_cases h_waits : queueXferWaits cfg.window c.tx x.length = true
    · simp only [h_waits, if_true, Option.some.injEq] at h
      exact h ▸ leave_false_ledger h_find
    · simp [h_waits] at h

/-- Reporting a transfer that was in a thread's hands. -/
theorem report_ledger {x : Xfer} {w : TxWindow} (h_held : c.held.Perm (x :: c'.held))
    (h_eq : c'.ledger = { c.ledger with
      held := c'.held, reported := c.reported ++ [x.ref] }) :
    Ledger.Step w c.ledger c'.ledger := by
  rw [h_eq]
  exact Ledger.Step.report x c'.held h_held

theorem xmit_ledger {o : Outcome} (h : c.xmitStep cfg o = some c') :
    Ledger.Step cfg.window c.ledger c'.ledger := by
  -- Moving between two states that hold nothing is a step of nobody.
  have h_move : ∀ {d : Conn} {pc : XmitPc}, d.ledger = c.ledger → d.xmitPc.held = [] →
      pc.held = [] → Ledger.Step cfg.window c.ledger { d with xmitPc := pc }.ledger := by
    intro d pc h_d h_d' h_pc
    rw [ledger_xmitPc d pc h_d' h_pc, h_d]
    exact Ledger.Step.stay
  cases xmitStep_cases h with
  | noBuffer h_pc => exact h_move rfl (by rw [h_pc]; rfl) rfl
  | started h_pc => exact h_move rfl (by rw [h_pc]; rfl) rfl
  | stopped h_pc => exact h_move rfl (by rw [h_pc]; rfl) rfl
  | took x t h_pc h_take =>
    have h_nil : c.xmitPc.held = [] := by rw [h_pc]; rfl
    have h_open : (XmitPc.opening x).held = [] := rfl
    have h_eq : ({ c with tx := t, xmitPc := .opening x }.note (.took x)).ledger =
        { c.ledger with tx := t } := by
      simp [ledger, note, held, h_nil, h_open, returned, reported, Event.returned?,
        Event.reported?]
    rw [h_eq]
    exact Ledger.Step.take x t h_take
  | unreadable x h_pc =>
    rcases h_pc with h_pc | ⟨off, h_pc⟩
    · exact h_move rfl (by rw [h_pc]; rfl) rfl
    · exact h_move rfl (by rw [h_pc]; rfl) rfl
  | opened x h_pc => exact h_move rfl (by rw [h_pc]; rfl) rfl
  | read x off h_pc h_off => exact h_move rfl (by rw [h_pc]; rfl) rfl
  | complete x off h_pc h_off => exact h_move rfl (by rw [h_pc]; rfl) rfl
  | uncut x off len consumed h_pc h_more h_run => exact h_move rfl (by rw [h_pc]; rfl) rfl
  | wrote x off len consumed data consumed' o d b h_pc h_more h_run h_send =>
    obtain ⟨h_led, h_x, -⟩ := ledger_send h_send
    refine h_move h_led (by rw [h_x, h_pc]; rfl) ?_
    cases b <;> rfl
  | bufferDone x off len consumed h_pc h_done => exact h_move rfl (by rw [h_pc]; rfl) rfl
  | abandoned x off h_pc h_ref => exact h_move rfl (by rw [h_pc]; rfl) rfl
  | wentOn x off h_pc h_ref => exact h_move rfl (by rw [h_pc]; rfl) rfl
  | letGo x failed t done h_pc h_go =>
    have h_nil : c.xmitPc.held = [] := by rw [h_pc]; rfl
    have h_tx : Retires cfg.window c.tx t done := retires_letGo h_go
    have h_eq : { c with tx := t, xmitPc := afterLetGo failed done }.ledger =
        { c.ledger with tx := t, held := done.toList ++ c.held } := by
      cases done with
      | none => simp [ledger, held, h_nil, afterLetGo, returned, reported]
      | some y => simp [ledger, held, h_nil, afterLetGo, returned, reported]
    rw [h_eq]
    exact Ledger.Step.retire t done _ h_tx (List.Perm.refl _)
  | reported x failed h_pc =>
    refine report_ledger (x := x) ?_ ?_
    · simp [held, h_pc, report, note]
    · simp [ledger, held, report, note, returned, reported, Event.returned?, Event.reported?]
  | failed h_pc => exact h_move (d := c.tcpv4ConnFail) rfl (by rw [tcpv4ConnFail, h_pc]; rfl) rfl

/-- After a locked section that has read a message about a transfer. -/
theorem afterTxSection_ledger {tx : TxSide} {done : Option Xfer} {reject : Option Ctrl}
    {w : TxWindow} (h_nil : c.rxPc.held = []) (h_tx : Retires w c.tx tx done) :
    Ledger.Step w c.ledger (c.afterTxSection tx done reject).ledger := by
  cases done with
  | some x =>
    have h_eq : (c.afterTxSection tx (some x) reject).ledger =
        { c.ledger with tx := tx, held := c.xmitPc.held ++ [x] ++ c.dead } := by
      simp [afterTxSection, ledger, held, returned, reported]
    have h_held : (c.xmitPc.held ++ [x] ++ c.dead).Perm ([x] ++ c.held) := by
      rw [held, h_nil, List.append_nil, List.append_assoc]
      exact List.perm_middle
    rw [h_eq]
    exact Ledger.Step.retire tx (some x) _ h_tx h_held
  | none =>
    have h_eq : (c.afterTxSection tx none reject).ledger =
        { c.ledger with tx := tx, held := c.held } := by
      have h_say : ∀ m, (sayAnyway m .loop).held = [] := fun _ => rfl
      have h_loop : RxPc.loop.held = [] := rfl
      cases reject with
      | none => simp [afterTxSection, ledger, held, h_nil, h_loop, returned, reported]
      | some m => simp [afterTxSection, ledger, held, h_nil, h_say, returned, reported]
    rw [h_eq]
    exact Ledger.Step.retire tx none _ h_tx (List.Perm.refl _)

theorem handleSegmentHdr_ledger (seg : XferSegment) (o : Outcome) (h_nil : c.rxPc.held = []) :
    (c.handleSegmentHdr cfg seg o).ledger = c.ledger := by
  unfold handleSegmentHdr
  cases h_admit : segmentAdmit cfg.rx (c.state = .ending) c.rx seg (o ≠ .noMem) with
  | mk rx verdict =>
    cases verdict with
    | fail m => exact ledger_rxPc { c with rx := rx } _ h_nil rfl
    | refuse reason => exact ledger_rxPc { c with rx := rx } _ h_nil rfl
    | accept => exact ledger_rxPc { c with rx := rx } _ h_nil rfl

theorem finishSegment_ledger (seg : XferSegment) (h_nil : c.rxPc.held = []) :
    (c.finishSegment seg).ledger = c.ledger := by
  unfold finishSegment
  cases h_done : segmentDone c.rx seg with
  | mk rx todo =>
    cases todo with
    | next => exact ledger_rxPc { c with rx := rx } _ h_nil rfl
    | ack m => exact ledger_rxPc { c with rx := rx } _ h_nil rfl
    | handOver => exact ledger_rxPc { c with rx := rx } _ h_nil rfl

/-- A short message that goes out, or does not, between two states that hold nothing. -/
theorem sendCtrl_map_ledger {m : Ctrl} {o : Outcome} {k : Conn × Bool → Conn} {w : TxWindow}
    (h_k : ∀ d b, c.sendCtrl m o = some (d, b) → (k (d, b)).ledger = d.ledger)
    (h : (c.sendCtrl m o).map k = some c') : Ledger.Step w c.ledger c'.ledger := by
  obtain ⟨⟨d, b⟩, h_send, rfl⟩ := Option.map_eq_some_iff.mp h
  rw [h_k d b h_send, (ledger_sendCtrl h_send).1]
  exact Ledger.Step.stay

theorem stop_ledger {w : TxWindow} {pc : RxPc} (h_nil : c.rxPc.held = []) (h_pc : pc.held = []) :
    Ledger.Step w c.ledger { c with tx := tcpv4TxStop c.tx, rxPc := pc }.ledger := by
  have h_eq : { c with tx := tcpv4TxStop c.tx, rxPc := pc }.ledger =
      { c.ledger with tx := tcpv4TxStop c.tx } := by
    simp [ledger, held, h_nil, h_pc, returned, reported]
  rw [h_eq]
  exact Ledger.Step.stop

theorem recv_ledger {o : Outcome} (h : c.recvStep cfg o = some c') :
    Ledger.Step cfg.window c.ledger c'.ledger := by
  have h_stay : ∀ {d : Conn}, d.ledger = c.ledger → Ledger.Step cfg.window c.ledger d.ledger := by
    intro d h_eq
    rw [h_eq]
    exact Ledger.Step.stay
  have h_move : ∀ {d : Conn} {pc : RxPc}, d.ledger = c.ledger → d.rxPc.held = [] →
      pc.held = [] → Ledger.Step cfg.window c.ledger { d with rxPc := pc }.ledger := by
    intro d pc h_d h_d' h_pc
    exact h_stay ((ledger_rxPc d pc h_d' h_pc).trans h_d)
  cases recvStep_cases h with
  | quit clean h_pc h_clean =>
    refine h_stay (ledger_goOn c _ ?_)
    revert h_pc
    cases c.rxPc <;> simp [RxPc.canQuit, RxPc.held]
  | type type rest h_pc h_in =>
    exact h_move (d := { c with
      inOctets := rest
      secSinceRx := 0
      secSinceData := if type = tmsgKeepalive then c.secSinceData else 0 }) rfl
      (by rw [h_pc]; rfl) rfl
  | segment seg rest o h_pc h_in =>
    exact h_stay (handleSegmentHdr_ledger (c := { c with inOctets := rest }) seg o
      (by rw [h_pc]; rfl))
  | ack m rest h_pc h_in =>
    exact afterTxSection_ledger (c := { c with inOctets := rest }) (by rw [h_pc]; rfl)
      (retires_ack rfl)
  | refuse m rest h_pc h_in =>
    exact afterTxSection_ledger (c := { c with inOctets := rest }) (by rw [h_pc]; rfl)
      (retires_refuse rfl)
  | keepalive h_pc => exact h_stay (ledger_goOn c _ (by rw [h_pc]; rfl))
  | reject m rest h_pc h_in =>
    unfold handleReject
    split
    · exact h_move (d := { c with inOctets := rest, termSent := true, state := .ending }) rfl
        (by rw [h_pc]; rfl) rfl
    · exact h_move (d := { c with inOctets := rest }) rfl (by rw [h_pc]; rfl) rfl
  | sessTerm m rest h_pc h_in =>
    refine h_move (d := { c with inOctets := rest, termSent := true, state := .ending }) rfl
      (by rw [h_pc]; rfl) ?_
    split <;> rfl
  | unknown type m h_pc h_type h_m => exact h_move rfl (by rw [h_pc]; rfl) rfl
  | refuseUnsaid reason seg h_pc h_bad => exact h_move rfl (by rw [h_pc]; rfl) rfl
  | refuseSaid reason seg o d b h_pc h_busy h_bad h_send =>
    obtain ⟨h_led, -, h_rx, -⟩ := ledger_sendCtrl h_send
    exact h_move h_led (by rw [h_rx, h_pc]; rfl) rfl
  | drained seg data rest h_pc h_ref h_len h_in =>
    exact h_stay (finishSegment_ledger (c := { c with inOctets := rest }) seg (by rw [h_pc]; rfl))
  | exhausted seg h_pc h_ref => exact h_move rfl (by rw [h_pc]; rfl) rfl
  | stored seg rx mem data rest h_pc h_ref h_rx h_len h_in =>
    exact h_stay (finishSegment_ledger (c := { c with
      rx := segmentStore rx data, inOctets := rest }) seg (by rw [h_pc]; rfl))
  | storeFailed seg rx mem h_pc h_ref h_rx =>
    exact h_stay (ledger_goOn { c with rx := rx } _ (by rw [h_pc]; rfl))
  | acked m o d b h_pc h_busy h_bad h_send =>
    obtain ⟨h_led, -, h_rx, -⟩ := ledger_sendCtrl h_send
    exact h_stay ((ledger_goOn d _ (by rw [h_rx, h_pc]; rfl)).trans h_led)
  | handed seg h_pc h_busy h_bad =>
    exact h_move (d := { c with
      rx := (handOverTransfer c.rx c.dlv seg).1
      dlv := (handOverTransfer c.rx c.dlv seg).2 }) rfl (by rw [h_pc]; rfl) rfl
  | reported x reject h_pc =>
    have h_next : (afterReport reject).held = [] := by cases reject <;> rfl
    have h_held : c.held.Perm (x :: (c.xmitPc.held ++ c.dead)) := by
      rw [held, h_pc, RxPc.held_reporting, List.append_assoc]
      exact List.perm_middle
    refine report_ledger (x := x) ?_ ?_
    · simpa [held, report, note, h_next] using h_held
    · simp [ledger, held, report, note, h_next, returned, reported, Event.returned?,
        Event.reported?]
  | stopped say ok bad h_pc =>
    have h_nil : c.rxPc.held = [] := by rw [h_pc]; rfl
    cases say with
    | some m => exact stop_ledger h_nil rfl
    | none =>
      cases ok with
      | loop => exact stop_ledger h_nil rfl
      | ret clean => exact stop_ledger (c := { c with cleanClose := clean }) h_nil rfl
  | said m ok bad o d b h_pc h_send =>
    obtain ⟨h_led, -, h_rx, -⟩ := ledger_sendCtrl h_send
    exact h_stay ((ledger_goOn d _ (by rw [h_rx, h_pc]; rfl)).trans h_led)
  | failed h_pc => exact h_move (d := c.tcpv4ConnFail) rfl (by rw [tcpv4ConnFail, h_pc]; rfl) rfl
  | txStopped h_pc => exact stop_ledger (by rw [h_pc]; rfl) rfl
  | joinedXmit h_pc h_xmit => exact h_move rfl (by rw [h_pc]; rfl) rfl
  | dlvStopped h_pc =>
    exact h_move (d := { c with dlv := { c.dlv with dlvStopped := true } }) rfl
      (by rw [h_pc]; rfl) rfl
  | joinedDlv h_pc h_dlv => exact h_move rfl (by rw [h_pc]; rfl) rfl
  | closed h_pc =>
    exact h_move (d := { c.tcpv4ConnFail with receiverDone := true }) rfl
      (by rw [tcpv4ConnFail, h_pc]; rfl) rfl

/-- Setting a thread's program counter that holds no transfer, and BP taking a bundle, are
    not in the ledger. -/
theorem dlv_ledger {o : Outcome} {w : TxWindow} (h : c.dlvStep o = some c') :
    Ledger.Step w c.ledger c'.ledger := by
  have h_stay : ∀ {d : Conn}, d.ledger = c.ledger → Ledger.Step w c.ledger d.ledger := by
    intro d h_eq
    rw [h_eq]
    exact Ledger.Step.stay
  unfold dlvStep at h
  split at h
  · split at h
    · exact Option.some.inj h ▸ h_stay rfl
    · split at h
      · exact Option.some.inj h ▸ h_stay rfl
      · simp at h
  · rcases Outcome.err_or h with h | h
    · exact Option.some.inj h ▸ h_stay rfl
    · exact Option.some.inj h ▸
        h_stay (ledger_eq_of rfl rfl rfl rfl ⟨[.delivered c.dlv.bundle], rfl, rfl, rfl⟩)
  · exact sendCtrl_map_ledger (fun d b _ => rfl) h
  · exact Option.some.inj h ▸ h_stay rfl
  · exact Option.some.inj h ▸ h_stay rfl
  · simp at h

theorem clockTick_ledger (cfg : SessCfg) (c : Conn) : (c.clockTick cfg).ledger = c.ledger := by
  unfold clockTick
  split
  · rfl
  · simp only
    split
    · exact ledger_eq_of rfl rfl rfl rfl ⟨[.idleTerm], rfl, rfl, rfl⟩
    · rfl

theorem clock_ledger {o : Outcome} (h : c.clockStep cfg o = some c') :
    Ledger.Step cfg.window c.ledger c'.ledger := by
  unfold clockStep at h
  split at h
  · split at h
    · rw [← Option.some.inj h, clockTick_ledger]
      exact Ledger.Step.stay
    · simp at h
  · exact Option.some.inj h ▸ Ledger.Step.stay
  · exact Option.some.inj h ▸ Ledger.Step.stop
  · exact sendCtrl_map_ledger (fun d b _ => rfl) h
  · exact sendCtrl_map_ledger (fun d b _ => rfl) h
  · exact Option.some.inj h ▸ Ledger.Step.stay

theorem stopStep_ledger {o : Outcome} {w : TxWindow} (h : c.stopStep o = some c') :
    Ledger.Step w c.ledger c'.ledger := by
  unfold stopStep at h
  split at h
  · split at h
    · exact Option.some.inj h ▸ Ledger.Step.stay
    · simp at h
  · exact Option.some.inj h ▸ Ledger.Step.stop
  · exact Option.some.inj h ▸ Ledger.Step.stay
  · exact Option.some.inj h ▸ Ledger.Step.stay
  · exact sendCtrl_map_ledger (fun d b _ => rfl) h
  · exact Option.some.inj h ▸ Ledger.Step.stay
  · simp at h

theorem free_ledger {w : TxWindow} (h : c.freeStep = some c')
    (h_idle : c.drained = true → c.xmitPc.held = [] ∧ c.rxPc.held = [])
    (h_dead : c.drained = false → c.dead = []) : Ledger.Step w c.ledger c'.ledger := by
  unfold freeStep at h
  by_cases h_drained : c.drained = true
  · obtain ⟨h_xmit, h_rx⟩ := h_idle h_drained
    rw [if_pos h_drained] at h
    cases h_list : c.dead with
    | nil => simp [h_list] at h
    | cons x rest =>
      simp only [h_list, Option.some.injEq] at h
      refine report_ledger (x := x) ?_ ?_
      · simp [← h, held, h_xmit, h_rx, h_list, report, note]
      · simp [← h, ledger, held, h_xmit, h_rx, report, note, returned, reported,
          Event.returned?, Event.reported?]
  · rw [if_neg h_drained] at h
    split at h
    · rw [← Option.some.inj h]
      refine Ledger.Step.drain (l := c.ledger)
        (c.xmitPc.held ++ c.rxPc.held ++ (tcpv4TxDrain c.tx).2) ?_
      have h_nil : c.dead = [] := h_dead (by simpa using h_drained)
      simp only [ledger, held, h_nil, List.append_nil]
      exact List.perm_append_comm
    · simp at h

/-! ## Taking the session down -/

/-- By the time the lists are drained the threads that could hold a transfer are gone. -/
structure DownOk (c : Conn) : Prop where
  joined : c.rxPc.joined = true → c.xmitPc = .ended
  done : c.receiverDone = true → c.rxPc = .done
  drained : c.drained = true →
    c.receiverDone = true ∧ c.tx.txStopped = true ∧ c.tx.live = []
  dead : c.drained = false → c.dead = []

theorem DownOk.held_nil (h : c.DownOk) (h_drained : c.drained = true) :
    c.xmitPc.held = [] ∧ c.rxPc.held = [] := by
  have h_rx := h.done (h.drained h_drained).1
  have h_xmit := h.joined (by rw [h_rx]; rfl)
  rw [h_rx, h_xmit]
  exact ⟨rfl, rfl⟩

/-- **Every step of the session is a step of the ledger.** -/
theorem step_ledger {a : Act} (h_down : c.DownOk) (h : step cfg c a = some c') :
    Ledger.Step cfg.window c.ledger c'.ledger := by
  cases a with
  | call bundle o => exact call_ledger h
  | room r => exact room_ledger h
  | timeout r => exact timeout_ledger h
  | xmit o => exact xmit_ledger h
  | recv o => exact recv_ledger h
  | dlv o => exact dlv_ledger h
  | clock o => exact clock_ledger h
  | stop o => exact stopStep_ledger h
  | free => exact free_ledger h h_down.held_nil h_down.dead
  | arrive data => exact Option.some.inj h ▸ Ledger.Step.stay

/-- Where the threads are, and how far the session has been taken down. -/
def place (c : Conn) : RxPc × XmitPc × Bool × Bool × List Xfer :=
  (c.rxPc, c.xmitPc, c.receiverDone, c.drained, c.dead)

/-- The senders, the delivery thread, the clock thread and the thread that stops the engine
    do not move the other two, and free nothing. -/
theorem sendCtrl_map_place {m : Ctrl} {o : Outcome} {k : Conn × Bool → Conn}
    (h_k : ∀ p, (k p).place = p.1.place) (h : (c.sendCtrl m o).map k = some c') :
    c'.place = c.place := by
  obtain ⟨⟨d, b⟩, h_send, rfl⟩ := Option.map_eq_some_iff.mp h
  obtain ⟨out, t, br, l, rfl⟩ := sendCtrl_shape h_send
  exact h_k _

theorem dlv_place {o : Outcome} (h : c.dlvStep o = some c') : c'.place = c.place := by
  unfold dlvStep at h
  split at h
  · split at h
    · exact Option.some.inj h ▸ rfl
    · split at h
      · exact Option.some.inj h ▸ rfl
      · simp at h
  · rcases Outcome.err_or h with h | h
    · exact Option.some.inj h ▸ rfl
    · exact Option.some.inj h ▸ rfl
  · refine sendCtrl_map_place ?_ h
    intro p
    rfl
  · exact Option.some.inj h ▸ rfl
  · exact Option.some.inj h ▸ rfl
  · simp at h

theorem clock_place {o : Outcome} (h : c.clockStep cfg o = some c') : c'.place = c.place := by
  unfold clockStep at h
  split at h
  · split at h
    · rw [← Option.some.inj h, clockTick]
      split
      · rfl
      · simp only
        split <;> rfl
    · simp at h
  · exact Option.some.inj h ▸ rfl
  · exact Option.some.inj h ▸ rfl
  · refine sendCtrl_map_place ?_ h
    intro p
    rfl
  · refine sendCtrl_map_place ?_ h
    intro p
    rfl
  · exact Option.some.inj h ▸ rfl

theorem stop_place {o : Outcome} (h : c.stopStep o = some c') : c'.place = c.place := by
  unfold stopStep at h
  split at h
  · split at h
    · exact Option.some.inj h ▸ rfl
    · simp at h
  · exact Option.some.inj h ▸ rfl
  · exact Option.some.inj h ▸ rfl
  · exact Option.some.inj h ▸ rfl
  · refine sendCtrl_map_place ?_ h
    intro p
    rfl
  · exact Option.some.inj h ▸ rfl
  · simp at h

theorem call_place {bundle : Octets} {o : Outcome} (h : c.call cfg bundle o = some c') :
    c'.place = c.place := by
  unfold call at h
  split at h
  · simp at h
  · simp only at h
    split at h
    · exact Option.some.inj h ▸ rfl
    · rcases Outcome.noMem_or h with h | h
      · exact Option.some.inj h ▸ rfl
      · exact Option.some.inj h ▸ rfl

theorem room_place {r : Nat} (h : c.room cfg r = some c') : c'.place = c.place := by
  unfold room at h
  split at h
  · simp at h
  · split at h
    · simp at h
    · simp only at h
      split at h
      · exact Option.some.inj h ▸ rfl
      · exact Option.some.inj h ▸ rfl

theorem timeout_place {r : Nat} (h : c.timeout cfg r = some c') : c'.place = c.place := by
  unfold timeout at h
  split at h
  · simp at h
  · split at h
    · exact Option.some.inj h ▸ rfl
    · simp at h

end Conn

/-- A ledger that is closed stays so: nothing is added once transmission is stopped. -/
theorem Ledger.closed_step {w : TxWindow} {l l' : Ledger} (h_ok : l.Ok w)
    (h_stop : l.tx.txStopped = true) (h_live : l.tx.live = []) (h : Ledger.Step w l l') :
    l'.tx.txStopped = true ∧ l'.tx.live = [] := by
  cases h with
  | stay => exact ⟨h_stop, h_live⟩
  | stop => exact ⟨rfl, h_live⟩
  | turnAway => exact ⟨h_stop, h_live⟩
  | wait bundle => exact ⟨h_stop, h_live⟩
  | giveUp x h_mem => exact ⟨h_stop, h_live⟩
  | accept x h_mem h_room h_open => simp [h_stop] at h_open
  | take x t h_take =>
    obtain ⟨-, -, -, h_open, -⟩ := xmitTake_cases h_take
    simp [h_stop] at h_open
  | retire t done held h_tx h_held =>
    refine ⟨h_tx.stopped.trans h_stop, ?_⟩
    have h_perm := h_tx.live h_ok.tx
    rw [h_live, List.map_nil] at h_perm
    simpa using (List.append_eq_nil_iff.mp h_perm.nil_eq.symm).2
  | report x held h_held => exact ⟨h_stop, h_live⟩
  | drain held h_held => exact ⟨rfl, rfl⟩

namespace Conn

variable {cfg : SessCfg} {c c' : Conn}

theorem downOk_init : Conn.init.DownOk where
  joined h := by cases h
  done h := by cases h
  drained h := by cases h
  dead _ := rfl

theorem downOk_of_place (h_down : c.DownOk) (h_place : c'.place = c.place)
    (h_closed : c.drained = true → c'.tx.txStopped = true ∧ c'.tx.live = []) : c'.DownOk := by
  simp only [place, Prod.mk.injEq] at h_place
  obtain ⟨h_rx, h_xmit, h_done, h_drained, h_dead⟩ := h_place
  refine ⟨?_, ?_, ?_, ?_⟩
  · rw [h_rx, h_xmit]
    exact h_down.joined
  · rw [h_rx, h_done]
    exact h_down.done
  · rw [h_drained, h_done]
    intro h
    exact ⟨(h_down.drained h).1, h_closed h⟩
  · rw [h_drained, h_dead]
    exact h_down.dead

theorem downOk_step {a : Act} (h_ok : c.ledger.Ok cfg.window) (h_down : c.DownOk)
    (h : step cfg c a = some c') : c'.DownOk := by
  have h_closed : c.drained = true → c'.tx.txStopped = true ∧ c'.tx.live = [] := by
    intro h_drained
    obtain ⟨-, h_stop, h_live⟩ := h_down.drained h_drained
    exact Ledger.closed_step h_ok h_stop h_live (step_ledger h_down h)
  cases a with
  | call bundle o => exact downOk_of_place h_down (call_place h) h_closed
  | room r => exact downOk_of_place h_down (room_place h) h_closed
  | timeout r => exact downOk_of_place h_down (timeout_place h) h_closed
  | dlv o => exact downOk_of_place h_down (dlv_place h) h_closed
  | clock o => exact downOk_of_place h_down (clock_place h) h_closed
  | stop o => exact downOk_of_place h_down (stop_place h) h_closed
  | arrive data => exact downOk_of_place h_down (Option.some.inj h ▸ rfl) h_closed
  | xmit o =>
    -- A step of the transmit thread is taken only while it has not been joined.
    obtain ⟨h_frame, h_running⟩ := xmitStep_frame (xmitStep_cases h)
    have h_notJoined : c.rxPc.joined ≠ true := fun h_j => h_running (h_down.joined h_j)
    refine ⟨?_, ?_, ?_, ?_⟩
    · rw [h_frame.rxPc]
      exact fun h_j => absurd h_j h_notJoined
    · rw [h_frame.rxPc, h_frame.receiverDone]
      exact h_down.done
    · rw [h_frame.drained, h_frame.receiverDone]
      intro h_drained
      exact ⟨(h_down.drained h_drained).1, h_closed h_drained⟩
    · rw [h_frame.drained, h_frame.dead]
      exact h_down.dead
  | recv o =>
    obtain ⟨h_frame, h_running, h_joined, h_done⟩ := recvStep_frame (recvStep_cases h)
    have h_notDone : c.receiverDone ≠ true := fun h_d => h_running (h_down.done h_d)
    refine ⟨?_, ?_, ?_, ?_⟩
    · rw [h_frame.xmitPc]
      intro h_j
      rcases h_joined h_j with h_j | h_end
      · exact h_down.joined h_j
      · exact h_end
    · intro h_d
      rcases h_done h_d with h_d | h_end
      · exact absurd h_d h_notDone
      · exact h_end
    · rw [h_frame.drained]
      intro h_drained
      exact absurd (h_down.drained h_drained).1 h_notDone
    · rw [h_frame.drained, h_frame.dead]
      exact h_down.dead
  | free =>
    simp only [step, freeStep] at h
    by_cases h_drained : c.drained = true
    · rw [if_pos h_drained] at h
      split at h
      · simp at h
      · rw [← Option.some.inj h]
        exact ⟨h_down.joined, h_down.done, h_down.drained, fun h_not => by
          simp [report, note, h_drained] at h_not⟩
    · rw [if_neg h_drained] at h
      split at h
      · rename_i h_free
        rw [← Option.some.inj h]
        exact ⟨h_down.joined, h_down.done, fun _ => ⟨h_free.1, rfl, rfl⟩, fun h_not => by
          cases h_not⟩
      · simp at h

/-! ## The reports of a session -/

def ackedCfg : SessCfg := ⟨⟨10, 10⟩, ⟨4, 100⟩, 1, 10, 0, 0⟩

end Conn

end IonContrib.Tcpv4
