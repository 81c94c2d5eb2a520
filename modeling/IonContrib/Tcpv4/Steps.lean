/-
  IonContrib.Tcpv4.Steps

  What a step of the receiver thread and of the transmit thread can do, said
  once: `RecvStep` and `XmitStep` have one constructor for each way a step can
  come out, with what was tested on the way there.  Invariants of a session
  are proved by cases on these and never unfold `recvStep` or `xmitStep`.
-/
import IonContrib.Tcpv4.Session

namespace IonContrib.Tcpv4

open Conn

variable {cfg : SessCfg} {c c' : Conn}

/-! ## Receiver thread -/

/-- The states of the message loop in which a read or an answer can fail the session. -/
def RxPc.canQuit : RxPc → Bool
  | .loop | .body _ | .payload _ | .acking _ | .handing _ => true
  | _ => false

/-- Past the message loop. -/
def RxPc.leaving : RxPc → Bool
  | .failing | .txStop | .joinXmit | .dlvStop | .joinDlv | .closing | .done => true
  | _ => false

/-- Where the receiver thread goes once it has reported a transfer. -/
def afterReport : Option Ctrl → RxPc
  | none => .loop
  | some m => sayAnyway m .loop

/-- ... and once it has stopped transmission, with or without something to say. -/
def afterStop (c : Conn) (ok bad : RxNext) : Option Ctrl → Conn
  | none => { c with tx := tcpv4TxStop c.tx }.goOn ok
  | some m => { c with tx := tcpv4TxStop c.tx, rxPc := .saying m ok bad }

inductive RecvStep (cfg : SessCfg) (c : Conn) : Conn → Prop where
  | quit (clean : Bool) (h_pc : c.rxPc.canQuit = true)
      (h_clean : clean = true → c.rxPc = .loop ∧ c.state = .ending) :
      RecvStep cfg c (c.goOn (.ret clean))
  | type (type : UInt8) (rest : Octets) (h_pc : c.rxPc = .loop)
      (h_in : c.inOctets = type :: rest) :
      RecvStep cfg c { c with
        inOctets := rest
        secSinceRx := 0
        secSinceData := if type = tmsgKeepalive then c.secSinceData else 0
        rxPc := .body type }
  | segment (seg : XferSegment) (rest : Octets) (o : Outcome)
      (h_pc : c.rxPc = .body tmsgXferSegment)
      (h_in : recvXferSegmentHdr segHdrCap c.inOctets = .got seg rest) :
      RecvStep cfg c ({ c with inOctets := rest }.handleSegmentHdr cfg seg o)
  | ack (m : XferAck) (rest : Octets) (h_pc : c.rxPc = .body tmsgXferAck)
      (h_in : recvXferAck c.inOctets = .got m rest) :
      RecvStep cfg c ({ c with inOctets := rest }.handleAck m)
  | refuse (m : XferRefuse) (rest : Octets) (h_pc : c.rxPc = .body tmsgXferRefuse)
      (h_in : recvXferRefuse c.inOctets = .got m rest) :
      RecvStep cfg c ({ c with inOctets := rest }.handleRefuse m)
  | keepalive (h_pc : c.rxPc = .body tmsgKeepalive) : RecvStep cfg c (c.goOn .loop)
  | reject (m : MsgReject) (rest : Octets) (h_pc : c.rxPc = .body tmsgMsgReject)
      (h_in : tcpv4RecvMsgReject c.inOctets = .got m rest) :
      RecvStep cfg c ({ c with inOctets := rest }.handleReject m)
  | sessTerm (m : SessTerm) (rest : Octets) (h_pc : c.rxPc = .body tmsgSessTerm)
      (h_in : recvSessTerm c.inOctets = .got m rest) :
      RecvStep cfg c ({ c with inOctets := rest }.handleSessTerm m)
  | unknown (type : UInt8) (m : Ctrl) (h_pc : c.rxPc = .body type)
      (h_type : type ≠ tmsgXferSegment ∧ type ≠ tmsgXferAck ∧ type ≠ tmsgXferRefuse ∧
        type ≠ tmsgKeepalive ∧ type ≠ tmsgMsgReject ∧ type ≠ tmsgSessTerm)
      (h_m : ∃ rej, m = .msgReject rej) :
      RecvStep cfg c { c with rxPc := sayAnyway m (.ret false) }
  | refuseUnsaid (reason : UInt8) (seg : XferSegment) (h_pc : c.rxPc = .refusing reason seg)
      (h_bad : c.dlv.bad = true) : RecvStep cfg c { c with rxPc := .payload seg }
  | refuseSaid (reason : UInt8) (seg : XferSegment) (o : Outcome) (d : Conn) (b : Bool)
      (h_pc : c.rxPc = .refusing reason seg) (h_busy : c.dlv.busy = false)
      (h_bad : c.dlv.bad = false)
      (h_send : c.sendCtrl (.refuse ⟨reason, seg.transferId⟩) o = some (d, b)) :
      RecvStep cfg c { d with rxPc := .payload seg }
  | drained (seg : XferSegment) (data rest : Octets) (h_pc : c.rxPc = .payload seg)
      (h_ref : c.rx.rxRefused = true) (h_len : data.length = seg.dataLength)
      (h_in : c.inOctets = data ++ rest) :
      RecvStep cfg c ({ c with inOctets := rest }.finishSegment seg)
  | exhausted (seg : XferSegment) (h_pc : c.rxPc = .payload seg) (h_ref : c.rx.rxRefused = false) :
      RecvStep cfg c { c with rxPc := sayAnyway termExhausted (.ret false) }
  | stored (seg : XferSegment) (rx : RxSide) (mem : Bool) (data rest : Octets)
      (h_pc : c.rxPc = .payload seg) (h_ref : c.rx.rxRefused = false)
      (h_rx : rxReserve c.rx (c.rx.rxLen + seg.dataLength) mem = some rx)
      (h_len : data.length = seg.dataLength) (h_in : c.inOctets = data ++ rest) :
      RecvStep cfg c
        ({ c with rx := segmentStore rx data, inOctets := rest }.finishSegment seg)
  | storeFailed (seg : XferSegment) (rx : RxSide) (mem : Bool)
      (h_pc : c.rxPc = .payload seg) (h_ref : c.rx.rxRefused = false)
      (h_rx : rxReserve c.rx (c.rx.rxLen + seg.dataLength) mem = some rx) :
      RecvStep cfg c ({ c with rx := rx }.goOn (.ret false))
  | acked (m : XferAck) (o : Outcome) (d : Conn) (b : Bool) (h_pc : c.rxPc = .acking m)
      (h_busy : c.dlv.busy = false) (h_bad : c.dlv.bad = false)
      (h_send : c.sendCtrl (.ack m) o = some (d, b)) :
      RecvStep cfg c (d.goOn (if b then .loop else .ret false))
  | handed (seg : XferSegment) (h_pc : c.rxPc = .handing seg) (h_busy : c.dlv.busy = false)
      (h_bad : c.dlv.bad = false) :
      RecvStep cfg c { c with
        rx := (handOverTransfer c.rx c.dlv seg).1
        dlv := (handOverTransfer c.rx c.dlv seg).2
        rxPc := .loop }
  | reported (x : Xfer) (reject : Option Ctrl) (h_pc : c.rxPc = .reporting x reject) :
      RecvStep cfg c ({ c with rxPc := afterReport reject }.report x)
  | stopped (say : Option Ctrl) (ok bad : RxNext) (h_pc : c.rxPc = .stopping say ok bad) :
      RecvStep cfg c (afterStop c ok bad say)
  | said (m : Ctrl) (ok bad : RxNext) (o : Outcome) (d : Conn) (b : Bool)
      (h_pc : c.rxPc = .saying m ok bad) (h_send : c.sendCtrl m o = some (d, b)) :
      RecvStep cfg c (d.goOn (if b then ok else bad))
  | failed (h_pc : c.rxPc = .failing) :
      RecvStep cfg c { c.tcpv4ConnFail with rxPc := .txStop }
  | txStopped (h_pc : c.rxPc = .txStop) :
      RecvStep cfg c { c with tx := tcpv4TxStop c.tx, rxPc := .joinXmit }
  | joinedXmit (h_pc : c.rxPc = .joinXmit) (h_xmit : c.xmitPc = .ended) :
      RecvStep cfg c { c with rxPc := .dlvStop }
  | dlvStopped (h_pc : c.rxPc = .dlvStop) :
      RecvStep cfg c { c with dlv := { c.dlv with dlvStopped := true }, rxPc := .joinDlv }
  | joinedDlv (h_pc : c.rxPc = .joinDlv) (h_dlv : c.dlvPc = .ended) :
      RecvStep cfg c { c with rxPc := .closing }
  | closed (h_pc : c.rxPc = .closing) :
      RecvStep cfg c { c.tcpv4ConnFail with receiverDone := true, rxPc := .done }

theorem Recv.take_eq_got {len : Nat} {s data rest : Octets}
    (h : tcpv4ConnRecv len s = .got data rest) : data.length = len ∧ s = data ++ rest := by
  by_cases h_len : s.length < len
  · simp [tcpv4ConnRecv, Recv.take, h_len] at h
  · rw [tcpv4ConnRecv, Recv.take, if_neg h_len, Recv.got.injEq] at h
    obtain ⟨rfl, rfl⟩ := h
    refine ⟨?_, (List.take_append_drop _ _).symm⟩
    rw [List.length_take]
    omega

theorem handleBody_cases {type : UInt8} {o : Outcome} (h_pc : c.rxPc = .body type)
    (h : c.handleBody cfg type o = some c') : RecvStep cfg c c' := by
  have h_quit : c.rxPc.canQuit = true := by rw [h_pc]; rfl
  have h_bad : RecvStep cfg c (c.goOn (.ret false)) := RecvStep.quit false h_quit (by simp)
  unfold Conn.handleBody at h
  by_cases h_seg : type = tmsgXferSegment
  · subst h_seg
    rw [if_pos rfl] at h
    rcases Conn.reading_cases h with rfl | ⟨seg, rest, h_in, rfl⟩
    · exact h_bad
    · exact RecvStep.segment seg rest o h_pc h_in
  rw [if_neg h_seg] at h
  by_cases h_ack : type = tmsgXferAck
  · subst h_ack
    rw [if_pos rfl] at h
    rcases Conn.reading_cases h with rfl | ⟨m, rest, h_in, rfl⟩
    · exact h_bad
    · exact RecvStep.ack m rest h_pc h_in
  rw [if_neg h_ack] at h
  by_cases h_ref : type = tmsgXferRefuse
  · subst h_ref
    rw [if_pos rfl] at h
    rcases Conn.reading_cases h with rfl | ⟨m, rest, h_in, rfl⟩
    · exact h_bad
    · exact RecvStep.refuse m rest h_pc h_in
  rw [if_neg h_ref] at h
  by_cases h_ka : type = tmsgKeepalive
  · subst h_ka
    rw [if_pos rfl, Option.some.injEq] at h
    exact h ▸ RecvStep.keepalive h_pc
  rw [if_neg h_ka] at h
  by_cases h_rej : type = tmsgMsgReject
  · subst h_rej
    rw [if_pos rfl] at h
    rcases Conn.reading_cases h with rfl | ⟨m, rest, h_in, rfl⟩
    · exact h_bad
    · exact RecvStep.reject m rest h_pc h_in
  rw [if_neg h_rej] at h
  by_cases h_term : type = tmsgSessTerm
  · subst h_term
    rw [if_pos rfl] at h
    rcases Conn.reading_cases h with rfl | ⟨m, rest, h_in, rfl⟩
    · exact h_bad
    · exact RecvStep.sessTerm m rest h_pc h_in
  rw [if_neg h_term] at h
  have h_type : type ≠ tmsgXferSegment ∧ type ≠ tmsgXferAck ∧ type ≠ tmsgXferRefuse ∧
      type ≠ tmsgKeepalive ∧ type ≠ tmsgMsgReject ∧ type ≠ tmsgSessTerm :=
    ⟨h_seg, h_ack, h_ref, h_ka, h_rej, h_term⟩
  by_cases h_init : type = tmsgSessInit
  · rw [if_pos h_init, Option.some.injEq] at h
    exact h ▸ RecvStep.unknown type _ h_pc h_type ⟨_, rfl⟩
  · rw [if_neg h_init, Option.some.injEq] at h
    exact h ▸ RecvStep.unknown type _ h_pc h_type ⟨_, rfl⟩

theorem takePayload_cases {seg : XferSegment} {o : Outcome} (h_pc : c.rxPc = .payload seg)
    (h : c.takePayload seg o = some c') : RecvStep cfg c c' := by
  have h_quit : c.rxPc.canQuit = true := by rw [h_pc]; rfl
  unfold Conn.takePayload at h
  by_cases h_ref : c.rx.rxRefused = true
  · rw [if_pos h_ref, Conn.readData] at h
    by_cases h_zero : seg.dataLength = 0
    · rw [if_pos h_zero, Option.some.injEq] at h
      exact h ▸ RecvStep.drained seg [] c.inOctets h_pc h_ref h_zero.symm rfl
    · rw [if_neg h_zero] at h
      rcases Conn.reading_cases h with rfl | ⟨data, rest, h_in, rfl⟩
      · exact RecvStep.quit false h_quit (by simp)
      · obtain ⟨h_len, h_in⟩ := Recv.take_eq_got h_in
        exact RecvStep.drained seg data rest h_pc h_ref h_len h_in
  · rw [if_neg h_ref] at h
    rw [Bool.not_eq_true] at h_ref
    cases h_rx : rxReserve c.rx (c.rx.rxLen + seg.dataLength) (o ≠ .noMem) with
    | none =>
      simp only [h_rx, Option.some.injEq] at h
      exact h ▸ RecvStep.exhausted seg h_pc h_ref
    | some rx =>
      simp only [h_rx] at h
      rw [Conn.readData] at h
      by_cases h_zero : seg.dataLength = 0
      · rw [if_pos h_zero, Option.some.injEq] at h
        exact h ▸ RecvStep.stored seg rx _ [] c.inOctets h_pc h_ref h_rx h_zero.symm rfl
      · rw [if_neg h_zero] at h
        rcases Conn.reading_cases h with rfl | ⟨data, rest, h_in, rfl⟩
        · exact RecvStep.storeFailed seg rx _ h_pc h_ref h_rx
        · obtain ⟨h_len, h_in⟩ := Recv.take_eq_got h_in
          exact RecvStep.stored seg rx _ data rest h_pc h_ref h_rx h_len h_in

theorem takeDown_cases (h : c.takeDown = some c') : RecvStep cfg c c' := by
  unfold Conn.takeDown at h
  split at h
  · rename_i h_pc
    exact Option.some.inj h ▸ RecvStep.failed h_pc
  · rename_i h_pc
    exact Option.some.inj h ▸ RecvStep.txStopped h_pc
  · rename_i h_pc
    split at h
    · rename_i h_xmit
      exact Option.some.inj h ▸ RecvStep.joinedXmit h_pc h_xmit
    · simp at h
  · rename_i h_pc
    exact Option.some.inj h ▸ RecvStep.dlvStopped h_pc
  · rename_i h_pc
    split at h
    · rename_i h_dlv
      exact Option.some.inj h ▸ RecvStep.joinedDlv h_pc h_dlv
    · simp at h
  · rename_i h_pc
    exact Option.some.inj h ▸ RecvStep.closed h_pc
  · simp at h

/-- **All that a step of the receiver thread can do.** -/
theorem recvStep_cases {o : Outcome} (h : c.recvStep cfg o = some c') : RecvStep cfg c c' := by
  unfold Conn.recvStep at h
  split at h
  · rename_i h_pc
    have h_quit : c.rxPc.canQuit = true := by rw [h_pc]; rfl
    split at h
    · refine Option.some.inj h ▸ RecvStep.quit _ h_quit ?_
      intro h_clean
      exact ⟨h_pc, of_decide_eq_true h_clean⟩
    · exact Option.some.inj h ▸ RecvStep.quit false h_quit (by simp)
    · split at h
      · simp at h
      · rename_i type rest h_in
        exact Option.some.inj h ▸ RecvStep.type type rest h_pc h_in
  · rename_i type h_pc
    exact handleBody_cases h_pc h
  · rename_i reason seg h_pc
    split at h
    · simp at h
    rename_i h_busy
    split at h
    · rename_i h_bad
      exact Option.some.inj h ▸ RecvStep.refuseUnsaid reason seg h_pc h_bad
    · rename_i h_bad
      obtain ⟨⟨d, b⟩, h_send, rfl⟩ := Option.map_eq_some_iff.mp h
      exact RecvStep.refuseSaid reason seg o d b h_pc (by simpa using h_busy)
        (by simpa using h_bad) h_send
  · rename_i seg h_pc
    exact takePayload_cases h_pc h
  · rename_i m h_pc
    have h_quit : c.rxPc.canQuit = true := by rw [h_pc]; rfl
    split at h
    · simp at h
    rename_i h_busy
    split at h
    · exact Option.some.inj h ▸ RecvStep.quit false h_quit (by simp)
    · rename_i h_bad
      obtain ⟨⟨d, b⟩, h_send, rfl⟩ := Option.map_eq_some_iff.mp h
      exact RecvStep.acked m o d b h_pc (by simpa using h_busy) (by simpa using h_bad) h_send
  · rename_i seg h_pc
    have h_quit : c.rxPc.canQuit = true := by rw [h_pc]; rfl
    split at h
    · simp at h
    rename_i h_busy
    split at h
    · exact Option.some.inj h ▸ RecvStep.quit false h_quit (by simp)
    · rename_i h_bad
      exact Option.some.inj h ▸
        RecvStep.handed seg h_pc (by simpa using h_busy) (by simpa using h_bad)
  · rename_i x reject h_pc
    have h_step : RecvStep cfg c _ := RecvStep.reported x reject h_pc
    cases reject with
    | none => exact Option.some.inj h ▸ h_step
    | some m => exact Option.some.inj h ▸ h_step
  · rename_i say ok bad h_pc
    have h_step : RecvStep cfg c _ := RecvStep.stopped say ok bad h_pc
    cases say with
    | none => exact Option.some.inj h ▸ h_step
    | some m => exact Option.some.inj h ▸ h_step
  · rename_i m ok bad h_pc
    obtain ⟨⟨d, b⟩, h_send, rfl⟩ := Option.map_eq_some_iff.mp h
    exact RecvStep.said m ok bad o d b h_pc h_send
  · exact takeDown_cases h

/-! ## What the receiver thread leaves alone -/

/-- The other threads' places, and what only they change. -/
structure RecvFrame (c c' : Conn) : Prop where
  xmitPc : c'.xmitPc = c.xmitPc
  dlvPc : c'.dlvPc = c.dlvPc
  clockPc : c'.clockPc = c.clockPc
  stopPc : c'.stopPc = c.stopPc
  senders : c'.senders = c.senders
  nextRef : c'.nextRef = c.nextRef
  drained : c'.drained = c.drained
  dead : c'.dead = c.dead

/-- The states before the receiver thread has joined the transmit thread. -/
def RxPc.joined : RxPc → Bool
  | .dlvStop | .joinDlv | .closing | .done => true
  | _ => false

theorem handleSegmentHdr_shape (cfg : SessCfg) (c : Conn) (seg : XferSegment) (o : Outcome) :
    ∃ rx pc, c.handleSegmentHdr cfg seg o = { c with rx := rx, rxPc := pc } ∧
      pc.joined = false := by
  unfold handleSegmentHdr
  split
  · exact ⟨_, _, rfl, rfl⟩
  · exact ⟨_, _, rfl, rfl⟩
  · exact ⟨_, _, rfl, rfl⟩

/-- What `finishSegment` does with a refused transfer, an END and any other segment. -/
theorem finishSegment_cases (c : Conn) (seg : XferSegment) :
    (c.rx.rxRefused = true ∧ c.finishSegment seg = { c with
        rx := if seg.isEnd then { c.rx with rxActive := false } else c.rx
        rxPc := .loop }) ∨
      (c.rx.rxRefused = false ∧ seg.isEnd = true ∧ c.finishSegment seg = { c with
        rx := { c.rx with rxActive := false }
        rxPc := .handing seg }) ∨
      (c.rx.rxRefused = false ∧ seg.isEnd = false ∧ c.finishSegment seg = { c with
        rxPc := .acking ⟨seg.flags, seg.transferId, c.rx.rxLen⟩ }) := by
  have h_done := segmentDone_eq c.rx seg
  by_cases h_ref : c.rx.rxRefused = true
  · rw [if_pos h_ref] at h_done
    exact Or.inl ⟨h_ref, by simp only [finishSegment, h_done]⟩
  rw [if_neg h_ref] at h_done
  rw [Bool.not_eq_true] at h_ref
  by_cases h_end : seg.isEnd = true
  · rw [if_pos h_end, if_pos h_end] at h_done
    exact Or.inr (Or.inl ⟨h_ref, h_end, by simp only [finishSegment, h_done]⟩)
  · rw [if_neg h_end, if_neg h_end] at h_done
    rw [Bool.not_eq_true] at h_end
    exact Or.inr (Or.inr ⟨h_ref, h_end, by simp only [finishSegment, h_done]⟩)

theorem finishSegment_shape (c : Conn) (seg : XferSegment) :
    ∃ rx pc, c.finishSegment seg = { c with rx := rx, rxPc := pc } ∧ pc.joined = false := by
  unfold finishSegment
  split
  · exact ⟨_, _, rfl, rfl⟩
  · exact ⟨_, _, rfl, rfl⟩
  · exact ⟨_, _, rfl, rfl⟩

theorem afterTxSection_shape (c : Conn) (tx : TxSide) (done : Option Xfer)
    (reject : Option Ctrl) :
    ∃ pc, c.afterTxSection tx done reject = { c with tx := tx, rxPc := pc } ∧
      pc.joined = false := by
  unfold afterTxSection
  split
  · exact ⟨_, rfl, rfl⟩
  · exact ⟨_, rfl, rfl⟩
  · exact ⟨_, rfl, rfl⟩

theorem handleAck_shape (c : Conn) (m : XferAck) :
    ∃ tx pc, c.handleAck m = { c with tx := tx, rxPc := pc } ∧ pc.joined = false := by
  obtain ⟨pc, h_eq, h_j⟩ := afterTxSection_shape c (xferAckSection c.tx m).1
    (xferAckSection c.tx m).2.1
    (if (xferAckSection c.tx m).2.2 then some (rejectUnexpected tmsgXferAck) else none)
  exact ⟨_, pc, h_eq, h_j⟩

theorem handleRefuse_shape (c : Conn) (m : XferRefuse) :
    ∃ tx pc, c.handleRefuse m = { c with tx := tx, rxPc := pc } ∧ pc.joined = false := by
  obtain ⟨pc, h_eq, h_j⟩ := afterTxSection_shape c (xferRefuseSection c.tx m).1
    (xferRefuseSection c.tx m).2.1
    (if (xferRefuseSection c.tx m).2.2 then none else some (rejectUnexpected tmsgXferRefuse))
  exact ⟨_, pc, h_eq, h_j⟩

theorem handleReject_shape (c : Conn) (m : MsgReject) :
    ∃ term state pc, c.handleReject m =
      { c with termSent := term, state := state, rxPc := pc } ∧ pc.joined = false := by
  unfold handleReject
  split
  · exact ⟨_, _, _, rfl, rfl⟩
  · exact ⟨c.termSent, c.state, _, rfl, rfl⟩

theorem handleSessTerm_shape (c : Conn) (m : SessTerm) :
    ∃ pc, c.handleSessTerm m = { c with termSent := true, state := .ending, rxPc := pc } ∧
      pc.joined = false := by
  refine ⟨_, rfl, ?_⟩
  split <;> rfl

theorem goOn_shape (c : Conn) (next : RxNext) :
    ∃ clean pc, c.goOn next = { c with cleanClose := clean, rxPc := pc } ∧
      pc.joined = false := by
  cases next with
  | loop => exact ⟨c.cleanClose, _, rfl, rfl⟩
  | ret clean => exact ⟨_, _, rfl, rfl⟩

/-- A short message touches the socket and the log only. -/
theorem sendCtrl_shape {m : Ctrl} {o : Outcome} {d : Conn} {b : Bool}
    (h : c.sendCtrl m o = some (d, b)) :
    ∃ out t br l, d = { c with outOctets := out, secSinceTx := t, broken := br, log := l } := by
  rcases sendCtrl_cases h with ⟨-, -, rfl⟩ | ⟨-, n, rfl⟩
  · exact ⟨_, _, c.broken, _, rfl⟩
  · exact ⟨_, c.secSinceTx, _, c.log, rfl⟩

/-- The frame of a receiver step, and how the thread gets past the join and to its end. -/
theorem recvStep_frame (h : RecvStep cfg c c') :
    RecvFrame c c' ∧ c.rxPc ≠ .done ∧
      (c'.rxPc.joined = true → c.rxPc.joined = true ∨ c.xmitPc = .ended) ∧
      (c'.receiverDone = true → c.receiverDone = true ∨ c'.rxPc = .done) := by
  cases h with
  | quit clean h_pc h_clean =>
    obtain ⟨clean', pc, h_eq, h_j⟩ := goOn_shape c (.ret clean)
    rw [h_eq]
    refine ⟨by constructor <;> rfl, ?_, by simp [h_j], Or.inl⟩
    intro h_done
    rw [h_done] at h_pc
    cases h_pc
  | type type rest h_pc h_in =>
    exact ⟨by constructor <;> rfl, by simp [h_pc], by simp [RxPc.joined], Or.inl⟩
  | segment seg rest o h_pc h_in =>
    obtain ⟨rx, pc, h_eq, h_j⟩ := handleSegmentHdr_shape cfg { c with inOctets := rest } seg o
    rw [h_eq]
    exact ⟨by constructor <;> rfl, by simp [h_pc], by simp [h_j], Or.inl⟩
  | ack m rest h_pc h_in =>
    obtain ⟨tx, pc, h_eq, h_j⟩ := handleAck_shape { c with inOctets := rest } m
    rw [h_eq]
    exact ⟨by constructor <;> rfl, by simp [h_pc], by simp [h_j], Or.inl⟩
  | refuse m rest h_pc h_in =>
    obtain ⟨tx, pc, h_eq, h_j⟩ := handleRefuse_shape { c with inOctets := rest } m
    rw [h_eq]
    exact ⟨by constructor <;> rfl, by simp [h_pc], by simp [h_j], Or.inl⟩
  | keepalive h_pc =>
    exact ⟨by constructor <;> rfl, by simp [h_pc], by simp [goOn, RxPc.joined], Or.inl⟩
  | reject m rest h_pc h_in =>
    obtain ⟨term, state, pc, h_eq, h_j⟩ := handleReject_shape { c with inOctets := rest } m
    rw [h_eq]
    exact ⟨by constructor <;> rfl, by simp [h_pc], by simp [h_j], Or.inl⟩
  | sessTerm m rest h_pc h_in =>
    obtain ⟨pc, h_eq, h_j⟩ := handleSessTerm_shape { c with inOctets := rest } m
    rw [h_eq]
    exact ⟨by constructor <;> rfl, by simp [h_pc], by simp [h_j], Or.inl⟩
  | unknown type m h_pc h_type h_m =>
    exact ⟨by constructor <;> rfl, by simp [h_pc], by simp [sayAnyway, RxPc.joined], Or.inl⟩
  | refuseUnsaid reason seg h_pc h_bad =>
    exact ⟨by constructor <;> rfl, by simp [h_pc], by simp [RxPc.joined], Or.inl⟩
  | refuseSaid reason seg o d b h_pc h_busy h_bad h_send =>
    obtain ⟨out, t, br, l, rfl⟩ := sendCtrl_shape h_send
    exact ⟨by constructor <;> rfl, by simp [h_pc], by simp [RxPc.joined], Or.inl⟩
  | drained seg data rest h_pc h_ref h_len h_in =>
    obtain ⟨rx, pc, h_eq, h_j⟩ := finishSegment_shape { c with inOctets := rest } seg
    rw [h_eq]
    exact ⟨by constructor <;> rfl, by simp [h_pc], by simp [h_j], Or.inl⟩
  | exhausted seg h_pc h_ref =>
    exact ⟨by constructor <;> rfl, by simp [h_pc], by simp [sayAnyway, RxPc.joined], Or.inl⟩
  | stored seg rx mem data rest h_pc h_ref h_rx h_len h_in =>
    obtain ⟨rx', pc, h_eq, h_j⟩ := finishSegment_shape { c with
      rx := segmentStore rx data, inOctets := rest } seg
    rw [h_eq]
    exact ⟨by constructor <;> rfl, by simp [h_pc], by simp [h_j], Or.inl⟩
  | storeFailed seg rx mem h_pc h_ref h_rx =>
    exact ⟨by constructor <;> rfl, by simp [h_pc], by simp [goOn, RxPc.joined], Or.inl⟩
  | acked m o d b h_pc h_busy h_bad h_send =>
    obtain ⟨out, t, br, l, rfl⟩ := sendCtrl_shape h_send
    obtain ⟨clean, pc, h_eq, h_j⟩ := goOn_shape { c with
      outOctets := out, secSinceTx := t, broken := br, log := l } (if b then .loop else .ret false)
    rw [h_eq]
    exact ⟨by constructor <;> rfl, by simp [h_pc], by simp [h_j], Or.inl⟩
  | handed seg h_pc h_busy h_bad =>
    exact ⟨by constructor <;> rfl, by simp [h_pc], by simp [RxPc.joined], Or.inl⟩
  | reported x reject h_pc =>
    have h_j : (afterReport reject).joined = false := by cases reject <;> rfl
    exact ⟨by constructor <;> rfl, by simp [h_pc], by simp [report, note, h_j], Or.inl⟩
  | stopped say ok bad h_pc =>
    cases say with
    | none =>
      obtain ⟨clean, pc, h_eq, h_j⟩ := goOn_shape { c with tx := tcpv4TxStop c.tx } ok
      rw [afterStop, h_eq]
      exact ⟨by constructor <;> rfl, by simp [h_pc], by simp [h_j], Or.inl⟩
    | some m =>
      exact ⟨by constructor <;> rfl, by simp [h_pc], by simp [afterStop, RxPc.joined], Or.inl⟩
  | said m ok bad o d b h_pc h_send =>
    obtain ⟨out, t, br, l, rfl⟩ := sendCtrl_shape h_send
    obtain ⟨clean, pc, h_eq, h_j⟩ := goOn_shape { c with
      outOctets := out, secSinceTx := t, broken := br, log := l } (if b then ok else bad)
    rw [h_eq]
    exact ⟨by constructor <;> rfl, by simp [h_pc], by simp [h_j], Or.inl⟩
  | failed h_pc => exact ⟨by constructor <;> rfl, by simp [h_pc], by simp [RxPc.joined], Or.inl⟩
  | txStopped h_pc => exact ⟨by constructor <;> rfl, by simp [h_pc], by simp [RxPc.joined], Or.inl⟩
  | joinedXmit h_pc h_xmit =>
    exact ⟨by constructor <;> rfl, by simp [h_pc], fun _ => Or.inr h_xmit, Or.inl⟩
  | dlvStopped h_pc =>
    exact ⟨by constructor <;> rfl, by simp [h_pc], fun _ => Or.inl (by simp [h_pc, RxPc.joined]), Or.inl⟩
  | joinedDlv h_pc h_dlv =>
    exact ⟨by constructor <;> rfl, by simp [h_pc], fun _ => Or.inl (by simp [h_pc, RxPc.joined]), Or.inl⟩
  | closed h_pc =>
    exact ⟨by constructor <;> rfl, by simp [h_pc], fun _ => Or.inl (by simp [h_pc, RxPc.joined]),
      fun _ => Or.inr rfl⟩

/-! ## Transmit thread -/

/-- Where the transmit thread goes once it has let go of a transfer. -/
def afterLetGo (failed : Bool) : Option Xfer → XmitPc
  | none => afterXfer failed
  | some y => .reporting y failed

inductive XmitStep (cfg : SessCfg) (c : Conn) : Conn → Prop where
  | noBuffer (h_pc : c.xmitPc = .starting) : XmitStep cfg c { c with xmitPc := .failing }
  | started (h_pc : c.xmitPc = .starting) : XmitStep cfg c { c with xmitPc := .idle }
  | stopped (h_pc : c.xmitPc = .idle) : XmitStep cfg c { c with xmitPc := .ended }
  | took (x : Xfer) (tx : TxSide) (h_pc : c.xmitPc = .idle) (h_take : xmitTake c.tx = .took x tx) :
      XmitStep cfg c ({ c with tx := tx, xmitPc := .opening x }.note (.took x))
  | unreadable (x : Xfer) (h_pc : c.xmitPc = .opening x ∨ ∃ off, c.xmitPc = .reading x off) :
      XmitStep cfg c { c with xmitPc := .lettingGo x true }
  | opened (x : Xfer) (h_pc : c.xmitPc = .opening x) :
      XmitStep cfg c { c with xmitPc := .reading x 0 }
  | read (x : Xfer) (off : Nat) (h_pc : c.xmitPc = .reading x off) (h_off : off < x.length) :
      XmitStep cfg c { c with
        xmitPc := .writing x off
          (if x.length - off > tcpv4TxbufSize then tcpv4TxbufSize else x.length - off) 0 }
  | complete (x : Xfer) (off : Nat) (h_pc : c.xmitPc = .reading x off) (h_off : x.length ≤ off) :
      XmitStep cfg c { c with xmitPc := .lettingGo x false }
  | uncut (x : Xfer) (off len consumed : Nat) (h_pc : c.xmitPc = .writing x off len consumed)
      (h_more : consumed < len)
      (h_run : cutRun cfg.segmentMtu x len off tcpv4TxSegsPerWrite consumed = none) :
      XmitStep cfg c { c with xmitPc := .lettingGo x true }
  | wrote (x : Xfer) (off len consumed : Nat) (data : Octets) (consumed' : Nat) (o : Outcome)
      (d : Conn) (b : Bool) (h_pc : c.xmitPc = .writing x off len consumed)
      (h_more : consumed < len)
      (h_run : cutRun cfg.segmentMtu x len off tcpv4TxSegsPerWrite consumed =
        some (data, consumed'))
      (h_send : c.send data o = some (d, b)) :
      XmitStep cfg c { d with
        xmitPc := if b then .writing x off len consumed' else .lettingGo x true }
  | bufferDone (x : Xfer) (off len consumed : Nat) (h_pc : c.xmitPc = .writing x off len consumed)
      (h_done : len ≤ consumed) : XmitStep cfg c { c with xmitPc := .checking x (off + len) }
  | abandoned (x : Xfer) (off : Nat) (h_pc : c.xmitPc = .checking x off)
      (h_ref : c.refusedNow x = true) : XmitStep cfg c { c with xmitPc := .lettingGo x false }
  | wentOn (x : Xfer) (off : Nat) (h_pc : c.xmitPc = .checking x off)
      (h_ref : c.refusedNow x = false) : XmitStep cfg c { c with xmitPc := .reading x off }
  | letGo (x : Xfer) (failed : Bool) (tx : TxSide) (done : Option Xfer)
      (h_pc : c.xmitPc = .lettingGo x failed)
      (h_go : xmitLetGo c.tx x.ref failed = (tx, done)) :
      XmitStep cfg c { c with tx := tx, xmitPc := afterLetGo failed done }
  | reported (x : Xfer) (failed : Bool) (h_pc : c.xmitPc = .reporting x failed) :
      XmitStep cfg c ({ c with xmitPc := afterXfer failed }.report x)
  | failed (h_pc : c.xmitPc = .failing) : XmitStep cfg c { c.tcpv4ConnFail with xmitPc := .ended }

/-- **All that a step of the transmit thread can do.** -/
theorem xmitStep_cases {o : Outcome} (h : c.xmitStep cfg o = some c') : XmitStep cfg c c' := by
  unfold Conn.xmitStep at h
  split at h
  · rename_i h_pc
    rcases Outcome.noMem_or h with h | h
    · exact Option.some.inj h ▸ XmitStep.noBuffer h_pc
    · exact Option.some.inj h ▸ XmitStep.started h_pc
  · rename_i h_pc
    split at h
    · simp at h
    · exact Option.some.inj h ▸ XmitStep.stopped h_pc
    · rename_i x tx h_take
      exact Option.some.inj h ▸ XmitStep.took x tx h_pc h_take
  · rename_i x h_pc
    rcases Outcome.err_or h with h | h
    · exact Option.some.inj h ▸ XmitStep.unreadable x (Or.inl h_pc)
    · exact Option.some.inj h ▸ XmitStep.opened x h_pc
  · rename_i x off h_pc
    split at h
    · rename_i h_off
      rcases Outcome.err_or h with h | h
      · exact Option.some.inj h ▸ XmitStep.unreadable x (Or.inr ⟨off, h_pc⟩)
      · exact Option.some.inj h ▸ XmitStep.read x off h_pc h_off
    · rename_i h_off
      exact Option.some.inj h ▸ XmitStep.complete x off h_pc (Nat.not_lt.mp h_off)
  · rename_i x off len consumed h_pc
    split at h
    · rename_i h_more
      split at h
      · rename_i h_run
        exact Option.some.inj h ▸ XmitStep.uncut x off len consumed h_pc h_more h_run
      · rename_i data consumed' h_run
        split at h
        · simp at h
        · rename_i d h_send
          exact Option.some.inj h ▸
            XmitStep.wrote x off len consumed data consumed' o d true h_pc h_more h_run h_send
        · rename_i d h_send
          exact Option.some.inj h ▸
            XmitStep.wrote x off len consumed data consumed' o d false h_pc h_more h_run h_send
    · rename_i h_more
      exact Option.some.inj h ▸
        XmitStep.bufferDone x off len consumed h_pc (Nat.not_lt.mp h_more)
  · rename_i x off h_pc
    split at h
    · rename_i h_ref
      exact Option.some.inj h ▸ XmitStep.abandoned x off h_pc h_ref
    · rename_i h_ref
      exact Option.some.inj h ▸ XmitStep.wentOn x off h_pc (by simpa using h_ref)
  · rename_i x failed h_pc
    split at h
    · rename_i tx h_go
      exact Option.some.inj h ▸ XmitStep.letGo x failed tx none h_pc h_go
    · rename_i tx done h_go
      exact Option.some.inj h ▸ XmitStep.letGo x failed tx (some done) h_pc h_go
  · rename_i x failed h_pc
    exact Option.some.inj h ▸ XmitStep.reported x failed h_pc
  · rename_i h_pc
    exact Option.some.inj h ▸ XmitStep.failed h_pc
  · simp at h

/-- What a step of the transmit thread leaves alone, and that it has not ended before. -/
structure XmitFrame (c c' : Conn) : Prop where
  rxPc : c'.rxPc = c.rxPc
  dlvPc : c'.dlvPc = c.dlvPc
  clockPc : c'.clockPc = c.clockPc
  stopPc : c'.stopPc = c.stopPc
  senders : c'.senders = c.senders
  nextRef : c'.nextRef = c.nextRef
  drained : c'.drained = c.drained
  dead : c'.dead = c.dead
  state : c'.state = c.state
  rx : c'.rx = c.rx
  dlv : c'.dlv = c.dlv
  inOctets : c'.inOctets = c.inOctets
  receiverDone : c'.receiverDone = c.receiverDone

theorem xmitStep_frame (h : XmitStep cfg c c') : XmitFrame c c' ∧ c.xmitPc ≠ .ended := by
  cases h with
  | noBuffer h_pc => exact ⟨by constructor <;> rfl, by simp [h_pc]⟩
  | started h_pc => exact ⟨by constructor <;> rfl, by simp [h_pc]⟩
  | stopped h_pc => exact ⟨by constructor <;> rfl, by simp [h_pc]⟩
  | took x tx h_pc h_take => exact ⟨by constructor <;> rfl, by simp [h_pc]⟩
  | unreadable x h_pc =>
    refine ⟨by constructor <;> rfl, ?_⟩
    rcases h_pc with h_pc | ⟨off, h_pc⟩ <;> simp [h_pc]
  | opened x h_pc => exact ⟨by constructor <;> rfl, by simp [h_pc]⟩
  | read x off h_pc h_off => exact ⟨by constructor <;> rfl, by simp [h_pc]⟩
  | complete x off h_pc h_off => exact ⟨by constructor <;> rfl, by simp [h_pc]⟩
  | uncut x off len consumed h_pc h_more h_run => exact ⟨by constructor <;> rfl, by simp [h_pc]⟩
  | wrote x off len consumed data consumed' o d b h_pc h_more h_run h_send =>
    rcases send_cases h_send with ⟨-, -, rfl⟩ | ⟨-, n, rfl⟩
    · exact ⟨by constructor <;> rfl, by simp [h_pc]⟩
    · exact ⟨by constructor <;> rfl, by simp [h_pc]⟩
  | bufferDone x off len consumed h_pc h_done => exact ⟨by constructor <;> rfl, by simp [h_pc]⟩
  | abandoned x off h_pc h_ref => exact ⟨by constructor <;> rfl, by simp [h_pc]⟩
  | wentOn x off h_pc h_ref => exact ⟨by constructor <;> rfl, by simp [h_pc]⟩
  | letGo x failed tx done h_pc h_go => exact ⟨by constructor <;> rfl, by simp [h_pc]⟩
  | reported x failed h_pc => exact ⟨by constructor <;> rfl, by simp [h_pc]⟩
  | failed h_pc => exact ⟨by constructor <;> rfl, by simp [h_pc]⟩

end IonContrib.Tcpv4
