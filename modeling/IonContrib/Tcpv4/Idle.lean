/-
  IonContrib.Tcpv4.Idle

  What an idle termination can cut off.

  The idle test of `clockTick` looks at `txActive`, `rxActive` and the time
  since the last message that carried data.  A received transfer is none of
  these between its END and its acknowledgement: `rxActive` is cleared before
  the receiver thread waits for the delivery thread, and stays so while BP
  takes the bundle.  A session that has been quiet for `idleSec` ticks by then
  is terminated with the transfer still outstanding.

  The tests are made under the engine lock, the writes of `queueXfer` under
  `txMutex`.  The clock reads `txActive` before `secSinceData`, and `queueXfer`
  writes them in that order before it releases `txMutex`, so a tick that finds
  the session idle comes before the transfer is on the queue.
-/
import IonContrib.Tcpv4.TxReport

namespace IonContrib.Tcpv4

/-! ## What is outstanding -/

def Ctrl.isEndAck : Ctrl → Bool
  | .ack m => hasFlag m.flags tmsgFlagEnd
  | _ => false

/-- The bundles BP has taken whose END has not been acknowledged, oldest first. -/
def unackedStep (l : List Octets) : Event → List Octets
  | .delivered b => l ++ [b]
  | .sent m => if m.isEndAck then l.tail else l
  | _ => l

def unacked (log : List Event) : List Octets := log.foldl unackedStep []

def RxPc.isHanding : RxPc → Bool
  | .handing _ => true
  | _ => false

namespace Conn

/-- A received transfer is past its END and not acknowledged: on its way to the delivery
    thread, with it, or given up by it in a session that has not been failed yet. -/
def handedOver (c : Conn) : Bool :=
  c.rxPc.isHanding || (c.dlv.dlvPending && c.dlvPc != .finishing false) || c.dlvPc == .failing

/-- A transfer of the peer has begun here and is neither refused nor delivered and
    acknowledged. -/
def peerOutstanding (c : Conn) : Bool := (c.rx.rxActive && !c.rx.rxRefused) || c.handedOver

/-- Nothing is outstanding in either direction. -/
structure AllSettled (c : Conn) : Prop where
  queue : c.tx.txQueue.items = []
  window : c.tx.txWindow.items = []
  peer : c.peerOutstanding = false
  acked : unacked c.log = []

/-- A tick that begins an idle termination comes when nothing is outstanding. -/
def TermSpares (cfg : SessCfg) (c : Conn) (a : Act) : Prop :=
  match a with
  | .clock o => ∀ d, step cfg c (.clock o) = some d → d.log = c.log ++ [.idleTerm] → c.AllSettled
  | _ => True

/-- The clock ticks in an established session that neither sends nor receives a transfer and
    in which no data has come or gone for `idleSec` ticks. -/
structure Quiet (cfg : SessCfg) (c : Conn) : Prop where
  ticking : c.clockPc = .idle ∧ c.stopPc = .running ∧ c.drained = false
  open_ : c.failed = false ∧ c.receiverDone = false
  established : c.state = .established ∧ c.termSent = false
  inactive : c.tx.txActive = false ∧ c.rx.rxActive = false
  limit : 0 < cfg.idleSec ∧ cfg.idleSec ≤ c.secSinceData + 1

/-- BP takes every bundle, and its acknowledgement goes out, before the session has been
    quiet for `idleSec` ticks. -/
def Prompt (cfg : SessCfg) (c : Conn) (a : Act) : Prop :=
  match a with
  | .clock _ => c.handedOver = true → ¬ c.Quiet cfg
  | _ => True

end Conn

/-- BP takes nothing after an idle termination, and had all it had taken acknowledged by
    then. -/
def LogSpares (log : List Event) : Prop :=
  ∀ before after, log = before ++ .idleTerm :: after →
    unacked before = [] ∧ ∀ b, .delivered b ∉ after

/-! ## The log -/

/-- An event that is none of the three that matter here. -/
def Event.aside : Event → Bool
  | .delivered _ => false
  | .idleTerm => false
  | .sent m => !m.isEndAck
  | _ => true

theorem unacked_snoc (log : List Event) (e : Event) :
    unacked (log ++ [e]) = unackedStep (unacked log) e := by
  rw [unacked, List.foldl_append]
  rfl

theorem unackedStep_aside {l : List Octets} {e : Event} (h : e.aside = true) :
    unackedStep l e = l := by
  cases e with
  | delivered b => cases h
  | sent m =>
    have h_m : m.isEndAck = false := by simpa [Event.aside] using h
    simp [unackedStep, h_m]
  | returned r ok => rfl
  | took x => rfl
  | reported r b ok => rfl
  | idleTerm => rfl

theorem logSpares_nil : LogSpares [] := by
  intro before after h
  simp at h

/-- What a new event has to obey. -/
theorem LogSpares.snoc {log : List Event} {e : Event} (h : LogSpares log)
    (h_term : e = .idleTerm → unacked log = [])
    (h_del : ∀ b, e = .delivered b → .idleTerm ∉ log) : LogSpares (log ++ [e]) := by
  intro before after h_eq
  rcases List.eq_nil_or_concat after with rfl | ⟨after', e', rfl⟩
  · obtain ⟨rfl, h_e⟩ := List.append_inj' h_eq rfl
    exact ⟨h_term (List.singleton_inj.mp h_e), by simp⟩
  · have h_split : log ++ [e] = (before ++ .idleTerm :: after') ++ [e'] := by
      rw [h_eq]
      simp
    obtain ⟨rfl, h_e⟩ := List.append_inj' h_split rfl
    obtain ⟨h_before, h_after⟩ := h before after' rfl
    refine ⟨h_before, fun b h_mem => ?_⟩
    rw [List.concat_eq_append] at h_mem
    rcases List.mem_append.mp h_mem with h_old | h_new
    · exact h_after b h_old
    · have h_b : e = .delivered b := by
        rw [List.singleton_inj.mp h_e, List.mem_singleton.mp h_new]
      exact h_del b h_b (List.mem_append_right _ List.mem_cons_self)

theorem unacked_append {log es : List Event} (h : ∀ e ∈ es, e.aside = true) :
    unacked (log ++ es) = unacked log := by
  induction es generalizing log with
  | nil => rw [List.append_nil]
  | cons e es ih =>
    have h_e := h e List.mem_cons_self
    have h_es : ∀ e ∈ es, e.aside = true := fun e h_mem => h e (List.mem_cons_of_mem _ h_mem)
    rw [List.append_cons, ih h_es, unacked_snoc, unackedStep_aside h_e]

theorem LogSpares.append {log es : List Event} (h_log : LogSpares log)
    (h : ∀ e ∈ es, e.aside = true) : LogSpares (log ++ es) := by
  induction es generalizing log with
  | nil => rwa [List.append_nil]
  | cons e es ih =>
    have h_e := h e List.mem_cons_self
    have h_es : ∀ e ∈ es, e.aside = true := fun e h_mem => h e (List.mem_cons_of_mem _ h_mem)
    rw [List.append_cons]
    refine ih (h_log.snoc ?_ ?_) h_es
    · rintro rfl
      cases h_e
    · rintro b rfl
      cases h_e

theorem idleTerm_mem_append {log es : List Event} (h : ∀ e ∈ es, e.aside = true)
    (h_mem : .idleTerm ∈ log ++ es) : .idleTerm ∈ log := by
  rcases List.mem_append.mp h_mem with h_log | h_es
  · exact h_log
  · exact absurd (h _ h_es) (by decide)

/-! ## The invariant -/

/-- The receiver thread's place fits the reassembly state, and it has no END
    acknowledgement to say. -/
def RxPc.ok (rx : RxSide) : RxPc → Prop
  | .refusing _ _ => rx.rxActive = true
  | .payload _ => rx.rxActive = true
  | .handing seg => seg.isEnd = true
  | .acking m => (Ctrl.ack m).isEndAck = false
  | .saying m _ _ => m.isEndAck = false
  | .stopping say _ _ => ∀ m ∈ say, m.isEndAck = false
  | .reporting _ reject => ∀ m ∈ reject, m.isEndAck = false
  | _ => True

/-- The delivery thread is dealing with a bundle. -/
def DlvPc.busy : DlvPc → Bool
  | .delivering => true
  | .acking => true
  | .finishing _ => true
  | _ => false

/-- What the delivery thread has still to acknowledge, unless it has given up. -/
def DlvPc.owes (bundle : Octets) (l : List Octets) : DlvPc → Prop
  | .acking => l = [bundle]
  | .finishing true => True
  | .failing => True
  | _ => l = []

namespace Conn

structure IdleOk (c : Conn) : Prop where
  pc : c.rxPc.ok c.rx
  pendingEnd : c.dlv.dlvPending = true → hasFlag c.dlv.dlvFlags tmsgFlagEnd = true
  busy : c.dlvPc.busy = true → c.dlv.dlvPending = true
  owes : c.failed = true ∨ c.dlvPc.owes c.dlv.bundle (unacked c.log)
  log : LogSpares c.log
  /-- From an idle termination on, no transfer can get through to BP any more. -/
  ended : .idleTerm ∈ c.log → c.state = .ending ∧ c.peerOutstanding = false

theorem idleOk_init : Conn.init.IdleOk where
  pc := trivial
  pendingEnd h := by cases h
  busy h := by cases h
  owes := Or.inr rfl
  log := logSpares_nil
  ended h := by cases h

/-- A step that leaves the hand-off alone and, in an ending session, begins no transfer
    that is not refused. -/
structure Aside (c c' : Conn) : Prop where
  dlvPc : c'.dlvPc = c.dlvPc
  dlv : c'.dlv.dlvPending = c.dlv.dlvPending ∧ c'.dlv.dlvFlags = c.dlv.dlvFlags ∧
    c'.dlv.bundle = c.dlv.bundle
  state : c.state = .ending → c'.state = .ending
  failed : c.failed = true → c'.failed = true
  fresh : c.state = .ending →
    (c'.rx.rxActive && !c'.rx.rxRefused || c'.rxPc.isHanding) = true → c.peerOutstanding = true
  log : ∃ es, c'.log = c.log ++ es ∧ ∀ e ∈ es, e.aside = true

theorem IdleOk.aside {c c' : Conn} (h : c.IdleOk) (a : Aside c c') (h_pc : c'.rxPc.ok c'.rx) :
    c'.IdleOk := by
  obtain ⟨h_dlvPc, ⟨h_pending, h_flags, h_bundle⟩, h_state, h_failed, h_fresh, es, h_log, h_es⟩ := a
  refine ⟨h_pc, ?_, ?_, ?_, ?_, ?_⟩
  · rw [h_pending, h_flags]
    exact h.pendingEnd
  · rw [h_pending, h_dlvPc]
    exact h.busy
  · rw [h_dlvPc, h_bundle, h_log, unacked_append h_es]
    exact h.owes.imp_left h_failed
  · rw [h_log]
    exact h.log.append h_es
  · rw [h_log]
    intro h_mem
    obtain ⟨h_ending, h_none⟩ := h.ended (idleTerm_mem_append h_es h_mem)
    refine ⟨h_state h_ending, ?_⟩
    have h_rx : (c'.rx.rxActive && !c'.rx.rxRefused || c'.rxPc.isHanding) ≠ true := by
      intro h_some
      rw [h_fresh h_ending h_some] at h_none
      cases h_none
    simp only [peerOutstanding, handedOver, Bool.or_eq_false_iff] at h_none
    simp only [Bool.not_eq_true, Bool.or_eq_false_iff] at h_rx
    simp only [peerOutstanding, handedOver, h_rx.1, h_rx.2, h_dlvPc, h_pending, h_none,
      Bool.or_false]

/-- A step that leaves reassembly alone begins no transfer. -/
theorem aside_of_rx {c c' : Conn} (h_rx : c'.rx = c.rx)
    (h_pc : c'.rxPc.isHanding = true → c.rxPc.isHanding = true) (h_dlvPc : c'.dlvPc = c.dlvPc)
    (h_dlv : c'.dlv.dlvPending = c.dlv.dlvPending ∧ c'.dlv.dlvFlags = c.dlv.dlvFlags ∧
      c'.dlv.bundle = c.dlv.bundle)
    (h_state : c.state = .ending → c'.state = .ending)
    (h_failed : c.failed = true → c'.failed = true)
    (h_log : ∃ es, c'.log = c.log ++ es ∧ ∀ e ∈ es, e.aside = true) : Aside c c' := by
  refine ⟨h_dlvPc, h_dlv, h_state, h_failed, fun _ h_some => ?_, h_log⟩
  rw [h_rx] at h_some
  rcases Bool.or_eq_true_iff.mp h_some with h_open | h_hand
  · simp [peerOutstanding, h_open]
  · simp [peerOutstanding, handedOver, h_pc h_hand]

theorem no_events (l : List Event) : ∃ es, l = l ++ es ∧ ∀ e ∈ es, e.aside = true :=
  ⟨[], (List.append_nil l).symm, by simp⟩

/-- What the receiver and the delivery thread share, and the log. -/
def rxView (c : Conn) : RxSide × DlvSide × DlvPc × SessState × Bool × List Event :=
  (c.rx, c.dlv, c.dlvPc, c.state, c.failed, c.log)

theorem aside_of_view {c c' : Conn} (h : c'.rxView = c.rxView)
    (h_pc : c'.rxPc.isHanding = true → c.rxPc.isHanding = true) : Aside c c' := by
  simp only [rxView, Prod.mk.injEq] at h
  obtain ⟨h_rx, h_dlv, h_dlvPc, h_state, h_failed, h_log⟩ := h
  refine aside_of_rx h_rx h_pc h_dlvPc ?_ ?_ ?_ ?_
  · rw [h_dlv]
    exact ⟨rfl, rfl, rfl⟩
  · rw [h_state]
    exact fun h => h
  · rw [h_failed]
    exact fun h => h
  · rw [h_log]
    exact no_events c.log

variable {cfg : SessCfg} {c c' : Conn}

theorem aside_sendCtrl {m : Ctrl} {o : Outcome} {b : Bool} (h : c.sendCtrl m o = some (c', b))
    (h_m : m.isEndAck = false) {pc : RxPc} {clean : Bool}
    (h_pc : pc.isHanding = true → c.rxPc.isHanding = true) :
    Aside c { c' with cleanClose := clean, rxPc := pc } := by
  rcases sendCtrl_cases h with ⟨-, -, rfl⟩ | ⟨-, n, rfl⟩
  · exact aside_of_rx rfl h_pc rfl ⟨rfl, rfl, rfl⟩ (fun h => h) (fun h => h)
      ⟨[.sent m], rfl, by simp [Event.aside, h_m]⟩
  · exact aside_of_rx rfl h_pc rfl ⟨rfl, rfl, rfl⟩ (fun h => h) (fun h => h) (no_events c.log)

/-! ## Steps of the receiver thread -/

theorem afterTxSection_aside {tx : TxSide} {done : Option Xfer} {reject : Option Ctrl}
    (h : ∀ m ∈ reject, m.isEndAck = false) :
    Aside c (c.afterTxSection tx done reject) ∧
      (c.afterTxSection tx done reject).rxPc.ok (c.afterTxSection tx done reject).rx := by
  cases done with
  | some x => exact ⟨aside_of_view rfl (by simp [afterTxSection, RxPc.isHanding]), h⟩
  | none =>
    cases reject with
    | some m =>
      exact ⟨aside_of_view rfl (by simp [afterTxSection, sayAnyway, RxPc.isHanding]), h m rfl⟩
    | none => exact ⟨aside_of_view rfl (by simp [afterTxSection, RxPc.isHanding]), trivial⟩

theorem goOn_aside (c : Conn) (next : RxNext) :
    Aside c (c.goOn next) ∧ (c.goOn next).rxPc.ok (c.goOn next).rx := by
  cases next with
  | loop => exact ⟨aside_of_view rfl (by simp [goOn, RxPc.isHanding]), trivial⟩
  | ret clean => exact ⟨aside_of_view rfl (by simp [goOn, RxPc.isHanding]), trivial⟩

/-- A short message on the way to the next one, or to the end of the loop. -/
theorem goOn_sendCtrl {m : Ctrl} {o : Outcome} {d : Conn} {b : Bool}
    (h : c.sendCtrl m o = some (d, b)) (h_m : m.isEndAck = false) (next : RxNext) :
    Aside c (d.goOn next) ∧ (d.goOn next).rxPc.ok (d.goOn next).rx := by
  cases next with
  | loop => exact ⟨@aside_sendCtrl c d m o b h h_m .loop d.cleanClose (by simp [RxPc.isHanding]), trivial⟩
  | ret clean => exact ⟨aside_sendCtrl h h_m (by simp [RxPc.isHanding]), trivial⟩

theorem segmentCheckMru_open {cfg : RxCfg} {rx : RxSide} {seg : XferSegment} :
    ((segmentCheckMru cfg rx seg).1.rxActive && !(segmentCheckMru cfg rx seg).1.rxRefused) =
      true → (rx.rxActive && !rx.rxRefused) = true := by
  unfold segmentCheckMru
  split
  · simp
  · exact fun h => h

/-- A START is refused in an ending session. -/
theorem segmentAdmit_ending {cfg : RxCfg} {rx : RxSide} {seg : XferSegment} {mem : Bool} :
    ((segmentAdmit cfg true rx seg mem).1.rxActive &&
      !(segmentAdmit cfg true rx seg mem).1.rxRefused) = true →
      (rx.rxActive && !rx.rxRefused) = true := by
  unfold segmentAdmit
  split
  · exact fun h => h
  split
  · split
    · exact fun h => h
    · simp
  split
  · exact fun h => h
  · exact segmentCheckMru_open

theorem segmentCheckMru_active {cfg : RxCfg} {rx rx' : RxSide} {seg : XferSegment}
    {verdict : Admit} (h_active : rx.rxActive = true)
    (h : segmentCheckMru cfg rx seg = (rx', verdict)) :
    (∀ m, verdict ≠ .fail m) ∧ rx'.rxActive = true := by
  rcases segmentCheckMru_cases h with ⟨rfl, rfl⟩ | ⟨rfl, rfl⟩
  · exact ⟨by simp, h_active⟩
  · exact ⟨by simp, h_active⟩

/-- A segment fails the session with a message that acknowledges nothing, or there is an
    active transfer after it. -/
theorem segmentAdmit_active {cfg : RxCfg} {ending mem : Bool} {rx rx' : RxSide}
    {seg : XferSegment} {verdict : Admit} (h : segmentAdmit cfg ending rx seg mem = (rx', verdict)) :
    (∃ m, verdict = .fail m ∧ m.isEndAck = false) ∨
      ((∀ m, verdict ≠ .fail m) ∧ rx'.rxActive = true) := by
  unfold segmentAdmit at h
  split at h
  · exact Or.inl ⟨_, (Prod.mk.inj h).2.symm, rfl⟩
  split at h
  · split at h
    · exact Or.inl ⟨_, (Prod.mk.inj h).2.symm, rfl⟩
    split at h
    · obtain ⟨rfl, rfl⟩ := Prod.mk.inj h
      exact Or.inr ⟨by simp, rfl⟩
    split at h
    · obtain ⟨rfl, rfl⟩ := Prod.mk.inj h
      exact Or.inr ⟨by simp, rfl⟩
    split at h
    · exact Or.inr (segmentCheckMru_active rfl h)
    split at h
    · obtain ⟨rfl, rfl⟩ := Prod.mk.inj h
      exact Or.inr ⟨by simp, rfl⟩
    dsimp only at h
    split at h
    · exact Or.inl ⟨_, (Prod.mk.inj h).2.symm, rfl⟩
    · rename_i rx₁ h_some
      obtain ⟨-, -, h_act, -⟩ := rxReserve_spec (Nat.zero_le _) h_some
      exact Or.inr (segmentCheckMru_active h_act h)
  split at h
  · exact Or.inl ⟨_, (Prod.mk.inj h).2.symm, rfl⟩
  · rename_i h_out
    simp only [Bool.or_eq_true, Bool.not_eq_true', not_or, Bool.not_eq_false] at h_out
    exact Or.inr (segmentCheckMru_active h_out.1 h)

theorem handleSegmentHdr_aside (seg : XferSegment) (o : Outcome) :
    Aside c (c.handleSegmentHdr cfg seg o) ∧
      (c.handleSegmentHdr cfg seg o).rxPc.ok (c.handleSegmentHdr cfg seg o).rx := by
  obtain ⟨rx, verdict, h_adm⟩ : ∃ rx verdict, segmentAdmit cfg.rx (decide (c.state = .ending))
      c.rx seg (decide (o ≠ .noMem)) = (rx, verdict) := ⟨_, _, rfl⟩
  have h_aside : ∀ pc : RxPc, pc.isHanding = false → Aside c { c with rx := rx, rxPc := pc } := by
    intro pc h_pc
    refine ⟨rfl, ⟨rfl, rfl, rfl⟩, fun h => h, fun h => h, ?_, no_events c.log⟩
    intro h_ending h_some
    have h_true : decide (c.state = .ending) = true := decide_eq_true h_ending
    rw [h_true] at h_adm
    simp only [h_pc, Bool.or_false] at h_some
    have h_open := @segmentAdmit_ending cfg.rx c.rx seg (decide (o ≠ .noMem))
    rw [h_adm] at h_open
    simp only [peerOutstanding, h_open h_some, Bool.true_or]
  have h_active := segmentAdmit_active h_adm
  cases verdict with
  | fail m =>
    have h_eq : c.handleSegmentHdr cfg seg o =
        { c with rx := rx, rxPc := sayAnyway m (.ret false) } := by
      simp only [handleSegmentHdr, h_adm]
    rw [h_eq]
    refine ⟨h_aside _ rfl, ?_⟩
    rcases h_active with ⟨m', h_m, h_end⟩ | ⟨h_not, -⟩
    · cases h_m
      exact h_end
    · exact absurd rfl (h_not m)
  | refuse reason =>
    have h_eq : c.handleSegmentHdr cfg seg o =
        { c with rx := rx, rxPc := .refusing reason seg } := by
      simp only [handleSegmentHdr, h_adm]
    rw [h_eq]
    refine ⟨h_aside _ rfl, ?_⟩
    rcases h_active with ⟨m', h_m, -⟩ | ⟨-, h_act⟩
    · cases h_m
    · exact h_act
  | accept =>
    have h_eq : c.handleSegmentHdr cfg seg o = { c with rx := rx, rxPc := .payload seg } := by
      simp only [handleSegmentHdr, h_adm]
    rw [h_eq]
    refine ⟨h_aside _ rfl, ?_⟩
    rcases h_active with ⟨m', h_m, -⟩ | ⟨-, h_act⟩
    · cases h_m
    · exact h_act

/-- The END branch hands over only what is not refused, and acknowledges no END itself. -/
theorem finishSegment_aside (seg : XferSegment) (h_active : c.rx.rxActive = true) :
    Aside c (c.finishSegment seg) ∧ (c.finishSegment seg).rxPc.ok (c.finishSegment seg).rx := by
  have h_begun : c.rx.rxRefused = false → c.peerOutstanding = true := by
    intro h_ref
    simp [peerOutstanding, h_active, h_ref]
  rcases finishSegment_cases c seg with ⟨h_ref, h_eq⟩ | ⟨h_ref, h_end, h_eq⟩ | ⟨h_ref, h_end, h_eq⟩
  · rw [h_eq]
    refine ⟨⟨rfl, ⟨rfl, rfl, rfl⟩, fun h => h, fun h => h, ?_, no_events c.log⟩, trivial⟩
    intro _ h_some
    cases h_end : seg.isEnd with
    | true => simp [h_end, RxPc.isHanding] at h_some
    | false => simp [h_end, h_ref, RxPc.isHanding] at h_some
  · rw [h_eq]
    exact ⟨⟨rfl, ⟨rfl, rfl, rfl⟩, fun h => h, fun h => h, fun _ _ => h_begun h_ref,
      no_events c.log⟩, h_end⟩
  · rw [h_eq]
    exact ⟨⟨rfl, ⟨rfl, rfl, rfl⟩, fun h => h, fun h => h, fun _ _ => h_begun h_ref,
      no_events c.log⟩, h_end⟩

/-- Two asides in a row, the first of which only takes octets or grows the buffer. -/
theorem aside_after {d : Conn} (h : Aside d c') (h_view : (d.dlv, d.dlvPc, d.state, d.failed, d.log) =
    (c.dlv, c.dlvPc, c.state, c.failed, c.log))
    (h_peer : d.peerOutstanding = true → c.peerOutstanding = true) : Aside c c' := by
  simp only [Prod.mk.injEq] at h_view
  obtain ⟨h_dlv, h_dlvPc, h_state, h_failed, h_log⟩ := h_view
  obtain ⟨a₁, a₂, a₃, a₄, a₅, a₆⟩ := h
  rw [h_dlvPc] at a₁
  rw [h_dlv] at a₂
  rw [h_state] at a₃ a₅
  rw [h_failed] at a₄
  rw [h_log] at a₆
  exact ⟨a₁, a₂, a₃, a₄, fun h h' => h_peer (a₅ h h'), a₆⟩

theorem rxReserve_flags {rx rx' : RxSide} {want : Nat} {mem : Bool}
    (h : rxReserve rx want mem = some rx') :
    rx'.rxActive = rx.rxActive ∧ rx'.rxRefused = rx.rxRefused := by
  unfold rxReserve at h
  split at h
  · rw [← Option.some.inj h]
    exact ⟨rfl, rfl⟩
  split at h
  · cases h
  · rw [← Option.some.inj h]
    exact ⟨rfl, rfl⟩

theorem handover_idleOk (h : c.IdleOk) {seg : XferSegment} (h_pc : c.rxPc = .handing seg)
    (h_busy : c.dlv.busy = false) (h_bad : c.dlv.bad = false) : IdleOk { c with
      rx := (handOverTransfer c.rx c.dlv seg).1
      dlv := (handOverTransfer c.rx c.dlv seg).2
      rxPc := .loop } := by
  have h_pending : c.dlv.dlvPending = false := by
    simp only [DlvSide.bad, Bool.or_eq_false_iff] at h_bad
    simpa [DlvSide.busy, h_bad.1, h_bad.2] using h_busy
  have h_end : seg.isEnd = true := by
    have h_ok := h.pc
    rwa [h_pc] at h_ok
  have h_free : c.dlvPc.busy = false := by
    cases h_b : c.dlvPc.busy with
    | false => rfl
    | true => rw [h.busy h_b] at h_pending; cases h_pending
  refine ⟨trivial, fun _ => h_end, fun _ => rfl, ?_, h.log, ?_⟩
  · refine h.owes.imp_right fun h_owes => ?_
    cases h_dlv : c.dlvPc with
    | acking => rw [h_dlv] at h_free; cases h_free
    | idle => rwa [h_dlv] at h_owes
    | delivering => rw [h_dlv] at h_free; cases h_free
    | finishing failed => rw [h_dlv] at h_free; cases h_free
    | failing => trivial
    | ended => rwa [h_dlv] at h_owes
  · intro h_mem
    have h_none := (h.ended h_mem).2
    simp [peerOutstanding, handedOver, h_pc, RxPc.isHanding] at h_none

/-- Taking the octets of a message away first changes nothing. -/
theorem aside_taken {rest : Octets} (h : Aside { c with inOctets := rest } c') : Aside c c' :=
  aside_after h rfl (fun h => h)

theorem recv_idleOk (h : c.IdleOk) (h_step : RecvStep cfg c c') : c'.IdleOk := by
  have h_ok := h.pc
  cases h_step with
  | quit clean h_pc h_clean =>
    exact h.aside (goOn_aside c _).1 (goOn_aside c _).2
  | type type rest h_pc h_in => exact h.aside (aside_of_view rfl (by simp [RxPc.isHanding])) trivial
  | segment seg rest o h_pc h_in =>
    obtain ⟨h_aside, h_pc'⟩ := @handleSegmentHdr_aside cfg { c with inOctets := rest } seg o
    exact h.aside (aside_taken h_aside) h_pc'
  | ack m rest h_pc h_in =>
    have h_rej : ∀ n ∈ (if (xferAckSection c.tx m).2.2 then some (rejectUnexpected tmsgXferAck)
        else none), n.isEndAck = false := by
      split
      · rintro _ ⟨⟩
        rfl
      · simp
    obtain ⟨h_aside, h_pc'⟩ := @afterTxSection_aside { c with inOctets := rest }
      (xferAckSection c.tx m).1 (xferAckSection c.tx m).2.1 _ h_rej
    exact h.aside (aside_taken h_aside) h_pc'
  | refuse m rest h_pc h_in =>
    have h_rej : ∀ n ∈ (if (xferRefuseSection c.tx m).2.2 then none
        else some (rejectUnexpected tmsgXferRefuse)), n.isEndAck = false := by
      split
      · simp
      · rintro _ ⟨⟩
        rfl
    obtain ⟨h_aside, h_pc'⟩ := @afterTxSection_aside { c with inOctets := rest }
      (xferRefuseSection c.tx m).1 (xferRefuseSection c.tx m).2.1 _ h_rej
    exact h.aside (aside_taken h_aside) h_pc'
  | keepalive h_pc => exact h.aside (goOn_aside c _).1 (goOn_aside c _).2
  | reject m rest h_pc h_in =>
    unfold handleReject
    split
    · refine h.aside (aside_of_rx rfl (by simp [RxPc.isHanding]) rfl ⟨rfl, rfl, rfl⟩
        (fun _ => rfl) (fun h => h) (no_events c.log)) ?_
      · show ∀ m ∈ _, _
        split
        · simp
        · rintro _ ⟨⟩
          rfl
    · exact h.aside (aside_of_view rfl (by simp [RxPc.isHanding])) trivial
  | sessTerm m rest h_pc h_in =>
    have h_hand : ({ c with inOctets := rest }.handleSessTerm m).rxPc.isHanding = false := by
      unfold handleSessTerm
      dsimp only
      split <;> rfl
    refine h.aside (aside_of_rx rfl (by simp [h_hand]) rfl ⟨rfl, rfl, rfl⟩ (fun _ => rfl)
      (fun h => h) (no_events c.log)) ?_
    unfold handleSessTerm
    dsimp only
    split
    · rintro _ ⟨⟩
      rfl
    · intro _ h_mem
      cases h_mem
  | unknown type m h_pc h_type h_m =>
    obtain ⟨rej, rfl⟩ := h_m
    exact h.aside (aside_of_view rfl (by simp [sayAnyway, RxPc.isHanding])) rfl
  | refuseUnsaid reason seg h_pc h_bad =>
    rw [h_pc] at h_ok
    exact h.aside (aside_of_view rfl (by simp [RxPc.isHanding])) h_ok
  | refuseSaid reason seg o d b h_pc h_busy h_bad h_send =>
    rw [h_pc] at h_ok
    obtain ⟨out, t, br, l, h_d⟩ := sendCtrl_shape h_send
    refine h.aside (aside_sendCtrl h_send rfl (by simp [RxPc.isHanding])) ?_
    rw [h_d]
    exact h_ok
  | drained seg data rest h_pc h_ref h_len h_in =>
    rw [h_pc] at h_ok
    obtain ⟨h_aside, h_pc'⟩ := @finishSegment_aside { c with inOctets := rest } seg h_ok
    exact h.aside (aside_taken h_aside) h_pc'
  | exhausted seg h_pc h_ref =>
    exact h.aside (aside_of_view rfl (by simp [sayAnyway, RxPc.isHanding])) rfl
  | stored seg rx mem data rest h_pc h_ref h_rx h_len h_in =>
    rw [h_pc] at h_ok
    obtain ⟨h_act, h_ref'⟩ := rxReserve_flags h_rx
    obtain ⟨h_aside, h_pc'⟩ := @finishSegment_aside
      { c with rx := segmentStore rx data, inOctets := rest } seg (by
        show rx.rxActive = true
        rw [h_act]
        exact h_ok)
    refine h.aside (aside_after h_aside rfl ?_) h_pc'
    intro h_peer
    simpa [peerOutstanding, handedOver, segmentStore, h_act, h_ref'] using h_peer
  | storeFailed seg rx mem h_pc h_ref h_rx =>
    obtain ⟨h_act, h_ref'⟩ := rxReserve_flags h_rx
    obtain ⟨h_aside, h_pc'⟩ := goOn_aside { c with rx := rx } (.ret false)
    refine h.aside (aside_after h_aside rfl ?_) h_pc'
    intro h_peer
    simpa [peerOutstanding, handedOver, h_act, h_ref'] using h_peer
  | acked m o d b h_pc h_busy h_bad h_send =>
    rw [h_pc] at h_ok
    exact h.aside (goOn_sendCtrl h_send h_ok _).1 (goOn_sendCtrl h_send h_ok _).2
  | handed seg h_pc h_busy h_bad => exact handover_idleOk h h_pc h_busy h_bad
  | reported x reject h_pc =>
    rw [h_pc] at h_ok
    have h_hand : (afterReport reject).isHanding = false := by cases reject <;> rfl
    refine h.aside (aside_of_rx rfl (by simp [report, note, h_hand]) rfl ⟨rfl, rfl, rfl⟩
      (fun h => h) (fun h => h) ⟨[.reported _ _ _], rfl, by simp [Event.aside]⟩) ?_
    · cases reject with
      | none => trivial
      | some m => exact h_ok m rfl
  | stopped say ok bad h_pc =>
    rw [h_pc] at h_ok
    cases say with
    | none =>
      obtain ⟨h_aside, h_pc'⟩ := goOn_aside { c with tx := tcpv4TxStop c.tx } ok
      exact h.aside (aside_after h_aside rfl (fun h => h)) h_pc'
    | some m => exact h.aside (aside_of_view rfl (by simp [afterStop, RxPc.isHanding])) (h_ok m rfl)
  | said m ok bad o d b h_pc h_send =>
    rw [h_pc] at h_ok
    exact h.aside (goOn_sendCtrl h_send h_ok _).1 (goOn_sendCtrl h_send h_ok _).2
  | failed h_pc =>
    exact h.aside (aside_of_rx rfl (by simp [RxPc.isHanding]) rfl ⟨rfl, rfl, rfl⟩ (fun h => h)
      (fun _ => rfl) (no_events c.log)) trivial
  | txStopped h_pc => exact h.aside (aside_of_view rfl (by simp [RxPc.isHanding])) trivial
  | joinedXmit h_pc h_xmit => exact h.aside (aside_of_view rfl (by simp [RxPc.isHanding])) trivial
  | dlvStopped h_pc =>
    exact h.aside (aside_of_rx rfl (by simp [RxPc.isHanding]) rfl ⟨rfl, rfl, rfl⟩ (fun h => h)
      (fun h => h) (no_events c.log)) trivial
  | joinedDlv h_pc h_dlv => exact h.aside (aside_of_view rfl (by simp [RxPc.isHanding])) trivial
  | closed h_pc =>
    exact h.aside (aside_of_rx rfl (by simp [RxPc.isHanding]) rfl ⟨rfl, rfl, rfl⟩ (fun h => h)
      (fun _ => rfl) (no_events c.log)) trivial

/-! ## Steps of the other threads -/

/-- What a step of a thread that has nothing to do with reception keeps. -/
theorem IdleOk.elsewhere (h : c.IdleOk) (h_view : (c'.rx, c'.dlvPc, c'.rxPc, c'.state) =
      (c.rx, c.dlvPc, c.rxPc, c.state))
    (h_dlv : c'.dlv.dlvPending = c.dlv.dlvPending ∧ c'.dlv.dlvFlags = c.dlv.dlvFlags ∧
      c'.dlv.bundle = c.dlv.bundle)
    (h_failed : c.failed = true → c'.failed = true)
    (h_log : ∃ es, c'.log = c.log ++ es ∧ ∀ e ∈ es, e.aside = true) : c'.IdleOk := by
  simp only [Prod.mk.injEq] at h_view
  obtain ⟨h_rx, h_dlvPc, h_rxPc, h_state⟩ := h_view
  refine h.aside (aside_of_rx h_rx (by simp [h_rxPc]) h_dlvPc h_dlv (by simp [h_state]) h_failed
    h_log) ?_
  rw [h_rx, h_rxPc]
  exact h.pc

theorem sendCtrl_elsewhere {m : Ctrl} {o : Outcome} {d : Conn} {b : Bool}
    (h : c.sendCtrl m o = some (d, b)) (h_m : m.isEndAck = false) :
    (d.rx, d.dlvPc, d.rxPc, d.state) = (c.rx, c.dlvPc, c.rxPc, c.state) ∧ d.dlv = c.dlv ∧
      d.failed = c.failed ∧ ∃ es, d.log = c.log ++ es ∧ ∀ e ∈ es, e.aside = true := by
  rcases sendCtrl_cases h with ⟨-, -, rfl⟩ | ⟨-, n, rfl⟩
  · exact ⟨rfl, rfl, rfl, [.sent m], rfl, by simp [Event.aside, h_m]⟩
  · exact ⟨rfl, rfl, rfl, no_events c.log⟩

theorem one_event (l : List Event) {e : Event} (h : e.aside = true) :
    ∃ es, l ++ [e] = l ++ es ∧ ∀ e ∈ es, e.aside = true :=
  ⟨[e], rfl, by simpa using h⟩

theorem call_idleOk (h : c.IdleOk) {bundle : Octets} {o : Outcome}
    (h_step : c.call cfg bundle o = some c') : c'.IdleOk := by
  unfold call at h_step
  split at h_step
  · cases h_step
  dsimp only at h_step
  split at h_step
  · rw [← Option.some.inj h_step]
    exact h.elsewhere rfl ⟨rfl, rfl, rfl⟩ (fun h => h) (one_event c.log rfl)
  · rcases Outcome.noMem_or h_step with h_step | h_step
    · rw [← Option.some.inj h_step]
      exact h.elsewhere rfl ⟨rfl, rfl, rfl⟩ (fun h => h) (one_event c.log rfl)
    · rw [← Option.some.inj h_step]
      exact h.elsewhere rfl ⟨rfl, rfl, rfl⟩ (fun h => h) (no_events c.log)

theorem room_idleOk (h : c.IdleOk) {r : Nat} (h_step : c.room cfg r = some c') : c'.IdleOk := by
  unfold room at h_step
  split at h_step
  · cases h_step
  split at h_step
  · cases h_step
  dsimp only at h_step
  split at h_step
  · rw [← Option.some.inj h_step]
    exact h.elsewhere rfl ⟨rfl, rfl, rfl⟩ (fun h => h) (one_event c.log rfl)
  · rw [← Option.some.inj h_step]
    exact h.elsewhere rfl ⟨rfl, rfl, rfl⟩ (fun h => h) (one_event c.log rfl)

theorem timeout_idleOk (h : c.IdleOk) {r : Nat} (h_step : c.timeout cfg r = some c') :
    c'.IdleOk := by
  unfold timeout at h_step
  split at h_step
  · cases h_step
  split at h_step
  · rw [← Option.some.inj h_step]
    exact h.elsewhere rfl ⟨rfl, rfl, rfl⟩ (fun h => h) (one_event c.log rfl)
  · cases h_step

theorem xmit_idleOk (h : c.IdleOk) (h_step : XmitStep cfg c c') : c'.IdleOk := by
  have h_frame := (xmitStep_frame h_step).1
  have h_dlv : c'.dlv.dlvPending = c.dlv.dlvPending ∧ c'.dlv.dlvFlags = c.dlv.dlvFlags ∧
      c'.dlv.bundle = c.dlv.bundle := by
    rw [h_frame.dlv]
    exact ⟨rfl, rfl, rfl⟩
  have h_rest : (c.failed = true → c'.failed = true) ∧
      ∃ es, c'.log = c.log ++ es ∧ ∀ e ∈ es, e.aside = true := by
    cases h_step with
    | took x tx h_pc h_take => exact ⟨fun h => h, one_event c.log rfl⟩
    | reported x failed h_pc => exact ⟨fun h => h, one_event c.log rfl⟩
    | failed h_pc => exact ⟨fun _ => rfl, no_events c.log⟩
    | wrote x off len consumed data consumed' o d b h_pc h_more h_run h_send =>
      rcases send_cases h_send with ⟨-, -, rfl⟩ | ⟨-, n, rfl⟩
      · exact ⟨fun h => h, no_events c.log⟩
      · exact ⟨fun h => h, no_events c.log⟩
    | noBuffer h_pc => exact ⟨fun h => h, no_events c.log⟩
    | started h_pc => exact ⟨fun h => h, no_events c.log⟩
    | stopped h_pc => exact ⟨fun h => h, no_events c.log⟩
    | unreadable x h_pc => exact ⟨fun h => h, no_events c.log⟩
    | opened x h_pc => exact ⟨fun h => h, no_events c.log⟩
    | read x off h_pc h_off => exact ⟨fun h => h, no_events c.log⟩
    | complete x off h_pc h_off => exact ⟨fun h => h, no_events c.log⟩
    | uncut x off len consumed h_pc h_more h_run => exact ⟨fun h => h, no_events c.log⟩
    | bufferDone x off len consumed h_pc h_done => exact ⟨fun h => h, no_events c.log⟩
    | abandoned x off h_pc h_ref => exact ⟨fun h => h, no_events c.log⟩
    | wentOn x off h_pc h_ref => exact ⟨fun h => h, no_events c.log⟩
    | letGo x failed tx done h_pc h_go => exact ⟨fun h => h, no_events c.log⟩
  refine h.elsewhere ?_ h_dlv h_rest.1 h_rest.2
  rw [h_frame.rx, h_frame.dlvPc, h_frame.rxPc, h_frame.state]

theorem stop_idleOk (h : c.IdleOk) {o : Outcome} (h_step : c.stopStep o = some c') : c'.IdleOk := by
  unfold stopStep at h_step
  split at h_step
  · split at h_step
    · rw [← Option.some.inj h_step]
      exact h.elsewhere rfl ⟨rfl, rfl, rfl⟩ (fun h => h) (no_events c.log)
    · cases h_step
  · rw [← Option.some.inj h_step]
    exact h.elsewhere rfl ⟨rfl, rfl, rfl⟩ (fun h => h) (no_events c.log)
  · rw [← Option.some.inj h_step]
    exact h.elsewhere rfl ⟨rfl, rfl, rfl⟩ (fun h => h) (no_events c.log)
  · rw [← Option.some.inj h_step]
    exact h.elsewhere rfl ⟨rfl, rfl, rfl⟩ (fun h => h) (no_events c.log)
  · obtain ⟨⟨d, b⟩, h_send, rfl⟩ := Option.map_eq_some_iff.mp h_step
    obtain ⟨h_view, h_dlv, h_failed, h_log⟩ := sendCtrl_elsewhere h_send rfl
    exact h.elsewhere h_view (by simp [h_dlv]) (by simp [h_failed]) h_log
  · rw [← Option.some.inj h_step]
    exact h.elsewhere rfl ⟨rfl, rfl, rfl⟩ (fun _ => rfl) (no_events c.log)
  · cases h_step

theorem free_idleOk (h : c.IdleOk) (h_step : c.freeStep = some c') : c'.IdleOk := by
  unfold freeStep at h_step
  split at h_step
  · split at h_step
    · cases h_step
    · rw [← Option.some.inj h_step]
      exact h.elsewhere rfl ⟨rfl, rfl, rfl⟩ (fun h => h) (one_event c.log rfl)
  split at h_step
  · rw [← Option.some.inj h_step]
    exact h.elsewhere rfl ⟨rfl, rfl, rfl⟩ (fun h => h) (no_events c.log)
  · cases h_step

/-- The delivery thread at work on a bundle means that a transfer has been handed over. -/
theorem IdleOk.handedOver_of_busy (h : c.IdleOk) (h_busy : c.dlvPc.busy = true)
    (h_pc : c.dlvPc ≠ .finishing false) : c.handedOver = true := by
  have h_ne : (c.dlvPc != .finishing false) = true := by simpa using h_pc
  simp [handedOver, h.busy h_busy, h_ne]

theorem dlv_idleOk (h : c.IdleOk) {o : Outcome} (h_step : c.dlvStep o = some c') : c'.IdleOk := by
  -- No idle termination has begun while something is handed over.
  have h_early : c.handedOver = true → .idleTerm ∉ c.log := by
    intro h_over h_mem
    have h_none := (h.ended h_mem).2
    simp [peerOutstanding, h_over] at h_none
  unfold dlvStep at h_step
  split at h_step
  · rename_i h_pc
    have h_owes := h.owes
    rw [h_pc] at h_owes
    split at h_step
    · rename_i h_pending
      have h_over : c.handedOver = true := by simp [handedOver, h_pending, h_pc]
      rw [← Option.some.inj h_step]
      exact ⟨h.pc, h.pendingEnd, fun _ => h_pending, h_owes, h.log,
        fun h_mem => absurd h_mem (h_early h_over)⟩
    split at h_step
    · rename_i h_pending _
      rw [← Option.some.inj h_step]
      refine ⟨h.pc, h.pendingEnd, fun h_busy => (by cases h_busy), h_owes, h.log, fun h_mem => ?_⟩
      obtain ⟨h_ending, h_none⟩ := h.ended h_mem
      refine ⟨h_ending, ?_⟩
      simpa [peerOutstanding, handedOver, h_pending, h_pc] using h_none
    · cases h_step
  · rename_i h_pc
    have h_owes := h.owes
    rw [h_pc] at h_owes
    have h_pending : c.dlv.dlvPending = true := h.busy (by rw [h_pc]; rfl)
    have h_over := h.handedOver_of_busy (by rw [h_pc]; rfl) (by simp [h_pc])
    rcases Outcome.err_or h_step with h_step | h_step
    · rw [← Option.some.inj h_step]
      exact ⟨h.pc, h.pendingEnd, fun _ => h_pending, Or.inr trivial, h.log,
        fun h_mem => absurd h_mem (h_early h_over)⟩
    · rw [← Option.some.inj h_step]
      refine ⟨h.pc, h.pendingEnd, fun _ => h_pending, ?_, ?_, fun h_mem => ?_⟩
      · refine h_owes.imp_right fun h_nil => ?_
        show unacked (c.log ++ [.delivered c.dlv.bundle]) = [c.dlv.bundle]
        rw [unacked_snoc, show unacked c.log = [] from h_nil]
        rfl
      · exact h.log.snoc (by simp) fun _ _ => h_early h_over
      · rcases List.mem_append.mp h_mem with h_mem | h_mem
        · exact absurd h_mem (h_early h_over)
        · simp at h_mem
  · rename_i h_pc
    have h_owes := h.owes
    rw [h_pc] at h_owes
    have h_pending : c.dlv.dlvPending = true := h.busy (by rw [h_pc]; rfl)
    have h_over := h.handedOver_of_busy (by rw [h_pc]; rfl) (by simp [h_pc])
    obtain ⟨⟨d, b⟩, h_send, rfl⟩ := Option.map_eq_some_iff.mp h_step
    rcases sendCtrl_cases h_send with ⟨rfl, -, rfl⟩ | ⟨rfl, n, rfl⟩
    · have h_end : (Ctrl.ack c.dlv.ack).isEndAck = true := h.pendingEnd h_pending
      refine ⟨h.pc, h.pendingEnd, fun _ => h_pending, ?_, ?_, fun h_mem => ?_⟩
      · refine h_owes.imp_right fun h_one => ?_
        show unacked (c.log ++ [.sent (.ack c.dlv.ack)]) = []
        rw [unacked_snoc, show unacked c.log = [c.dlv.bundle] from h_one]
        simp [unackedStep, h_end]
      · exact h.log.snoc (by simp) (by simp)
      · rcases List.mem_append.mp h_mem with h_mem | h_mem
        · exact absurd h_mem (h_early h_over)
        · simp at h_mem
    · exact ⟨h.pc, h.pendingEnd, fun _ => h_pending, Or.inr trivial, h.log,
        fun h_mem => absurd h_mem (h_early h_over)⟩
  · rename_i failed h_pc
    have h_owes := h.owes
    rw [h_pc] at h_owes
    rw [← Option.some.inj h_step]
    cases failed with
    | true =>
      have h_over := h.handedOver_of_busy (by rw [h_pc]; rfl) (by simp [h_pc])
      exact ⟨h.pc, fun h_p => (by cases h_p), fun h_busy => (by cases h_busy), Or.inr trivial, h.log,
        fun h_mem => absurd h_mem (h_early h_over)⟩
    | false =>
      refine ⟨h.pc, fun h_p => (by cases h_p), fun h_busy => (by cases h_busy), h_owes, h.log,
        fun h_mem => ?_⟩
      obtain ⟨h_ending, h_none⟩ := h.ended h_mem
      refine ⟨h_ending, ?_⟩
      simpa [peerOutstanding, handedOver, h_pc] using h_none
  · rename_i h_pc
    have h_over : c.handedOver = true := by simp [handedOver, h_pc]
    rw [← Option.some.inj h_step]
    exact ⟨h.pc, h.pendingEnd, fun h_busy => (by cases h_busy), Or.inl rfl, h.log,
      fun h_mem => absurd h_mem (h_early h_over)⟩
  · cases h_step

/-! ## The tick -/

/-- The idle test is made for a session that is not skipped, on the counters of this tick. -/
theorem quiet_iff (h_tick : c.clockPc = .idle ∧ c.stopPc = .running ∧ c.drained = false) :
    c.Quiet cfg ↔ (c.failed || c.receiverDone) = false ∧
      ({ c with
        secSinceTx := c.secSinceTx + 1
        secSinceRx := c.secSinceRx + 1
        secSinceData := c.secSinceData + 1 }).idleNow cfg = true := by
  simp only [idleNow, Bool.and_eq_true, decide_eq_true_eq, Bool.not_eq_true',
    Bool.or_eq_false_iff]
  constructor
  · rintro ⟨-, h_open, h_est, h_inact, h_limit⟩
    exact ⟨h_open, ⟨⟨⟨⟨h_limit.1, h_est.1⟩, h_est.2⟩, h_inact.1⟩, h_inact.2⟩, h_limit.2⟩
  · rintro ⟨h_open, ⟨⟨⟨⟨h_pos, h_est⟩, h_term⟩, h_tx⟩, h_rx⟩, h_limit⟩
    exact ⟨h_tick, h_open, ⟨h_est, h_term⟩, ⟨h_tx, h_rx⟩, ⟨h_pos, h_limit⟩⟩

/-- A tick of a quiet session begins an idle termination. -/
theorem clockTick_quiet (h : c.Quiet cfg) : ∃ stx srx sdata pc, c.clockTick cfg = { c with
    secSinceTx := stx
    secSinceRx := srx
    secSinceData := sdata
    termSent := true
    state := .ending
    clockPc := pc
    log := c.log ++ [.idleTerm] } := by
  obtain ⟨h_open, h_idle⟩ := (quiet_iff h.ticking).mp h
  refine ⟨c.secSinceTx + 1, c.secSinceRx + 1, c.secSinceData + 1, (c.clockTick cfg).clockPc, ?_⟩
  simp only [clockTick, h_open, Bool.false_eq_true, if_false, h_idle, if_true]
  rfl

/-- Any other tick counts, and says that the session timed out or that a KEEPALIVE is due. -/
theorem clockTick_other
    (h_tick : c.clockPc = .idle ∧ c.stopPc = .running ∧ c.drained = false)
    (h : ¬ c.Quiet cfg) : ∃ stx srx sdata pc, c.clockTick cfg = { c with
      secSinceTx := stx
      secSinceRx := srx
      secSinceData := sdata
      clockPc := pc } := by
  rw [quiet_iff h_tick] at h
  by_cases h_open : (c.failed || c.receiverDone) = true
  · refine ⟨c.secSinceTx, c.secSinceRx, c.secSinceData, c.clockPc, ?_⟩
    simp only [clockTick, h_open, if_true]
  · rw [Bool.not_eq_true] at h_open
    refine ⟨c.secSinceTx + 1, c.secSinceRx + 1, c.secSinceData + 1, (c.clockTick cfg).clockPc, ?_⟩
    have h_idle := Bool.eq_false_iff.mpr fun h_i => h ⟨h_open, h_i⟩
    simp only [clockTick, h_open, Bool.false_eq_true, if_false, h_idle]

/-- Only the tick of a quiet session begins an idle termination. -/
theorem clockStep_idleTerm {o : Outcome} (h_step : c.clockStep cfg o = some c')
    (h_log : c'.log = c.log ++ [.idleTerm]) : c.Quiet cfg := by
  have h_other : ∀ {m : Ctrl} {d : Conn} {b : Bool}, c.sendCtrl m o = some (d, b) →
      d.log ≠ c.log ++ [.idleTerm] := by
    intro m d b h_send h_eq
    rcases sendCtrl_cases h_send with ⟨-, -, rfl⟩ | ⟨-, n, rfl⟩
    · simp at h_eq
    · simp at h_eq
  unfold clockStep at h_step
  split at h_step
  · rename_i h_pc
    split at h_step
    · rename_i h_run
      have h_tick : c.clockPc = .idle ∧ c.stopPc = .running ∧ c.drained = false :=
        ⟨h_pc, h_run.1, by simpa using h_run.2⟩
      by_cases h_quiet : c.Quiet cfg
      · exact h_quiet
      · obtain ⟨stx, srx, sdata, pc, h_eq⟩ := clockTick_other h_tick h_quiet
        rw [← Option.some.inj h_step, h_eq] at h_log
        simp at h_log
    · cases h_step
  · rw [← Option.some.inj h_step] at h_log
    simp [tcpv4ConnFail] at h_log
  · rw [← Option.some.inj h_step] at h_log
    simp at h_log
  · obtain ⟨⟨d, b⟩, h_send, rfl⟩ := Option.map_eq_some_iff.mp h_step
    have h_ne := h_other h_send
    exact absurd h_log h_ne
  · obtain ⟨⟨d, b⟩, h_send, rfl⟩ := Option.map_eq_some_iff.mp h_step
    have h_ne := h_other h_send
    exact absurd h_log h_ne
  · rw [← Option.some.inj h_step] at h_log
    simp [tcpv4ConnFail] at h_log

/-- **In a quiet session with nothing handed over, nothing at all is outstanding.** -/
theorem allSettled_of_quiet (h_ledger : c.ledger.Ok cfg.window) (h : c.IdleOk)
    (h_quiet : c.Quiet cfg) (h_over : c.handedOver = false) : c.AllSettled := by
  have h_count : c.tx.txCount = c.tx.live.length := h_ledger.tx.count
  have h_active : c.tx.txActive = decide (c.tx.txCount ≠ 0) := h_ledger.tx.active
  rw [h_quiet.inactive.1] at h_active
  have h_zero : c.tx.txCount = 0 := by simpa using h_active.symm
  have h_live : c.tx.live = [] := List.length_eq_zero_iff.mp (by omega)
  obtain ⟨h_queue, h_window⟩ := List.append_eq_nil_iff.mp h_live
  refine ⟨h_queue, h_window, ?_, ?_⟩
  · simp [peerOutstanding, h_quiet.inactive.2, h_over]
  · rcases h.owes with h_failed | h_owes
    · rw [h_quiet.open_.1] at h_failed
      cases h_failed
    -- The delivery thread is not at work, and has not given up.
    cases h_pc : c.dlvPc with
    | idle => rwa [h_pc] at h_owes
    | delivering =>
      have h_busy := h.handedOver_of_busy (by rw [h_pc]; rfl) (by simp [h_pc])
      rw [h_over] at h_busy
      cases h_busy
    | acking =>
      have h_busy := h.handedOver_of_busy (by rw [h_pc]; rfl) (by simp [h_pc])
      rw [h_over] at h_busy
      cases h_busy
    | finishing failed =>
      cases failed with
      | false => rwa [h_pc] at h_owes
      | true =>
        have h_busy := h.handedOver_of_busy (by rw [h_pc]; rfl) (by simp [h_pc])
        rw [h_over] at h_busy
        cases h_busy
    | failing => simp [handedOver, h_pc] at h_over
    | ended => rwa [h_pc] at h_owes

theorem clock_idleOk (h_ledger : c.ledger.Ok cfg.window) (h : c.IdleOk) {o : Outcome}
    (h_prompt : Prompt cfg c (.clock o)) (h_step : c.clockStep cfg o = some c') : c'.IdleOk := by
  unfold clockStep at h_step
  split at h_step
  · rename_i h_pc
    split at h_step
    · rename_i h_run
      have h_tick : c.clockPc = .idle ∧ c.stopPc = .running ∧ c.drained = false :=
        ⟨h_pc, h_run.1, by simpa using h_run.2⟩
      rw [← Option.some.inj h_step]
      by_cases h_quiet : c.Quiet cfg
      · have h_over : c.handedOver = false := by
          cases h_o : c.handedOver with
          | false => rfl
          | true => exact absurd h_quiet (h_prompt h_o)
        have h_settled := allSettled_of_quiet h_ledger h h_quiet h_over
        obtain ⟨stx, srx, sdata, pc, h_eq⟩ := clockTick_quiet h_quiet
        rw [h_eq]
        refine ⟨h.pc, h.pendingEnd, h.busy, ?_, ?_, fun _ => ⟨rfl, h_settled.peer⟩⟩
        · rw [unacked_snoc]
          exact h.owes
        · exact h.log.snoc (fun _ => h_settled.acked) (by simp)
      · obtain ⟨stx, srx, sdata, pc, h_eq⟩ := clockTick_other h_tick h_quiet
        rw [h_eq]
        exact h.elsewhere rfl ⟨rfl, rfl, rfl⟩ (fun h => h) (no_events c.log)
    · cases h_step
  · rw [← Option.some.inj h_step]
    exact h.elsewhere rfl ⟨rfl, rfl, rfl⟩ (fun _ => rfl) (no_events c.log)
  · rw [← Option.some.inj h_step]
    exact h.elsewhere rfl ⟨rfl, rfl, rfl⟩ (fun h => h) (no_events c.log)
  · obtain ⟨⟨d, b⟩, h_send, rfl⟩ := Option.map_eq_some_iff.mp h_step
    obtain ⟨h_view, h_dlv, h_failed, h_log⟩ := sendCtrl_elsewhere h_send rfl
    exact h.elsewhere h_view (by simp [h_dlv]) (by simp [h_failed]) h_log
  · obtain ⟨⟨d, b⟩, h_send, rfl⟩ := Option.map_eq_some_iff.mp h_step
    obtain ⟨h_view, h_dlv, h_failed, h_log⟩ := sendCtrl_elsewhere h_send rfl
    exact h.elsewhere h_view (by simp [h_dlv]) (by simp [h_failed]) h_log
  · rw [← Option.some.inj h_step]
    exact h.elsewhere rfl ⟨rfl, rfl, rfl⟩ (fun _ => rfl) (no_events c.log)

/-! ## Runs -/

theorem step_idleOk {a : Act} (h_ledger : c.ledger.Ok cfg.window) (h : c.IdleOk)
    (h_prompt : Prompt cfg c a) (h_step : step cfg c a = some c') : c'.IdleOk := by
  cases a with
  | call bundle o => exact call_idleOk h h_step
  | room r => exact room_idleOk h h_step
  | timeout r => exact timeout_idleOk h h_step
  | xmit o => exact xmit_idleOk h (xmitStep_cases h_step)
  | recv o => exact recv_idleOk h (recvStep_cases h_step)
  | dlv o => exact dlv_idleOk h h_step
  | clock o => exact clock_idleOk h_ledger h h_prompt h_step
  | stop o => exact stop_idleOk h h_step
  | free => exact free_idleOk h h_step
  | arrive data =>
    rw [← Option.some.inj h_step]
    exact h.elsewhere rfl ⟨rfl, rfl, rfl⟩ (fun h => h) (no_events c.log)

/-- The ledger balances, the session is taken down in order, and the hand-off is sound. -/
def IdleInv (cfg : SessCfg) (c : Conn) : Prop := c.ledger.Ok cfg.window ∧ c.DownOk ∧ c.IdleOk

theorem idleInv_step (a : Act) (h : c.IdleInv cfg) (h_prompt : Prompt cfg c a)
    (h_step : step cfg c a = some c') : c'.IdleInv cfg :=
  ⟨Ledger.ok_step h.1 (step_ledger h.2.1 h_step), downOk_step h.1 h.2.1 h_step,
    step_idleOk h.1 h.2.2 h_prompt h_step⟩

theorem idleInv_init : Conn.init.IdleInv cfg := ⟨Ledger.ok_init, downOk_init, idleOk_init⟩

/-- A prompt step spares what is outstanding ... -/
theorem termSpares_of_prompt (a : Act) (h : c.IdleInv cfg) (h_prompt : Prompt cfg c a) :
    TermSpares cfg c a := by
  cases a with
  | clock o =>
    intro d h_step h_log
    have h_quiet := clockStep_idleTerm h_step h_log
    refine allSettled_of_quiet h.1 h.2.2 h_quiet ?_
    cases h_over : c.handedOver with
    | false => rfl
    | true => exact absurd h_quiet (h_prompt h_over)
  | call bundle o => trivial
  | room r => trivial
  | timeout r => trivial
  | xmit o => trivial
  | recv o => trivial
  | dlv o => trivial
  | stop o => trivial
  | free => trivial
  | arrive data => trivial

/-- ... and a tick that is not prompt does not. -/
theorem prompt_of_termSpares (a : Act) (h : TermSpares cfg c a) : Prompt cfg c a := by
  cases a with
  | clock o =>
    intro h_over h_quiet
    obtain ⟨stx, srx, sdata, pc, h_eq⟩ := clockTick_quiet h_quiet
    have h_step : step cfg c (.clock o) = some (c.clockTick cfg) := by
      obtain ⟨h_pc, h_run, h_drained⟩ := h_quiet.ticking
      simp [step, clockStep, h_pc, h_run, h_drained]
    have h_none := (h _ h_step (by rw [h_eq])).peer
    simp [peerOutstanding, h_over] at h_none
  | call bundle o => trivial
  | room r => trivial
  | timeout r => trivial
  | xmit o => trivial
  | recv o => trivial
  | dlv o => trivial
  | stop o => trivial
  | free => trivial
  | arrive data => trivial

/-- **Idle terminations cut nothing off exactly in the runs in which BP is prompt**, and in
    these nothing goes to BP after one, nor was there anything unacknowledged before. -/
theorem run_idle_iff (cfg : SessCfg) {as : List Act} {c : Conn}
    (h_run : Lts.run (step cfg) Conn.init as = some c) :
    (Lts.Meets (step cfg) (Prompt cfg) Conn.init as ↔
        Lts.Meets (step cfg) (TermSpares cfg) Conn.init as) ∧
      (Lts.Meets (step cfg) (Prompt cfg) Conn.init as → LogSpares c.log) := by
  have h_step : ∀ c a c', IdleInv cfg c → Prompt cfg c a → step cfg c a = some c' →
      IdleInv cfg c' := fun _ a _ => idleInv_step a
  refine ⟨⟨fun h => ?_, fun h => ?_⟩, fun h => ?_⟩
  · exact h.of_invariant h_step (fun _ a => termSpares_of_prompt a) idleInv_init
  · have h_keep : ∀ c a c', True → TermSpares cfg c a → step cfg c a = some c' → True :=
      fun _ _ _ _ _ _ => trivial
    exact h.of_invariant h_keep (fun _ a _ => prompt_of_termSpares a) trivial
  · exact (Lts.run_invariant_of_meets h_step idleInv_init h h_run).2.2.log

/-! ## A slow and a prompt BP -/

def idleCfg : SessCfg := ⟨⟨64, 64⟩, ⟨0, 0⟩, 64, 64, 0, 1⟩

/-- One transfer of one octet in one segment, read up to the hand-off. -/
def receivedRun : List Act :=
  [.arrive (tmsgXferSegment ::
      ((XferSegment.mk (tmsgFlagStart ||| tmsgFlagEnd) 0 [] 1).body ++ [5])),
    .recv .ok, .recv .ok, .recv .ok, .recv .ok]

/-- BP has taken the bundle, which is acknowledged, before the clock ticks. -/
def promptRun : List Act := receivedRun ++ [.dlv .ok, .dlv .ok, .dlv .ok, .dlv .ok, .clock .ok]

/-- The clock ticks first.  The peer answers the SESS_TERM, the connection is closed, and
    BP takes a bundle that can no longer be acknowledged. -/
def slowRun : List Act :=
  receivedRun ++ .clock .ok :: [.clock .ok, .clock .ok,
    .arrive [tmsgSessTerm, tmsgTermFlagReply, tmsgTermIdleTimeout], .recv .ok, .recv .ok,
    .recv .ok, .recv .ok, .dlv .ok, .dlv .ok, .dlv (.short 0)]

theorem run_idle_prompt :
    ∃ c, Lts.run (step idleCfg) Conn.init promptRun = some c ∧ .idleTerm ∈ c.log ∧
      .delivered [5] ∈ c.log ∧
      (Lts.Meets (step idleCfg) (Prompt idleCfg) Conn.init promptRun ↔
        Lts.Meets (step idleCfg) (TermSpares idleCfg) Conn.init promptRun) := by
  have h_end : (Lts.run (step idleCfg) Conn.init promptRun).map
      (fun c => (decide (.idleTerm ∈ c.log), decide (.delivered [5] ∈ c.log))) =
        some (true, true) := by decide
  obtain ⟨c, h_run, h_c⟩ := Option.map_eq_some_iff.mp h_end
  obtain ⟨h_term, h_del⟩ := Prod.mk.inj h_c
  exact ⟨c, h_run, of_decide_eq_true h_term, of_decide_eq_true h_del,
    (run_idle_iff idleCfg h_run).1⟩

/-- A bundle that BP took is never acknowledged: the session was terminated as idle while
    BP had it. -/
theorem slow_cutOff :
    (∃ c, Lts.run (step idleCfg) Conn.init slowRun = some c ∧ .idleTerm ∈ c.log ∧
        unacked c.log = [[5]] ∧ c.broken = true) ∧
      ¬ Lts.Meets (step idleCfg) (TermSpares idleCfg) Conn.init slowRun := by
  constructor
  · have h_end : (Lts.run (step idleCfg) Conn.init slowRun).map
        (fun c => (decide (.idleTerm ∈ c.log), unacked c.log, c.broken)) =
          some (true, [[5]], true) := by decide
    obtain ⟨c, h_run, h_c⟩ := Option.map_eq_some_iff.mp h_end
    simp only [Prod.mk.injEq] at h_c
    exact ⟨c, h_run, of_decide_eq_true h_c.1, h_c.2.1, h_c.2.2⟩
  · intro h_meets
    have h_end : (Lts.run (step idleCfg) Conn.init receivedRun).map
        (fun c => (c.peerOutstanding, (step idleCfg c (.clock .ok)).map
          fun d => decide (d.log = c.log ++ [.idleTerm]))) = some (true, some true) := by decide
    obtain ⟨c, h_run, h_c⟩ := Option.map_eq_some_iff.mp h_end
    obtain ⟨h_peer, h_tick⟩ := Prod.mk.inj h_c
    obtain ⟨d, h_step, h_log⟩ := Option.map_eq_some_iff.mp h_tick
    have h_settled := h_meets.at_step h_run d h_step (of_decide_eq_true h_log)
    rw [h_settled.peer] at h_peer
    cases h_peer

end Conn

end IonContrib.Tcpv4
