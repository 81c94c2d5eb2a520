/-
  IonContrib.Tcpv4.RxTracks

  Reception tracks the transfers that are observed.

  `Tracks` ties the state of the receiver and of the delivery thread to the
  transfers.  The reassembly state is that of the active one, and each answer
  and each bundle is on its way: due from the receiver thread, handed over to
  the delivery thread, or out.  `Relayed` carries the last part: a thread that
  has given up is a stage that is shut.
-/
import IonContrib.Lib.Stages
import IonContrib.Tcpv4.Idle
import IonContrib.Tcpv4.Reassembly
import IonContrib.Tcpv4.Received

namespace IonContrib.Tcpv4

/-! ## Where everything is -/

/-- The receiver thread answers no more segments. -/
def RxPc.quitting : RxPc → Bool
  | .saying _ (.ret _) (.ret _) => true
  | pc => pc.leaving

/-- What the receiver thread has still to say, apart from what is due, answers no segment. -/
def RxPc.plain : RxPc → Prop
  | .saying m _ _ => m.isReply = false
  | .stopping say _ _ => ∀ m ∈ say, m.isReply = false
  | .reporting _ reject => ∀ m ∈ reject, m.isReply = false
  | _ => True

/-- How the transfers and the reassembly state fit the place of the receiver thread. -/
def RxPc.fitting (cfg : RxCfg) (ts : Transfers) (rx : RxSide) : RxPc → Prop
  | .refusing _ seg => Within cfg ts seg rx ∧ rx.rxRefused = true
  | .payload seg => Within cfg ts seg rx
  | .handing _ => rx.rxActive = false ∧ ts.current = none
  | pc => pc.quitting = true ∨ Standing cfg ts rx

/-- What is due from the receiver thread: an acknowledgement, a refusal, a bundle. -/
def RxPc.ackDue (rx : RxSide) : RxPc → List XferAck
  | .acking m => [m]
  | .handing seg => [⟨seg.flags, seg.transferId, rx.rxLen⟩]
  | _ => []

def RxPc.refusalDue : RxPc → List XferRefuse
  | .refusing reason seg => [⟨reason, seg.transferId⟩]
  | _ => []

def RxPc.bundleDue (rx : RxSide) : RxPc → List Octets
  | .handing _ => [rx.rxBundle.take rx.rxLen]
  | _ => []

/-- Nothing at all is due. -/
def RxPc.dueless : RxPc → Bool
  | .refusing _ _ => false
  | .acking _ => false
  | .handing _ => false
  | _ => true

theorem RxPc.dues_nil {pc : RxPc} (h : pc.dueless = true) (rx : RxSide) :
    pc.ackDue rx = [] ∧ pc.refusalDue = [] ∧ pc.bundleDue rx = [] := by
  cases pc with
  | refusing reason seg => cases h
  | acking m => cases h
  | handing seg => cases h
  | _ => exact ⟨rfl, rfl, rfl⟩

/-- What is due from the delivery thread. -/
def DlvPc.ackDue (dlv : DlvSide) : DlvPc → List XferAck
  | .idle => if dlv.dlvPending then [dlv.ack] else []
  | .delivering => [dlv.ack]
  | .acking => [dlv.ack]
  | _ => []

def DlvPc.bundleDue (dlv : DlvSide) : DlvPc → List Octets
  | .idle => if dlv.dlvPending then [dlv.bundle] else []
  | .delivering => [dlv.bundle]
  | _ => []

namespace Conn

/-- The receiver thread hands nothing over and answers nothing any more. -/
def rxShut (c : Conn) : Prop := c.dlv.bad = true ∨ c.rxPc.quitting = true

/-- The delivery thread has failed to get rid of a bundle, and takes no other. -/
def dlvShut (c : Conn) : Prop := c.dlv.dlvFailed = true ∨ c.dlvPc = .finishing true

structure DlvOk (c : Conn) : Prop where
  busy : c.dlvPc.busy = true → c.dlv.dlvPending = true
  ended : c.dlvPc = .failing ∨ c.dlvPc = .ended → c.dlv.bad = true
  failed : c.dlv.dlvFailed = true → c.dlvPc = .failing ∨ c.dlvPc = .ended

end Conn

structure Tracks (cfg : RxCfg) (c : Conn) (ts : Transfers) : Prop where
  rx : c.rx.Bounded cfg
  dlvCap : c.dlv.dlvBundle.length ≤ capMax cfg
  dlv : c.DlvOk
  plain : c.rxPc.plain
  fitting : c.rxPc.fitting cfg ts c.rx
  wellFormed : ts.WellFormed
  acks : Relayed (c.rxShut ∨ c.broken = true) (c.dlvShut ∨ c.broken = true) c.acked
    (c.dlvPc.ackDue c.dlv) (c.rxPc.ackDue c.rx) (ts.acks cfg)
  refusals : Relayed (c.rxShut ∨ c.broken = true) False c.refused [] c.rxPc.refusalDue
    (ts.refusals cfg)
  bundles : Relayed c.rxShut c.dlvShut c.delivered (c.dlvPc.bundleDue c.dlv)
    (c.rxPc.bundleDue c.rx) (ts.bundles cfg)

variable {cfg : RxCfg} {c c' : Conn} {ts : Transfers}

open Conn

theorem tracks_init (cfg : RxCfg) : Tracks cfg Conn.init [] where
  rx := ⟨Nat.zero_le _, Nat.zero_le _, Nat.zero_le _⟩
  dlvCap := Nat.zero_le _
  dlv := ⟨fun h => (by cases h), fun h => (by rcases h with h | h <;> cases h),
    fun h => (by cases h)⟩
  plain := trivial
  fitting := Or.inr (Or.inl ⟨rfl, rfl⟩)
  wellFormed := by simp [Transfers.WellFormed]
  acks := .whole rfl
  refusals := .whole rfl
  bundles := .whole rfl

/-! ## Steps that leave reception alone -/

/-- Stopping delivery changes nothing about what the delivery thread has to do. -/
theorem dlv_of_beside (h : Beside c c') :
    c'.dlv.dlvBundle = c.dlv.dlvBundle ∧ c'.dlv.dlvPending = c.dlv.dlvPending ∧
      c'.dlv.dlvFailed = c.dlv.dlvFailed ∧ (c.dlv.bad = true → c'.dlv.bad = true) ∧
      c'.dlvPc.ackDue c'.dlv = c.dlvPc.ackDue c.dlv ∧
      c'.dlvPc.bundleDue c'.dlv = c.dlvPc.bundleDue c.dlv := by
  rcases h.dlv with h_dlv | h_dlv
  · rw [h_dlv, h.dlvPc]
    exact ⟨rfl, rfl, rfl, fun h => h, rfl, rfl⟩
  · rw [h_dlv, h.dlvPc]
    refine ⟨rfl, rfl, rfl, fun _ => rfl, ?_, ?_⟩
    · cases c.dlvPc <;> rfl
    · cases c.dlvPc <;> rfl

theorem dlvOk_of_beside (h : c.DlvOk) (h_b : Beside c c') : c'.DlvOk := by
  obtain ⟨-, h_pending, h_failed, h_bad, -⟩ := dlv_of_beside h_b
  refine ⟨?_, ?_, ?_⟩
  · rw [h_b.dlvPc, h_pending]
    exact h.busy
  · rw [h_b.dlvPc]
    exact fun h_pc => h_bad (h.ended h_pc)
  · rw [h_b.dlvPc, h_failed]
    exact h.failed

/-- The receiver thread moves on.  What was due from it is due still, or it is lost because
    the thread has given up. -/
theorem Tracks.move (h : Tracks cfg c ts) (h_b : Beside c c') (h_plain : c'.rxPc.plain)
    (h_fit : c'.rxPc.fitting cfg ts c.rx)
    (h_quit : c.rxPc.quitting = true → c'.rxPc.quitting = true)
    (h_due : c'.rxPc = c.rxPc ∨
      c'.rxPc.dueless = true ∧ (c.rxPc.dueless = true ∨ c'.rxShut)) : Tracks cfg c' ts := by
  obtain ⟨h_buf, -, h_failed, h_bad, h_ackDue, h_bundleDue⟩ := dlv_of_beside h_b
  obtain ⟨h_acked, h_refused, h_delivered⟩ := h_b.log.received
  have h_rxShut : c.rxShut → c'.rxShut := Or.imp h_bad h_quit
  have h_dlvShut : c.dlvShut → c'.dlvShut := by
    rw [dlvShut, dlvShut, h_failed, h_b.dlvPc]
    exact fun h => h
  have h_acks := h.acks.mono (Or.imp h_rxShut h_b.broken) (Or.imp h_dlvShut h_b.broken)
  have h_refusals := h.refusals.mono (Or.imp h_rxShut h_b.broken) (fun h => h)
  have h_bundles := h.bundles.mono h_rxShut h_dlvShut
  rw [← h_acked, ← h_ackDue, ← h_b.rx] at h_acks
  rw [← h_refused] at h_refusals
  rw [← h_delivered, ← h_bundleDue, ← h_b.rx] at h_bundles
  have h_rest : c'.rx.Bounded cfg ∧ c'.dlv.dlvBundle.length ≤ capMax cfg := by
    rw [h_b.rx, h_buf]
    exact ⟨h.rx, h.dlvCap⟩
  rw [← h_b.rx] at h_fit
  rcases h_due with h_same | ⟨h_none, h_lost⟩
  · rw [← h_same] at h_acks h_refusals h_bundles
    exact ⟨h_rest.1, h_rest.2, dlvOk_of_beside h.dlv h_b, h_plain, h_fit, h.wellFormed, h_acks,
      h_refusals, h_bundles⟩
  · obtain ⟨h_a, h_r, h_bu⟩ := RxPc.dues_nil h_none c'.rx
    refine ⟨h_rest.1, h_rest.2, dlvOk_of_beside h.dlv h_b, h_plain, h_fit, h.wellFormed, ?_, ?_, ?_⟩
    · rw [h_a]
      rcases h_lost with h_was | h_shut
      · rwa [(RxPc.dues_nil h_was c'.rx).1] at h_acks
      · exact h_acks.shutFirst (Or.inl h_shut)
    · rw [h_r]
      rcases h_lost with h_was | h_shut
      · rwa [(RxPc.dues_nil h_was c'.rx).2.1] at h_refusals
      · exact h_refusals.shutFirst (Or.inl h_shut)
    · rw [h_bu]
      rcases h_lost with h_was | h_shut
      · rwa [(RxPc.dues_nil h_was c'.rx).2.2] at h_bundles
      · exact h_bundles.shutFirst h_shut

theorem Tracks.elsewhere (h : Tracks cfg c ts) (h_e : Elsewhere c c') : Tracks cfg c' ts := by
  refine h.move h_e.toBeside ?_ ?_ ?_ (Or.inl h_e.rxPc)
  · rw [h_e.rxPc]
    exact h.plain
  · rw [h_e.rxPc]
    exact h.fitting
  · rw [h_e.rxPc]
    exact fun h => h

/-! ## Steps of the delivery thread -/

/-- The delivery thread has not failed before it ends. -/
theorem DlvOk.unfailed (h : c.DlvOk) (h_pc : c.dlvPc ≠ .failing ∧ c.dlvPc ≠ .ended) :
    c.dlv.dlvFailed = false := by
  cases h_failed : c.dlv.dlvFailed with
  | false => rfl
  | true =>
    rcases h.failed h_failed with h_end | h_end
    · exact absurd h_end h_pc.1
    · exact absurd h_end h_pc.2

/-- A step of the delivery thread. -/
theorem Tracks.deliver (h : Tracks cfg c ts)
    (h_rx : c'.rx = c.rx) (h_rxPc : c'.rxPc = c.rxPc) (h_refused : c'.refused = c.refused)
    (h_buf : c'.dlv.dlvBundle = c.dlv.dlvBundle) (h_dlv : c'.DlvOk)
    (h_bad : c.dlv.bad = true → c'.dlv.bad = true)
    (h_broken : c.broken = true → c'.broken = true)
    (h_acks : Relayed (c.rxShut ∨ c.broken = true) (c'.dlvShut ∨ c'.broken = true) c'.acked
      (c'.dlvPc.ackDue c'.dlv) (c.rxPc.ackDue c.rx) (ts.acks cfg))
    (h_bundles : Relayed c.rxShut c'.dlvShut c'.delivered (c'.dlvPc.bundleDue c'.dlv)
      (c.rxPc.bundleDue c.rx) (ts.bundles cfg)) : Tracks cfg c' ts := by
  have h_shut : c.rxShut → c'.rxShut := by
    rw [rxShut, rxShut, h_rxPc]
    exact Or.imp_left h_bad
  refine ⟨?_, ?_, h_dlv, ?_, ?_, h.wellFormed, ?_, ?_, ?_⟩
  · rw [h_rx]
    exact h.rx
  · rw [h_buf]
    exact h.dlvCap
  · rw [h_rxPc]
    exact h.plain
  · rw [h_rx, h_rxPc]
    exact h.fitting
  · rw [h_rx, h_rxPc]
    exact h_acks.mono (Or.imp h_shut h_broken) (fun h => h)
  · rw [h_rxPc, h_refused]
    exact h.refusals.mono (Or.imp h_shut h_broken) (fun h => h)
  · rw [h_rx, h_rxPc]
    exact h_bundles.mono h_shut (fun h => h)

theorem dlv_tracks (h : Tracks cfg c ts) {o : Outcome} (h_step : c.dlvStep o = some c') :
    Tracks cfg c' ts := by
  have h_acks := h.acks
  have h_bundles := h.bundles
  unfold dlvStep at h_step
  split at h_step
  · rename_i h_pc
    have h_ok := DlvOk.unfailed h.dlv (by simp [h_pc])
    have h_open : ¬ c.dlvShut := by simp [dlvShut, h_ok, h_pc]
    split at h_step
    · rename_i h_pending
      rw [← Option.some.inj h_step]
      simp only [h_pc, DlvPc.ackDue, DlvPc.bundleDue, h_pending, if_true] at h_acks h_bundles
      refine h.deliver rfl rfl rfl rfl ⟨fun _ => h_pending, by simp, by simp [h_ok]⟩ (fun h => h)
        (fun h => h) (h_acks.mono (fun h => h) (Or.imp_left fun h => absurd h h_open))
        (h_bundles.mono (fun h => h) fun h => absurd h h_open)
    split at h_step
    · rename_i h_pending h_stopped
      rw [← Option.some.inj h_step]
      simp only [h_pc, DlvPc.ackDue, DlvPc.bundleDue, h_pending, Bool.false_eq_true, if_false]
        at h_acks h_bundles
      refine h.deliver rfl rfl rfl rfl
        ⟨fun h => (Bool.false_ne_true h).elim, fun _ => by simp [DlvSide.bad, h_stopped], by simp⟩
        (fun h => h) (fun h => h) (h_acks.mono (fun h => h) (Or.imp_left fun h => absurd h h_open))
        (h_bundles.mono (fun h => h) fun h => absurd h h_open)
    · cases h_step
  · rename_i h_pc
    have h_ok := DlvOk.unfailed h.dlv (by simp [h_pc])
    have h_open : ¬ c.dlvShut := by simp [dlvShut, h_ok, h_pc]
    have h_pending := h.dlv.busy (by rw [h_pc]; rfl)
    rcases Outcome.err_or h_step with h_step | h_step
    · rw [← Option.some.inj h_step]
      have h_shut : dlvShut { c with dlvPc := .finishing true } := Or.inr rfl
      refine h.deliver rfl rfl rfl rfl ⟨fun _ => h_pending, by simp, by simp [h_ok]⟩ (fun h => h)
        (fun h => h) ?_ ?_
      · exact .lost (Or.inl h_shut) h_acks.out_prefix
      · exact .lost h_shut h_bundles.out_prefix
    · rw [← Option.some.inj h_step]
      simp only [h_pc, DlvPc.ackDue, DlvPc.bundleDue] at h_acks h_bundles
      obtain ⟨h_acked, h_refused, h_delivered⟩ : _ ∧ _ ∧ _ := @log_delivered c
        ({ c with dlvPc := .acking }.note (.delivered c.dlv.bundle)) _ rfl
      refine h.deliver rfl rfl h_refused rfl
        ⟨fun _ => h_pending, by simp [note], by simp [note, h_ok]⟩ (fun h => h) (fun h => h) ?_ ?_
      · rw [h_acked]
        exact h_acks.mono (fun h => h) (Or.imp_left fun h => absurd h h_open)
      · rw [h_delivered]
        exact (h_bundles.leave h_open).mono (fun h => h) fun h => absurd h h_open
  · rename_i h_pc
    have h_ok := DlvOk.unfailed h.dlv (by simp [h_pc])
    have h_open : ¬ c.dlvShut := by simp [dlvShut, h_ok, h_pc]
    have h_pending := h.dlv.busy (by rw [h_pc]; rfl)
    simp only [h_pc, DlvPc.ackDue, DlvPc.bundleDue] at h_acks h_bundles
    obtain ⟨⟨d, b⟩, h_send, rfl⟩ := Option.map_eq_some_iff.mp h_step
    rcases sendCtrl_cases h_send with ⟨rfl, h_whole, rfl⟩ | ⟨rfl, n, rfl⟩
    · have h_free : ¬ (c.dlvShut ∨ c.broken = true) := by simp [h_open, h_whole]
      obtain ⟨h_acked, h_refused, h_delivered⟩ := @log_ack c { c with
        outOctets := c.outOctets ++ (Ctrl.ack c.dlv.ack).octets
        secSinceTx := 0
        log := c.log ++ [.sent (.ack c.dlv.ack)]
        dlvPc := .finishing false } c.dlv.ack rfl
      refine h.deliver rfl rfl h_refused rfl
        ⟨fun _ => h_pending, by simp, by simp [h_ok]⟩ (fun h => h) (fun h => h) ?_ ?_
      · refine (h_acked ▸ h_acks.leave h_free).mono (fun h => h) fun h => absurd h h_free
      · exact (h_delivered ▸ h_bundles).mono (fun h => h) fun h => absurd h h_open
    · refine h.deliver rfl rfl rfl rfl ⟨fun _ => h_pending, by simp, by simp [h_ok]⟩ (fun h => h)
        (fun _ => rfl) (.lost (Or.inr rfl) h_acks.out_prefix) ?_
      exact h_bundles.mono (fun h => h) fun h => absurd h h_open
  · rename_i failed h_pc
    have h_ok := DlvOk.unfailed h.dlv (by simp [h_pc])
    simp only [h_pc, DlvPc.ackDue, DlvPc.bundleDue] at h_acks h_bundles
    rw [← Option.some.inj h_step]
    cases failed with
    | true =>
      refine h.deliver rfl rfl rfl rfl
        ⟨fun h => (Bool.false_ne_true h).elim, fun _ => by simp [DlvSide.bad], by simp⟩
        (fun _ => by simp [DlvSide.bad]) (fun h => h) ?_ ?_
      · exact h_acks.mono (fun h => h) (Or.imp_left fun _ => Or.inl rfl)
      · exact h_bundles.mono (fun h => h) fun _ => Or.inl rfl
    | false =>
      have h_open : ¬ c.dlvShut := by simp [dlvShut, h_ok, h_pc]
      refine h.deliver rfl rfl rfl rfl
        ⟨fun h => (Bool.false_ne_true h).elim, by simp, by simp [h_ok]⟩
        (fun h => h) (fun h => h) ?_ ?_
      · exact h_acks.mono (fun h => h) (Or.imp_left fun h => absurd h h_open)
      · exact h_bundles.mono (fun h => h) fun h => absurd h h_open
  · rename_i h_pc
    simp only [h_pc, DlvPc.ackDue, DlvPc.bundleDue] at h_acks h_bundles
    have h_shut : c.dlvShut → dlvShut { c.tcpv4ConnFail with dlvPc := .ended } := by
      simp [dlvShut, h_pc, tcpv4ConnFail]
    rw [← Option.some.inj h_step]
    refine h.deliver rfl rfl rfl rfl ⟨fun h => (Bool.false_ne_true h).elim,
      fun _ => h.dlv.ended (Or.inl h_pc), fun _ => Or.inr rfl⟩ (fun h => h) (fun _ => rfl) ?_
      (h_bundles.mono (fun h => h) h_shut)
    exact h_acks.mono (fun h => h) (Or.imp h_shut fun _ => rfl)
  · cases h_step

/-! ## Steps of the receiver thread -/

/-- A step to which something that was not there before falls due, or is lost because the
    thread gives up with it. -/
theorem Tracks.turn {ts' : Transfers} (h : Tracks cfg c ts) (h_pc : c.rxPc.dueless = true)
    (h_quit : c.rxPc.quitting = false)
    (h_same : (c'.dlv, c'.dlvPc, c'.broken, c'.log) = (c.dlv, c.dlvPc, c.broken, c.log))
    (h_rx : c'.rx.Bounded cfg) (h_plain : c'.rxPc.plain) (h_fit : c'.rxPc.fitting cfg ts' c'.rx)
    (h_wf : ts'.WellFormed)
    (h_acks : ts'.acks cfg = ts.acks cfg ++ c'.rxPc.ackDue c'.rx)
    (h_refusals : ∃ new, ts'.refusals cfg = ts.refusals cfg ++ new ∧
      (c'.rxPc.refusalDue = new ∨ c'.rxPc.refusalDue = [] ∧ c'.rxPc.quitting = true))
    (h_bundles : ts'.bundles cfg = ts.bundles cfg ++ c'.rxPc.bundleDue c'.rx) :
    Tracks cfg c' ts' := by
  simp only [Prod.mk.injEq] at h_same
  obtain ⟨h_dlv, h_dlvPc, h_broken, h_log⟩ := h_same
  obtain ⟨h_a, h_r, h_b⟩ := RxPc.dues_nil h_pc c.rx
  have h_said : c'.acked = c.acked ∧ c'.refused = c.refused ∧ c'.delivered = c.delivered :=
    LogAloof.received (.same h_log)
  have h_rxShut : c.rxShut → c'.rxShut := by
    rw [rxShut, rxShut, h_quit, h_dlv]
    exact Or.imp_right fun h => absurd h Bool.false_ne_true
  have h_dlvShut : c'.dlvShut = c.dlvShut := by rw [dlvShut, dlvShut, h_dlv, h_dlvPc]
  refine ⟨h_rx, ?_, ?_, h_plain, h_fit, h_wf, ?_, ?_, ?_⟩
  · rw [h_dlv]
    exact h.dlvCap
  · refine ⟨?_, ?_, ?_⟩
    · rw [h_dlv, h_dlvPc]
      exact h.dlv.busy
    · rw [h_dlv, h_dlvPc]
      exact h.dlv.ended
    · rw [h_dlv, h_dlvPc]
      exact h.dlv.failed
  · have h_in := (h_a ▸ h.acks).enter (c'.rxPc.ackDue c'.rx)
    rw [List.nil_append, ← h_acks] at h_in
    rw [h_said.1, h_dlv, h_dlvPc, h_dlvShut, h_broken]
    exact h_in.mono (Or.imp_left h_rxShut) (fun h => h)
  · obtain ⟨new, h_new, h_due⟩ := h_refusals
    have h_in := (h_r ▸ h.refusals).enter new
    rw [List.nil_append, ← h_new] at h_in
    rw [h_said.2.1, h_broken]
    have h_in' : Relayed (c'.rxShut ∨ c.broken = true) False c.refused [] new (ts'.refusals cfg) :=
      h_in.mono (Or.imp_left h_rxShut) (fun h => h)
    rcases h_due with h_due | ⟨h_due, h_gone⟩
    · rwa [h_due]
    · rw [h_due]
      exact h_in'.shutFirst (Or.inl (Or.inr h_gone))
  · have h_in := (h_b ▸ h.bundles).enter (c'.rxPc.bundleDue c'.rx)
    rw [List.nil_append, ← h_bundles] at h_in
    rw [h_said.2.2, h_dlv, h_dlvPc, h_dlvShut]
    exact h_in.mono h_rxShut (fun h => h)

/-- The header of a segment. -/
theorem header_tracks {cfg : SessCfg} (h : Tracks cfg.rx c ts) {seg : XferSegment} {rest : Octets}
    {o : Outcome} (h_pc : c.rxPc = .body tmsgXferSegment) :
    Tracks cfg.rx ({ c with inOctets := rest }.handleSegmentHdr cfg seg o)
      (ts.addHead cfg.rx seg (decide (c.state = .ending))) := by
  have h_stand : Standing cfg.rx ts c.rx := by
    have h_fit := h.fitting
    rw [h_pc] at h_fit
    exact h_fit.resolve_left Bool.false_ne_true
  have h_none : c.rxPc.dueless = true ∧ c.rxPc.quitting = false := by
    rw [h_pc]
    exact ⟨rfl, rfl⟩
  obtain ⟨h_acks, h_bundles⟩ :=
    @Transfers.addHead_acks cfg.rx ts seg (decide (c.state = .ending))
  have h_wf := @Transfers.WellFormed.addHead cfg.rx ts h.wellFormed seg (decide (c.state = .ending))
  obtain ⟨rx', verdict, h_adm⟩ : ∃ rx' verdict, segmentAdmit cfg.rx (decide (c.state = .ending))
      c.rx seg (decide (o ≠ .noMem)) = (rx', verdict) := ⟨_, _, rfl⟩
  obtain ⟨h_rx, h_ruled⟩ := segmentAdmit_headRuled h_stand h.rx h_adm
  cases h_ruled with
  | fail m h_m h_due =>
    have h_eq : { c with inOctets := rest }.handleSegmentHdr cfg seg o =
        { c with inOctets := rest, rx := rx', rxPc := sayAnyway m (.ret false) } := by
      simp only [handleSegmentHdr, h_adm]
    obtain ⟨later, h_later⟩ := h_due
    rw [h_eq]
    refine h.turn h_none.1 h_none.2 rfl h_rx h_m (Or.inl rfl) h_wf ?_ ⟨later, h_later, ?_⟩ ?_
    · rw [h_acks]
      exact (List.append_nil _).symm
    · exact Or.inr ⟨rfl, rfl⟩
    · rw [h_bundles]
      exact (List.append_nil _).symm
  | refuse reason h_ok h_within h_ref h_due =>
    have h_eq : { c with inOctets := rest }.handleSegmentHdr cfg seg o =
        { c with inOctets := rest, rx := rx', rxPc := .refusing reason seg } := by
      simp only [handleSegmentHdr, h_adm]
    rw [h_eq]
    refine h.turn h_none.1 h_none.2 rfl h_rx trivial ⟨h_within, h_ref⟩ h_wf ?_
      ⟨_, h_due, Or.inl rfl⟩ ?_
    · rw [h_acks]
      exact (List.append_nil _).symm
    · rw [h_bundles]
      exact (List.append_nil _).symm
  | accept h_ok h_within h_due =>
    have h_eq : { c with inOctets := rest }.handleSegmentHdr cfg seg o =
        { c with inOctets := rest, rx := rx', rxPc := .payload seg } := by
      simp only [handleSegmentHdr, h_adm]
    rw [h_eq]
    refine h.turn h_none.1 h_none.2 rfl h_rx trivial h_within h_wf ?_
      ⟨[], by rw [h_due, List.append_nil], Or.inl rfl⟩ ?_
    · rw [h_acks]
      exact (List.append_nil _).symm
    · rw [h_bundles]
      exact (List.append_nil _).symm

/-- The data of a segment, stored or drained. -/
theorem data_tracks (h : Tracks cfg c ts) {seg : XferSegment} (h_pc : c.rxPc = .payload seg)
    {rx : RxSide} {data rest : Octets} (h_len : data.length = seg.dataLength)
    (h_rx : rx.Bounded cfg) (h_active : rx.rxActive = c.rx.rxActive) (h_id : rx.rxId = c.rx.rxId)
    (h_ref : rx.rxRefused = c.rx.rxRefused)
    (h_kept : rx.rxRefused = false →
      rx.rxBundle.take rx.rxLen = c.rx.rxBundle.take c.rx.rxLen ++ data) :
    Tracks cfg ({ c with rx := rx, inOctets := rest }.finishSegment seg) (ts.addData seg data) := by
  have h_none : c.rxPc.dueless = true ∧ c.rxPc.quitting = false := by
    rw [h_pc]
    exact ⟨rfl, rfl⟩
  have h_fit := h.fitting
  rw [h_pc] at h_fit
  obtain ⟨init, t, rfl, h_head, h_segId, h_fol⟩ := h_fit
  have h_wf := h.wellFormed.addData h_segId h_len
  have h_acks := @Transfers.acks_addData cfg init t seg data h_head h_len
  have h_bundles := @Transfers.bundles_addData cfg init t seg data h_head h_len h_fol.open_
  have h_refusals := @Transfers.refusals_addData cfg init t seg data h_head h_len
  have h_verdict : rx.rxRefused = !t.fits cfg := by rw [h_ref, h_fol.refused]
  have h_fits := @Transfers.fits_addData cfg t seg data h_head h_len
  -- What has been reassembled by now.
  have h_data : rx.rxRefused = false → rx.rxBundle.take rx.rxLen = t.data ++ data := by
    intro h_r
    rw [h_kept h_r, h_fol.kept (by rw [← h_ref, h_r])]
  have h_size : rx.rxRefused = false → rx.rxLen = t.size := by
    intro h_r
    have h_l := congrArg List.length (h_data h_r)
    rw [List.length_take, Nat.min_eq_left h_rx.room, List.length_append] at h_l
    simp [h_l, Incoming.size, h_head, h_len]
  have h_open : Incoming.active { t with segs := t.segs ++ [(seg, data)], head := none } =
      !seg.isEnd := by
    have h_before : t.segs.any (fun s => s.1.isEnd) = false := by
      simpa [Incoming.active] using h_fol.open_
    simp [Incoming.active, h_before]
  -- The transfer goes on, or it has ended.
  have h_on : seg.isEnd = false → Standing cfg (Transfers.addData (init ++ [t]) seg data) rx := by
    intro h_end
    rw [Transfers.addData_snoc]
    refine Or.inr ⟨init, _, rfl, rfl, h_active.trans h_fol.active, ?_, h_id.trans h_fol.id, ?_, ?_⟩
    · rw [h_open, h_end]
      rfl
    · rw [h_fits]
      exact h_verdict
    · intro h_r
      rw [Incoming.data_snoc]
      exact h_data h_r
  have h_over : seg.isEnd = true → (Transfers.addData (init ++ [t]) seg data).current = none := by
    intro h_end
    rw [Transfers.addData_snoc, Transfers.current_snoc, h_open, h_end]
    rfl
  have h_idle : RxSide.Bounded cfg { rx with rxActive := false } := ⟨h_rx.mru, h_rx.room, h_rx.cap⟩
  rcases finishSegment_cases { c with rx := rx, inOctets := rest } seg with
    ⟨h_r, h_eq⟩ | ⟨h_r, h_end, h_eq⟩ | ⟨h_r, h_end, h_eq⟩
  · have h_unfit : t.fits cfg = false := by
      have h_r' : rx.rxRefused = true := h_r
      rw [h_r'] at h_verdict
      simpa using h_verdict.symm
    rw [h_unfit, if_neg Bool.false_ne_true] at h_acks
    rw [h_unfit, Bool.and_false, if_neg Bool.false_ne_true] at h_bundles
    rw [h_eq]
    refine h.turn h_none.1 h_none.2 rfl ?_ trivial (Or.inr ?_) h_wf h_acks
      ⟨[], by rw [h_refusals, List.append_nil], Or.inl rfl⟩ h_bundles
    · show RxSide.Bounded cfg (if seg.isEnd then _ else _)
      split
      · exact h_idle
      · exact h_rx
    · show Standing cfg _ (if seg.isEnd then _ else _)
      split
      · rename_i h_end
        exact Or.inl ⟨rfl, h_over h_end⟩
      · rename_i h_end
        exact h_on (by simpa using h_end)
  · have h_r' : rx.rxRefused = false := h_r
    have h_fit : t.fits cfg = true := by
      rw [h_r'] at h_verdict
      simpa using h_verdict.symm
    rw [h_fit, if_pos rfl, ← h_size h_r'] at h_acks
    rw [h_fit, h_end, if_pos (by rfl), ← h_data h_r'] at h_bundles
    rw [h_eq]
    exact h.turn h_none.1 h_none.2 rfl h_idle trivial ⟨rfl, h_over h_end⟩ h_wf h_acks
      ⟨[], by rw [h_refusals, List.append_nil], Or.inl rfl⟩ h_bundles
  · have h_r' : rx.rxRefused = false := h_r
    have h_fit : t.fits cfg = true := by
      rw [h_r'] at h_verdict
      simpa using h_verdict.symm
    rw [h_fit, if_pos rfl, ← h_size h_r'] at h_acks
    rw [h_end, Bool.false_and, if_neg Bool.false_ne_true] at h_bundles
    rw [h_eq]
    exact h.turn h_none.1 h_none.2 rfl h_rx trivial (Or.inr (h_on h_end)) h_wf h_acks
      ⟨[], by rw [h_refusals, List.append_nil], Or.inl rfl⟩ h_bundles

/-- Nothing is added when the session is given up. -/
theorem observeRecv_failing (h : c'.rxPc = .failing) : observeRecv cfg ts c c' = ts := by
  unfold observeRecv
  split
  · simp [h]
  · simp [h, RxPc.givesUp]
  · rfl

theorem observeRecv_other (h_body : c.rxPc ≠ .body tmsgXferSegment)
    (h_payload : ∀ seg, c.rxPc ≠ .payload seg) : observeRecv cfg ts c c' = ts := by
  unfold observeRecv
  split
  · rename_i type h_pc
    have h_type : type ≠ tmsgXferSegment := by
      rintro rfl
      exact h_body h_pc
    rw [if_neg (by simp [h_type])]
  · rename_i seg h_pc
    exact absurd h_pc (h_payload seg)
  · rfl

/-- The places between segments. -/
theorem Tracks.standing (h : Tracks cfg c ts) (h_pc : c.rxPc.dueless = true)
    (h_payload : ∀ seg, c.rxPc ≠ .payload seg) :
    c.rxPc.quitting = true ∨ Standing cfg ts c.rx := by
  have h_fit := h.fitting
  cases h_eq : c.rxPc with
  | refusing reason seg => rw [h_eq] at h_pc; cases h_pc
  | acking m => rw [h_eq] at h_pc; cases h_pc
  | handing seg => rw [h_eq] at h_pc; cases h_pc
  | payload seg => exact absurd h_eq (h_payload seg)
  | loop => rwa [h_eq] at h_fit
  | body type => rwa [h_eq] at h_fit
  | reporting x reject => rwa [h_eq] at h_fit
  | stopping say ok bad => rwa [h_eq] at h_fit
  | saying m ok bad => rwa [h_eq] at h_fit
  | failing => rwa [h_eq] at h_fit
  | txStop => rwa [h_eq] at h_fit
  | joinXmit => rwa [h_eq] at h_fit
  | dlvStop => rwa [h_eq] at h_fit
  | joinDlv => rwa [h_eq] at h_fit
  | closing => rwa [h_eq] at h_fit
  | done => rwa [h_eq] at h_fit

/-- On with the message loop, or out of it. -/
theorem goOn_place (d : Conn) (next : RxNext) :
    (d.goOn next).rxPc = .loop ∧ next = .loop ∨ (d.goOn next).rxPc = .failing := by
  cases next with
  | loop => exact Or.inl ⟨rfl, rfl⟩
  | ret clean => exact Or.inr rfl

theorem goOn_beside {d : Conn} (h : Beside c d) (next : RxNext) : Beside c (d.goOn next) := by
  obtain ⟨h₁, h₂, h₃, h₄, h₅⟩ := h
  cases next with
  | loop => exact ⟨h₁, h₂, h₃, h₄, h₅⟩
  | ret clean => exact ⟨h₁, h₂, h₃, h₄, h₅⟩

/-- Out of the message loop. -/
theorem Tracks.quit (h : Tracks cfg c ts) (h_b : Beside c c') (h_pc : c'.rxPc = .failing) :
    Tracks cfg c' ts := by
  refine h.move h_b ?_ ?_ ?_ (Or.inr ⟨?_, Or.inr (Or.inr ?_)⟩)
  · rw [h_pc]
    trivial
  · rw [h_pc]
    exact Or.inl rfl
  · rw [h_pc]
    exact fun _ => rfl
  · rw [h_pc]
    rfl
  · rw [h_pc]
    rfl

/-- From one place between segments to another. -/
theorem Tracks.between (h : Tracks cfg c ts) (h_b : Beside c c') (h_pc : c.rxPc.dueless = true)
    (h_quit : c.rxPc.quitting = true → c'.rxPc.quitting = true)
    (h_payload : ∀ seg, c.rxPc ≠ .payload seg) (h_plain : c'.rxPc.plain)
    (h_fit : c'.rxPc.quitting = true ∨ Standing cfg ts c.rx → c'.rxPc.fitting cfg ts c.rx)
    (h_due : c'.rxPc.dueless = true) : Tracks cfg c' ts :=
  h.move h_b h_plain (h_fit ((h.standing h_pc h_payload).imp_left h_quit)) h_quit
    (Or.inr ⟨h_due, Or.inl h_pc⟩)

theorem afterTxSection_tracks (h : Tracks cfg c ts) {type : UInt8} {rest : Octets}
    (h_pc : c.rxPc = .body type) {tx : TxSide} {done : Option Xfer} {reject : Option Ctrl}
    (h_rej : ∀ m ∈ reject, m.isReply = false) :
    Tracks cfg ({ c with inOctets := rest }.afterTxSection tx done reject) ts := by
  have h_from : c.rxPc.dueless = true ∧ c.rxPc.quitting = false := by
    rw [h_pc]
    exact ⟨rfl, rfl⟩
  have h_quit : ∀ b, c.rxPc.quitting = true → b = true := by simp [h_from.2]
  have h_payload : ∀ seg, c.rxPc ≠ .payload seg := by simp [h_pc]
  cases done with
  | some x =>
    exact h.between (.of_same rfl (fun h => h) (.same rfl)) h_from.1 (h_quit _) h_payload h_rej
      (fun h => h) rfl
  | none =>
    cases reject with
    | some m =>
      exact h.between (.of_same rfl (fun h => h) (.same rfl)) h_from.1 (h_quit _) h_payload
        (h_rej m rfl) (fun h => h) rfl
    | none =>
      exact h.between (.of_same rfl (fun h => h) (.same rfl)) h_from.1 (h_quit _) h_payload trivial
        (fun h => h) rfl

/-- The delivery thread waits for a bundle when the receiver thread finds it neither busy nor
    bad. -/
theorem idle_of_free (h : c.DlvOk) (h_busy : c.dlv.busy = false) (h_bad : c.dlv.bad = false) :
    c.dlv.dlvPending = false ∧ c.dlvPc = .idle := by
  have h_pending : c.dlv.dlvPending = false := by
    simp only [DlvSide.bad, Bool.or_eq_false_iff] at h_bad
    simpa [DlvSide.busy, h_bad.1, h_bad.2] using h_busy
  refine ⟨h_pending, ?_⟩
  have h_free : c.dlvPc.busy = false := by
    cases h_b : c.dlvPc.busy with
    | false => rfl
    | true => rw [h.busy h_b] at h_pending; cases h_pending
  have h_ended := h.ended
  rw [h_bad] at h_ended
  cases h_pc : c.dlvPc with
  | idle => rfl
  | delivering => rw [h_pc] at h_free; cases h_free
  | acking => rw [h_pc] at h_free; cases h_free
  | finishing failed => rw [h_pc] at h_free; cases h_free
  | failing => cases h_ended (Or.inl h_pc)
  | ended => cases h_ended (Or.inr h_pc)

theorem refuseSaid_tracks (h : Tracks cfg c ts) {reason : UInt8} {seg : XferSegment}
    {o : Outcome} {d : Conn} {b : Bool} (h_pc : c.rxPc = .refusing reason seg)
    (h_bad : c.dlv.bad = false)
    (h_send : c.sendCtrl (.refuse ⟨reason, seg.transferId⟩) o = some (d, b)) :
    Tracks cfg { d with rxPc := .payload seg } ts := by
  have h_fit := h.fitting
  rw [h_pc] at h_fit
  rcases sendCtrl_cases h_send with ⟨-, h_whole, rfl⟩ | ⟨-, n, rfl⟩
  · have h_acks := h.acks
    have h_refusals := h.refusals
    have h_bundles := h.bundles
    rw [h_pc] at h_acks h_refusals h_bundles
    have h_open : ¬ c.rxShut := by simp [rxShut, h_bad, h_pc, RxPc.quitting, RxPc.leaving]
    have h_free : ¬ (c.rxShut ∨ c.broken = true) := by simp [h_open, h_whole]
    obtain ⟨h_acked, h_refused, h_delivered⟩ := @log_refuse c { c with
      outOctets := c.outOctets ++ (Ctrl.refuse ⟨reason, seg.transferId⟩).octets
      secSinceTx := 0
      log := c.log ++ [.sent (.refuse ⟨reason, seg.transferId⟩)]
      rxPc := .payload seg } ⟨reason, seg.transferId⟩ rfl
    have h_out := (h_refusals.pass h_free).leave not_false
    refine ⟨h.rx, h.dlvCap, ⟨h.dlv.busy, h.dlv.ended, h.dlv.failed⟩, trivial, h_fit.1,
      h.wellFormed, ?_, ?_, ?_⟩
    · exact (h_acked ▸ h_acks).mono (Or.imp_left fun h => absurd h h_open) (fun h => h)
    · exact (h_refused ▸ h_out).mono (fun h => absurd h h_free) (fun h => h)
    · exact (h_delivered ▸ h_bundles).mono (fun h => absurd h h_open) (fun h => h)
  · -- The refusal is lost with the connection.
    have h_refusals : Relayed True False c.refused [] c.rxPc.refusalDue (ts.refusals cfg) :=
      h.refusals.mono (fun _ => trivial) (fun h => h)
    have h_acks := h.acks
    have h_bundles := h.bundles
    rw [h_pc] at h_acks h_bundles
    have h_open : c.rxShut → c.dlv.bad = true := by
      simp [rxShut, h_pc, RxPc.quitting, RxPc.leaving]
    refine ⟨h.rx, h.dlvCap, ⟨h.dlv.busy, h.dlv.ended, h.dlv.failed⟩, trivial, h_fit.1,
      h.wellFormed, ?_, ?_, ?_⟩
    · exact h_acks.mono (fun _ => Or.inr rfl) (fun _ => Or.inr rfl)
    · exact (h_refusals.shutFirst trivial).mono (fun _ => Or.inr rfl) (fun h => h)
    · exact h_bundles.mono (fun h => Or.inl (h_open h)) (fun h => h)

theorem acked_tracks (h : Tracks cfg c ts) {m : XferAck} {o : Outcome} {d : Conn} {b : Bool}
    (h_pc : c.rxPc = .acking m) (h_busy : c.dlv.busy = false) (h_bad : c.dlv.bad = false)
    (h_send : c.sendCtrl (.ack m) o = some (d, b)) :
    Tracks cfg (d.goOn (if b then .loop else .ret false)) ts := by
  have h_fit := h.fitting
  rw [h_pc] at h_fit
  rcases sendCtrl_cases h_send with ⟨rfl, h_whole, rfl⟩ | ⟨rfl, n, rfl⟩
  · obtain ⟨h_pending, h_idle⟩ := idle_of_free h.dlv h_busy h_bad
    have h_acks := h.acks
    have h_refusals := h.refusals
    have h_bundles := h.bundles
    rw [h_pc] at h_acks h_refusals h_bundles
    simp only [h_idle, DlvPc.ackDue, h_pending, Bool.false_eq_true, if_false] at h_acks
    have h_open : ¬ c.rxShut := by simp [rxShut, h_bad, h_pc, RxPc.quitting, RxPc.leaving]
    have h_free : ¬ (c.rxShut ∨ c.broken = true) := by simp [h_open, h_whole]
    have h_unfailed := DlvOk.unfailed h.dlv (by simp [h_idle])
    have h_free' : ¬ (c.dlvShut ∨ c.broken = true) := by
      simp [dlvShut, h_whole, h_unfailed, h_idle]
    obtain ⟨h_acked, h_refused, h_delivered⟩ := @log_ack c { c with
      outOctets := c.outOctets ++ (Ctrl.ack m).octets
      secSinceTx := 0
      log := c.log ++ [.sent (.ack m)]
      rxPc := .loop } m rfl
    have h_out := (h_acks.pass h_free).leave h_free'
    refine ⟨h.rx, h.dlvCap, ⟨h.dlv.busy, h.dlv.ended, h.dlv.failed⟩, trivial, ?_,
      h.wellFormed, ?_, ?_, ?_⟩
    · exact Or.inr (h_fit.resolve_left Bool.false_ne_true)
    · have h_due : c.dlvPc.ackDue c.dlv = [] := by simp [h_idle, DlvPc.ackDue, h_pending]
      show Relayed _ _ _ (c.dlvPc.ackDue c.dlv) [] _
      rw [h_due]
      exact (h_acked ▸ h_out).mono (fun h => absurd h h_free) (fun h => absurd h h_free')
    · exact (h_refused ▸ h_refusals).mono (fun h => absurd h h_free) (fun h => h)
    · exact (h_delivered ▸ h_bundles).mono (fun h => absurd h h_open) (fun h => h)
  · exact h.quit ⟨rfl, rfl, Or.inl rfl, fun _ => rfl, .same rfl⟩ rfl

theorem handed_tracks (h : Tracks cfg c ts) {seg : XferSegment} (h_pc : c.rxPc = .handing seg)
    (h_busy : c.dlv.busy = false) (h_bad : c.dlv.bad = false) :
    Tracks cfg { c with
      rx := (handOverTransfer c.rx c.dlv seg).1
      dlv := (handOverTransfer c.rx c.dlv seg).2
      rxPc := .loop } ts := by
  obtain ⟨h_pending, h_idle⟩ := idle_of_free h.dlv h_busy h_bad
  have h_fit := h.fitting
  have h_acks := h.acks
  have h_refusals := h.refusals
  have h_bundles := h.bundles
  rw [h_pc] at h_fit h_acks h_refusals h_bundles
  simp only [h_idle, DlvPc.ackDue, DlvPc.bundleDue, h_pending, Bool.false_eq_true, if_false]
    at h_acks h_bundles
  have h_open : ¬ c.rxShut := by simp [rxShut, h_bad, h_pc, RxPc.quitting, RxPc.leaving]
  refine ⟨⟨Nat.zero_le _, Nat.zero_le _, h.dlvCap⟩, h.rx.cap, ?_, trivial, Or.inr (Or.inl h_fit),
    h.wellFormed, ?_, ?_, ?_⟩
  · refine ⟨fun _ => rfl, fun h_ended => ?_, fun h_failed => h.dlv.failed h_failed⟩
    simp [h_idle] at h_ended
  · have h_due : c.dlvPc.ackDue (handOverTransfer c.rx c.dlv seg).2 =
        [⟨seg.flags, seg.transferId, c.rx.rxLen⟩] := by
      rw [h_idle]
      rfl
    show Relayed _ _ _ (c.dlvPc.ackDue (handOverTransfer c.rx c.dlv seg).2) [] _
    rw [h_due]
    by_cases h_broken : c.broken = true
    · exact .lost (Or.inr h_broken) h_acks.out_prefix
    · have h_free : ¬ (c.rxShut ∨ c.broken = true) := by simp [h_open, h_broken]
      exact (h_acks.pass h_free).mono (fun h => absurd h h_free) (fun h => h)
  · exact h_refusals.mono (Or.imp_left fun h => absurd h h_open) (fun h => h)
  · have h_due : c.dlvPc.bundleDue (handOverTransfer c.rx c.dlv seg).2 =
        [c.rx.rxBundle.take c.rx.rxLen] := by
      rw [h_idle]
      rfl
    show Relayed _ _ _ (c.dlvPc.bundleDue (handOverTransfer c.rx c.dlv seg).2) [] _
    rw [h_due]
    exact (h_bundles.pass h_open).mono (fun h => absurd h h_open) (fun h => h)

theorem finishSegment_goesOn (c : Conn) (seg : XferSegment) :
    (c.finishSegment seg).rxPc.givesUp = false := by
  unfold finishSegment
  split <;> rfl

theorem observeRecv_data {seg : XferSegment} {data rest : Octets} (h_pc : c.rxPc = .payload seg)
    (h_len : data.length = seg.dataLength) (h_in : c.inOctets = data ++ rest)
    (h_on : c'.rxPc.givesUp = false) : observeRecv cfg ts c c' = ts.addData seg data := by
  simp only [observeRecv, h_pc, h_on, Bool.false_eq_true, if_false, h_in, ← h_len, List.take_left]

/-- A segment that is stored fits. -/
theorem Tracks.want_le (h : Tracks cfg c ts) {seg : XferSegment} (h_pc : c.rxPc = .payload seg)
    (h_ref : c.rx.rxRefused = false) : c.rx.rxLen + seg.dataLength ≤ cfg.transferMru := by
  have h_fit := h.fitting
  rw [h_pc] at h_fit
  obtain ⟨init, t, -, h_head, -, h_fol⟩ := h_fit
  have h_size : t.size = t.data.length + seg.dataLength := by simp [Incoming.size, h_head]
  have h_fits : t.fits cfg = true := by
    have h_verdict := h_fol.refused
    rw [h_ref] at h_verdict
    simpa using h_verdict
  rw [h_fol.len h.rx h_ref, ← h_size]
  exact Incoming.size_le_of_fits h_fits

/-- **A step of the receiver thread.** -/
theorem recv_tracks {cfg : SessCfg} (h : Tracks cfg.rx c ts) (h_step : RecvStep cfg c c') :
    Tracks cfg.rx c' (observeRecv cfg.rx ts c c') := by
  cases h_step with
  | quit clean h_pc h_clean =>
    rw [observeRecv_failing rfl]
    exact h.quit (.of_same rfl (fun h => h) (.same rfl)) rfl
  | type type rest h_pc h_in =>
    rw [observeRecv_other (by simp [h_pc]) (by simp [h_pc])]
    exact h.between (.of_same rfl (fun h => h) (.same rfl)) (by rw [h_pc]; rfl)
      (by simp [h_pc, RxPc.quitting, RxPc.leaving]) (by simp [h_pc]) trivial (fun h => h) rfl
  | segment seg rest o h_pc h_in =>
    have h_on : ({ c with inOctets := rest }.handleSegmentHdr cfg seg o).rxPc ≠ .failing := by
      unfold handleSegmentHdr
      split <;> simp [sayAnyway]
    have h_seen : observeRecv cfg.rx ts c ({ c with inOctets := rest }.handleSegmentHdr cfg seg o) =
        ts.addHead cfg.rx seg (decide (c.state = .ending)) := by
      simp only [observeRecv, h_pc, h_in]
      rw [if_pos ⟨trivial, h_on⟩]
    rw [h_seen]
    exact header_tracks h h_pc
  | ack m rest h_pc h_in =>
    rw [observeRecv_other (by simp [h_pc]; decide) (by simp [h_pc])]
    have h_rej : ∀ n ∈ (if (xferAckSection c.tx m).2.2 then some (rejectUnexpected tmsgXferAck)
        else none), n.isReply = false := by
      split
      · rintro _ ⟨⟩
        rfl
      · simp
    exact afterTxSection_tracks h h_pc h_rej
  | refuse m rest h_pc h_in =>
    rw [observeRecv_other (by simp [h_pc]; decide) (by simp [h_pc])]
    have h_rej : ∀ n ∈ (if (xferRefuseSection c.tx m).2.2 then none
        else some (rejectUnexpected tmsgXferRefuse)), n.isReply = false := by
      split
      · simp
      · rintro _ ⟨⟩
        rfl
    exact afterTxSection_tracks h h_pc h_rej
  | keepalive h_pc =>
    rw [observeRecv_other (by simp [h_pc]; decide) (by simp [h_pc])]
    exact h.between (.of_same rfl (fun h => h) (.same rfl)) (by rw [h_pc]; rfl)
      (by simp [h_pc, RxPc.quitting, RxPc.leaving]) (by simp [h_pc]) trivial (fun h => h) rfl
  | reject m rest h_pc h_in =>
    rw [observeRecv_other (by simp [h_pc]; decide) (by simp [h_pc])]
    have h_from : c.rxPc.quitting = true → False := by simp [h_pc, RxPc.quitting, RxPc.leaving]
    unfold handleReject
    split
    · refine h.between (.of_same rfl (fun h => h) (.same rfl)) (by rw [h_pc]; rfl)
        (fun h => (h_from h).elim) (by simp [h_pc]) ?_ (fun h => h) rfl
      intro m h_m
      split at h_m
      · cases h_m
      · obtain rfl := Option.some.inj h_m
        rfl
    · exact h.between (.of_same rfl (fun h => h) (.same rfl)) (by rw [h_pc]; rfl)
        (fun h => (h_from h).elim) (by simp [h_pc]) trivial (fun h => h) rfl
  | sessTerm m rest h_pc h_in =>
    rw [observeRecv_other (by simp [h_pc]; decide) (by simp [h_pc])]
    have h_from : c.rxPc.quitting = true → False := by simp [h_pc, RxPc.quitting, RxPc.leaving]
    have h_place : ∃ say ok bad, ({ c with inOctets := rest }.handleSessTerm m).rxPc =
        .stopping say ok bad ∧ ∀ m ∈ say, m.isReply = false := by
      unfold handleSessTerm
      dsimp only
      split
      · refine ⟨_, _, _, rfl, ?_⟩
        rintro _ ⟨⟩
        rfl
      · exact ⟨_, _, _, rfl, fun _ h_m => (Option.not_mem_none _ h_m).elim⟩
    obtain ⟨say, ok, bad, h_pc', h_say⟩ := h_place
    refine h.between (.of_same rfl (fun h => h) (.same rfl)) (by rw [h_pc]; rfl)
      (fun h => (h_from h).elim) (by simp [h_pc]) ?_ ?_ ?_
    · rw [h_pc']
      exact h_say
    · rw [h_pc']
      exact fun h => h
    · rw [h_pc']
      rfl
  | unknown type m h_pc h_type h_m =>
    rw [observeRecv_other (by simp [h_pc, h_type.1]) (by simp [h_pc])]
    obtain ⟨rej, rfl⟩ := h_m
    exact h.between (.of_same rfl (fun h => h) (.same rfl)) (by rw [h_pc]; rfl)
      (fun _ => rfl) (by simp [h_pc]) rfl (fun h => h) rfl
  | refuseUnsaid reason seg h_pc h_bad =>
    rw [observeRecv_other (by simp [h_pc]) (by simp [h_pc])]
    have h_fit := h.fitting
    rw [h_pc] at h_fit
    exact h.move (.of_same rfl (fun h => h) (.same rfl)) trivial h_fit.1
      (by simp [h_pc, RxPc.quitting, RxPc.leaving]) (Or.inr ⟨rfl, Or.inr (Or.inl h_bad)⟩)
  | refuseSaid reason seg o d b h_pc h_busy h_bad h_send =>
    rw [observeRecv_other (by simp [h_pc]) (by simp [h_pc])]
    exact refuseSaid_tracks h h_pc h_bad h_send
  | drained seg data rest h_pc h_ref h_len h_in =>
    rw [observeRecv_data h_pc h_len h_in (finishSegment_goesOn _ seg)]
    refine data_tracks h h_pc h_len h.rx rfl rfl rfl fun h_r => ?_
    rw [h_ref] at h_r
    cases h_r
  | exhausted seg h_pc h_ref =>
    have h_seen : observeRecv cfg.rx ts c { c with rxPc := sayAnyway termExhausted (.ret false) } =
        ts := by
      simp [observeRecv, h_pc, RxPc.givesUp, sayAnyway]
    rw [h_seen]
    exact h.move (.of_same rfl (fun h => h) (.same rfl)) rfl (Or.inl rfl) (fun _ => rfl)
      (Or.inr ⟨rfl, Or.inl (by rw [h_pc]; rfl)⟩)
  | stored seg rx mem data rest h_pc h_ref h_rx h_len h_in =>
    rw [observeRecv_data h_pc h_len h_in (finishSegment_goesOn _ seg)]
    have h_want := h.want_le h_pc h_ref
    obtain ⟨h_rxLen, h_id, h_active, h_refused, h_kept, h_cap, h_room⟩ :=
      rxReserve_spec h.rx.room h_rx
    have h_bound := rxReserve_bounded h.rx h_want h_rx
    have h_fits : rx.rxLen + data.length ≤ rx.rxBundle.length := by
      rw [h_rxLen, h_len]
      exact h_cap
    obtain ⟨h_take, h_in'⟩ := segmentStore_spec h_fits
    refine data_tracks h h_pc h_len ⟨?_, h_in', ?_⟩ h_active h_id h_refused fun _ => ?_
    · show rx.rxLen + data.length ≤ cfg.rx.transferMru
      rw [h_rxLen, h_len]
      exact h_want
    · show (rx.rxBundle.splice rx.rxLen data).length ≤ capMax cfg.rx
      rw [Octets.length_splice h_fits]
      exact h_bound.cap
    · rw [h_take, h_rxLen, h_kept]
  | storeFailed seg rx mem h_pc h_ref h_rx =>
    have h_bound := rxReserve_bounded h.rx (h.want_le h_pc h_ref) h_rx
    rw [observeRecv_failing rfl]
    exact h.turn (by rw [h_pc]; rfl) (by rw [h_pc]; rfl) rfl h_bound trivial (Or.inl rfl)
      h.wellFormed (List.append_nil _).symm ⟨[], (List.append_nil _).symm, Or.inl rfl⟩
      (List.append_nil _).symm
  | acked m o d b h_pc h_busy h_bad h_send =>
    rw [observeRecv_other (by simp [h_pc]) (by simp [h_pc])]
    exact acked_tracks h h_pc h_busy h_bad h_send
  | handed seg h_pc h_busy h_bad =>
    rw [observeRecv_other (by simp [h_pc]) (by simp [h_pc])]
    exact handed_tracks h h_pc h_busy h_bad
  | reported x reject h_pc =>
    rw [observeRecv_other (by simp [h_pc]) (by simp [h_pc])]
    have h_plain := h.plain
    rw [h_pc] at h_plain
    refine h.between (.of_same rfl (fun h => h) (.one rfl rfl)) (by rw [h_pc]; rfl)
      (by simp [h_pc, RxPc.quitting, RxPc.leaving]) (by simp [h_pc]) ?_ ?_ ?_
    · cases reject with
      | none => trivial
      | some m => exact h_plain m rfl
    · cases reject with
      | none => exact fun h => h
      | some m => exact fun h => h
    · cases reject with
      | none => rfl
      | some m => rfl
  | stopped say ok bad h_pc =>
    rw [observeRecv_other (by simp [h_pc]) (by simp [h_pc])]
    have h_plain := h.plain
    rw [h_pc] at h_plain
    have h_from : c.rxPc.quitting = true → False := by simp [h_pc, RxPc.quitting, RxPc.leaving]
    cases say with
    | none =>
      cases ok with
      | loop =>
        exact h.between (.of_same rfl (fun h => h) (.same rfl)) (by rw [h_pc]; rfl)
          (fun h => (h_from h).elim) (by simp [h_pc]) trivial (fun h => h) rfl
      | ret clean => exact h.quit (.of_same rfl (fun h => h) (.same rfl)) rfl
    | some m =>
      exact h.between (.of_same rfl (fun h => h) (.same rfl)) (by rw [h_pc]; rfl)
        (fun h => (h_from h).elim) (by simp [h_pc]) (h_plain m rfl) (fun h => h) rfl
  | said m ok bad o d b h_pc h_send =>
    rw [observeRecv_other (by simp [h_pc]) (by simp [h_pc])]
    have h_plain := h.plain
    rw [h_pc] at h_plain
    have h_b := goOn_beside (Elsewhere.sendCtrl h_send h_plain).toBeside (if b then ok else bad)
    rcases goOn_place d (if b then ok else bad) with ⟨h_loop, h_next⟩ | h_fail
    · refine h.between h_b (by rw [h_pc]; rfl) ?_ (by simp [h_pc]) ?_ ?_ ?_
      · rw [h_pc]
        intro h_quit
        cases ok with
        | loop => cases h_quit
        | ret clean =>
          cases bad with
          | loop => cases h_quit
          | ret clean' => cases b <;> cases h_next
      · rw [h_loop]
        trivial
      · rw [h_loop]
        exact fun h => h
      · rw [h_loop]
        rfl
    · exact h.quit h_b h_fail
  | failed h_pc =>
    rw [observeRecv_other (by simp [h_pc]) (by simp [h_pc])]
    exact h.move (.of_same rfl (fun _ => rfl) (.same rfl)) trivial (Or.inl rfl) (fun _ => rfl)
      (Or.inr ⟨rfl, Or.inr (Or.inr rfl)⟩)
  | txStopped h_pc =>
    rw [observeRecv_other (by simp [h_pc]) (by simp [h_pc])]
    exact h.move (.of_same rfl (fun h => h) (.same rfl)) trivial (Or.inl rfl) (fun _ => rfl)
      (Or.inr ⟨rfl, Or.inr (Or.inr rfl)⟩)
  | joinedXmit h_pc h_xmit =>
    rw [observeRecv_other (by simp [h_pc]) (by simp [h_pc])]
    exact h.move (.of_same rfl (fun h => h) (.same rfl)) trivial (Or.inl rfl) (fun _ => rfl)
      (Or.inr ⟨rfl, Or.inr (Or.inr rfl)⟩)
  | dlvStopped h_pc =>
    rw [observeRecv_other (by simp [h_pc]) (by simp [h_pc])]
    exact h.move ⟨rfl, rfl, Or.inr rfl, fun h => h, .same rfl⟩ trivial (Or.inl rfl) (fun _ => rfl)
      (Or.inr ⟨rfl, Or.inr (Or.inr rfl)⟩)
  | joinedDlv h_pc h_dlv =>
    rw [observeRecv_other (by simp [h_pc]) (by simp [h_pc])]
    exact h.move (.of_same rfl (fun h => h) (.same rfl)) trivial (Or.inl rfl) (fun _ => rfl)
      (Or.inr ⟨rfl, Or.inr (Or.inr rfl)⟩)
  | closed h_pc =>
    rw [observeRecv_other (by simp [h_pc]) (by simp [h_pc])]
    exact h.move (.of_same rfl (fun _ => rfl) (.same rfl)) trivial (Or.inl rfl) (fun _ => rfl)
      (Or.inr ⟨rfl, Or.inr (Or.inr rfl)⟩)

theorem step_tracks {cfg : SessCfg} {a : Act} (h : Tracks cfg.rx c ts)
    (h_step : step cfg c a = some c') : Tracks cfg.rx c' (watch cfg.rx ts c a c') := by
  cases a with
  | recv o => exact recv_tracks h (recvStep_cases h_step)
  | dlv o => exact dlv_tracks h h_step
  | call bundle o => exact h.elsewhere (step_elsewhere (by simp) (by simp) h_step)
  | room r => exact h.elsewhere (step_elsewhere (by simp) (by simp) h_step)
  | timeout r => exact h.elsewhere (step_elsewhere (by simp) (by simp) h_step)
  | xmit o => exact h.elsewhere (step_elsewhere (by simp) (by simp) h_step)
  | clock o => exact h.elsewhere (step_elsewhere (by simp) (by simp) h_step)
  | stop o => exact h.elsewhere (step_elsewhere (by simp) (by simp) h_step)
  | free => exact h.elsewhere (step_elsewhere (by simp) (by simp) h_step)
  | arrive data => exact h.elsewhere (step_elsewhere (by simp) (by simp) h_step)

/-- **Reception tracks the transfers in every run.** -/
theorem run_tracks {cfg : SessCfg} {as : List Act}
    (h_run : Lts.run (observed cfg) (Conn.init, []) as = some (c, ts)) : Tracks cfg.rx c ts := by
  refine @Lts.run_invariant _ _ (observed cfg) (fun v => Tracks cfg.rx v.1 v.2) ?_ _ _ _
    (tracks_init cfg.rx) h_run
  intro v a v' h h_step
  obtain ⟨d, h_d, rfl⟩ := Option.map_eq_some_iff.mp h_step
  exact step_tracks h h_d

end IonContrib.Tcpv4
