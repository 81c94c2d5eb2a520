/-
  IonContrib.Tcpv4.Account

  The account of one end of a session: what `queueXfer` was called with, what
  has been written, the octets that have come, what has been made of them.

  `Balanced` says that the account is right in every respect at once, and
  `step_balanced` that every step of every thread has an account that continues it.
-/
import IonContrib.Tcpv4.Credited
import IonContrib.Tcpv4.RxBounds

namespace IonContrib.Tcpv4

open Conn

structure Account where
  called : List Octets
  said : List Wire
  parts : Parts
  came : Octets
  heard : List Wire
  ts : Transfers

def Account.init : Account := ⟨[], [], [], [], [], []⟩

structure Balanced (cfg : SessCfg) (c : Conn) (g : Account) : Prop where
  tracks : Tracks cfg.rx c g.ts
  ledger : c.ledger.Ok cfg.window
  down : c.DownOk
  writes : Writes c g.said
  sends : Sends c g.said g.parts
  answers : Answers cfg.rx c g.said g.ts
  reads : Reads c g.came g.heard g.ts
  credits : Credits c g.heard g.called

theorem balanced_init (cfg : SessCfg) : Balanced cfg Conn.init Account.init :=
  ⟨tracks_init cfg.rx, Ledger.ok_init, downOk_init, writes_init, sends_init, answers_init cfg.rx,
    reads_init, credits_init⟩

/-- The octets that arrive in a step. -/
def Act.arrives : Act → Octets
  | .arrive data => data
  | _ => []

variable {cfg : SessCfg} {c c' : Conn} {said ms : List Wire} {es : List Event} {ts : Transfers}
  {came : Octets} {heard : List Wire} {parts : Parts}

/-! ## Acknowledgements fit their fields -/

theorem Incoming.acks_inRange {cfg : RxCfg} {t : Incoming} (h_cfg : cfg.Admitted)
    (h_shaped : t.Shaped) (h_ids : ∀ s ∈ t.segs, s.1.transferId = t.start.transferId)
    {m : XferAck} (h : m ∈ t.acks cfg) : m.InRange := by
  have h_len : ∀ {size : Nat} {segs : List Segment}, m ∈ t.acksFrom cfg size segs →
      m.ackLength ≤ cfg.transferMru := by
    intro size segs h_m
    induction segs generalizing size with
    | nil => cases h_m
    | cons s segs ih =>
      rw [Incoming.acksFrom] at h_m
      rcases List.mem_append.mp h_m with h_here | h_later
      · split at h_here
        · rename_i h_fits
          rw [List.mem_singleton.mp h_here]
          exact Incoming.size_le_of_fits h_fits
        · cases h_here
      · exact ih h_later
  refine ⟨?_, ?_⟩
  · obtain ⟨before, s, after, h_segs, h_m⟩ := Incoming.mem_acksFrom h
    have h_s : s ∈ t.segs := by
      rw [h_segs]
      exact List.mem_append_right _ List.mem_cons_self
    rw [h_m]
    show s.1.transferId < 256 ^ 8
    rw [h_ids s h_s]
    exact h_shaped.start.2.id_lt
  · have h_mru := h_cfg.transfer
    have h_le := h_len h
    unfold tcpv4claBufsz at h_mru
    omega

theorem acks_inRange {cfg : RxCfg} (h_cfg : cfg.Admitted) (h_shaped : ∀ t ∈ ts, t.Shaped)
    (h_wf : ts.WellFormed) {m : XferAck} (h : m ∈ ts.acks cfg) : m.InRange := by
  obtain ⟨t, h_t, h_m⟩ := List.mem_flatMap.mp h
  exact t.acks_inRange h_cfg (h_shaped t h_t) (fun s h_s => (h_wf t h_t s h_s).1) h_m

/-- Answers fit their fields, and so does what is no answer. -/
theorem reply_fits {cfg : RxCfg} (h_cfg : cfg.Admitted) (h_shaped : ∀ t ∈ ts, t.Shaped)
    (h_wf : ts.WellFormed) (h_answers : Answers cfg c (said ++ ms) ts)
    (h_ctrl : ∀ w ∈ ms, ∃ m, w = .ctrl m) : ∀ w ∈ ms, w.Fits := by
  intro w h_w
  obtain ⟨m, rfl⟩ := h_ctrl w h_w
  cases m with
  | ack m =>
    have h_m : m ∈ acksOf (said ++ ms) := by
      rw [acksOf_append]
      exact List.mem_append_right _ (List.mem_filterMap.mpr ⟨_, h_w, rfl⟩)
    exact acks_inRange h_cfg h_shaped h_wf (h_answers.front.subset h_m)
  | refuse m =>
    have h_m : m ∈ refusalsOf (said ++ ms) := by
      rw [refusalsOf_append]
      exact List.mem_append_right _ (List.mem_filterMap.mpr ⟨_, h_w, rfl⟩)
    exact (h_answers.refusals m h_m).2
  | sessTerm m => trivial
  | msgReject m => trivial
  | keepalive => trivial

/-! ## Steps -/

theorem segmentsOf_ctrl (h : ∀ w ∈ ms, ∃ m, w = .ctrl m) : segmentsOf ms = [] := by
  refine List.filterMap_eq_nil_iff.mpr fun w h_w => ?_
  obtain ⟨m, rfl⟩ := h w h_w
  rfl

theorem replies_segmentWires (segs : List Segment) :
    acksOf (segmentWires segs) = [] ∧ refusalsOf (segmentWires segs) = [] := by
  refine ⟨List.filterMap_eq_nil_iff.mpr ?_, List.filterMap_eq_nil_iff.mpr ?_⟩
  · intro w h_w
    obtain ⟨s, -, rfl⟩ := List.mem_map.mp h_w
    rfl
  · intro w h_w
    obtain ⟨s, -, rfl⟩ := List.mem_map.mp h_w
    rfl

theorem recv_ctrl (h : RecvSpoke c c' ms es) :
    (∀ w ∈ ms, ∃ m, w = .ctrl m) ∧ es.filterMap Event.took? = [] := by
  cases h with
  | silent h_s => exact ⟨by simp, rfl⟩
  | reported x reject h_pc h_s => exact ⟨by simp, rfl⟩
  | said m es h_m h_free h_open h_es h_s =>
    refine ⟨fun w h_w => ⟨m, List.mem_singleton.mp h_w⟩, ?_⟩
    rcases h_es with rfl | ⟨rfl, -⟩
    · rfl
    · rfl

theorem dlv_ctrl (h : DlvSpoke c c' ms es) :
    Spoke c c' ms es ∧ (∀ w ∈ ms, ∃ m, w = .ctrl m) ∧ es.filterMap Event.took? = [] := by
  cases h with
  | silent h_s => exact ⟨h_s, by simp, rfl⟩
  | delivered b h_s => exact ⟨h_s, by simp, rfl⟩
  | acked m es h_es h_s =>
    refine ⟨h_s, fun w h_w => ⟨.ack m, List.mem_singleton.mp h_w⟩, ?_⟩
    rcases h_es with rfl | rfl
    · rfl
    · rfl

theorem dlv_inOctets {o : Outcome} (h : c.dlvStep o = some c') : c'.inOctets = c.inOctets := by
  unfold dlvStep at h
  split at h
  · split at h
    · exact Option.some.inj h ▸ rfl
    split at h
    · exact Option.some.inj h ▸ rfl
    · cases h
  · rcases Outcome.err_or h with h | h
    · exact Option.some.inj h ▸ rfl
    · exact Option.some.inj h ▸ rfl
  · obtain ⟨⟨d, b⟩, h_send, rfl⟩ := Option.map_eq_some_iff.mp h
    exact (NotCarrying.of_sendCtrl h_send).inOctets
  · exact Option.some.inj h ▸ rfl
  · exact Option.some.inj h ▸ rfl
  · cases h

/-- What a step writes, says and takes fits the account. -/
structure Says (cfg : SessCfg) (c c' : Conn) (said : List Wire) (parts : Parts) (came : Octets)
    (heard : List Wire) (ts : Transfers) : Prop where
  out : c.outOctets <+: c'.outOctets
  writes : Writes c' said
  sends : Sends c' said parts
  answers : Answers cfg.rx c' said ts
  reads : Reads c' came heard ts

theorem recv_says (h_cfg : cfg.rx.Admitted) (h_tracks : Tracks cfg.rx c ts) (h_writes : Writes c said)
    (h_sends : Sends c said parts) (h_answers : Answers cfg.rx c said ts)
    (h_reads : Reads c came heard ts) (h_step : RecvStep cfg c c') :
    ∃ said', Says cfg c c' said' parts came (heard ++ hears c c') (observeRecv cfg.rx ts c c') := by
  obtain ⟨ms, es, h_spoke, h_answers'⟩ := recv_answers h_tracks h_answers h_step
  have h_reads' := recv_reads h_tracks h_reads h_step
  have h_tracks' := recv_tracks h_tracks h_step
  obtain ⟨h_ctrl, h_took⟩ := recv_ctrl h_spoke
  have h_fits := reply_fits h_cfg h_reads'.shaped h_tracks'.wellFormed h_answers' h_ctrl
  exact ⟨said ++ ms, h_spoke.spoke.out_prefix, h_writes.spoke h_spoke.spoke h_fits,
    h_sends.other (recv_notSending h_step) h_spoke.spoke (segmentsOf_ctrl h_ctrl) h_took,
    h_answers', h_reads'⟩

theorem dlv_says (h_cfg : cfg.rx.Admitted) (h_tracks : Tracks cfg.rx c ts) (h_writes : Writes c said)
    (h_sends : Sends c said parts) (h_answers : Answers cfg.rx c said ts)
    (h_reads : Reads c came heard ts) {o : Outcome} (h_step : c.dlvStep o = some c') :
    ∃ said', Says cfg c c' said' parts came heard ts := by
  obtain ⟨ms, es, h_spoke, h_answers'⟩ := dlv_answers h_tracks h_answers h_step
  obtain ⟨h_s, h_ctrl, h_took⟩ := dlv_ctrl h_spoke
  have h_place := dlv_place h_step
  have h_rxPc : c'.rxPc = c.rxPc := (Prod.mk.inj h_place).1
  have h_fits := reply_fits h_cfg h_reads.shaped h_tracks.wellFormed h_answers' h_ctrl
  exact ⟨said ++ ms, h_s.out_prefix, h_writes.spoke h_s h_fits,
    h_sends.other (dlv_notSending h_step) h_s (segmentsOf_ctrl h_ctrl) h_took, h_answers',
    h_reads.idle h_rxPc (dlv_inOctets h_step)⟩

theorem xmit_says (h_mtu : 0 < cfg.segmentMtu) (h_writes : Writes c said)
    (h_sends : Sends c said parts) (h_answers : Answers cfg.rx c said ts)
    (h_reads : Reads c came heard ts) (h_step : XmitStep cfg c c') :
    ∃ said' parts', Says cfg c c' said' parts' came heard ts := by
  obtain ⟨ms, es, parts', h_spoke, h_sends'⟩ := xmit_sends h_mtu h_sends h_step
  obtain ⟨h_s, ⟨segs, rfl⟩, h_aloof, h_fits⟩ := h_spoke
  have h_frame := (xmitStep_frame h_step).1
  obtain ⟨h_acks, h_refusals⟩ := replies_segmentWires segs
  have h_answers' := h_answers.keep h_s h_acks h_refusals h_aloof List.prefix_rfl
    (by rw [h_frame.dlvPc]; exact fun h => h) (by rw [h_frame.rxPc]; exact h_answers.pc)
  exact ⟨_, parts', h_s.out_prefix, h_writes.spoke h_s h_fits, h_sends', h_answers',
    h_reads.idle h_frame.rxPc h_frame.inOctets⟩

theorem aside_says {a : Act} (h_recv : ∀ o, a ≠ .recv o) (h_dlv : ∀ o, a ≠ .dlv o)
    (h_xmit : ∀ o, a ≠ .xmit o) (h_arrive : ∀ data, a ≠ .arrive data) (h_writes : Writes c said)
    (h_sends : Sends c said parts) (h_answers : Answers cfg.rx c said ts)
    (h_reads : Reads c came heard ts) (h_step : step cfg c a = some c') :
    ∃ said', Says cfg c c' said' parts came heard ts := by
  obtain ⟨ms, es, h_s, h_plain, h_aloof, h_other⟩ := step_aside h_recv h_dlv h_xmit h_arrive h_step
  have h_else := step_elsewhere h_recv h_dlv h_step
  have h_took : es.filterMap Event.took? = [] :=
    List.filterMap_eq_nil_iff.mpr fun e h_e => (h_aloof e h_e).2
  have h_ctrl : ∀ w ∈ ms, ∃ m, w = .ctrl m ∧ m.isReply = false := by
    intro w h_w
    rcases h_plain with rfl | ⟨m, rfl, h_m⟩
    · cases h_w
    · exact ⟨m, List.mem_singleton.mp h_w, h_m⟩
  have h_replies : acksOf ms = [] ∧ refusalsOf ms = [] := by
    rcases h_plain with rfl | ⟨m, rfl, h_m⟩
    · exact ⟨rfl, rfl⟩
    · exact noReply h_m
  have h_fits : ∀ w ∈ ms, w.Fits := by
    intro w h_w
    obtain ⟨m, rfl, h_m⟩ := h_ctrl w h_w
    cases m with
    | ack m => cases h_m
    | refuse m => cases h_m
    | sessTerm m => trivial
    | msgReject m => trivial
    | keepalive => trivial
  have h_answers' := h_answers.keep h_s h_replies.1 h_replies.2 (fun e h_e => (h_aloof e h_e).1)
    List.prefix_rfl (by rw [h_else.dlvPc]; exact fun h => h)
    (by rw [h_else.rxPc]; exact h_answers.pc)
  have h_segs : segmentsOf ms = [] :=
    segmentsOf_ctrl fun w h_w => ⟨_, (h_ctrl w h_w).choose_spec.1⟩
  exact ⟨_, h_s.out_prefix, h_writes.spoke h_s h_fits,
    h_sends.other ⟨h_other.xmitPc, h_other.nextTxId⟩ h_s h_segs h_took, h_answers',
    h_reads.idle h_else.rxPc h_other.inOctets⟩

/-- **Every step has an account.** -/
theorem step_balanced {g : Account} {a : Act} (h_mtu : 0 < cfg.segmentMtu) (h_cfg : cfg.rx.Admitted)
    (h : Balanced cfg c g) (h_step : step cfg c a = some c') :
    c.outOctets <+: c'.outOctets ∧
      ∃ g', Balanced cfg c' g' ∧ g'.called = g.called ++ a.calls ∧ g'.came = g.came ++ a.arrives := by
  have h_tracks := step_tracks h.tracks h_step
  have h_ledger := Ledger.ok_step h.ledger (step_ledger h.down h_step)
  have h_down := downOk_step h.ledger h.down h_step
  have h_credits := step_credits h.ledger h.tracks.plain h.credits h_step
  have h_says : ∃ said' parts', Says cfg c c' said' parts' (g.came ++ a.arrives)
      (g.heard ++ heardIn c a c') (watch cfg.rx g.ts c a c') := by
    have h_quiet : ∀ {said' parts'}, Says cfg c c' said' parts' g.came g.heard g.ts →
        Says cfg c c' said' parts' (g.came ++ []) (g.heard ++ []) g.ts := by
      intro said' parts' h_s
      rwa [List.append_nil, List.append_nil]
    have h_aside : (∀ o, a ≠ .recv o) → (∀ o, a ≠ .dlv o) → (∀ o, a ≠ .xmit o) →
        (∀ data, a ≠ .arrive data) →
        ∃ said' parts', Says cfg c c' said' parts' (g.came ++ []) (g.heard ++ []) g.ts := by
      intro h_recv h_dlv h_xmit h_arrive
      obtain ⟨said', h_s⟩ := aside_says h_recv h_dlv h_xmit h_arrive h.writes h.sends h.answers
        h.reads h_step
      exact ⟨said', g.parts, h_quiet h_s⟩
    cases a with
    | recv o =>
      obtain ⟨said', h_s⟩ := recv_says h_cfg h.tracks h.writes h.sends h.answers h.reads
        (recvStep_cases h_step)
      refine ⟨said', g.parts, ?_⟩
      show Says cfg c c' said' g.parts (g.came ++ []) _ _
      rw [List.append_nil]
      exact h_s
    | dlv o =>
      obtain ⟨said', h_s⟩ := dlv_says h_cfg h.tracks h.writes h.sends h.answers h.reads h_step
      exact ⟨said', g.parts, h_quiet h_s⟩
    | xmit o =>
      obtain ⟨said', parts', h_s⟩ := xmit_says h_mtu h.writes h.sends h.answers h.reads
        (xmitStep_cases h_step)
      exact ⟨said', parts', h_quiet h_s⟩
    | call bundle o => exact h_aside (by simp) (by simp) (by simp) (by simp)
    | room r => exact h_aside (by simp) (by simp) (by simp) (by simp)
    | timeout r => exact h_aside (by simp) (by simp) (by simp) (by simp)
    | clock o => exact h_aside (by simp) (by simp) (by simp) (by simp)
    | stop o => exact h_aside (by simp) (by simp) (by simp) (by simp)
    | free => exact h_aside (by simp) (by simp) (by simp) (by simp)
    | arrive data =>
      obtain rfl := Option.some.inj h_step
      refine ⟨g.said, g.parts, ?_⟩
      show Says cfg c _ g.said g.parts (g.came ++ data) (g.heard ++ []) g.ts
      rw [List.append_nil]
      have h_s : Spoke c { c with inOctets := c.inOctets ++ data } [] [] := .same rfl
      refine ⟨List.prefix_rfl, ⟨h.writes.out, h.writes.all, h.writes.fits⟩, ?_, ?_,
        h.reads.arrive data⟩
      · have h_not : NotSending c { c with inOctets := c.inOctets ++ data } := ⟨rfl, rfl⟩
        have h_sends := h.sends.other h_not h_s rfl rfl
        rwa [List.append_nil] at h_sends
      · have h_answers := h.answers.keep h_s rfl rfl (by simp) List.prefix_rfl (fun h => h)
          h.answers.pc
        rwa [List.append_nil] at h_answers
  obtain ⟨said', parts', h_s⟩ := h_says
  exact ⟨h_s.out, ⟨g.called ++ a.calls, said', parts', g.came ++ a.arrives, _, _⟩,
    ⟨h_tracks, h_ledger, h_down, h_s.writes, h_s.sends, h_s.answers, h_s.reads, h_credits⟩, rfl, rfl⟩

end IonContrib.Tcpv4
