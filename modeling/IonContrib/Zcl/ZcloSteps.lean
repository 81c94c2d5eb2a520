/-
  IonContrib.Zcl.ZcloSteps

  What the steps of zclo do to the chunk and to the bundles in hand.

  `Stepped` is the list of them, each with all it changes, and what is proved of
  a run goes by its cases.  Besides, the two threads know this of each other
  (`CloOk`): nothing is pending while no chunk is open, and the flush thread
  leaves its loop only when the main thread has left its own.
-/
import IonContrib.Zcl.EncNumbers
import IonContrib.Zcl.Zclo

namespace IonContrib.Zclo

open Octets Zcl

variable {c : ZclEncCfg}

/-! ## What a step does -/

/-- The bundles of a dropped chunk that the main thread has yet to report. -/
def MainPc.hands : MainPc → List Pend
  | .dropping zcos _ => zcos
  | _ => []

/-- What the flush thread has in hand: a carrier with its bundles, and the reports to make. -/
def FlushPc.work : FlushPc → Option (Octets × List Pend) × List (Pend × Bool)
  | .sending carrier zcos _ => (some (carrier, zcos), [])
  | .settling reports _ => (none, reports)
  | _ => (none, [])

/-- The flush thread is behind its loop. -/
def FlushPc.last : FlushPc → Bool
  | .sending _ _ last => last
  | .settling _ last => last
  | .ended => true
  | _ => false

/-- Effects that are neither on the chunk nor on the bundles in it. -/
def Effect.aloof : Effect → Bool
  | .returned _ => true
  | .xmit _ _ => true
  | _ => false

/-- What a step does to the encoder, to the bundles in hand and to the log. -/
inductive Stepped (cfg : ZclCloConfig) (d : CloState c) : Event → CloState c → Prop
  | idle {e : Event} {d' : CloState c} (h_enc : d'.enc = d.enc) (h_pending : d'.pending = d.pending)
      (h_main : d'.main.hands = d.main.hands) (h_work : d'.flusher.work = d.flusher.work)
      (es : List Effect) (h_log : d'.log = d.log ++ es) (h_es : ∀ e ∈ es, e.aloof = true) :
      Stepped cfg d e d'
  | added {mem : Bool} {now : Nat} {d' : CloState c} (p : Pend) (h_hold : d.main = .holding p)
      (h_add : (zclEncAdd c d.enc p.bytes).2 = 0) (h_enc : d'.enc = (zclEncAdd c d.enc p.bytes).1)
      (h_pending : d'.pending = d.pending ++ [p]) (h_main : d'.main.hands = [])
      (h_work : d'.flusher.work = d.flusher.work) (h_log : d'.log = d.log ++ [.added p]) :
      Stepped cfg d (.add mem now) d'
  | addFailed {mem : Bool} {now : Nat} {d' : CloState c} (p : Pend) (h_hold : d.main = .holding p)
      (h_add : (zclEncAdd c d.enc p.bytes).2 ≠ 0)
      (h_enc : d'.enc = zclEncAbort c (zclEncAdd c d.enc p.bytes).1) (h_pending : d'.pending = [])
      (h_main : d'.main.hands = d.pending) (h_work : d'.flusher.work = d.flusher.work)
      (h_log : d'.log = d.log) : Stepped cfg d (.add mem now) d'
  | dropped {d' : CloState c} (q : Pend) (h_enc : d'.enc = d.enc) (h_pending : d'.pending = d.pending)
      (h_main : d.main.hands = q :: d'.main.hands) (h_work : d'.flusher.work = d.flusher.work)
      (h_log : d'.log = d.log ++ [.settled q false]) : Stepped cfg d .drop d'
  | cut {now : Nat} {d' : CloState c} (endChunk last : Bool)
      (h_look : look cfg d now = if last then .over else .cut endChunk)
      (h_last : last = true → endChunk = true) (h_cut : (zclEncCut c d.enc endChunk).2 = 1)
      (h_enc : d'.enc = (zclEncCut c d.enc endChunk).1) (h_pending : d'.pending = [])
      (h_main : d'.main = d.main) (h_idle : d.flusher.work = (none, []))
      (h_work : d'.flusher.work =
        (some ((zclEncCut c d.enc endChunk).1.cut.getLastD [], d.pending), []))
      (h_log : d'.log = d.log) : Stepped cfg d (.look now) d'
  | cutFailed {now : Nat} {d' : CloState c} (endChunk last : Bool)
      (h_look : look cfg d now = if last then .over else .cut endChunk)
      (h_last : last = true → endChunk = true) (h_cut : (zclEncCut c d.enc endChunk).2 = -1)
      (h_enc : d'.enc = zclEncAbort c (zclEncCut c d.enc endChunk).1) (h_pending : d'.pending = [])
      (h_main : d'.main = d.main) (h_idle : d.flusher.work = (none, []))
      (h_work : d'.flusher.work = (none, d.pending.map (·, false))) (h_log : d'.log = d.log) :
      Stepped cfg d (.look now) d'
  | sent {d' : CloState c} (carrier : Octets) (zcos : List Pend) (h_enc : d'.enc = d.enc)
      (h_pending : d'.pending = d.pending) (h_main : d'.main = d.main)
      (h_sending : d.flusher.work = (some (carrier, zcos), []))
      (h_work : d'.flusher.work = (none, zcos.map (·, true)))
      (h_log : d'.log = d.log ++ [.sent carrier zcos true]) : Stepped cfg d (.send true) d'
  | sendFailed {d' : CloState c} (carrier : Octets) (zcos : List Pend)
      (h_enc : d'.enc = zclEncAbort c d.enc) (h_pending : d'.pending = [])
      (h_main : d'.main = d.main) (h_sending : d.flusher.work = (some (carrier, zcos), []))
      (h_work : d'.flusher.work =
        (none, d.pending.map (·, false) ++ zcos.map (·, false)))
      (h_log : d'.log = d.log ++ [.sent carrier zcos false]) : Stepped cfg d (.send false) d'
  | reported {d' : CloState c} (p : Pend) (sent : Bool) (reports : List (Pend × Bool))
      (h_enc : d'.enc = d.enc) (h_pending : d'.pending = d.pending) (h_main : d'.main = d.main)
      (h_settling : d.flusher.work = (none, (p, sent) :: reports))
      (h_work : d'.flusher.work = (none, reports))
      (h_log : d'.log = d.log ++ [.settled p sent]) : Stepped cfg d .report d'

section

variable {cfg : ZclCloConfig} {d d' : CloState c} {e : Event}

/-- A step that only moves the threads. -/
theorem Stepped.of_pcs (h_enc : d'.enc = d.enc) (h_zcos : d'.zcos = d.zcos)
    (h_main : d'.main.hands = d.main.hands) (h_work : d'.flusher.work = d.flusher.work)
    (h_log : d'.log = d.log) : Stepped cfg d e d' :=
  .idle h_enc (congrArg (·.getD []) h_zcos) h_main h_work [] (by rw [h_log, List.append_nil])
    (by simp)

@[simp] theorem FlushPc.work_signal (pc : FlushPc) : pc.signal.work = pc.work := by
  cases pc <;> rfl

@[simp] theorem FlushPc.work_after (last : Bool) : (FlushPc.after last).work = (none, []) := by
  cases last <;> rfl

@[simp] theorem MainPc.hands_reported (reportOk : Bool) :
    (MainPc.reported reportOk).hands = [] := by
  cases reportOk <;> rfl

theorem takeZcos_eq (d : CloState c) : takeZcos d =
    ({ d with zcos := none, zcoCap := if d.zcos.isSome then 0 else d.zcoCap }, d.pending) := by
  unfold takeZcos CloState.pending
  rcases d with ⟨_, _, _, _, zcos, _⟩
  cases zcos <;> rfl

theorem abandonChunk_eq (d : CloState c) : abandonChunk d =
    ({ d with
      enc := zclEncAbort c d.enc
      zcos := none
      zcoCap := if d.zcos.isSome then 0 else d.zcoCap }, d.pending) :=
  takeZcos_eq _

theorem zclEncAdd_rc (w : ZclEncRun c) (bundle : Octets) :
    (zclEncAdd c w bundle).2 = 0 ∨ (zclEncAdd c w bundle).2 = -1 := by
  rcases zclEncAdd_spec w bundle with ⟨h_failed, -⟩ | ⟨w₁, w₂, -, -, -, h_eq⟩
  · exact Or.inr h_failed
  · rw [h_eq]
    exact Or.inl rfl

/-- A cut that makes no carrier of an idle chunk leaves everything as it was. -/
theorem cutAndSend_stepped {now : Nat} {endChunk last : Bool}
    (h_look : look cfg d now = if last then .over else .cut endChunk)
    (h_last : last = true → endChunk = true) (h_idle : d.flusher.work = (none, [])) :
    Stepped cfg d (.look now) (cutAndSend d endChunk last) := by
  unfold cutAndSend
  rcases zclEncCut_spec d.enc endChunk with ⟨h_eq, -⟩ | ⟨h_rc, -⟩ | ⟨w₁, -, -, -, h_eq⟩
  · rw [h_eq]
    exact .of_pcs rfl rfl rfl (by rw [h_idle]; exact FlushPc.work_after last) rfl
  · cases h_cut : zclEncCut c d.enc endChunk with
    | mk w rc =>
      obtain rfl : rc = -1 := by rwa [h_cut] at h_rc
      dsimp only
      rw [if_neg (by decide), if_pos (by decide), abandonChunk_eq]
      exact .cutFailed endChunk last h_look h_last (by rw [h_cut]) (by rw [h_cut]) rfl rfl h_idle
        rfl rfl
  · have h_rc : (zclEncCut c d.enc endChunk).2 = 1 := by rw [h_eq]
    cases h_cut : zclEncCut c d.enc endChunk with
    | mk w rc =>
      obtain rfl : rc = 1 := by rwa [h_cut] at h_rc
      dsimp only
      rw [if_neg (by decide), if_neg (by decide), takeZcos_eq]
      exact .cut endChunk last h_look h_last (by rw [h_cut]) (by rw [h_cut]) rfl rfl h_idle
        (by rw [h_cut]; rfl) rfl

theorem flushLook_stepped {now : Nat} (h_idle : d.flusher.work = (none, [])) :
    Stepped cfg d (.look now) (flushLook cfg d now) := by
  unfold flushLook
  split
  · rename_i h_look
    exact cutAndSend_stepped h_look (fun _ => rfl) h_idle
  · exact .of_pcs rfl rfl rfl h_idle.symm rfl
  · rename_i endChunk h_look
    exact cutAndSend_stepped h_look (fun h => absurd h Bool.false_ne_true) h_idle

theorem sendCarrier_stepped {carrier : Octets} {zcos : List Pend} {last : Bool}
    (h_sending : d.flusher = .sending carrier zcos last) (ok : Bool) :
    Stepped cfg d (.send ok) (sendCarrier d carrier zcos last ok) := by
  unfold sendCarrier
  have h_work : d.flusher.work = (some (carrier, zcos), []) := by
    rw [h_sending]
    rfl
  cases ok with
  | true => exact .sent carrier zcos rfl rfl rfl h_work rfl rfl
  | false =>
    dsimp only
    rw [if_neg Bool.false_ne_true, abandonChunk_eq]
    exact .sendFailed carrier zcos rfl rfl rfl h_work rfl rfl

/-- The array has room, and the same bundles in it, or there is no memory. -/
theorem growZcos_cases (d : CloState c) (mem : Bool) :
    growZcos d mem = (d, false) ∨ ∃ d₁, growZcos d mem = (d₁, true) ∧ d₁.enc = d.enc ∧
      d₁.pending = d.pending ∧ d₁.main = d.main ∧ d₁.flusher = d.flusher ∧ d₁.log = d.log ∧
      d₁.shutdown = d.shutdown := by
  unfold growZcos
  split
  · cases mem with
    | false => exact Or.inl rfl
    | true => exact Or.inr ⟨_, rfl, rfl, rfl, rfl, rfl, rfl, rfl⟩
  · exact Or.inr ⟨_, rfl, rfl, rfl, rfl, rfl, rfl, rfl⟩

theorem addBundle_stepped {p : Pend} {mem : Bool} {now : Nat} (h_hold : d.main = .holding p) :
    Stepped cfg d (.add mem now) (addBundle d p mem now) := by
  have h_none : d.main.hands = [] := by
    rw [h_hold]
    rfl
  unfold addBundle
  rcases growZcos_cases d mem with
    h_grow | ⟨d₁, h_grow, h_enc, h_pending, h_main, h_flusher, h_log, -⟩
  · rw [h_grow]
    exact .of_pcs rfl rfl h_none.symm rfl rfl
  · rw [h_grow]
    dsimp only
    rw [h_enc]
    cases h_add : zclEncAdd c d.enc p.bytes with
    | mk w rc =>
      have h_rc := zclEncAdd_rc d.enc p.bytes
      rw [h_add] at h_rc
      rcases h_rc with rfl | rfl
      · dsimp only
        rw [if_neg (by decide)]
        refine .added p h_hold (by rw [h_add]) (by rw [h_add]) ?_ rfl ?_ ?_
        · show d₁.pending ++ [p] = _
          rw [h_pending]
        · show d₁.flusher.signal.work = _
          rw [FlushPc.work_signal, h_flusher]
        · show d₁.log ++ _ = _
          rw [h_log]
      · dsimp only
        rw [if_pos (by decide), abandonChunk_eq]
        have h_failed : (-1 : Int) ≠ 0 := by decide
        refine .addFailed p h_hold (by rwa [h_add]) (by rw [h_add]) rfl h_pending ?_ h_log
        show d₁.flusher.work = _
        rw [h_flusher]

/-- What the two threads know of each other. -/
structure CloOk (d : CloState c) : Prop where
  starting : d.main = .starting → d.flusher = .absent
  running : d.shutdown = true → d.main = .joining ∨ d.main = .ended
  /-- From its last carrier on the flush thread is alone. -/
  last : d.flusher.last = true → d.shutdown = true ∧ d.pending = []
  /-- What is pending is in a chunk that is open. -/
  inChunk : d.enc.enc.inChunk = false → d.pending = []

theorem cloOk_start : CloOk (CloState.start c) where
  starting := fun _ => rfl
  running := by
    intro h
    cases h
  last := by
    intro h
    cases h
  inChunk := fun _ => rfl

@[simp] theorem FlushPc.last_signal (pc : FlushPc) : pc.signal.last = pc.last := by
  cases pc <;> rfl

theorem FlushPc.work_of_locking {pc : FlushPc} (h : pc = .locking) : pc.work = (none, []) := by
  rw [h]
  rfl

theorem step_stepped (h : CloOk d) (h_step : step cfg d e = some d') : Stepped cfg d e d' := by
  cases e with
  | begin ok =>
    simp only [step] at h_step
    split at h_step
    · rename_i h_main
      have h_none : d.flusher.work = (none, []) := by
        rw [h.starting h_main]
        rfl
      have h_hands : d.main.hands = [] := by
        rw [h_main]
        rfl
      split at h_step
      · obtain rfl := Option.some.inj h_step
        exact .of_pcs rfl rfl h_hands.symm h_none.symm rfl
      · obtain rfl := Option.some.inj h_step
        exact .of_pcs rfl rfl h_hands.symm rfl rfl
    · cases h_step
  | sigterm =>
    obtain rfl := Option.some.inj h_step
    exact .of_pcs rfl rfl rfl rfl rfl
  | top =>
    simp only [step] at h_step
    split at h_step
    · rename_i h_main
      obtain rfl := Option.some.inj h_step
      refine .of_pcs rfl rfl ?_ rfl rfl
      rw [h_main]
      cases d.semEnded <;> rfl
    · cases h_step
  | dequeue o =>
    simp only [step] at h_step
    split at h_step
    · rename_i h_main
      obtain rfl := Option.some.inj h_step
      have h_hands : d.main.hands = [] := by
        rw [h_main]
        rfl
      cases o with
      | failed => exact .of_pcs rfl rfl h_hands.symm rfl rfl
      | closed => exact .of_pcs rfl rfl h_hands.symm rfl rfl
      | corrupt => exact .of_pcs rfl rfl h_hands.symm rfl rfl
      | looped zco reportOk =>
        exact .idle rfl rfl ((MainPc.hands_reported _).trans h_hands.symm) rfl _ rfl
          (by simp [Effect.aloof])
      | bundle zco bytes reportOk =>
        unfold mainDequeue
        dsimp only
        split
        · exact .idle rfl rfl ((MainPc.hands_reported _).trans h_hands.symm) rfl _ rfl
            (by simp [Effect.aloof])
        · exact .of_pcs rfl rfl h_hands.symm rfl rfl
    · cases h_step
  | add mem now =>
    simp only [step] at h_step
    split at h_step
    · rename_i p h_main
      obtain rfl := Option.some.inj h_step
      exact addBundle_stepped h_main
    · cases h_step
  | drop =>
    simp only [step] at h_step
    split at h_step
    · rename_i q zcos p h_main
      obtain rfl := Option.some.inj h_step
      exact .dropped q rfl rfl (by rw [h_main]; rfl) rfl rfl
    · cases h_step
  | giveBack reportOk =>
    simp only [step] at h_step
    split at h_step
    · rename_i p h_main
      obtain rfl := Option.some.inj h_step
      refine .idle rfl rfl ?_ rfl _ rfl (by simp [Effect.aloof])
      rw [h_main]
      exact MainPc.hands_reported _
    · cases h_step
  | close =>
    simp only [step] at h_step
    split at h_step
    · rename_i h_main
      obtain rfl := Option.some.inj h_step
      exact .of_pcs rfl rfl (by rw [h_main]; rfl) (FlushPc.work_signal _) rfl
    · cases h_step
  | join =>
    simp only [step] at h_step
    split at h_step
    · rename_i h_both
      obtain rfl := Option.some.inj h_step
      exact .of_pcs rfl rfl (by rw [h_both.1]; rfl) rfl rfl
    · cases h_step
  | look now =>
    simp only [step] at h_step
    split at h_step
    · rename_i h_lock
      obtain rfl := Option.some.inj h_step
      exact flushLook_stepped (FlushPc.work_of_locking h_lock)
    · cases h_step
  | wake spurious =>
    simp only [step] at h_step
    split at h_step
    · rename_i h_wait
      split at h_step
      · obtain rfl := Option.some.inj h_step
        exact .of_pcs rfl rfl rfl (by rw [h_wait]; rfl) rfl
      · cases h_step
    · cases h_step
  | timeout =>
    simp only [step] at h_step
    split at h_step
    · rename_i h_wait
      obtain rfl := Option.some.inj h_step
      exact .of_pcs rfl rfl rfl (by rw [h_wait]; rfl) rfl
    · cases h_step
  | send ok =>
    simp only [step] at h_step
    split at h_step
    · rename_i carrier zcos last h_sending
      obtain rfl := Option.some.inj h_step
      exact sendCarrier_stepped h_sending ok
    · cases h_step
  | report =>
    simp only [step] at h_step
    split at h_step
    · rename_i last h_settling
      obtain rfl := Option.some.inj h_step
      exact .of_pcs rfl rfl rfl (by rw [h_settling]; exact FlushPc.work_after last) rfl
    · rename_i p sent reports last h_settling
      obtain rfl := Option.some.inj h_step
      exact .reported p sent reports rfl rfl rfl (by rw [h_settling]; rfl) rfl rfl
    · cases h_step

/-! ## The two threads -/

theorem CloOk.not_last (h : CloOk d) (h_main : d.main ≠ .joining ∧ d.main ≠ .ended) :
    d.shutdown = false ∧ d.flusher.last = false := by
  have h_shut : d.shutdown = false := by
    by_contra h_on
    rcases h.running (Bool.not_eq_false _ ▸ h_on) with h_join | h_end
    · exact h_main.1 h_join
    · exact h_main.2 h_end
  refine ⟨h_shut, ?_⟩
  by_contra h_on
  rw [(h.last (Bool.not_eq_false _ ▸ h_on)).1] at h_shut
  cases h_shut

/-- The main thread moves on in its loop. -/
theorem CloOk.moveMain (h : CloOk d) (h_main : d.main ≠ .joining ∧ d.main ≠ .ended) {pc : MainPc}
    (h_pc : pc ≠ .starting) (sem : Bool) (log : List Effect) :
    CloOk { d with main := pc, semEnded := sem, log := log } where
  starting := fun h_start => absurd h_start h_pc
  running := fun h_shut => by
    rw [(h.not_last h_main).1] at h_shut
    cases h_shut
  last := h.last
  inChunk := h.inChunk

/-- The flush thread moves, and stays in its loop if it is in it. -/
theorem CloOk.moveFlusher (h : CloOk d) (h_there : d.flusher ≠ .absent) {pc : FlushPc}
    (h_pc : pc.last = true → d.flusher.last = true) (log : List Effect) :
    CloOk { d with flusher := pc, log := log } where
  starting := fun h_start => absurd (h.starting h_start) h_there
  running := h.running
  last := fun h_last => h.last (h_pc h_last)
  inChunk := h.inChunk

theorem look_over {now : Nat} (h : look cfg d now = .over) : d.shutdown = true := by
  unfold look at h
  split at h
  · split at h
    · assumption
    · cases h
  · split at h <;> cases h

theorem CloOk.cutAndSend (h : CloOk d) (h_lock : d.flusher = .locking) {endChunk last : Bool}
    (h_last : last = true → endChunk = true ∧ d.shutdown = true) :
    CloOk (cutAndSend d endChunk last) := by
  have h_start : d.main ≠ .starting := fun h_main => by
    rw [h.starting h_main] at h_lock
    cases h_lock
  unfold Zclo.cutAndSend
  rcases zclEncCut_spec d.enc endChunk with ⟨h_eq, h_idle⟩ | ⟨h_rc, -⟩ | ⟨w₁, -, -, -, h_eq⟩
  · rw [h_eq]
    refine ⟨fun h_main => absurd h_main h_start, h.running, fun h_after => ?_, h.inChunk⟩
    cases last with
    | false => cases h_after
    | true =>
      refine ⟨(h_last rfl).2, h.inChunk (h_idle.resolve_right fun h_more => ?_)⟩
      rw [(h_last rfl).1] at h_more
      cases h_more.2
  · cases h_cut : zclEncCut c d.enc endChunk with
    | mk w rc =>
      obtain rfl : rc = -1 := by rwa [h_cut] at h_rc
      dsimp only
      rw [if_neg (by decide), if_pos (by decide), abandonChunk_eq]
      exact ⟨fun h_main => absurd h_main h_start, h.running,
        fun h_on => ⟨(h_last h_on).2, rfl⟩, fun _ => rfl⟩
  · have h_rc : (zclEncCut c d.enc endChunk).2 = 1 := by rw [h_eq]
    cases h_cut : zclEncCut c d.enc endChunk with
    | mk w rc =>
      obtain rfl : rc = 1 := by rwa [h_cut] at h_rc
      dsimp only
      rw [if_neg (by decide), if_neg (by decide), takeZcos_eq]
      exact ⟨fun h_main => absurd h_main h_start, h.running,
        fun h_on => ⟨(h_last h_on).2, rfl⟩, fun _ => rfl⟩

theorem CloOk.flushLook (h : CloOk d) (h_lock : d.flusher = .locking) (now : Nat) :
    CloOk (flushLook cfg d now) := by
  have h_there : d.flusher ≠ .absent := by simp [h_lock]
  unfold Zclo.flushLook
  split
  · rename_i h_look
    exact h.cutAndSend h_lock fun _ => ⟨rfl, look_over h_look⟩
  · exact h.moveFlusher h_there (by intro h_last; cases h_last) d.log
  · exact h.cutAndSend h_lock fun h_last => absurd h_last Bool.false_ne_true

theorem CloOk.sendCarrier (h : CloOk d) {carrier : Octets} {zcos : List Pend} {last : Bool}
    (h_sending : d.flusher = .sending carrier zcos last) (ok : Bool) :
    CloOk (sendCarrier d carrier zcos last ok) := by
  have h_start : d.main ≠ .starting := fun h_main => by
    rw [h.starting h_main] at h_sending
    cases h_sending
  have h_last : last = true → d.shutdown = true ∧ d.pending = [] := fun h_last =>
    h.last (by rw [h_sending]; exact h_last)
  unfold Zclo.sendCarrier
  cases ok with
  | true => exact ⟨fun h_main => absurd h_main h_start, h.running, h_last, h.inChunk⟩
  | false =>
    dsimp only
    rw [if_neg Bool.false_ne_true, abandonChunk_eq]
    exact ⟨fun h_main => absurd h_main h_start, h.running, fun h_on => ⟨(h_last h_on).1, rfl⟩,
      fun _ => rfl⟩

/-- A bundle that was added has opened the chunk. -/
theorem zclEncAdd_inChunk {w : ZclEncRun c} {bundle : Octets}
    (h_add : (zclEncAdd c w bundle).2 = 0) : (zclEncAdd c w bundle).1.enc.inChunk = true := by
  rcases zclEncAdd_spec w bundle with ⟨h_failed, -⟩ | ⟨w₁, w₂, -, -, -, h_eq⟩
  · rw [h_failed] at h_add
    cases h_add
  · rw [h_eq]

theorem CloOk.addBundle (h : CloOk d) {p : Pend} (h_hold : d.main = .holding p) (mem : Bool)
    (now : Nat) : CloOk (addBundle d p mem now) := by
  have h_main : d.main ≠ .joining ∧ d.main ≠ .ended := by simp [h_hold]
  obtain ⟨h_shut, h_last⟩ := h.not_last h_main
  unfold Zclo.addBundle
  rcases growZcos_cases d mem with
    h_grow | ⟨d₁, h_grow, h_enc, -, -, h_flusher, -, h_shut₁⟩
  · rw [h_grow]
    exact h.moveMain h_main (by simp) d.semEnded d.log
  rw [h_grow]
  dsimp only
  rw [h_enc]
  have h_running : ∀ {pc : MainPc}, d₁.shutdown = true → pc = .joining ∨ pc = .ended := fun h_on =>
    absurd (h_shut₁.symm.trans h_on) (by simp [h_shut])
  cases h_add : zclEncAdd c d.enc p.bytes with
  | mk w rc =>
    have h_rc := zclEncAdd_rc d.enc p.bytes
    rw [h_add] at h_rc
    rcases h_rc with rfl | rfl
    · dsimp only
      rw [if_neg (by decide)]
      have h_open : (zclEncAdd c d.enc p.bytes).1.enc.inChunk = true :=
        zclEncAdd_inChunk (congrArg Prod.snd h_add)
      rw [h_add] at h_open
      refine ⟨by simp, h_running, fun h_on => ?_, fun h_none => ?_⟩
      · have h_on : d₁.flusher.signal.last = true := h_on
        rw [FlushPc.last_signal, h_flusher, h_last] at h_on
        cases h_on
      · rw [show w.enc.inChunk = false from h_none] at h_open
        cases h_open
    · dsimp only
      rw [if_pos (by decide), abandonChunk_eq]
      refine ⟨by simp, h_running, fun h_on => ?_, fun _ => rfl⟩
      have h_on : d₁.flusher.last = true := h_on
      rw [h_flusher, h_last] at h_on
      cases h_on

theorem step_cloOk (h : CloOk d) (h_step : step cfg d e = some d') : CloOk d' := by
  cases e with
  | begin ok =>
    simp only [step] at h_step
    split at h_step
    · rename_i h_main
      have h_idle := h.not_last (by simp [h_main])
      split at h_step
      · obtain rfl := Option.some.inj h_step
        refine ⟨by simp, fun h_on => absurd h_on (by simp [h_idle.1]), fun h_on => ?_, h.inChunk⟩
        cases h_on
      · obtain rfl := Option.some.inj h_step
        exact ⟨by simp, fun _ => Or.inr rfl, h.last, h.inChunk⟩
    · cases h_step
  | sigterm =>
    obtain rfl := Option.some.inj h_step
    exact ⟨h.starting, h.running, h.last, h.inChunk⟩
  | top =>
    simp only [step] at h_step
    split at h_step
    · rename_i h_main
      obtain rfl := Option.some.inj h_step
      refine h.moveMain (by simp [h_main]) ?_ d.semEnded d.log
      cases d.semEnded <;> simp
    · cases h_step
  | dequeue o =>
    simp only [step] at h_step
    split at h_step
    · rename_i h_main
      obtain rfl := Option.some.inj h_step
      have h_reported : ∀ reportOk, MainPc.reported reportOk ≠ .starting := by
        intro reportOk
        cases reportOk <;> simp [MainPc.reported]
      have h_loop : d.main ≠ .joining ∧ d.main ≠ .ended := by simp [h_main]
      cases o with
      | failed => exact h.moveMain h_loop (by simp) _ _
      | closed => exact h.moveMain h_loop (by simp) _ _
      | corrupt => exact h.moveMain h_loop (by simp) _ _
      | looped zco reportOk => exact h.moveMain h_loop (h_reported _) _ _
      | bundle zco bytes reportOk =>
        unfold mainDequeue
        dsimp only
        split
        · exact h.moveMain h_loop (h_reported _) _ _
        · exact h.moveMain h_loop (by simp) _ _
    · cases h_step
  | add mem now =>
    simp only [step] at h_step
    split at h_step
    · rename_i p h_main
      obtain rfl := Option.some.inj h_step
      exact h.addBundle h_main mem now
    · cases h_step
  | drop =>
    simp only [step] at h_step
    split at h_step
    · rename_i q zcos p h_main
      obtain rfl := Option.some.inj h_step
      exact h.moveMain (by simp [h_main]) (by simp) _ _
    · cases h_step
  | giveBack reportOk =>
    simp only [step] at h_step
    split at h_step
    · rename_i p h_main
      obtain rfl := Option.some.inj h_step
      refine h.moveMain (by simp [h_main]) ?_ _ _
      cases reportOk <;> simp [MainPc.reported]
    · cases h_step
  | close =>
    simp only [step] at h_step
    split at h_step
    · rename_i h_main
      obtain rfl := Option.some.inj h_step
      have h_idle := h.not_last (by simp [h_main])
      refine ⟨by simp, fun _ => Or.inl rfl, fun h_on => ?_, h.inChunk⟩
      have h_on : d.flusher.signal.last = true := h_on
      rw [FlushPc.last_signal, h_idle.2] at h_on
      cases h_on
    · cases h_step
  | join =>
    simp only [step] at h_step
    split at h_step
    · obtain rfl := Option.some.inj h_step
      exact ⟨by simp, fun _ => Or.inr rfl, h.last, h.inChunk⟩
    · cases h_step
  | look now =>
    simp only [step] at h_step
    split at h_step
    · rename_i h_lock
      obtain rfl := Option.some.inj h_step
      exact h.flushLook h_lock now
    · cases h_step
  | wake spurious =>
    simp only [step] at h_step
    split at h_step
    · rename_i h_wait
      split at h_step
      · obtain rfl := Option.some.inj h_step
        exact h.moveFlusher (by simp [h_wait]) (by intro h_on; cases h_on) _
      · cases h_step
    · cases h_step
  | timeout =>
    simp only [step] at h_step
    split at h_step
    · rename_i h_wait
      obtain rfl := Option.some.inj h_step
      exact h.moveFlusher (by simp [h_wait]) (by intro h_on; cases h_on) _
    · cases h_step
  | send ok =>
    simp only [step] at h_step
    split at h_step
    · rename_i carrier zcos last h_sending
      obtain rfl := Option.some.inj h_step
      exact h.sendCarrier h_sending ok
    · cases h_step
  | report =>
    simp only [step] at h_step
    split at h_step
    · rename_i last h_settling
      obtain rfl := Option.some.inj h_step
      refine h.moveFlusher (by simp [h_settling]) ?_ _
      rw [h_settling]
      cases last with
      | true => exact fun _ => rfl
      | false => exact fun h_on => absurd h_on Bool.false_ne_true
    · rename_i p sent reports last h_settling
      obtain rfl := Option.some.inj h_step
      refine h.moveFlusher (by simp [h_settling]) ?_ _
      rw [h_settling]
      exact fun h_on => h_on
    · cases h_step

end

end IonContrib.Zclo
