/-
  IonContrib.Mail.CloLedger

  What becomes of the bundles that the mail output daemon takes.

  For every bundle the ledger counts how often it was taken, how often it was
  reported, and in how many hands it is: the main thread's, the batch's, the
  flush thread's.  Each step keeps the balance, up to the batches that are
  freed without a report (`step_balance`).  A success is reported for the
  bundles of the messages that the transport has accepted, in their order
  (`Ledger.accepted`).
-/
import IonContrib.Mail.Clo

namespace IonContrib.Mail

/-! ## The log -/

def Effect.takenZco : Effect → Option Nat
  | .taken zco => some zco
  | _ => none

def Effect.reportedZco : Effect → Option Nat
  | .xmit zco _ => some zco
  | _ => none

def Effect.successZco : Effect → Option Nat
  | .xmit zco true => some zco
  | _ => none

def zcos (batch : List Pend) : List Nat := batch.map (·.zco)

/-- The bundles of a message that the transport has accepted. -/
def Effect.acceptedZcos : Effect → List Nat
  | .smtp batch _ true => zcos batch
  | _ => []

/-- The bundles that were taken from BP, read or not. -/
def taken (log : List Effect) : List Nat := log.filterMap Effect.takenZco
def reported (log : List Effect) : List Nat := log.filterMap Effect.reportedZco
def successes (log : List Effect) : List Nat := log.filterMap Effect.successZco
def accepted (log : List Effect) : List Nat := log.flatMap Effect.acceptedZcos

@[simp] theorem taken_append (log es : List Effect) : taken (log ++ es) = taken log ++ taken es :=
  List.filterMap_append

@[simp] theorem reported_append (log es : List Effect) :
    reported (log ++ es) = reported log ++ reported es := List.filterMap_append

@[simp] theorem successes_append (log es : List Effect) :
    successes (log ++ es) = successes log ++ successes es := List.filterMap_append

@[simp] theorem accepted_append (log es : List Effect) :
    accepted (log ++ es) = accepted log ++ accepted es := List.flatMap_append

@[simp] theorem taken_xmits (batch : List Pend) (sent : Bool) :
    taken (batch.map fun p => .xmit p.zco sent) = [] := by
  rw [taken, List.filterMap_map]
  exact List.filterMap_eq_nil_iff.mpr fun _ _ => rfl

@[simp] theorem reported_xmits (batch : List Pend) (sent : Bool) :
    reported (batch.map fun p => .xmit p.zco sent) = zcos batch := by
  rw [reported, List.filterMap_map, zcos, ← List.filterMap_eq_map]
  rfl

theorem successes_xmits (batch : List Pend) (sent : Bool) :
    successes (batch.map fun p => .xmit p.zco sent) = if sent then zcos batch else [] := by
  rw [successes, List.filterMap_map]
  cases sent with
  | true =>
    rw [if_pos rfl, zcos, ← List.filterMap_eq_map]
    rfl
  | false => exact List.filterMap_eq_nil_iff.mpr fun _ _ => rfl

@[simp] theorem accepted_xmits (batch : List Pend) (sent : Bool) :
    accepted (batch.map fun p => .xmit p.zco sent) = [] := by
  rw [accepted, List.flatMap_map]
  exact List.flatMap_eq_nil_iff.mpr fun _ _ => rfl

/-! ## Sending -/

/-- The message holds the bundles. -/
def Holds (cfg : MailCloConfig) (batch : List Pend) (msg : Octets) : Prop :=
  ∃ mem, mailBuildMessage mem cfg.sender cfg.recipient none cfg.encoding
    (batch.map (·.bytes)) = some msg

/-- The log gets the message if one could be built. -/
theorem sendMail_log (cfg : MailCloConfig) (log : List Effect) (batch : List Pend)
    (env : SendEnv) : ∃ es, (sendMail cfg log batch env).1 = log ++ es ∧
      taken es = [] ∧ reported es = [] ∧ successes es = [] ∧
      accepted es = (if (sendMail cfg log batch env).2 then zcos batch else []) ∧
      ∀ b msg ok, .smtp b msg ok ∈ es → Holds cfg b msg := by
  rw [sendMail]
  cases h_build : mailBuildMessage env.mem cfg.sender cfg.recipient none cfg.encoding
    (batch.map (·.bytes)) with
  | none =>
    refine ⟨[], (List.append_nil log).symm, rfl, rfl, rfl, rfl, ?_⟩
    intro b msg ok h
    cases h
  | some msg =>
    refine ⟨[.smtp batch msg env.accepted], rfl, rfl, rfl, rfl, ?_, ?_⟩
    · show (Effect.smtp batch msg env.accepted).acceptedZcos ++ [] = _
      rw [List.append_nil]
      cases env.accepted <;> rfl
    · intro b msg' ok h
      obtain ⟨rfl, rfl, rfl⟩ := by simpa using h
      exact ⟨env.mem, h_build⟩

theorem sendAndAck_eq (cfg : MailCloConfig) (log : List Effect) (batch : List Pend)
    (env : SendEnv) : sendAndAck cfg log batch env = (sendMail cfg log batch env).1 ++
      batch.map fun p => .xmit p.zco (sendMail cfg log batch env).2 := rfl

/-! ## Hands -/

def MainPc.zcos : MainPc → List Nat
  | .holding p => [p.zco]
  | _ => []

def FlushPc.zcos : FlushPc → List Nat
  | .flushing batch => Mail.zcos batch
  | .acking batch _ => Mail.zcos batch
  | _ => []

/-- The bundles that have been taken and are in somebody's hands. -/
def unsettled (d : CloState) : List Nat := d.main.zcos ++ zcos d.pending ++ d.flusher.zcos

/-- The successes that the flush thread has yet to report. -/
def FlushPc.owing : FlushPc → List Nat
  | .acking batch true => Mail.zcos batch
  | _ => []

@[simp] theorem FlushPc.zcos_signal (pc : FlushPc) : pc.signal.zcos = pc.zcos := by
  cases pc <;> rfl

@[simp] theorem FlushPc.owing_signal (pc : FlushPc) : pc.signal.owing = pc.owing := by
  cases pc <;> rfl

/-- The bundles that a step frees and does not report. -/
def lost (d : CloState) : Event → List Nat
  | .flush zcosMem arrMem _ => if zcosMem = false ∨ arrMem = false then d.flusher.zcos else []
  | _ => []

/-- `flushPending` gets its arrays. -/
def Event.flushMem : Event → Bool
  | .flush zcosMem arrMem _ => zcosMem && arrMem
  | _ => true

/-! ## One step -/

/-- The effects of a step, and what they do to the bundles in hand. -/
def Balanced (d d' : CloState) (gone : List Nat) : Prop :=
  ∃ es, d'.log = d.log ++ es ∧
    (taken es ++ unsettled d).Perm (reported es ++ unsettled d' ++ gone)

theorem Balanced.of_eq {d d' : CloState} (h_log : d'.log = d.log)
    (h_hands : unsettled d' = unsettled d) : Balanced d d' [] := by
  refine ⟨[], ?_, ?_⟩
  · rw [h_log, List.append_nil]
  · show (unsettled d).Perm (unsettled d' ++ [])
    rw [h_hands, List.append_nil]

theorem mainDequeue_balanced {d : CloState} (h_main : d.main = .dequeuing) (o : Dequeued) :
    Balanced d (mainDequeue d o) [] := by
  have h_hands : unsettled d = zcos d.pending ++ d.flusher.zcos := by
    rw [unsettled, h_main]
    rfl
  cases o with
  | failed => exact .of_eq rfl h_hands.symm
  | closed => exact .of_eq rfl h_hands.symm
  | corrupt => exact .of_eq rfl h_hands.symm
  | bundle zco bytes failureOk =>
    cases bytes with
    | none =>
      have h_pc : (if failureOk then MainPc.looping else MainPc.closing).zcos = [] := by
        cases failureOk <;> rfl
      refine ⟨_, rfl, ?_⟩
      rw [unsettled, unsettled, mainDequeue, h_main, h_pc, List.append_nil]
      rfl
    | some bytes =>
      refine ⟨_, rfl, ?_⟩
      rw [unsettled, unsettled, mainDequeue, h_main, List.append_nil]
      rfl

theorem mainHandOver_balanced {cfg : MailCloConfig} {d : CloState} {p : Pend}
    (h_main : d.main = .holding p) (env : SendEnv) (pendMem : Bool) (now : Int) :
    Balanced d (mainHandOver cfg d p env pendMem now) [] := by
  have h_hands : unsettled d = p.zco :: (zcos d.pending ++ d.flusher.zcos) := by
    rw [unsettled, h_main]
    rfl
  rw [mainHandOver]
  split
  · -- Mailed at once.
    obtain ⟨es, h_log, h_taken, h_reported, -⟩ := sendMail_log cfg d.log [p] env
    refine ⟨es ++ [.xmit p.zco (sendMail cfg d.log [p] env).2], ?_, ?_⟩
    · show (sendMail cfg d.log [p] env).1 ++ _ = _
      rw [h_log, List.append_assoc]
      rfl
    · rw [taken_append, reported_append, h_taken, h_reported, h_hands, List.append_nil]
      rfl
  split
  · refine ⟨[.xmit p.zco false], rfl, ?_⟩
    rw [h_hands, List.append_nil]
    rfl
  · refine ⟨[], (List.append_nil d.log).symm, ?_⟩
    show (unsettled d).Perm
      (([] : List Nat) ++ zcos (d.pending ++ [p]) ++ d.flusher.signal.zcos ++ [])
    have h_zcos : zcos (d.pending ++ [p]) = zcos d.pending ++ [p.zco] := List.map_append
    rw [h_hands, FlushPc.zcos_signal, h_zcos, List.append_nil, List.nil_append, List.append_assoc]
    exact List.perm_middle.symm

theorem flushLook_balanced {cfg : MailCloConfig} {d : CloState} (h_lock : d.flusher = .locking)
    (now : Int) : Balanced d (flushLook cfg d now) [] := by
  have h_hands : unsettled d = d.main.zcos ++ zcos d.pending := by
    rw [unsettled, h_lock]
    exact List.append_nil _
  rw [flushLook]
  split
  · split
    · exact .of_eq rfl (by rw [h_hands, unsettled]; exact List.append_nil _)
    · exact .of_eq rfl (by rw [h_hands, unsettled]; exact List.append_nil _)
  · split
    · exact .of_eq rfl (by rw [h_hands, unsettled]; exact List.append_nil _)
    · refine .of_eq rfl ?_
      rw [h_hands, unsettled]
      show d.main.zcos ++ [] ++ zcos d.pending = _
      rw [List.append_nil]

theorem flushPending_balanced {cfg : MailCloConfig} {d : CloState} {batch : List Pend}
    (h_flush : d.flusher = .flushing batch) (zcosMem arrMem : Bool) (env : SendEnv) :
    Balanced d (flushPending cfg d batch zcosMem arrMem env)
      (lost d (.flush zcosMem arrMem env)) := by
  have h_hands : unsettled d = d.main.zcos ++ zcos d.pending ++ zcos batch := by
    rw [unsettled, h_flush]
    rfl
  rw [flushPending, lost]
  split
  · -- Freed, and in nobody's hands any more.
    refine ⟨[], (List.append_nil d.log).symm, ?_⟩
    rw [h_hands, h_flush]
    show (d.main.zcos ++ zcos d.pending ++ zcos batch).Perm
      (([] : List Nat) ++ (d.main.zcos ++ zcos d.pending ++ []) ++ zcos batch)
    rw [List.append_nil, List.nil_append]
  · obtain ⟨es, h_log, h_taken, h_reported, -⟩ := sendMail_log cfg d.log batch env
    refine ⟨es, h_log, ?_⟩
    rw [h_taken, h_reported, h_hands, List.append_nil]
    rfl

/-- **The balance**: what a step takes and what is in hand before it is what it reports, what is
    in hand after it and what it loses. -/
theorem step_balanced {cfg : MailCloConfig} {d d' : CloState} {e : Event} (h : CloOk cfg d)
    (h_step : step cfg d e = some d') : Balanced d d' (lost d e) := by
  cases e with
  | begin ok =>
    simp only [step] at h_step
    split at h_step
    · rename_i h_main
      have h_none := h.starting h_main
      split at h_step
      · split at h_step
        · obtain rfl := Option.some.inj h_step
          refine .of_eq rfl ?_
          rw [unsettled, unsettled, h_main, h_none]
          rfl
        · obtain rfl := Option.some.inj h_step
          refine .of_eq rfl ?_
          rw [unsettled, unsettled, h_main]
          rfl
      · obtain rfl := Option.some.inj h_step
        refine .of_eq rfl ?_
        rw [unsettled, unsettled, h_main]
        rfl
    · cases h_step
  | sigterm =>
    obtain rfl := Option.some.inj h_step
    exact .of_eq rfl rfl
  | top =>
    simp only [step] at h_step
    split at h_step
    · rename_i h_main
      obtain rfl := Option.some.inj h_step
      refine .of_eq rfl ?_
      rw [unsettled, unsettled, h_main]
      cases d.semEnded <;> rfl
    · cases h_step
  | dequeue o =>
    simp only [step] at h_step
    split at h_step
    · rename_i h_main
      obtain rfl := Option.some.inj h_step
      exact mainDequeue_balanced h_main o
    · cases h_step
  | handOver env pendMem now =>
    simp only [step] at h_step
    split at h_step
    · rename_i p h_main
      obtain rfl := Option.some.inj h_step
      exact mainHandOver_balanced h_main env pendMem now
    · cases h_step
  | close =>
    simp only [step] at h_step
    split at h_step
    · rename_i h_main
      split at h_step
      · obtain rfl := Option.some.inj h_step
        refine .of_eq rfl ?_
        rw [unsettled, unsettled, h_main]
        rfl
      · obtain rfl := Option.some.inj h_step
        refine .of_eq rfl ?_
        rw [unsettled, unsettled, h_main, FlushPc.zcos_signal]
        rfl
    · cases h_step
  | join =>
    simp only [step] at h_step
    split at h_step
    · rename_i h_both
      obtain rfl := Option.some.inj h_step
      refine .of_eq rfl ?_
      rw [unsettled, unsettled, h_both.1]
      rfl
    · cases h_step
  | look now =>
    simp only [step] at h_step
    split at h_step
    · rename_i h_lock
      obtain rfl := Option.some.inj h_step
      exact flushLook_balanced h_lock now
    · cases h_step
  | wake spurious =>
    simp only [step] at h_step
    split at h_step
    · rename_i h_wait
      split at h_step
      · obtain rfl := Option.some.inj h_step
        refine .of_eq rfl ?_
        rw [unsettled, unsettled, h_wait]
        rfl
      · cases h_step
    · cases h_step
  | timeout =>
    simp only [step] at h_step
    split at h_step
    · rename_i h_wait
      obtain rfl := Option.some.inj h_step
      refine .of_eq rfl ?_
      rw [unsettled, unsettled, h_wait]
      rfl
    · cases h_step
  | flush zcosMem arrMem env =>
    simp only [step] at h_step
    split at h_step
    · rename_i batch h_flush
      obtain rfl := Option.some.inj h_step
      exact flushPending_balanced h_flush zcosMem arrMem env
    · cases h_step
  | ack =>
    simp only [step] at h_step
    split at h_step
    · rename_i sent h_ack
      obtain rfl := Option.some.inj h_step
      refine .of_eq rfl ?_
      rw [unsettled, unsettled, h_ack]
      rfl
    · rename_i p batch sent h_ack
      obtain rfl := Option.some.inj h_step
      refine ⟨_, rfl, ?_⟩
      have h_none : lost d .ack = [] := rfl
      rw [unsettled, unsettled, h_ack, h_none, List.append_nil]
      exact List.perm_middle
    · cases h_step

/-! ## Successes -/

/-- What the log says of the transport and of the successes. -/
structure Ledger (cfg : MailCloConfig) (d : CloState) : Prop where
  digest : d.flusher ≠ .absent → cfg.digestSecs > 0
  /-- Successes are reported for what was accepted, in that order. -/
  accepted : accepted d.log = successes d.log ++ d.flusher.owing
  holds : ∀ batch msg ok, .smtp batch msg ok ∈ d.log → Holds cfg batch msg

theorem ledger_start (cfg : MailCloConfig) : Ledger cfg .start where
  digest := fun h => absurd rfl h
  accepted := rfl
  holds := by
    intro batch msg ok h
    cases h

/-- Nothing is sent and no success is reported. -/
theorem Ledger.quiet {cfg : MailCloConfig} {d d' : CloState} (h : Ledger cfg d) {es : List Effect}
    (h_log : d'.log = d.log ++ es) (h_accepted : Mail.accepted es = []) (h_none : successes es = [])
    (h_smtp : ∀ batch msg ok, .smtp batch msg ok ∉ es) (h_owing : d'.flusher.owing = d.flusher.owing)
    (h_digest : d'.flusher ≠ .absent → cfg.digestSecs > 0) : Ledger cfg d' where
  digest := h_digest
  accepted := by
    rw [h_log, h_owing, accepted_append, successes_append, h_accepted, h_none, List.append_nil,
      List.append_nil]
    exact h.accepted
  holds := by
    intro batch msg ok h_mem
    rw [h_log, List.mem_append] at h_mem
    exact h.holds batch msg ok (h_mem.resolve_right (h_smtp batch msg ok))

theorem Ledger.still {cfg : MailCloConfig} {d d' : CloState} (h : Ledger cfg d)
    (h_log : d'.log = d.log) (h_owing : d'.flusher.owing = d.flusher.owing)
    (h_digest : d'.flusher ≠ .absent → cfg.digestSecs > 0) : Ledger cfg d' :=
  h.quiet (h_log.trans (List.append_nil _).symm) rfl rfl (fun _ _ _ => List.not_mem_nil) h_owing
    h_digest

theorem mainDequeue_ledger {cfg : MailCloConfig} {d : CloState} (h : Ledger cfg d)
    (o : Dequeued) : Ledger cfg (mainDequeue d o) := by
  cases o with
  | failed => exact h.still rfl rfl h.digest
  | closed => exact h.still rfl rfl h.digest
  | corrupt => exact h.still rfl rfl h.digest
  | bundle zco bytes failureOk =>
    cases bytes with
    | none => exact h.quiet rfl rfl rfl (by simp) rfl h.digest
    | some bytes => exact h.quiet rfl rfl rfl (by simp) rfl h.digest

theorem mainHandOver_ledger {cfg : MailCloConfig} {d : CloState} {p : Pend} (h : Ledger cfg d)
    (env : SendEnv) (pendMem : Bool) (now : Int) :
    Ledger cfg (mainHandOver cfg d p env pendMem now) := by
  rw [mainHandOver]
  by_cases h_digest : cfg.digestSecs ≤ 0
  · rw [if_pos h_digest]
    -- There is no flush thread that could owe a report.
    have h_absent : d.flusher = .absent := by
      by_contra h_there
      have := h.digest h_there
      omega
    have h_accepted : accepted d.log = successes d.log := by
      rw [h.accepted, h_absent]
      exact List.append_nil _
    obtain ⟨es, h_log, -, -, h_success, h_es, h_holds⟩ := sendMail_log cfg d.log [p] env
    have h_eq : sendAndAck cfg d.log [p] env =
        d.log ++ es ++ [p].map fun q => .xmit q.zco (sendMail cfg d.log [p] env).2 := by
      rw [sendAndAck_eq, h_log]
    refine ⟨h.digest, ?_, ?_⟩
    · show accepted (sendAndAck cfg d.log [p] env) =
        successes (sendAndAck cfg d.log [p] env) ++ d.flusher.owing
      rw [h_eq, h_absent, accepted_append, accepted_append, successes_append, successes_append,
        accepted_xmits, successes_xmits, h_accepted, h_es, h_success, List.append_nil,
        List.append_nil]
      exact (List.append_nil _).symm
    · intro batch msg ok h_mem
      rw [h_eq, List.mem_append, List.mem_append] at h_mem
      rcases h_mem with (h_mem | h_mem) | h_mem
      · exact h.holds batch msg ok h_mem
      · exact h_holds batch msg ok h_mem
      · simp at h_mem
  · rw [if_neg h_digest]
    split
    · exact h.quiet rfl rfl rfl (by simp) rfl h.digest
    · exact h.still rfl d.flusher.owing_signal fun _ => by omega

theorem flushLook_ledger {cfg : MailCloConfig} {d : CloState} (h : Ledger cfg d)
    (h_lock : d.flusher = .locking) (now : Int) : Ledger cfg (flushLook cfg d now) := by
  have h_digest : cfg.digestSecs > 0 := h.digest (by simp [h_lock])
  have h_owing : d.flusher.owing = [] := by
    rw [h_lock]
    rfl
  rw [flushLook]
  split
  · split
    · exact h.still rfl h_owing.symm fun _ => h_digest
    · exact h.still rfl h_owing.symm fun _ => h_digest
  · split
    · exact h.still rfl h_owing.symm fun _ => h_digest
    · exact h.still rfl h_owing.symm fun _ => h_digest

theorem flushPending_ledger {cfg : MailCloConfig} {d : CloState} {batch : List Pend}
    (h : Ledger cfg d) (h_flush : d.flusher = .flushing batch) (zcosMem arrMem : Bool)
    (env : SendEnv) : Ledger cfg (flushPending cfg d batch zcosMem arrMem env) := by
  have h_digest : cfg.digestSecs > 0 := h.digest (by simp [h_flush])
  have h_owing : d.flusher.owing = [] := by
    rw [h_flush]
    rfl
  rw [flushPending]
  split
  · exact h.still rfl h_owing.symm fun _ => h_digest
  · obtain ⟨es, h_log, -, -, h_success, h_es, h_holds⟩ := sendMail_log cfg d.log batch env
    refine ⟨fun _ => h_digest, ?_, ?_⟩
    · show accepted (sendMail cfg d.log batch env).1 =
        successes (sendMail cfg d.log batch env).1 ++
          (FlushPc.acking batch (sendMail cfg d.log batch env).2).owing
      rw [h_log, accepted_append, successes_append, h.accepted, h_owing, h_success, h_es,
        List.append_nil]
      congr 1
      cases (sendMail cfg d.log batch env).2 <;> rfl
    · intro b msg ok h_mem
      have h_mem : .smtp b msg ok ∈ (sendMail cfg d.log batch env).1 := h_mem
      rw [h_log, List.mem_append] at h_mem
      rcases h_mem with h_mem | h_mem
      · exact h.holds b msg ok h_mem
      · exact h_holds b msg ok h_mem

theorem step_ledger {cfg : MailCloConfig} {d d' : CloState} {e : Event} (h_ok : CloOk cfg d)
    (h : Ledger cfg d) (h_step : step cfg d e = some d') : Ledger cfg d' := by
  cases e with
  | begin ok =>
    simp only [step] at h_step
    split at h_step
    · rename_i h_main
      have h_none := h_ok.starting h_main
      have h_owing : d.flusher.owing = [] := by
        rw [h_none]
        rfl
      split at h_step
      · rename_i h_digest
        split at h_step
        · obtain rfl := Option.some.inj h_step
          exact h.still rfl h_owing.symm fun _ => h_digest
        · obtain rfl := Option.some.inj h_step
          exact h.still rfl rfl h.digest
      · obtain rfl := Option.some.inj h_step
        exact h.still rfl rfl h.digest
    · cases h_step
  | sigterm =>
    obtain rfl := Option.some.inj h_step
    exact h.still rfl rfl h.digest
  | top =>
    simp only [step] at h_step
    split at h_step
    · obtain rfl := Option.some.inj h_step
      exact h.still rfl rfl h.digest
    · cases h_step
  | dequeue o =>
    simp only [step] at h_step
    split at h_step
    · obtain rfl := Option.some.inj h_step
      exact mainDequeue_ledger h o
    · cases h_step
  | handOver env pendMem now =>
    simp only [step] at h_step
    split at h_step
    · obtain rfl := Option.some.inj h_step
      exact mainHandOver_ledger h env pendMem now
    · cases h_step
  | close =>
    simp only [step] at h_step
    split at h_step
    · split at h_step
      · obtain rfl := Option.some.inj h_step
        exact h.still rfl rfl h.digest
      · rename_i h_there
        obtain rfl := Option.some.inj h_step
        exact h.still rfl d.flusher.owing_signal fun _ => h.digest h_there
    · cases h_step
  | join =>
    simp only [step] at h_step
    split at h_step
    · obtain rfl := Option.some.inj h_step
      exact h.still rfl rfl h.digest
    · cases h_step
  | look now =>
    simp only [step] at h_step
    split at h_step
    · rename_i h_lock
      obtain rfl := Option.some.inj h_step
      exact flushLook_ledger h h_lock now
    · cases h_step
  | wake spurious =>
    simp only [step] at h_step
    split at h_step
    · rename_i h_wait
      split at h_step
      · obtain rfl := Option.some.inj h_step
        exact h.still rfl (by rw [h_wait]; rfl) fun _ => h.digest (by simp [h_wait])
      · cases h_step
    · cases h_step
  | timeout =>
    simp only [step] at h_step
    split at h_step
    · rename_i h_wait
      obtain rfl := Option.some.inj h_step
      exact h.still rfl (by rw [h_wait]; rfl) fun _ => h.digest (by simp [h_wait])
    · cases h_step
  | flush zcosMem arrMem env =>
    simp only [step] at h_step
    split at h_step
    · rename_i batch h_flush
      obtain rfl := Option.some.inj h_step
      exact flushPending_ledger h h_flush zcosMem arrMem env
    · cases h_step
  | ack =>
    simp only [step] at h_step
    split at h_step
    · rename_i sent h_ack
      obtain rfl := Option.some.inj h_step
      refine h.still rfl ?_ fun _ => h.digest (by simp [h_ack])
      rw [h_ack]
      cases sent <;> rfl
    · rename_i p batch sent h_ack
      obtain rfl := Option.some.inj h_step
      have h_digest : cfg.digestSecs > 0 := h.digest (by simp [h_ack])
      have h_accepted := h.accepted
      rw [h_ack] at h_accepted
      cases sent with
      | false => exact h.quiet rfl rfl rfl (by simp) (by rw [h_ack]; rfl) fun _ => h_digest
      | true =>
        refine ⟨fun _ => h_digest, ?_, ?_⟩
        · show accepted (d.log ++ [.xmit p.zco true]) =
            successes (d.log ++ [.xmit p.zco true]) ++ zcos batch
          rw [accepted_append, successes_append, h_accepted, List.append_assoc, List.append_assoc]
          congr 1
          exact List.append_nil _
        · intro b msg ok h_mem
          have h_mem : .smtp b msg ok ∈ d.log ++ [Effect.xmit p.zco true] := h_mem
          rw [List.mem_append] at h_mem
          exact h.holds b msg ok (h_mem.resolve_right (by simp))
    · cases h_step

/-! ## Runs -/

theorem lost_eq_nil_iff {cfg : MailCloConfig} {d d' : CloState} {e : Event} (h : CloOk cfg d)
    (h_step : step cfg d e = some d') : lost d e = [] ↔ e.flushMem = true := by
  cases e with
  | flush zcosMem arrMem env =>
    simp only [step] at h_step
    split at h_step
    · rename_i batch h_flush
      have h_batch : zcos batch ≠ [] := by
        intro h_nil
        apply h.batch
        rw [h_flush, List.map_eq_nil_iff.mp h_nil]
      rw [lost, h_flush, Event.flushMem, Bool.and_eq_true]
      by_cases h_mem : zcosMem = false ∨ arrMem = false
      · rw [if_pos h_mem]
        refine iff_of_false h_batch ?_
        rintro ⟨rfl, rfl⟩
        simp at h_mem
      · rw [if_neg h_mem]
        simp only [not_or, Bool.not_eq_false] at h_mem
        exact iff_of_true rfl h_mem
    · cases h_step
  | _ => exact iff_of_true rfl rfl

/-- After a run, what was taken is reported, in hand or lost, and nothing is lost if and only if
    every flush got its memory. -/
theorem run_ledger {cfg : MailCloConfig} {d t : CloState} {es : List Event} (h_ok : CloOk cfg d)
    (h : Ledger cfg d) (h_taken : (taken d.log).Perm (reported d.log ++ unsettled d))
    (h_run : Lts.run (step cfg) d es = some t) :
    CloOk cfg t ∧ Ledger cfg t ∧
      ∃ gone, (taken t.log).Perm (reported t.log ++ unsettled t ++ gone) ∧
        (gone = [] ↔ ∀ e ∈ es, e.flushMem = true) := by
  induction es using List.reverseRecOn generalizing t with
  | nil =>
    obtain rfl : d = t := by simpa using h_run
    refine ⟨h_ok, h, [], ?_, iff_of_true rfl (by simp)⟩
    rw [List.append_nil]
    exact h_taken
  | append_singleton es e ih =>
    obtain ⟨m, h_es, h_step⟩ := Lts.run_snoc.mp h_run
    obtain ⟨h_ok, h, gone, h_perm, h_gone⟩ := ih h_es
    obtain ⟨new, h_log, h_new⟩ := step_balanced h_ok h_step
    refine ⟨step_cloOk h_ok h_step, step_ledger h_ok h h_step, gone ++ lost m e, ?_, ?_⟩
    · rw [h_log, taken_append, reported_append]
      rw [List.perm_iff_count] at h_perm h_new ⊢
      intro z
      have h_before := h_perm z
      have h_after := h_new z
      simp only [List.count_append] at h_before h_after ⊢
      omega
    · rw [List.append_eq_nil_iff, h_gone, lost_eq_nil_iff h_ok h_step, List.forall_mem_append,
        List.forall_mem_singleton]

/-- The daemon has settled every bundle. -/
structure Settled (cfg : MailCloConfig) (d : CloState) : Prop where
  /-- Every bundle that was taken has been reported, once. -/
  reported : (taken d.log).Perm (reported d.log)
  /-- The successes are the bundles of the messages that were accepted. -/
  accepted : successes d.log = Mail.accepted d.log
  holds : ∀ batch msg ok, .smtp batch msg ok ∈ d.log → Holds cfg batch msg
  pending : unsettled d = []

theorem unsettled_of_ended {cfg : MailCloConfig} {d : CloState} (h : CloOk cfg d)
    (h_end : d.main = .ended) : unsettled d = [] ∧ d.flusher.owing = [] := by
  rw [unsettled, h_end]
  rcases h.ended h_end with h_fl | h_fl
  · rw [h_fl, (h.absent h_fl).1]
    exact ⟨rfl, rfl⟩
  · rw [h_fl, (h.done h_fl).2]
    exact ⟨rfl, rfl⟩

/-- **Every bundle is settled** when the daemon has ended if and only if `flushPending` had memory
    for its arrays whenever it was called. -/
theorem run_settles_iff {cfg : MailCloConfig} {d : CloState} {es : List Event}
    (h_run : Lts.run (step cfg) .start es = some d) (h_end : d.main = .ended) :
    Settled cfg d ↔ ∀ e ∈ es, e.flushMem = true := by
  obtain ⟨h_ok, h, gone, h_perm, h_gone⟩ :=
    run_ledger (cloOk_start cfg) (ledger_start cfg) (List.Perm.refl []) h_run
  obtain ⟨h_hands, h_owing⟩ := unsettled_of_ended h_ok h_end
  rw [h_hands, List.append_nil] at h_perm
  rw [← h_gone]
  constructor
  · intro h_settled
    have h_len := h_perm.length_eq
    rw [h_settled.reported.length_eq, List.length_append] at h_len
    apply List.eq_nil_of_length_eq_zero
    omega
  · rintro rfl
    rw [List.append_nil] at h_perm
    refine ⟨h_perm, ?_, h.holds, h_hands⟩
    rw [h.accepted, h_owing, List.append_nil]

/-- A sample configuration with a digest interval. -/
def sampleClo : MailCloConfig := ⟨[97], [98], .raw, 60, 100, 0⟩

/-- Up to shutdown: a bundle is put into the batch, and the flush thread takes the batch. -/
def digestEvents : List Event :=
  [.begin true, .look 0, .top, .dequeue (.bundle 2 (some [1]) true),
    .handOver ⟨fun _ => true, true⟩ true 5, .wake false, .sigterm, .top, .close, .look 6]

/-- A bundle is mailed and reported, and the daemon ends. -/
theorem run_settles_digest : ∃ d, Lts.run (step sampleClo) .start
    (digestEvents ++ [.flush true true ⟨fun _ => true, true⟩, .ack, .ack, .look 7, .join]) = some d ∧
      successes d.log = [2] ∧ Settled sampleClo d := by
  have h_run : (Lts.run (step sampleClo) .start
      (digestEvents ++ [.flush true true ⟨fun _ => true, true⟩, .ack, .ack, .look 7, .join])).map
        (fun d => (d.main, successes d.log)) = some (.ended, [2]) := by
    decide +kernel
  obtain ⟨d, h_d, h_fields⟩ := Option.map_eq_some_iff.mp h_run
  obtain ⟨h_end, h_success⟩ := Prod.mk.inj h_fields
  refine ⟨d, h_d, h_success, (run_settles_iff h_d h_end).mpr ?_⟩
  simp [digestEvents, Event.flushMem]

/-- The batch of one bundle is freed for want of memory, and the bundle is never reported. -/
theorem digest_lost : ¬ ∀ (cfg : MailCloConfig) (es : List Event) (d : CloState),
    Lts.run (step cfg) .start es = some d → d.main = .ended → Settled cfg d := by
  intro h_claim
  have h_run : (Lts.run (step sampleClo) .start
      (digestEvents ++ [.flush false true ⟨fun _ => true, true⟩, .look 7, .join])).map
        (fun d => (d.main, taken d.log, reported d.log)) = some (.ended, [2], []) := by
    decide +kernel
  obtain ⟨d, h_d, h_fields⟩ := Option.map_eq_some_iff.mp h_run
  simp only [Prod.mk.injEq] at h_fields
  obtain ⟨h_end, h_taken, h_reported⟩ := h_fields
  have h_perm := (h_claim _ _ d h_d h_end).reported
  rw [h_taken, h_reported] at h_perm
  exact absurd h_perm.length_eq (by decide)

/-! ## Shutdown -/

/-- The daemon can end from here without a wake-up that nobody gave. -/
def CanEnd (cfg : MailCloConfig) (d : CloState) : Prop :=
  ∃ es t, Lts.run (step cfg) d es = some t ∧ t.main = .ended ∧ .wake true ∉ es

theorem CanEnd.of_step {cfg : MailCloConfig} {d d' : CloState} {e : Event}
    (h_step : step cfg d e = some d') (h_e : e ≠ .wake true) (h : CanEnd cfg d') :
    CanEnd cfg d := by
  obtain ⟨es, t, h_run, h_end, h_es⟩ := h
  refine ⟨e :: es, t, Lts.run_cons_eq_some.mpr ⟨d', h_step, h_run⟩, h_end, ?_⟩
  rw [List.mem_cons, not_or]
  exact ⟨h_e.symm, h_es⟩

section

variable {cfg : MailCloConfig} {d : CloState}

theorem canEnd_ended (h_main : d.main = .joining) (h_end : d.flusher = .ended) : CanEnd cfg d := by
  have h_join : step cfg d .join = some { d with main := .ended } := if_pos ⟨h_main, h_end⟩
  exact .of_step h_join (by simp) ⟨[], _, rfl, rfl, List.not_mem_nil⟩

theorem canEnd_idle (h_main : d.main = .joining) (h_shut : d.shutdown = true)
    (h_zero : d.count = 0) (h_lock : d.flusher = .locking) : CanEnd cfg d := by
  have h_look : step cfg d (.look 0) = some { d with flusher := .ended } := by
    simp only [step]
    rw [if_pos h_lock, flushLook, if_pos h_zero, if_pos h_shut]
  exact .of_step h_look (by simp) (canEnd_ended h_main rfl)

/-- The reports of a batch come to an end. -/
theorem canEnd_acking {n : Nat} (h_next : ∀ t : CloState, t.main = .joining → t.shutdown = true →
      t.count = n → t.flusher = .locking → CanEnd cfg t)
    (h_main : d.main = .joining) (h_shut : d.shutdown = true) (h_count : d.count = n)
    {batch : List Pend} {sent : Bool} (h_ack : d.flusher = .acking batch sent) :
    CanEnd cfg d := by
  induction batch generalizing d with
  | nil =>
    have h_step : step cfg d .ack = some { d with flusher := .locking } := by
      simp only [step, h_ack]
    exact .of_step h_step (by simp) (h_next _ h_main h_shut h_count rfl)
  | cons p batch ih =>
    have h_step : step cfg d .ack = some
        { d with flusher := .acking batch sent, log := d.log ++ [.xmit p.zco sent] } := by
      simp only [step, h_ack]
    exact .of_step h_step (by simp) (ih h_main h_shut h_count rfl)

theorem canEnd_flushing {n : Nat} (h_next : ∀ t : CloState, t.main = .joining →
      t.shutdown = true → t.count = n → t.flusher = .locking → CanEnd cfg t)
    (h_main : d.main = .joining) (h_shut : d.shutdown = true) (h_count : d.count = n)
    {batch : List Pend} (h_flush : d.flusher = .flushing batch) : CanEnd cfg d := by
  have h_step : step cfg d (.flush true true ⟨fun _ => true, true⟩) =
      some (flushPending cfg d batch true true ⟨fun _ => true, true⟩) := by
    simp only [step, h_flush]
  refine .of_step h_step (by simp) ?_
  rw [flushPending, if_neg (by simp)]
  exact canEnd_acking h_next h_main h_shut h_count rfl

theorem canEnd_locking (h_main : d.main = .joining) (h_shut : d.shutdown = true)
    (h_lock : d.flusher = .locking) : CanEnd cfg d := by
  by_cases h_zero : d.count = 0
  · exact canEnd_idle h_main h_shut h_zero h_lock
  · -- There is a last batch; `main` adds no more.
    have h_look : step cfg d (.look 0) = some
        { d with flusher := .flushing d.pending, pending := [], count := 0, bytes := 0 } := by
      simp only [step]
      rw [if_pos h_lock, flushLook, if_neg h_zero, if_neg (by simp [h_shut])]
    refine .of_step h_look (by simp) ?_
    exact canEnd_flushing (fun t => canEnd_idle) h_main h_shut rfl rfl

end

/-- **No wake-up is missed.**  Once `main` has asked the flush thread to stop, the daemon can
    always end. -/
theorem shutdown_ends {cfg : MailCloConfig} {d : CloState}
    (h_reach : Lts.Reachable (step cfg) .start d) (h_main : d.main = .joining) : CanEnd cfg d := by
  obtain ⟨es, h_run⟩ := h_reach
  have h_ok : CloOk cfg d :=
    Lts.run_invariant (fun _ _ _ => step_cloOk) (cloOk_start cfg) h_run
  have h_shut := h_ok.shutdown h_main
  have h_next : ∀ t : CloState, t.main = .joining → t.shutdown = true → t.count = d.count →
      t.flusher = .locking → CanEnd cfg t :=
    fun t h_t h_stop _ h_lock => canEnd_locking h_t h_stop h_lock
  cases h_fl : d.flusher with
  | absent => exact absurd h_main (h_ok.absent h_fl).2.1
  | locking => exact canEnd_locking h_main h_shut h_fl
  | waiting timed signalled =>
    -- It has been signalled, for else it would not know of the shutdown.
    have h_signalled : signalled = true := by
      by_contra h_not
      obtain rfl : signalled = false := Bool.eq_false_iff.mpr h_not
      rw [(h_ok.asleep timed h_fl).1] at h_shut
      cases h_shut
    have h_wake : step cfg d (.wake false) = some { d with flusher := .locking } := by
      simp only [step, h_fl]
      rw [h_signalled]
      rfl
    exact .of_step h_wake (by simp) (canEnd_locking h_main h_shut rfl)
  | flushing batch => exact canEnd_flushing h_next h_main h_shut rfl h_fl
  | acking batch sent => exact canEnd_acking h_next h_main h_shut rfl h_fl
  | ended => exact canEnd_ended h_main h_fl

end IonContrib.Mail
