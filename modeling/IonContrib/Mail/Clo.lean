/-
  IonContrib.Mail.Clo

  The output daemon of the mail convergence layer (`mailclo.c`): the main
  thread takes bundles from BP and mails each at once or, with a digest
  interval, hands it to the flush thread, which mails a batch of them.

  A step is one critical section, one wait or one call of either thread, so a
  run is an interleaving of the two.  What BP, the memory, the clock and the
  transport do is in the labels.  Of a bundle only what the batch keeps is
  modelled: its object and its octets.

  Every bundle that was taken is held by one of the threads, waits in the
  batch, has been reported, or was in a batch that `flushPending` found no
  memory for: that one is freed and never reported (`run_settles_iff`).
-/
import IonContrib.Lib.Lts
import IonContrib.Mail.Msg

namespace IonContrib.Mail

open Octets

/-! ## State -/

structure MailCloConfig where
  sender : Octets
  recipient : Octets
  encoding : MailEncoding
  digestSecs : Int
  maxBundles : Int
  maxBytes : Int

/-- A bundle that has been read. -/
structure Pend where
  zco : Nat
  bytes : Octets
  deriving DecidableEq, Repr

inductive Effect
  /-- BP hands a bundle over. -/
  | taken (zco : Nat)
  /-- The transport is given the message of these bundles. -/
  | smtp (batch : List Pend) (msg : Octets) (accepted : Bool)
  /-- `bpHandleXmitSuccess` or `bpHandleXmitFailure`. -/
  | xmit (zco : Nat) (success : Bool)
  deriving DecidableEq, Repr

inductive MainPc
  | starting
  /-- At the head of the loop. -/
  | looping
  | dequeuing
  /-- The bundle is in a buffer of its own. -/
  | holding (p : Pend)
  | closing
  | joining
  | ended
  deriving DecidableEq, Repr

inductive FlushPc
  /-- There is no flush thread. -/
  | absent
  /-- About to take the mutex. -/
  | locking
  /-- In `pthread_cond_wait`, or with a deadline in `pthread_cond_timedwait`. -/
  | waiting (timed signalled : Bool)
  | flushing (batch : List Pend)
  /-- In the loop of `sendAndAck` that reports. -/
  | acking (batch : List Pend) (sent : Bool)
  | ended
  deriving DecidableEq, Repr

structure CloState where
  main : MainPc
  flusher : FlushPc
  semEnded : Bool
  pending : List Pend
  count : Nat
  bytes : Nat
  firstAt : Int
  shutdown : Bool
  log : List Effect
  deriving DecidableEq, Repr

/-- `main` before it creates the flush thread. -/
def CloState.start : CloState := ⟨.starting, .absent, false, [], 0, 0, 0, false, []⟩

/-! ## Operations -/

/-- What a message meets: the memory to build it, and the transport's answer. -/
structure SendEnv where
  mem : Nat → Bool
  accepted : Bool

/-- `sendAndAck` up to its loop: whether the message was sent. -/
def sendMail (cfg : MailCloConfig) (log : List Effect) (batch : List Pend) (env : SendEnv) :
    List Effect × Bool :=
  match mailBuildMessage env.mem cfg.sender cfg.recipient none cfg.encoding
    (batch.map (·.bytes)) with
  | none => (log, false)
  | some msg => (log ++ [.smtp batch msg env.accepted], env.accepted)

def sendAndAck (cfg : MailCloConfig) (log : List Effect) (batch : List Pend) (env : SendEnv) :
    List Effect :=
  let (log, sent) := sendMail cfg log batch env
  log ++ batch.map fun p => .xmit p.zco sent

/-- `pthread_cond_signal`. -/
def FlushPc.signal : FlushPc → FlushPc
  | .waiting timed _ => .waiting timed true
  | pc => pc

def capHit (cfg : MailCloConfig) (d : CloState) : Prop :=
  (d.count : Int) ≥ cfg.maxBundles ∨ (cfg.maxBytes > 0 ∧ (d.bytes : Int) ≥ cfg.maxBytes)

instance (cfg : MailCloConfig) (d : CloState) : Decidable (capHit cfg d) :=
  inferInstanceAs (Decidable (_ ∨ _))

/-- The loop of `flushThread` from where it has the mutex to where it releases it. -/
def flushLook (cfg : MailCloConfig) (d : CloState) (now : Int) : CloState :=
  if d.count = 0 then
    if d.shutdown then { d with flusher := .ended } else { d with flusher := .waiting false false }
  else if d.shutdown = false ∧ ¬ capHit cfg d ∧ now < d.firstAt + cfg.digestSecs then
    { d with flusher := .waiting true false }
  else { d with flusher := .flushing d.pending, pending := [], count := 0, bytes := 0 }

/-- What `flushPending` does before it reports; without memory it only frees the batch. -/
def flushPending (cfg : MailCloConfig) (d : CloState) (batch : List Pend)
    (zcosMem arrMem : Bool) (env : SendEnv) : CloState :=
  if zcosMem = false ∨ arrMem = false then { d with flusher := .locking }
  else
    let (log, sent) := sendMail cfg d.log batch env
    { d with flusher := .acking batch sent, log := log }

/-- What `bpDequeue` and `extractBundle` yield. -/
inductive Dequeued
  | failed
  /-- Outduct closed. -/
  | closed
  | corrupt
  /-- The octets are missing when they could not be read; then whether the failure could be
      reported. -/
  | bundle (zco : Nat) (bytes : Option Octets) (failureOk : Bool)

def mainDequeue (d : CloState) : Dequeued → CloState
  | .failed => { d with main := .closing }
  | .closed => { d with main := .looping, semEnded := true }
  | .corrupt => { d with main := .looping }
  | .bundle zco none failureOk =>
    { d with
      main := if failureOk then .looping else .closing
      log := d.log ++ [.taken zco, .xmit zco false] }
  | .bundle zco (some bytes) _ =>
    { d with main := .holding ⟨zco, bytes⟩, log := d.log ++ [.taken zco] }

/-- The rest of the round of a bundle that has been read: it is mailed, or put into the batch. -/
def mainHandOver (cfg : MailCloConfig) (d : CloState) (p : Pend) (env : SendEnv)
    (pendMem : Bool) (now : Int) : CloState :=
  if cfg.digestSecs ≤ 0 then
    { d with main := .looping, log := sendAndAck cfg d.log [p] env }
  else if pendMem = false then
    { d with main := .looping, log := d.log ++ [.xmit p.zco false] }
  else
    { d with
      main := .looping
      pending := d.pending ++ [p]
      firstAt := if d.pending = [] then now else d.firstAt
      count := d.count + 1
      bytes := d.bytes + p.bytes.length
      flusher := d.flusher.signal }

/-! ## Steps -/

inductive Event
  /-- The flush thread is created if there is a digest interval. -/
  | begin (ok : Bool)
  /-- `shutDownClo`. -/
  | sigterm
  | top
  | dequeue (o : Dequeued)
  | handOver (env : SendEnv) (pendMem : Bool) (now : Int)
  | close
  | join
  /-- The flush thread gets the mutex. -/
  | look (now : Int)
  | wake (spurious : Bool)
  | timeout
  | flush (zcosMem arrMem : Bool) (env : SendEnv)
  | ack

def step (cfg : MailCloConfig) (d : CloState) : Event → Option CloState
  | .begin ok =>
    if d.main = .starting then
      if cfg.digestSecs > 0 then
        if ok then some { d with main := .looping, flusher := .locking }
        else some { d with main := .ended }
      else some { d with main := .looping }
    else none
  | .sigterm => some { d with semEnded := true }
  | .top =>
    if d.main = .looping then
      some { d with main := if d.semEnded then .closing else .dequeuing }
    else none
  | .dequeue o => if d.main = .dequeuing then some (mainDequeue d o) else none
  | .handOver env pendMem now =>
    match d.main with
    | .holding p => some (mainHandOver cfg d p env pendMem now)
    | _ => none
  | .close =>
    if d.main = .closing then
      if d.flusher = .absent then some { d with main := .ended }
      else some { d with main := .joining, shutdown := true, flusher := d.flusher.signal }
    else none
  | .join =>
    if d.main = .joining ∧ d.flusher = .ended then some { d with main := .ended } else none
  | .look now => if d.flusher = .locking then some (flushLook cfg d now) else none
  | .wake spurious =>
    match d.flusher with
    | .waiting _ signalled =>
      if signalled || spurious then some { d with flusher := .locking } else none
    | _ => none
  | .timeout =>
    match d.flusher with
    | .waiting true _ => some { d with flusher := .locking }
    | _ => none
  | .flush zcosMem arrMem env =>
    match d.flusher with
    | .flushing batch => some (flushPending cfg d batch zcosMem arrMem env)
    | _ => none
  | .ack =>
    match d.flusher with
    | .acking [] _ => some { d with flusher := .locking }
    | .acking (p :: batch) sent =>
      some { d with flusher := .acking batch sent, log := d.log ++ [.xmit p.zco sent] }
    | _ => none

/-! ## The two threads -/

/-- In the loop of `main`, which it leaves to shut down. -/
def MainPc.inLoop : MainPc → Bool
  | .starting => false
  | .joining => false
  | .ended => false
  | _ => true

/-- What the two threads know of each other. -/
structure CloOk (cfg : MailCloConfig) (d : CloState) : Prop where
  count : d.count = d.pending.length
  /-- A batch that was taken has a bundle. -/
  batch : d.flusher ≠ .flushing []
  starting : d.main = .starting → d.flusher = .absent
  absent : d.flusher = .absent → d.pending = [] ∧ d.main ≠ .joining ∧
    (d.main.inLoop = true → cfg.digestSecs ≤ 0)
  /-- A waiting flush thread has been signalled if there is something for it to do. -/
  asleep : ∀ timed, d.flusher = .waiting timed false →
    d.shutdown = false ∧ (timed = false → d.pending = [])
  running : d.shutdown = true → d.main = .joining ∨ d.main = .ended
  shutdown : d.main = .joining → d.shutdown = true
  done : d.flusher = .ended → d.shutdown = true ∧ d.pending = []
  ended : d.main = .ended → d.flusher = .absent ∨ d.flusher = .ended

theorem cloOk_start (cfg : MailCloConfig) : CloOk cfg .start where
  count := rfl
  batch := by intro h; cases h
  starting := fun _ => rfl
  absent := by
    refine fun _ => ⟨rfl, by decide, ?_⟩
    intro h
    cases h
  asleep := by intro timed h; cases h
  running := by intro h; cases h
  shutdown := by intro h; cases h
  done := by intro h; cases h
  ended := by intro h; cases h

section

variable {cfg : MailCloConfig} {d : CloState}

/-- A signal moves only a thread that waits. -/
theorem FlushPc.of_signal_eq {pc pc' : FlushPc} (h : ∀ timed b, pc ≠ .waiting timed b)
    (h_eq : pc'.signal = pc) : pc' = pc := by
  cases pc' with
  | waiting timed b => exact absurd h_eq.symm (h timed true)
  | _ => exact h_eq

theorem FlushPc.signal_ne_asleep (pc : FlushPc) (timed : Bool) :
    pc.signal ≠ .waiting timed false := by
  cases pc <;> simp [FlushPc.signal]

theorem CloOk.not_shutdown (h : CloOk cfg d) (h_main : d.main ≠ .joining ∧ d.main ≠ .ended) :
    d.shutdown = false := by
  by_contra h_shut
  rcases h.running (Bool.not_eq_false _ ▸ h_shut) with h_join | h_end
  · exact h_main.1 h_join
  · exact h_main.2 h_end

theorem CloOk.not_shutdown_of_loop (h : CloOk cfg d) (h_loop : d.main.inLoop = true) :
    d.shutdown = false := by
  refine h.not_shutdown ⟨fun h_join => ?_, fun h_end => ?_⟩
  · rw [h_join] at h_loop
    cases h_loop
  · rw [h_end] at h_loop
    cases h_loop

/-- The main thread stays in its loop. -/
theorem CloOk.loop (h : CloOk cfg d) (h_loop : d.main.inLoop = true) {pc : MainPc}
    (h_pc : pc.inLoop = true) (sem : Bool) (log : List Effect) :
    CloOk cfg { d with main := pc, semEnded := sem, log := log } where
  count := h.count
  batch := h.batch
  starting := by
    intro h_start
    obtain rfl : pc = .starting := h_start
    cases h_pc
  absent := by
    refine fun h_none => ⟨(h.absent h_none).1, ?_, fun _ => (h.absent h_none).2.2 h_loop⟩
    rintro rfl
    cases h_pc
  asleep := h.asleep
  running := by
    intro h_shut
    rw [h.not_shutdown_of_loop h_loop] at h_shut
    cases h_shut
  shutdown := by
    intro h_join
    obtain rfl : pc = .joining := h_join
    cases h_pc
  done := h.done
  ended := by
    intro h_end
    obtain rfl : pc = .ended := h_end
    cases h_pc

/-- The flush thread is there and goes where it neither waits nor has ended. -/
theorem CloOk.flusher (h : CloOk cfg d) (h_there : d.flusher ≠ .absent)
    (h_on : d.flusher ≠ .ended) {pc : FlushPc} (h_pc : pc = .locking ∨ ∃ b sent, pc = .acking b sent)
    (log : List Effect) : CloOk cfg { d with flusher := pc, log := log } := by
  have h_not : ∀ pc', (pc' ≠ .locking ∧ ∀ b sent, pc' ≠ .acking b sent) → pc ≠ pc' := by
    rintro pc' ⟨h_lock, h_ack⟩ rfl
    rcases h_pc with h_pc | ⟨b, sent, h_pc⟩
    · exact h_lock h_pc
    · exact h_ack b sent h_pc
  refine ⟨h.count, h_not _ ⟨by simp, by simp⟩, ?_, ?_, ?_, h.running, h.shutdown, ?_, ?_⟩
  · exact fun h_start => absurd (h.starting h_start) h_there
  · exact fun h_none => absurd h_none (h_not _ ⟨by simp, by simp⟩)
  · exact fun timed h_wait => absurd h_wait (h_not _ ⟨by simp, by simp⟩)
  · exact fun h_end => absurd h_end (h_not _ ⟨by simp, by simp⟩)
  · intro h_end
    rcases h.ended h_end with h_end | h_end
    · exact absurd h_end h_there
    · exact absurd h_end h_on

theorem flushLook_cloOk (h : CloOk cfg d) (h_lock : d.flusher = .locking) (now : Int) :
    CloOk cfg (flushLook cfg d now) := by
  have h_main : d.main ≠ .starting ∧ d.main ≠ .ended := by
    refine ⟨fun h_start => ?_, fun h_end => ?_⟩
    · have h_none := h.starting h_start
      rw [h_lock] at h_none
      cases h_none
    · have h_end := h.ended h_end
      rw [h_lock] at h_end
      rcases h_end with h_end | h_end <;> cases h_end
  rw [flushLook]
  by_cases h_zero : d.count = 0
  · have h_nil : d.pending = [] := List.eq_nil_of_length_eq_zero (h.count.symm.trans h_zero)
    rw [if_pos h_zero]
    by_cases h_shut : d.shutdown = true
    · rw [if_pos h_shut]
      exact ⟨h.count, by simp, fun h_start => absurd h_start h_main.1, by simp, by simp, h.running,
        h.shutdown, fun _ => ⟨h_shut, h_nil⟩, fun _ => .inr rfl⟩
    · rw [if_neg h_shut]
      refine ⟨h.count, by simp, fun h_start => absurd h_start h_main.1, by simp, ?_, h.running,
        h.shutdown, by simp, fun h_end => absurd h_end h_main.2⟩
      exact fun _ _ => ⟨Bool.eq_false_iff.mpr h_shut, fun _ => h_nil⟩
  · rw [if_neg h_zero]
    by_cases h_wait : d.shutdown = false ∧ ¬ capHit cfg d ∧ now < d.firstAt + cfg.digestSecs
    · rw [if_pos h_wait]
      refine ⟨h.count, by simp, fun h_start => absurd h_start h_main.1, by simp, ?_, h.running,
        h.shutdown, by simp, fun h_end => absurd h_end h_main.2⟩
      intro timed h_eq
      obtain ⟨rfl, -⟩ : true = timed ∧ true := by simpa using h_eq
      exact ⟨h_wait.1, by simp⟩
    · rw [if_neg h_wait]
      refine ⟨rfl, ?_, fun h_start => absurd h_start h_main.1, by simp, by simp, h.running,
        h.shutdown, by simp, fun h_end => absurd h_end h_main.2⟩
      intro h_nil
      obtain h_nil : d.pending = [] := FlushPc.flushing.inj h_nil
      rw [h.count, h_nil] at h_zero
      exact h_zero rfl

theorem flushPending_cloOk (h : CloOk cfg d) {batch : List Pend}
    (h_flush : d.flusher = .flushing batch) (zcosMem arrMem : Bool) (env : SendEnv) :
    CloOk cfg (flushPending cfg d batch zcosMem arrMem env) := by
  rw [flushPending]
  split
  · exact h.flusher (by simp [h_flush]) (by simp [h_flush]) (.inl rfl) d.log
  · exact h.flusher (by simp [h_flush]) (by simp [h_flush]) (.inr ⟨_, _, rfl⟩) _

theorem mainDequeue_cloOk (h : CloOk cfg d) (h_main : d.main = .dequeuing) (o : Dequeued) :
    CloOk cfg (mainDequeue d o) := by
  have h_loop : d.main.inLoop = true := by
    rw [h_main]
    rfl
  cases o with
  | failed => exact h.loop h_loop rfl d.semEnded d.log
  | closed => exact h.loop h_loop rfl true d.log
  | corrupt => exact h.loop h_loop rfl d.semEnded d.log
  | bundle zco bytes failureOk =>
    cases bytes with
    | none =>
      refine h.loop h_loop ?_ d.semEnded _
      cases failureOk <;> rfl
    | some bytes => exact h.loop h_loop rfl d.semEnded _

theorem mainHandOver_cloOk (h : CloOk cfg d) {p : Pend} (h_main : d.main = .holding p)
    (env : SendEnv) (pendMem : Bool) (now : Int) :
    CloOk cfg (mainHandOver cfg d p env pendMem now) := by
  have h_loop : d.main.inLoop = true := by
    rw [h_main]
    rfl
  rw [mainHandOver]
  split
  · exact h.loop h_loop rfl d.semEnded _
  rename_i h_digest
  split
  · exact h.loop h_loop rfl d.semEnded _
  -- With a digest interval there is a flush thread, and it is not on its way out.
  have h_there : d.flusher ≠ .absent := fun h_none => h_digest ((h.absent h_none).2.2 h_loop)
  have h_on : d.flusher ≠ .ended := by
    intro h_end
    have h_shut := (h.done h_end).1
    rw [h.not_shutdown_of_loop h_loop] at h_shut
    cases h_shut
  refine ⟨?_, ?_, by simp, ?_, ?_, ?_, by simp, ?_, by simp⟩
  · rw [List.length_append, List.length_singleton, h.count]
  · exact fun h_nil => h.batch (FlushPc.of_signal_eq (by simp) h_nil)
  · exact fun h_none => absurd (FlushPc.of_signal_eq (by simp) h_none) h_there
  · exact fun timed h_wait => absurd h_wait (FlushPc.signal_ne_asleep d.flusher timed)
  · intro h_shut
    rw [h.not_shutdown_of_loop h_loop] at h_shut
    cases h_shut
  · exact fun h_end => absurd (FlushPc.of_signal_eq (by simp) h_end) h_on

end

theorem step_cloOk {cfg : MailCloConfig} {d d' : CloState} {e : Event} (h : CloOk cfg d)
    (h_step : step cfg d e = some d') : CloOk cfg d' := by
  cases e with
  | begin ok =>
    simp only [step] at h_step
    split at h_step
    · rename_i h_main
      have h_none := h.starting h_main
      obtain ⟨h_nil, -, -⟩ := h.absent h_none
      have h_run : ¬ d.shutdown = true := by
        rw [h.not_shutdown (by simp [h_main])]
        decide
      split at h_step
      · split at h_step
        · obtain rfl := Option.some.inj h_step
          exact ⟨h.count, by simp, by simp, by simp, by simp, fun h_shut => absurd h_shut h_run,
            by simp, by simp, by simp⟩
        · obtain rfl := Option.some.inj h_step
          refine ⟨h.count, h.batch, by simp, fun _ => ⟨h_nil, by simp, ?_⟩, h.asleep,
            fun _ => .inr rfl, by simp, h.done, fun _ => .inl h_none⟩
          intro h_loop
          cases h_loop
      · rename_i h_digest
        obtain rfl := Option.some.inj h_step
        exact ⟨h.count, h.batch, by simp, fun _ => ⟨h_nil, by simp, fun _ => by omega⟩, h.asleep,
          fun h_shut => absurd h_shut h_run, by simp, h.done, by simp⟩
    · cases h_step
  | sigterm =>
    obtain rfl := Option.some.inj h_step
    exact ⟨h.count, h.batch, h.starting, h.absent, h.asleep, h.running, h.shutdown, h.done,
      h.ended⟩
  | top =>
    simp only [step] at h_step
    split at h_step
    · rename_i h_main
      obtain rfl := Option.some.inj h_step
      refine h.loop (by rw [h_main]; rfl) ?_ d.semEnded d.log
      split <;> rfl
    · cases h_step
  | dequeue o =>
    simp only [step] at h_step
    split at h_step
    · rename_i h_main
      obtain rfl := Option.some.inj h_step
      exact mainDequeue_cloOk h h_main o
    · cases h_step
  | handOver env pendMem now =>
    simp only [step] at h_step
    split at h_step
    · rename_i p h_main
      obtain rfl := Option.some.inj h_step
      exact mainHandOver_cloOk h h_main env pendMem now
    · cases h_step
  | close =>
    simp only [step] at h_step
    split at h_step
    · rename_i h_main
      have h_run := h.not_shutdown_of_loop (by rw [h_main]; rfl)
      split at h_step
      · rename_i h_none
        obtain rfl := Option.some.inj h_step
        refine ⟨h.count, h.batch, by simp, fun _ => ⟨(h.absent h_none).1, by simp, ?_⟩, h.asleep,
          fun _ => .inr rfl, by simp, h.done, fun _ => .inl h_none⟩
        intro h_loop
        cases h_loop
      · rename_i h_there
        obtain rfl := Option.some.inj h_step
        have h_on : d.flusher ≠ .ended := by
          intro h_end
          have h_shut := (h.done h_end).1
          rw [h_run] at h_shut
          cases h_shut
        refine ⟨h.count, ?_, by simp, ?_, ?_, fun _ => .inl rfl, fun _ => rfl, ?_, by simp⟩
        · exact fun h_nil => h.batch (FlushPc.of_signal_eq (by simp) h_nil)
        · exact fun h_none => absurd (FlushPc.of_signal_eq (by simp) h_none) h_there
        · exact fun timed h_wait => absurd h_wait (FlushPc.signal_ne_asleep d.flusher timed)
        · exact fun h_end => absurd (FlushPc.of_signal_eq (by simp) h_end) h_on
    · cases h_step
  | join =>
    simp only [step] at h_step
    split at h_step
    · rename_i h_both
      obtain rfl := Option.some.inj h_step
      refine ⟨h.count, h.batch, by simp, ?_, h.asleep, fun _ => .inr rfl, by simp, h.done,
        fun _ => .inr h_both.2⟩
      intro h_none
      have h_end := h_both.2
      rw [h_none] at h_end
      cases h_end
    · cases h_step
  | look now =>
    simp only [step] at h_step
    split at h_step
    · rename_i h_lock
      obtain rfl := Option.some.inj h_step
      exact flushLook_cloOk h h_lock now
    · cases h_step
  | wake spurious =>
    simp only [step] at h_step
    split at h_step
    · rename_i h_wait
      split at h_step
      · obtain rfl := Option.some.inj h_step
        exact h.flusher (by simp [h_wait]) (by simp [h_wait]) (.inl rfl) d.log
      · cases h_step
    · cases h_step
  | timeout =>
    simp only [step] at h_step
    split at h_step
    · rename_i h_wait
      obtain rfl := Option.some.inj h_step
      exact h.flusher (by simp [h_wait]) (by simp [h_wait]) (.inl rfl) d.log
    · cases h_step
  | flush zcosMem arrMem env =>
    simp only [step] at h_step
    split at h_step
    · rename_i batch h_flush
      obtain rfl := Option.some.inj h_step
      exact flushPending_cloOk h h_flush zcosMem arrMem env
    · cases h_step
  | ack =>
    simp only [step] at h_step
    split at h_step
    · rename_i h_ack
      obtain rfl := Option.some.inj h_step
      exact h.flusher (by simp [h_ack]) (by simp [h_ack]) (.inl rfl) d.log
    · rename_i h_ack
      obtain rfl := Option.some.inj h_step
      exact h.flusher (by simp [h_ack]) (by simp [h_ack]) (.inr ⟨_, _, rfl⟩) _
    · cases h_step

end IonContrib.Mail
