/-
  IonContrib.Linkimpair.Queue

  The daemon that holds queued packets for a delay (`linkimpair.c`).

  A packet that the kernel has queued comes with what `queueCb` gets for it:
  the two draws, the clock, and whether there was memory.  The verdicts stand
  in the order in which they were given, each with what it was given for; the
  counters that are printed at the end are left out.

  The main loop is a list of turns (`mainLoop`).  Its steps one by one are
  those of `step`, which takes them in any order.
-/
import IonContrib.Lib.Lts
import Mathlib.Tactic.Ring

namespace IonContrib.Linkimpair

open Lts

/-! ## Time -/

/-- `struct timespec`. -/
structure Timespec where
  sec : Int
  nsec : Int
  deriving DecidableEq, Repr

/-- Less than a second of nanoseconds. -/
def Timespec.Normal (t : Timespec) : Prop := 0 ≤ t.nsec ∧ t.nsec < 1000000000

instance (t : Timespec) : Decidable t.Normal := inferInstanceAs (Decidable (_ ∧ _))

/-- What `nowMonotonic` gives. -/
abbrev Clock := { t : Timespec // t.Normal }

def Timespec.nanos (t : Timespec) : Int := t.sec * 1000000000 + t.nsec

def isDue (due now : Timespec) : Bool :=
  if due.sec ≠ now.sec then due.sec < now.sec else due.nsec ≤ now.nsec

def addMillis (ts : Timespec) (ms : Int) : Timespec :=
  let sec := ts.sec + ms.tdiv 1000
  let nsec := ts.nsec + ms.tmod 1000 * 1000000
  if nsec ≥ 1000000000 then ⟨sec + 1, nsec - 1000000000⟩ else ⟨sec, nsec⟩

theorem isDue_iff {due now : Timespec} (h_due : due.Normal) (h_now : now.Normal) :
    isDue due now = true ↔ due.nanos ≤ now.nanos := by
  obtain ⟨h_low, h_high⟩ := h_due
  obtain ⟨h_low', h_high'⟩ := h_now
  unfold isDue Timespec.nanos
  split
  · rw [decide_eq_true_eq]
    omega
  · rw [decide_eq_true_eq]
    omega

theorem addMillis_nanos {ts : Timespec} {ms : Int} (h_ts : ts.Normal) (h_ms : 0 ≤ ms) :
    (addMillis ts ms).Normal ∧ (addMillis ts ms).nanos = ts.nanos + ms * 1000000 := by
  obtain ⟨h_low, h_high⟩ := h_ts
  have h_div : ms.tdiv 1000 = ms / 1000 := Int.tdiv_eq_ediv_of_nonneg h_ms
  have h_mod : ms.tmod 1000 = ms % 1000 := Int.tmod_eq_emod_of_nonneg h_ms
  unfold addMillis Timespec.Normal Timespec.nanos
  rw [h_div, h_mod]
  dsimp only
  split
  · dsimp only
    omega
  · dsimp only
    omega

/-! ## Packets -/

/-- What is asked for, as `main` has checked it. -/
structure Config where
  delayMs : Int
  jitterMs : Int
  lossPct : Int
  delay_nonneg : 0 ≤ delayMs
  jitter_nonneg : 0 ≤ jitterMs
  loss_range : 0 ≤ lossPct ∧ lossPct ≤ 100

/-- A `long` that has wrapped around. -/
def toLong (n : Int) : Int := n.bmod (2 ^ 64)

/-- The delay of a packet for which `random` gives `draw`. -/
def packetDelay (cfg : Config) (draw : Int) : Int :=
  if cfg.jitterMs > 0 then
    toLong (cfg.delayMs + draw.tmod (toLong (cfg.jitterMs + 1)))
  else cfg.delayMs

/-- A packet in the queue of the kernel, and what `queueCb` is going to get for it. -/
structure Packet where
  id : UInt32
  lossDraw : Int
  jitterDraw : Int
  mem : Bool
  now : Clock

/-- `struct pending`. -/
structure Pending where
  id : UInt32
  due : Timespec
  deriving DecidableEq, Repr

/-- A call of `nfq_set_verdict`. -/
inductive Verdict where
  /-- `NF_DROP`, in `queueCb`. -/
  | drop (id : UInt32)
  /-- `NF_ACCEPT`, in `queueCb`. -/
  | pass (id : UInt32)
  /-- `NF_ACCEPT`, in `releaseDue`. -/
  | release (pkt : Pending) (now : Clock)
  /-- `NF_ACCEPT`, in `releaseAll`. -/
  | flush (pkt : Pending)

def Verdict.id : Verdict → UInt32
  | .drop id => id
  | .pass id => id
  | .release pkt _ => pkt.id
  | .flush pkt => pkt.id

/-- The packet that is accepted. -/
def Verdict.accepted : Verdict → Option UInt32
  | .drop _ => none
  | .pass id => some id
  | .release pkt _ => some pkt.id
  | .flush pkt => some pkt.id

structure State where
  /-- The packets from `head` on. -/
  held : List Pending
  /-- The packets that have been handed to `queueCb`. -/
  queued : List Packet
  /-- The verdicts that have been given. -/
  verdicts : List Verdict
  /-- The main loop has been left. -/
  stopped : Bool

def State.initial : State := ⟨[], [], [], false⟩

/-! ## The functions -/

def setVerdict (v : Verdict) (s : State) : State := { s with verdicts := s.verdicts ++ [v] }

/-- `random () % 100 < lossPct`. -/
def Packet.lost (cfg : Config) (p : Packet) : Prop :=
  cfg.lossPct > 0 ∧ p.lossDraw.tmod 100 < cfg.lossPct

instance (cfg : Config) (p : Packet) : Decidable (p.lost cfg) :=
  inferInstanceAs (Decidable (_ ∧ _))

/-- `none` is a message without a packet header. -/
def queueCb (cfg : Config) (hdr : Option Packet) (s : State) : State :=
  match hdr with
  | none => s
  | some p =>
    let s := { s with queued := s.queued ++ [p] }
    if p.lost cfg then setVerdict (.drop p.id) s
    else
      let ms := packetDelay cfg p.jitterDraw
      if ms ≤ 0 then setVerdict (.pass p.id) s
      else if !p.mem then setVerdict (.pass p.id) s
      else { s with held := s.held ++ [⟨p.id, addMillis p.now ms⟩] }

/-- The loop of `releaseDue`. -/
def releaseFrom (now : Clock) : List Pending → List Verdict → List Pending × List Verdict
  | [], verdicts => ([], verdicts)
  | pkt :: rest, verdicts =>
    if isDue pkt.due now then releaseFrom now rest (verdicts ++ [.release pkt now])
    else (pkt :: rest, verdicts)

def releaseDue (now : Clock) (s : State) : State :=
  let (held, verdicts) := releaseFrom now s.held s.verdicts
  { s with held := held, verdicts := verdicts }

/-- The loop of `releaseAll`. -/
def flushFrom : List Pending → List Verdict → List Verdict
  | [], verdicts => verdicts
  | pkt :: rest, verdicts => flushFrom rest (verdicts ++ [.flush pkt])

def releaseAll (s : State) : State :=
  { s with held := [], verdicts := flushFrom s.held s.verdicts, stopped := true }

/-- One turn of the main loop: `poll` or `recv` fails, or `nfq_handle_packet` calls `queueCb` for
    what has been received, if anything has, and the clock is `now` for `releaseDue`. -/
inductive Turn where
  | failed
  | woken (received : List (Option Packet)) (now : Clock)

/-- The main loop and what is behind it; a signal ends it where the list ends. -/
def mainLoop (cfg : Config) : List Turn → State → State
  | [], s => releaseAll s
  | .failed :: _, s => releaseAll s
  | .woken received now :: turns, s =>
    mainLoop cfg turns (releaseDue now (received.foldl (fun s hdr => queueCb cfg hdr s) s))

/-! ## Steps -/

inductive Event where
  | message (hdr : Option Packet)
  | due (now : Clock)
  | stop

def step (cfg : Config) (s : State) (e : Event) : Option State :=
  if s.stopped then none
  else
    match e with
    | .message hdr => some (queueCb cfg hdr s)
    | .due now => some (releaseDue now s)
    | .stop => some (releaseAll s)

/-- The events of the turns of the main loop. -/
def loopEvents : List Turn → List Event
  | [] => [.stop]
  | .failed :: _ => [.stop]
  | .woken received now :: turns => received.map .message ++ .due now :: loopEvents turns

@[simp] theorem queueCb_over (cfg : Config) (hdr : Option Packet) (s : State) :
    (queueCb cfg hdr s).stopped = s.stopped := by
  unfold queueCb setVerdict
  split
  · rfl
  · dsimp only
    repeat' split
    all_goals rfl

theorem run_messages (cfg : Config) (received : List (Option Packet)) (s : State)
    (h : s.stopped = false) :
    run (step cfg) s (received.map .message) =
        some (received.foldl (fun s hdr => queueCb cfg hdr s) s) ∧
      (received.foldl (fun s hdr => queueCb cfg hdr s) s).stopped = false := by
  induction received generalizing s with
  | nil => exact ⟨rfl, h⟩
  | cons hdr received ih =>
    obtain ⟨h_run, h_over⟩ := ih (queueCb cfg hdr s) (by rw [queueCb_over, h])
    refine ⟨run_cons_eq_some.mpr ⟨queueCb cfg hdr s, ?_, h_run⟩, h_over⟩
    rw [step, h, if_neg (by decide)]

/-- **The main loop is a run.** -/
theorem run_loopEvents (cfg : Config) (turns : List Turn) (s : State) (h : s.stopped = false) :
    run (step cfg) s (loopEvents turns) = some (mainLoop cfg turns s) := by
  have h_stop : ∀ s : State, s.stopped = false → step cfg s .stop = some (releaseAll s) := by
    intro s h_s
    rw [step, h_s, if_neg (by decide)]
  induction turns generalizing s with
  | nil => exact run_cons_eq_some.mpr ⟨_, h_stop s h, rfl⟩
  | cons turn turns ih =>
    cases turn with
    | failed => exact run_cons_eq_some.mpr ⟨_, h_stop s h, rfl⟩
    | woken received now =>
      obtain ⟨h_run, h_over⟩ := run_messages cfg received s h
      refine run_append.mpr ⟨_, h_run, run_cons_eq_some.mpr ⟨_, ?_, ih _ h_over⟩⟩
      rw [step, h_over, if_neg (by decide)]

theorem mainLoop_over (cfg : Config) (turns : List Turn) (s : State) :
    (mainLoop cfg turns s).stopped = true := by
  induction turns generalizing s with
  | nil => rfl
  | cons turn turns ih =>
    cases turn with
    | failed => rfl
    | woken received now => exact ih _

end IonContrib.Linkimpair
