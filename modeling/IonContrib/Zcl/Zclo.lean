/-
  IonContrib.Zcl.Zclo

  The two threads of `zclo.c`: the main thread compresses the bundles of its
  outduct into the open chunk, the flush thread cuts carriers and sends them.

  A step is a critical section of the one mutex, or a call made without it, so
  a run is an interleaving of the two threads at the granularity of the lock.
  What BP, the clock and the memory do is in the labels; what zstd and its
  buffers do is in the configuration of the encoder.

  The array of the C program holds objects only.  `Pend` has the octets of the
  bundle besides, and `log` what the daemon has done, to say whose record a
  carrier holds.
-/
import IonContrib.Lib.Lts
import IonContrib.Zcl.Enc

namespace IonContrib.Zclo

open Octets Zcl

/-! ## State -/

/-- Options -w, -b, -c and -C. -/
structure ZclCloConfig where
  windowMs : Nat
  flushBytes : Int
  chunkBytes : Int
  chunkMs : Int

/-- A bundle that has been read. -/
structure Pend where
  zco : Nat
  bytes : Octets
  deriving DecidableEq, Repr

inductive Effect
  /-- `addBundle` has returned 0, or -1. -/
  | added (p : Pend)
  | returned (p : Pend)
  /-- `sendCarrier` of the carrier cut when these bundles were pending, and whether `bp_send` has
      accepted it. -/
  | sent (carrier : Octets) (zcos : List Pend) (ok : Bool)
  /-- The report of a bundle in `settle`. -/
  | settled (p : Pend) (sent : Bool)
  /-- The report of a bundle in `main`. -/
  | xmit (zco : Nat) (sent : Bool)
  deriving DecidableEq, Repr

inductive MainPc
  | starting
  | looping
  | dequeuing
  /-- The bundle is in a buffer of its own. -/
  | holding (p : Pend)
  /-- `p` is not in: `settle` reports what was dropped with the chunk, then `p` goes back. -/
  | dropping (zcos : List Pend) (p : Pend)
  | closing
  | joining
  | ended
  deriving DecidableEq, Repr

inductive FlushPc
  | absent
  /-- About to take the mutex. -/
  | locking
  /-- In `pthread_cond_wait`, or with a deadline in `pthread_cond_timedwait`. -/
  | waiting (timed signalled : Bool)
  /-- In `sendCarrier`; `last` for the call behind the loop. -/
  | sending (carrier : Octets) (zcos : List Pend) (last : Bool)
  /-- In the loop of `settle`, with these reports to make. -/
  | settling (reports : List (Pend × Bool)) (last : Bool)
  | ended
  deriving DecidableEq, Repr

variable (c : ZclEncCfg)

/-- `zcos` is `none` where the C program has no array. -/
structure CloState where
  main : MainPc
  flusher : FlushPc
  semEnded : Bool
  enc : ZclEncRun c
  zcos : Option (List Pend)
  zcoCap : Nat
  firstPendingMs : Nat
  chunkStartMs : Nat
  shutdown : Bool
  log : List Effect

/-- `main` before it creates the flush thread. -/
def CloState.start : CloState c :=
  ⟨.starting, .absent, false, zclEncInit c, none, 0, 0, 0, false, []⟩

variable {c}

/-- The bundles that are in the open chunk and in no carrier. -/
def CloState.pending (d : CloState c) : List Pend := d.zcos.getD []

/-! ## Operations -/

/-- The conversion of an `uint64_t` to a `long long`. -/
def toLongLong (n : Int) : Int := n.bmod (2 ^ 64)

/-- Hands over the list of pending bundles. -/
def takeZcos (d : CloState c) : CloState c × List Pend :=
  match d.zcos with
  | none => (d, [])
  | some zcos => ({ d with zcos := none, zcoCap := 0 }, zcos)

/-- Drops the open chunk; what is given back is to be settled as not sent. -/
def abandonChunk (d : CloState c) : CloState c × List Pend :=
  takeZcos { d with enc := zclEncAbort c d.enc }

/-- Where the flush thread goes from `cutAndSend`. -/
def FlushPc.after (last : Bool) : FlushPc := if last then .ended else .locking

/-- `cutAndSend` up to where it first releases the mutex. -/
def cutAndSend (d : CloState c) (endChunk last : Bool) : CloState c :=
  match zclEncCut c d.enc endChunk with
  | (w, rc) =>
    if rc = 0 then { d with enc := w, flusher := .after last }
    else if rc < 0 then
      let (d, zcos) := abandonChunk { d with enc := w }
      { d with flusher := .settling (zcos.map (·, false)) last }
    else
      let (d, zcos) := takeZcos { d with enc := w }
      { d with flusher := .sending (w.cut.getLastD []) zcos last }

/-- `cutAndSend` from where `sendCarrier` is called to where it settles. -/
def sendCarrier (d : CloState c) (carrier : Octets) (zcos : List Pend) (last ok : Bool) :
    CloState c :=
  let d := { d with log := d.log ++ [.sent carrier zcos ok] }
  if ok then { d with flusher := .settling (zcos.map (·, true)) last }
  else
    let (d, dropped) := abandonChunk d
    { d with flusher := .settling (dropped.map (·, false) ++ zcos.map (·, false)) last }

/-- What the loop of `flushThread` finds to do. -/
inductive Look
  /-- To leave the loop. -/
  | over
  | wait (timed : Bool)
  | cut (endChunk : Bool)
  deriving DecidableEq, Repr

def look (cfg : ZclCloConfig) (d : CloState c) (now : Nat) : Look :=
  if d.enc.enc.pendingIn = 0 then
    if d.shutdown then .over else .wait false
  else if d.shutdown = false ∧ toLongLong d.enc.enc.pendingIn < cfg.flushBytes ∧
      now < (d.firstPendingMs + cfg.windowMs) % 2 ^ 64 then .wait true
  else .cut (d.shutdown || decide (toLongLong d.enc.enc.chunkIn ≥ cfg.chunkBytes) ||
    decide (toLongLong (now - d.chunkStartMs) ≥ cfg.chunkMs))

/-- The loop of `flushThread` from where it has the mutex to where it releases it. -/
def flushLook (cfg : ZclCloConfig) (d : CloState c) (now : Nat) : CloState c :=
  match look cfg d now with
  -- Close the frame so the peer can tell the chunk complete.
  | .over => cutAndSend d true true
  | .wait timed => { d with flusher := .waiting timed false }
  | .cut endChunk => cutAndSend d endChunk false

/-- `pthread_cond_signal`. -/
def FlushPc.signal : FlushPc → FlushPc
  | .waiting timed _ => .waiting timed true
  | pc => pc

/-- Room for one more bundle in the array. -/
def growZcos (d : CloState c) (mem : Bool) : CloState c × Bool :=
  if d.pending.length = d.zcoCap then
    if mem then
      ({ d with
        zcos := some d.pending
        zcoCap := if d.zcoCap ≠ 0 then d.zcoCap * 2 else 64 }, true)
    else (d, false)
  else (d, true)

/-- `addBundle` up to where it first releases the mutex. -/
def addBundle (d : CloState c) (p : Pend) (mem : Bool) (now : Nat) : CloState c :=
  match growZcos d mem with
  | (d, false) => { d with main := .dropping [] p }
  | (d, true) =>
    let d := { d with
      chunkStartMs := if d.enc.enc.inChunk then d.chunkStartMs else now
      firstPendingMs := if d.enc.enc.pendingIn = 0 then now else d.firstPendingMs }
    match zclEncAdd c d.enc p.bytes with
    | (w, rc) =>
      if rc < 0 then
        let (d, zcos) := abandonChunk { d with enc := w }
        { d with main := .dropping zcos p }
      else
        { d with
          main := .looping
          enc := w
          zcos := some (d.pending ++ [p])
          flusher := d.flusher.signal
          log := d.log ++ [.added p] }

/-- What `bpDequeue` yields. -/
inductive Dequeued
  | failed
  /-- Outduct closed. -/
  | closed
  | corrupt
  /-- A carrier routed into its own outduct; then whether the success could be reported. -/
  | looped (zco : Nat) (reportOk : Bool)
  /-- The octets are missing when they could not be read; then whether the failure could be
      reported. -/
  | bundle (zco : Nat) (bytes : Option Octets) (reportOk : Bool)

/-- The main thread after a report of its own: it leaves the loop when there was none. -/
def MainPc.reported (reportOk : Bool) : MainPc := if reportOk then .looping else .closing

def mainDequeue (d : CloState c) : Dequeued → CloState c
  | .failed => { d with main := .closing }
  | .closed => { d with main := .looping, semEnded := true }
  | .corrupt => { d with main := .looping }
  | .looped zco reportOk =>
    { d with main := .reported reportOk, log := d.log ++ [.xmit zco true] }
  | .bundle zco bytes reportOk =>
    if bytes.getD [] = [] then
      { d with main := .reported reportOk, log := d.log ++ [.xmit zco false] }
    else { d with main := .holding ⟨zco, bytes.getD []⟩ }

/-! ## Steps -/

inductive Event
  | begin (ok : Bool)
  /-- `shutDownClo`. -/
  | sigterm
  | top
  | dequeue (o : Dequeued)
  | add (mem : Bool) (now : Nat)
  /-- A round of the loop of `settle` in the main thread. -/
  | drop
  /-- `addBundle` returns -1, and the bundle is reported. -/
  | giveBack (reportOk : Bool)
  | close
  | join
  /-- The flush thread gets the mutex. -/
  | look (now : Nat)
  | wake (spurious : Bool)
  | timeout
  | send (ok : Bool)
  /-- A round of the loop of `settle` in the flush thread. -/
  | report

def step (cfg : ZclCloConfig) (d : CloState c) : Event → Option (CloState c)
  | .begin ok =>
    if d.main = .starting then
      if ok then some { d with main := .looping, flusher := .locking }
      else some { d with main := .ended }
    else none
  | .sigterm => some { d with semEnded := true }
  | .top =>
    if d.main = .looping then
      some { d with main := if d.semEnded then .closing else .dequeuing }
    else none
  | .dequeue o => if d.main = .dequeuing then some (mainDequeue d o) else none
  | .add mem now =>
    match d.main with
    | .holding p => some (addBundle d p mem now)
    | _ => none
  | .drop =>
    match d.main with
    | .dropping (q :: zcos) p =>
      some { d with main := .dropping zcos p, log := d.log ++ [.settled q false] }
    | _ => none
  | .giveBack reportOk =>
    match d.main with
    | .dropping [] p =>
      some { d with
        main := .reported reportOk
        log := d.log ++ [.returned p, .xmit p.zco false] }
    | _ => none
  | .close =>
    if d.main = .closing then
      some { d with main := .joining, shutdown := true, flusher := d.flusher.signal }
    else none
  | .join =>
    if d.main = .joining ∧ d.flusher = .ended then some { d with main := .ended } else none
  | .look now => if d.flusher = .locking then some (flushLook cfg d now) else none
  | .wake spurious =>
    match d.flusher with
    | .waiting _ signalled =>
      if signalled || spurious then some { d with flusher := .locking } else none
    | _ => none
  | .timeout =>
    match d.flusher with
    | .waiting true _ => some { d with flusher := .locking }
    | _ => none
  | .send ok =>
    match d.flusher with
    | .sending carrier zcos last => some (sendCarrier d carrier zcos last ok)
    | _ => none
  | .report =>
    match d.flusher with
    | .settling [] last => some { d with flusher := .after last }
    | .settling ((p, sent) :: reports) last =>
      some { d with flusher := .settling reports last, log := d.log ++ [.settled p sent] }
    | _ => none

end IonContrib.Zclo
