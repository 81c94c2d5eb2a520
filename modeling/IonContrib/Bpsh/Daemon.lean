/-
  IonContrib.Bpsh.Daemon

  The session manager of bpshd (`bpshd.c`): the table of sessions, the queue of
  bundles deferred while a command runs, and the receive loop, as a state
  machine whose steps are

  * `drain` and `recv`, a round of `receiveLoop` up to the end of `handleFrame`,
    or up to the loop of `bpshSessionRun` when the frame is a REQ that runs;
  * `prune`, the call of `pruneIdleSessions` that ends the round;
  * `round`, `poll` and `pollEnd`, a round of the running command's loop and the
    frames it polls;
  * `quit` (the signal handler) and `teardown` (the end of `main`).

  Bundles that `bpsh_recv_frame` skips leave no trace.
-/
import IonContrib.Lib.Lts
import IonContrib.Bpsh.Session

namespace IonContrib.Bpsh

/-! ## State -/

structure DeferredBundle where
  bytes : Octets
  sourceEid : Eid
  deriving DecidableEq, Repr

structure Bpshd where
  sessions : List BpshSession
  sessionCap : Nat
  /-- From `deferredHead` to `deferredTail`. -/
  deferred : List DeferredBundle
  /-- The command that `bpshSessionRun` is in. -/
  current : Option Running
  /-- The receive loop has handled a received frame and prunes next. -/
  pruneDue : Bool
  running : Bool
  /-- How many shells were started. -/
  forks : Nat
  log : List Effect
  deriving DecidableEq, Repr

def Bpshd.start : Bpshd where
  sessions := []
  sessionCap := 0
  deferred := []
  current := none
  pruneDue := false
  running := true
  forks := 0
  log := []

/-! ## The session table -/

def findSession (d : Bpshd) (sourceEid : Eid) : Option BpshSession :=
  d.sessions.find? fun s => s.sourceEid = sourceEid

/-- The session of a running command, by the pointer that `bpshSessionRun` has. -/
def sessionOf (d : Bpshd) (pid : Nat) : Option BpshSession :=
  d.sessions.find? fun s => s.shellPid = pid

/-- What a call that was given a session wrote into it and did. -/
def Bpshd.put (d : Bpshd) (log : List Effect) (s : BpshSession) : Bpshd :=
  { d with
    sessions := d.sessions.map fun t => if t.shellPid = s.shellPid then s else t
    log := log }

/-- `mem` says whether the allocation of a bigger table succeeds. -/
def addSession (d : Bpshd) (s : BpshSession) (mem : Bool) : Option Bpshd :=
  if d.sessions.length = d.sessionCap then
    if mem then
      some { d with
        sessions := d.sessions ++ [s]
        sessionCap := if d.sessionCap = 0 then 8 else d.sessionCap * 2 }
    else none
  else some { d with sessions := d.sessions ++ [s] }

/-- The table without the session: the last entry moves to its place. -/
def dropSession (sessions : List BpshSession) (pid : Nat) : List BpshSession :=
  match sessions.findIdx? fun s => s.shellPid = pid, sessions.getLast? with
  | some i, some last => (sessions.set i last).dropLast
  | _, _ => sessions

def removeSession (d : Bpshd) (s : BpshSession) : Bpshd :=
  { d with
    sessions := dropSession d.sessions s.shellPid
    log := d.log ++ [.closed s.shellPid] }

/-! ## Dispatch -/

def sourceAllowed (c : BpshdCfg) (sourceEid : Eid) : Bool :=
  match c.allowedEids with
  | none => true
  | some patterns => patterns.any fun p => c.fnmatch p sourceEid

/-- `pw` is `none` for the null pointer. -/
def authOk (secret : Octets) (pw : Option Octets) : Bool :=
  match pw with
  | none => false
  | some pw =>
    if pw.length ≠ secret.length then false
    else (List.zipWith (· ^^^ ·) pw secret).foldl (· ||| ·) 0 == 0

/-- An ERROR frame with the number 0, outside of every session's numbering. -/
def Bpshd.sendError (c : BpshdCfg) (d : Bpshd) (dest : Eid) (sessionId : Nat) (msg : String) :
    Bpshd :=
  { d with log := bpshSendFrame c d.log dest (bytesFrame .error sessionId 0 (text msg)) none }

/-- How what `handleFrame` asks of the world comes out. -/
structure HandleEnv where
  openOk : Bool
  tableMem : Bool
  now : Int
  cwd : Option Octets
  cmdMem : Bool
  start : StartEnv

/-- The session's INIT is granted: the sends that follow its registration. -/
def greet (c : BpshdCfg) (d : Bpshd) (s : BpshSession) (cwd : Option Octets) : Bpshd :=
  let (log, s) := bpshSessionSendCwd c d.log s cwd
  let (log, s) := sendNumbered c log s fun seq => bytesFrame .initAck s.sessionId seq []
  d.put log s

/-- The password an INIT carries after its flags octet. -/
def initPassword (frame : BpshFrame) : Option Octets :=
  match frame.payload with
  | [] => none
  | _ :: pw => some pw

def initWantStdin (frame : BpshFrame) : Bool := frame.payload.headD 0 &&& 1 == 1

/-- Whether there is a secret that the INIT does not present. -/
def initRefused (c : BpshdCfg) (frame : BpshFrame) : Bool :=
  match c.authSecret with
  | none => false
  | some secret => !authOk secret (initPassword frame)

/-- An INIT replaces the prior session of its endpoint. -/
def removePrior (d : Bpshd) (sourceEid : Eid) : Bpshd :=
  match findSession d sourceEid with
  | some prior => removeSession d prior
  | none => d

/-- Open the session and register it. -/
def openSession (c : BpshdCfg) (d : Bpshd) (frame : BpshFrame) (sourceEid : Eid)
    (env : HandleEnv) : Bpshd :=
  if env.openOk then
    let s := bpshSessionOpen d.forks sourceEid frame.sessionId (initWantStdin frame) env.now
    let d := { d with forks := d.forks + 1, log := d.log ++ [.forked s.shellPid] }
    match addSession d s env.tableMem with
    | some d => greet c d s env.cwd
    | none =>
      Bpshd.sendError c { d with log := d.log ++ [.closed s.shellPid] } sourceEid
        frame.sessionId "unable to register session"
  else d.sendError c sourceEid frame.sessionId "unable to start shell"

/-- The INIT branch of `handleFrame`. -/
def handleInit (c : BpshdCfg) (d : Bpshd) (frame : BpshFrame) (sourceEid : Eid)
    (env : HandleEnv) : Bpshd :=
  if initRefused c frame then d.sendError c sourceEid frame.sessionId "authentication failed"
  else openSession c (removePrior d sourceEid) frame sourceEid env

/-- The command line as a C string. -/
def cString (payload : Octets) : Octets := payload.takeWhile (· ≠ 0)

/-- The daemon after `bpshSessionRun`: a session whose shell has died is removed. -/
def reap (d : Bpshd) (s : BpshSession) : Bpshd :=
  if s.shellAlive then d else removeSession d s

/-- The REQ branch of `handleFrame`. -/
def handleReq (c : BpshdCfg) (d : Bpshd) (frame : BpshFrame) (sourceEid : Eid)
    (env : HandleEnv) (received : Bool) : Bpshd :=
  match findSession d sourceEid with
  | none =>
    d.sendError c sourceEid frame.sessionId "session not initialized; send INIT first"
  | some s =>
    if s.sessionId ≠ frame.sessionId then
      d.sendError c sourceEid frame.sessionId "session id mismatch; reinit"
    else if s.shellAlive = false then
      let (log, s) := sendNumbered c d.log s fun seq =>
        bytesFrame .error frame.sessionId seq (text "shell exited; reinitialize session")
      d.put log s
    else if env.cmdMem = false then
      let (log, s) := sendExit c d.log s (-1) .killed
      d.put log s
    else
      match bpshSessionStart c d.log s (cString frame.payload) env.start with
      | (log, s, true) =>
        { d.put log s with
          current := some {
            pid := s.shellPid
            cmdStartMs := env.start.startMs
            totalOut := 0
            outEof := false
            errEof := false
            ctlBuf := []
            polling := false
            received := received } }
      | (log, s, false) => reap (d.put log s) s

/-- `received`: the frame comes from the endpoint, not from the queue. -/
def handleFrame (c : BpshdCfg) (d : Bpshd) (frame : BpshFrame) (sourceEid : Eid)
    (env : HandleEnv) (received : Bool) : Bpshd :=
  if sourceAllowed c sourceEid = false then
    d.sendError c sourceEid frame.sessionId "source not permitted"
  else
    match frame.msgType with
    | .init => handleInit c d frame sourceEid env
    | .req => handleReq c d frame sourceEid env received
    | .exitSession =>
      match findSession d sourceEid with
      | some s => removeSession d s
      | none => d
    -- Unexpected.
    | _ => d

/-- `pruneIdleSessions` from slot `i` on; as it removes a session, the last one takes its
    slot and is looked at next. -/
def pruneFrom (c : BpshdCfg) (now : Int) (i : Nat) (d : Bpshd) : Nat → Bpshd
  | 0 => d
  | fuel + 1 =>
    match d.sessions[i]? with
    | none => d
    | some s =>
      if bpshSessionExpired c s now then pruneFrom c now i (removeSession d s) fuel
      else pruneFrom c now (i + 1) d fuel

/-- Each round of the loop leaves one session less to look at. -/
def pruneIdleSessions (c : BpshdCfg) (now : Int) (d : Bpshd) : Bpshd :=
  pruneFrom c now 0 d d.sessions.length

def teardownAllSessions (d : Bpshd) : Bpshd :=
  { d with
    sessions := []
    sessionCap := 0
    log := d.log ++ d.sessions.map fun s => .closed s.shellPid }

/-! ## Steps -/

def bpshdRecvBufsize : Nat := 64 * 1024

/-- The frame of a bundle that `bpsh_recv_frame` does not skip. -/
def bpshRecvFrame (c : BpshdCfg) (bytes : Octets) : Option BpshFrame :=
  if bytes.length = 0 ∨ bytes.length > bpshdRecvBufsize then none else c.decode bytes

inductive Event
  /-- Replay a deferred bundle. -/
  | drain (env : HandleEnv)
  | recv (bytes : Octets) (srcEid : Eid) (env : HandleEnv)
  | prune (now : Int)
  | round (rd : Round) (env : EndEnv)
  /-- A bundle polled by the running command: whether a write to fd 3 succeeds, and whether
      there is memory to defer it. -/
  | poll (bytes : Octets) (srcEid : Eid) (writeOk deferMem : Bool)
  | pollEnd
  | quit
  | teardown

/-- `pollIncoming` takes a bundle. -/
def pollIncoming (c : BpshdCfg) (d : Bpshd) (s : BpshSession) (bytes : Octets) (srcEid : Eid)
    (writeOk deferMem : Bool) : Bpshd :=
  match bpshRecvFrame c bytes with
  | none => d
  | some frame =>
    match pollFrame d.log s frame srcEid writeOk with
    | (log, s, false) => d.put log s
    | (log, s, true) =>
      if deferMem then { d.put log s with deferred := d.deferred ++ [⟨bytes, srcEid⟩] }
      else d.put log s

/-- A round of the running command's loop, and when it is the last one what follows it up to
    the end of `handleFrame`. -/
def runRound (c : BpshdCfg) (d : Bpshd) (r : Running) (s : BpshSession) (rd : Round)
    (env : EndEnv) : Bpshd :=
  match loopRound c d.log s r rd with
  | (log, s, r, none) => { d.put log s with current := some r }
  | (log, s, r, some (exitCode, cause)) =>
    let (log, s) := bpshSessionEnd c log s exitCode cause env
    { reap (d.put log s) s with current := none, pruneDue := r.received }

/-- The receive loop takes its next bundle. -/
def Bpshd.idle (d : Bpshd) : Prop :=
  d.running = true ∧ d.current = none ∧ d.pruneDue = false

instance (d : Bpshd) : Decidable d.idle := inferInstanceAs (Decidable (_ ∧ _ ∧ _))

def step (c : BpshdCfg) (d : Bpshd) : Event → Option Bpshd
  | .drain env =>
    match d.deferred with
    | [] => none
    | b :: rest =>
      if d.idle then
        match c.decode b.bytes with
        | none => some { d with deferred := rest }
        | some frame => some (handleFrame c { d with deferred := rest } frame b.sourceEid env false)
      else none
  | .recv bytes srcEid env =>
    if d.idle ∧ d.deferred = [] then
      match bpshRecvFrame c bytes with
      | none => some d
      | some frame =>
        let d := handleFrame c d frame srcEid env true
        some { d with pruneDue := d.current.isNone }
    else none
  | .prune now =>
    if d.pruneDue then some { pruneIdleSessions c now d with pruneDue := false } else none
  | .round rd env =>
    match d.current with
    | none => none
    | some r =>
      if r.polling then none
      else (sessionOf d r.pid).map fun s => runRound c d r s rd env
  | .poll bytes srcEid writeOk deferMem =>
    match d.current with
    | none => none
    | some r =>
      if r.polling ∧ d.running then
        (sessionOf d r.pid).map fun s => pollIncoming c d s bytes srcEid writeOk deferMem
      else none
  | .pollEnd =>
    match d.current with
    | none => none
    | some r =>
      if r.polling then some { d with current := some { r with polling := false } } else none
  | .quit => some { d with running := false }
  | .teardown =>
    if d.current = none then
      some { teardownAllSessions d with running := false, pruneDue := false }
    else none

end IonContrib.Bpsh
