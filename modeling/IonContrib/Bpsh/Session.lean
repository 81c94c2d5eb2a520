/-
  IonContrib.Bpsh.Session

  One shell session of bpshd (`bpshd_session.c`), with the frames of
  `bpsh_proto.h` that it sends.

  What the daemon does to the world goes into a log of `Effect`s.  The answers
  of the world come from outside: `BpshdCfg.sendOk n` says whether the send that
  would be the n-th effect succeeds, the pipes and the clock are in the
  arguments.  `bpshSessionRun` is cut into its start, one round of its loop and
  its end, for the daemon reads its endpoint between two rounds.

  A shell is named by a number of its own, the `shellPid` (the operating system
  may give a pid again, which plays no part here).
-/
import IonContrib.Lib.Octets

namespace IonContrib.Bpsh

/-! ## Frames -/

inductive BpshMsgType
  | init
  | initAck
  | req
  | stdinChunk
  | stdinEof
  | stdout
  | stderr
  | exit
  | error
  | exitSession
  | cwd
  deriving DecidableEq, Repr

inductive BpshExitCause
  | normal
  | signaled
  | timeout
  | killed
  | outputLimit
  deriving DecidableEq, Repr

structure BpshFrame where
  version : Nat
  msgType : BpshMsgType
  sessionId : Nat
  seqNum : Nat
  payload : Octets
  exitCode : Int
  exitCause : BpshExitCause
  deriving DecidableEq, Repr

def bpshVersion : Nat := 1

abbrev Eid := String

/-- The octets of a message text. -/
def text (s : String) : Octets := s.toUTF8.data.toList

/-- The frame `bpsh_send_bytes` builds, and with no octets the one of `bpsh_send_ctl`. -/
def bytesFrame (type : BpshMsgType) (sessionId seq : Nat) (bytes : Octets) : BpshFrame where
  version := bpshVersion
  msgType := type
  sessionId := sessionId
  seqNum := seq
  payload := bytes
  exitCode := 0
  exitCause := .normal

/-- The frame `bpsh_send_exit` builds. -/
def exitFrame (sessionId seq : Nat) (code : Int) (cause : BpshExitCause) : BpshFrame where
  version := bpshVersion
  msgType := .exit
  sessionId := sessionId
  seqNum := seq
  payload := []
  exitCode := code
  exitCause := cause

/-- The frames that `sendStream` cuts command output into. -/
def BpshFrame.isOutput (f : BpshFrame) : Bool :=
  f.msgType == .stdout || f.msgType == .stderr

/-! ## Effects -/

/-- What the daemon does to the world. -/
inductive Effect
  /-- `bpsh_send_frame`, and whether it sent.  `via` is the session that the frame took its
      number from, with that session's next number after the call. -/
  | sent (dest : Eid) (frame : BpshFrame) (ok : Bool) (via : Option (Nat × Nat))
  /-- A `/bin/sh` was started. -/
  | forked (pid : Nat)
  /-- A command of the client's session was written to the shell. -/
  | command (pid : Nat) (client : Eid × Nat) (script : Octets)
  /-- Octets were written to the pipe that the session's commands have as standard input. -/
  | stdin (pid : Nat) (client : Eid × Nat) (data : Octets)
  /-- That pipe was closed. -/
  | stdinClosed (pid : Nat) (client : Eid × Nat)
  /-- The shell's process group was sent SIGKILL. -/
  | killed (pid : Nat)
  /-- `bpshSessionClose`. -/
  | closed (pid : Nat)
  deriving DecidableEq, Repr

/-- The session an effect is part of, none for a reply outside of every session's numbering. -/
def Effect.session : Effect → Option Nat
  | sent _ _ _ via => via.map Prod.fst
  | forked pid => some pid
  | command pid _ _ => some pid
  | stdin pid _ _ => some pid
  | stdinClosed pid _ => some pid
  | killed pid => some pid
  | closed pid => some pid

/-- What the daemon was started with, and what it is told by the world.  `decode` is
    `bpsh_decode` and `fnmatch p e` the match of pattern `p`. -/
structure BpshdCfg where
  decode : Octets → Option BpshFrame
  fnmatch : String → Eid → Bool
  /-- `none`: no password gate. -/
  authSecret : Option Octets
  /-- `none`: the allowlist is inactive. -/
  allowedEids : Option (List String)
  cmdTimeoutMs : Int
  idleTimeoutSecs : Int
  sendOk : Nat → Bool

/-- `bpsh_send_frame`. -/
def bpshSendFrame (c : BpshdCfg) (log : List Effect) (dest : Eid) (frame : BpshFrame)
    (via : Option (Nat × Nat)) : List Effect :=
  log ++ [.sent dest frame (c.sendOk log.length) via]

/-! ## The session -/

structure BpshSession where
  sourceEid : Eid
  sessionId : Nat
  shellPid : Nat
  /-- Whether the write end of the pipe to child fd 3 is open. -/
  userStdinFd : Bool
  /-- Whether the read end of the pipe from child fd 4 is open. -/
  ctlFd : Bool
  userStdinReq : Bool
  replySeq : Nat
  shellAlive : Bool
  lastActivity : Int
  deriving DecidableEq, Repr

/-- A client's session as its frames name it. -/
def BpshSession.client (s : BpshSession) : Eid × Nat := (s.sourceEid, s.sessionId)

/-- `replySeq + 1` in a `uvast`. -/
def nextSeq (seq : Nat) : Nat := (seq + 1) % 2 ^ 64

/-- The session `bpshSessionOpen` makes for the shell `pid`. -/
def bpshSessionOpen (pid : Nat) (sourceEid : Eid) (sessionId : Nat) (wantStdin : Bool)
    (now : Int) : BpshSession where
  sourceEid := sourceEid
  sessionId := sessionId
  shellPid := pid
  userStdinFd := wantStdin
  ctlFd := true
  userStdinReq := wantStdin
  replySeq := 0
  shellAlive := true
  lastActivity := now

/-- A send whose sequence number argument is `s->replySeq++`: it takes the number whether or
    not the frame is sent. -/
def sendNumbered (c : BpshdCfg) (log : List Effect) (s : BpshSession) (frame : Nat → BpshFrame) :
    List Effect × BpshSession :=
  (bpshSendFrame c log s.sourceEid (frame s.replySeq) (some (s.shellPid, nextSeq s.replySeq)),
    { s with replySeq := nextSeq s.replySeq })

/-- `cwd` is what `readlink` gives of the shell's working directory. -/
def bpshSessionSendCwd (c : BpshdCfg) (log : List Effect) (s : BpshSession)
    (cwd : Option Octets) : List Effect × BpshSession :=
  match cwd with
  | none => (log, s)
  | some path => sendNumbered c log s fun seq => bytesFrame .cwd s.sessionId seq path

def sendExit (c : BpshdCfg) (log : List Effect) (s : BpshSession) (code : Int)
    (cause : BpshExitCause) : List Effect × BpshSession :=
  sendNumbered c log s fun seq => exitFrame s.sessionId seq code cause

def bpshdOutputLimit : Nat := 16 * 1024 * 1024
def bpshdReadChunk : Nat := 16 * 1024
def bpshdMaxPayload : Nat := 16 * 1024

/-- `sendStream`: the last component says that all octets were sent. -/
def sendStream (c : BpshdCfg) (log : List Effect) (s : BpshSession) (type : BpshMsgType)
    (buf : Octets) : List Effect × BpshSession × Bool :=
  if buf = [] then (log, s, true)
  else
    let frame := bytesFrame type s.sessionId s.replySeq (buf.take bpshdMaxPayload)
    if c.sendOk log.length then
      -- The number is advanced only after the frame is sent.
      let log' := bpshSendFrame c log s.sourceEid frame (some (s.shellPid, nextSeq s.replySeq))
      sendStream c log' { s with replySeq := nextSeq s.replySeq } type (buf.drop bpshdMaxPayload)
    else (bpshSendFrame c log s.sourceEid frame (some (s.shellPid, s.replySeq)), s, false)
  termination_by buf.length
  decreasing_by
    have h_pos : 0 < buf.length := List.length_pos_iff.mpr ‹¬buf = []›
    rw [List.length_drop, bpshdMaxPayload]
    omega

/-- `drainStream`, with the octets each `read` finds. -/
def drainStream (c : BpshdCfg) (log : List Effect) (s : BpshSession) (type : BpshMsgType) :
    List Octets → List Effect × BpshSession
  | [] => (log, s)
  | chunk :: chunks =>
    match sendStream c log s type chunk with
    | (log, s, true) => drainStream c log s type chunks
    | (log, s, false) => (log, s)

def bpshSessionExpired (c : BpshdCfg) (s : BpshSession) (now : Int) : Bool :=
  decide (0 < c.idleTimeoutSecs ∧ now - s.lastActivity ≥ c.idleTimeoutSecs)

def killSession (log : List Effect) (s : BpshSession) : List Effect × BpshSession :=
  (log ++ [.killed s.shellPid], { s with shellAlive := false })

/-! ## Running a command -/

/-- The text that has the shell run the command line and report its exit code on fd 4. -/
def postscript (userStdinReq : Bool) (cmdline : Octets) : Octets :=
  text (if userStdinReq then "( " else "\x7b ") ++ cmdline ++
    text (if userStdinReq then " ) <&3 4>&-" else " ; \x7d <&3 4>&-") ++
    text "\n__bpsh_rc=$?\necho \"$__bpsh_rc\" >&4\n(exit $__bpsh_rc)\n"

/-- How the start of a command comes out: the clocks, the allocation of the postscript and the
    write to the shell. -/
structure StartEnv where
  now : Int
  startMs : Int
  postMem : Bool
  writeOk : Bool

/-- `bpshSessionRun` up to its loop; the last component says whether the loop is entered. -/
def bpshSessionStart (c : BpshdCfg) (log : List Effect) (s : BpshSession) (cmdline : Octets)
    (env : StartEnv) : List Effect × BpshSession × Bool :=
  let s := { s with lastActivity := env.now }
  let post := postscript s.userStdinReq cmdline
  if env.postMem = false then
    let (log, s) := sendExit c log s (-1) .killed
    (log, s, false)
  else if post.length = 0 ∨ post.length ≥ cmdline.length + 256 ∨ env.writeOk = false then
    let (log, s) := sendExit c log { s with shellAlive := false } (-1) .killed
    (log, s, false)
  else (log ++ [.command s.shellPid s.client post], s, true)

/-- The locals of `bpshSessionRun` that live across rounds of its loop.  `polling`: it is in
    `pollIncoming`; `received`: its REQ came from the endpoint and was not deferred. -/
structure Running where
  pid : Nat
  cmdStartMs : Int
  totalOut : Nat
  outEof : Bool
  errEof : Bool
  ctlBuf : Octets
  polling : Bool
  received : Bool
  deriving DecidableEq, Repr

/-- What a descriptor gives: nothing now (not ready, or EAGAIN), octets, or its end. -/
inductive Read
  | nothing
  | data (octets : Octets)
  | closed

inductive Select
  | interrupted
  | failed
  | ready
  deriving DecidableEq

/-- What one round of the loop finds. -/
structure Round where
  select : Select
  nowMs : Int
  out : Read
  err : Read
  ctl : Read

/-- Stream what stdout or stderr gave; with the number of octets read, and whether it ended. -/
def readStream (c : BpshdCfg) (log : List Effect) (s : BpshSession) (type : BpshMsgType)
    (rd : Read) : List Effect × BpshSession × Nat × Bool :=
  match rd with
  | .nothing => (log, s, 0, false)
  | .data octets =>
    let (log, s, _) := sendStream c log s type octets
    (log, s, octets.length, false)
  | .closed => (log, s, 0, true)

/-- `strtol(buf, NULL, 10)`. -/
def strtol10 (buf : Octets) : Int :=
  let body := buf.dropWhile fun b => b == 32 || (9 ≤ b && b ≤ 13)
  let digits := (match body with
    | 45 :: rest => rest
    | 43 :: rest => rest
    | _ => body).takeWhile fun b => 48 ≤ b && b ≤ 57
  let n : Int := digits.foldl (fun n b => 10 * n + (b.toNat - 48)) 0
  if body.head? = some 45 then max (-n) (-2 ^ 63) else min n (2 ^ 63 - 1)

/-- Conversion of a `long` to `int`. -/
def toCInt (n : Int) : Int := (n + 2 ^ 31) % 2 ^ 32 - 2 ^ 31

/-- Take what fd 4 gave; the exit code when its line is there. -/
def readCtl (s : BpshSession) (r : Running) (rd : Read) : BpshSession × Running × Option Int :=
  if s.ctlFd = false then (s, r, none)
  else
    match rd with
    | .nothing => (s, r, none)
    | .closed => ({ s with ctlFd := false }, r, none)
    | .data octets =>
      -- A full buffer leaves no room, and then `read` gives 0, like at the end.
      let taken := octets.take (31 - r.ctlBuf.length)
      if taken = [] then ({ s with ctlFd := false }, r, none)
      else
        let r := { r with ctlBuf := r.ctlBuf ++ taken }
        (s, r, if 10 ∈ r.ctlBuf then some (toCInt (strtol10 r.ctlBuf)) else none)

/-- One round of the loop up to `pollIncoming`; the exit code and cause when it ends. -/
def loopRound (c : BpshdCfg) (log : List Effect) (s : BpshSession) (r : Running) (rd : Round) :
    List Effect × BpshSession × Running × Option (Int × BpshExitCause) :=
  match rd.select with
  | .interrupted => (log, s, r, none)
  | .failed => (log, { s with shellAlive := false }, r, some (0, .killed))
  | .ready =>
    if 0 < c.cmdTimeoutMs ∧ rd.nowMs - r.cmdStartMs ≥ c.cmdTimeoutMs then
      let (log, s) := killSession log s
      (log, s, r, some (0, .timeout))
    else
      let (log, s, outLen, outEnd) := readStream c log s .stdout rd.out
      let (log, s, errLen, errEnd) := readStream c log s .stderr rd.err
      let r := { r with
        totalOut := r.totalOut + outLen + errLen
        outEof := r.outEof || outEnd
        errEof := r.errEof || errEnd }
      if r.totalOut > bpshdOutputLimit then
        let (log, s) := killSession log s
        (log, s, r, some (0, .outputLimit))
      else
        match readCtl s r rd.ctl with
        | (s, r, some code) => (log, s, r, some (code, .normal))
        | (s, r, none) =>
          if r.outEof && r.errEof then
            (log, { s with shellAlive := false }, r, some (0, .killed))
          else (log, s, { r with polling := true }, none)

/-- What the end of a command finds: the octets left in the pipes, the shell's working directory. -/
structure EndEnv where
  outs : List Octets
  errs : List Octets
  cwd : Option Octets

/-- `bpshSessionRun` after its loop. -/
def bpshSessionEnd (c : BpshdCfg) (log : List Effect) (s : BpshSession) (exitCode : Int)
    (cause : BpshExitCause) (env : EndEnv) : List Effect × BpshSession :=
  let (log, s) := drainStream c log s .stdout env.outs
  let (log, s) := drainStream c log s .stderr env.errs
  let (log, s) := if s.shellAlive then bpshSessionSendCwd c log s env.cwd else (log, s)
  sendExit c log s exitCode cause

/-- What `pollIncoming` does with a frame; the last component says whether it is handed to
    the defer callback. -/
def pollFrame (log : List Effect) (s : BpshSession) (frame : BpshFrame) (srcEid : Eid)
    (writeOk : Bool) : List Effect × BpshSession × Bool :=
  if frame.sessionId = s.sessionId ∧ srcEid = s.sourceEid ∧ frame.msgType = .stdinChunk then
    if s.userStdinFd = true ∧ frame.payload ≠ [] then
      if writeOk then (log ++ [.stdin s.shellPid s.client frame.payload], s, false)
      else (log ++ [.stdinClosed s.shellPid s.client], { s with userStdinFd := false }, false)
    else (log, s, false)
  else if frame.sessionId = s.sessionId ∧ srcEid = s.sourceEid ∧ frame.msgType = .stdinEof then
    if s.userStdinFd then
      (log ++ [.stdinClosed s.shellPid s.client], { s with userStdinFd := false }, false)
    else (log, s, false)
  else if frame.msgType = .init ∧ srcEid = s.sourceEid then
    -- The client is taken to be reconnecting.
    (log ++ [.killed s.shellPid], s, true)
  else (log, s, true)

end IonContrib.Bpsh
