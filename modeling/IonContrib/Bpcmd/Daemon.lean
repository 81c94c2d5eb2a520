/-
  IonContrib.Bpcmd.Daemon

  `bpcmdd`: the rule table, the command line of a payload, and the loop that
  takes deliveries.

  `fnmatch` is a parameter; `regcomp` and `regexec` are those of the library
  on extended regular expressions.  What other code answers in one round of
  the loop (allocations, the payload reader, `fork` and the rest of
  `runCommand`) is the `Luck` of the round.  A C string is the list of the
  octets before its NUL.
-/
import IonContrib.Lib.Ere
import IonContrib.Lib.Words

namespace IonContrib.Bpcmd

open Posix (Ere regcomp regexec octetsOf)

/-! ## Rules -/

inductive MatchMode where
  | matchExact
  | matchGlob
  | matchRegex
  deriving DecidableEq, Repr

/-- What `addRule` gives to `regcomp`: `^(%s)$`. -/
def anchored (pattern : Octets) : Octets := 0x5e :: 0x28 :: pattern ++ [0x29, 0x24]

/-- A rule, compiled if and only if it is a regular expression. -/
structure Rule where
  mode : MatchMode
  pattern : Octets
  re : Option Ere
  compiled : re = if mode = .matchRegex then regcomp (anchored pattern) else none
  usable : mode = .matchRegex → re.isSome = true

/-- `addRule`; `mem` is whether its allocations succeed.  A pattern that does not compile
    fails it. -/
def addRule (rules : List Rule) (mode : MatchMode) (pattern : Octets) (mem : Bool) :
    Option (List Rule) :=
  if !mem then none
  else if h_mode : mode = .matchRegex then
    match h_re : regcomp (anchored pattern) with
    | none => none
    | some re => some (rules ++ [⟨mode, pattern, some re, by simp [h_mode, h_re], fun _ => rfl⟩])
  else
    some (rules ++ [⟨mode, pattern, none, by simp [h_mode], fun h => absurd h h_mode⟩])

structure BpcmddCfg where
  rules : List Rule
  /-- The patterns of `-a`, when it was given. -/
  allowedEids : Option (List Octets)
  fnmatch : Octets → Octets → Bool
  ownEid : Octets
  reply : Bool

/-- One turn of the loop of `commandAllowed`. -/
def ruleAllows (fnmatch : Octets → Octets → Bool) (cmdline : Octets) (r : Rule) : Bool :=
  match r.mode with
  | .matchExact => r.pattern = cmdline
  | .matchGlob => fnmatch r.pattern cmdline
  | .matchRegex => r.re.any fun e => regexec e cmdline

def commandAllowed (cfg : BpcmddCfg) (cmdline : Octets) : Bool :=
  cfg.rules.any (ruleAllows cfg.fnmatch cmdline)

def sourceAllowed (cfg : BpcmddCfg) (srcEid : Option Octets) : Bool :=
  match cfg.allowedEids, srcEid with
  | none, _ => true
  | some _, none => false
  | some eids, some src => eids.any fun pat => cfg.fnmatch pat src

/-! ## The command line -/

/-- `ws` of `tokenize`. -/
def isWs (c : UInt8) : Bool :=
  c = 0x20 || c = 0x09 || c = 0x0a || c = 0x0d || c = 0x0c || c = 0x0b

/-- The payload as a C string: what follows a NUL is not looked at. -/
def cString (payload : Octets) : Octets := payload.takeWhile fun c => c ≠ 0

/-- `strtok`: the next token, and where the search goes on. -/
def strtok (s : Octets) : Option (Octets × Octets) :=
  let s := s.dropWhile isWs
  if s = [] then none
  else some (s.takeWhile fun c => !isWs c, (s.dropWhile fun c => !isWs c).tail)

/-- The loop of `tokenize`.  The array doubles when there is no room left for the token and
    the NULL; `mem n` is whether there is memory for `n` entries.  The first argument bounds
    the tokens there can be. -/
def tokenizeFrom (mem : Nat → Bool) : Nat → Octets → Nat → List Octets → Option (List Octets)
  | 0, _, _, argv => some argv
  | fuel + 1, line, cap, argv =>
    match strtok line with
    | none => some argv
    | some (tok, line) =>
      if argv.length + 1 ≥ cap then
        if mem (2 * cap) then tokenizeFrom mem fuel line (2 * cap) (argv ++ [tok]) else none
      else tokenizeFrom mem fuel line cap (argv ++ [tok])

def tokenize (mem : Nat → Bool) (line : Octets) : Option (List Octets) :=
  if mem 8 then tokenizeFrom mem (line.length + 1) line 8 [] else none

def joinArgv (argv : List Octets) : Octets := joinWords 0x20 argv

/-! ## The loop -/

inductive BpIndResult where
  | bpPayloadPresent
  | bpReceptionTimedOut
  | bpReceptionInterrupted
  | bpEndpointStopped
  deriving DecidableEq, Repr

structure BpDelivery where
  result : BpIndResult
  bundleSourceEid : Option Octets
  /-- The payload, if there is an ADU. -/
  adu : Option Octets

/-- How the calls of one round come out. -/
structure Luck where
  readPayload : Bool
  cmdlineMem : Bool
  argvMem : Nat → Bool
  candidateMem : Bool
  /-- `pipe` and `fork` succeed. -/
  forked : Bool
  /-- The child has dropped its privileges. -/
  dropped : Bool
  /-- What the command wrote, unless there was no memory for it. -/
  replyBuf : Option Octets
  sent : Bool

/-- What a round does that can be seen from outside. -/
inductive Effect where
  | memo (note : Octets) (detail : Octets)
  /-- A child calls `execvp` with `BP_SOURCE_EID` and `BP_DEST_EID` in its environment. -/
  | exec (cmdArgv : List Octets) (srcEid : Option Octets) (ownEid : Octets)
  | reply (destEid : Octets) (data : Octets)
  deriving DecidableEq, Repr

/-- `replyable`: whom a reply goes to. -/
def replyTo (cfg : BpcmddCfg) (srcEid : Option Octets) : Option Octets :=
  match srcEid with
  | none => none
  | some src => if cfg.reply && src ≠ octetsOf "dtn:none" then some src else none

def sendReply (l : Luck) (dest : Option Octets) (data : Octets) : List Effect :=
  match dest with
  | none => []
  | some eid => if l.sent then [.reply eid data] else []

/-- `runCommand`, and what it returns in `replyBuf`. -/
def runCommand (cfg : BpcmddCfg) (l : Luck) (cmdArgv : List Octets) (srcEid : Option Octets) :
    List Effect × Option Octets :=
  if l.forked then
    (if l.dropped then [.exec cmdArgv srcEid cfg.ownEid] else [], l.replyBuf)
  else ([], none)

/-- What `main` does with a payload from a source that is served. -/
def handlePayload (cfg : BpcmddCfg) (l : Luck) (srcEid : Option Octets) (payload : Octets) :
    List Effect :=
  match tokenize l.argvMem (cString payload) with
  | none => []
  | some [] => []
  | some cmdArgv =>
    if !l.candidateMem then []
    else
      let candidate := joinArgv cmdArgv
      if !commandAllowed cfg candidate then
        .memo (octetsOf "[?] bpcmdd denied command") candidate ::
          sendReply l (replyTo cfg srcEid) (octetsOf "bpcmdd: command not permitted\n")
      else
        let (effects, replyBuf) := runCommand cfg l cmdArgv srcEid
        effects ++
          match replyBuf with
          | none => []
          | some data => if data = [] then [] else sendReply l (replyTo cfg srcEid) data

/-- One round, and whether the loop goes on. -/
def handleDelivery (cfg : BpcmddCfg) (dlv : BpDelivery) (l : Luck) : List Effect × Bool :=
  match dlv.result, dlv.adu with
  | .bpReceptionInterrupted, _ => ([], true)
  | _, none => ([], true)
  | .bpEndpointStopped, _ => ([], false)
  | .bpReceptionTimedOut, _ => ([], true)
  | .bpPayloadPresent, some payload =>
    if !sourceAllowed cfg dlv.bundleSourceEid then
      ([.memo (octetsOf "[?] bpcmdd denied source")
        (dlv.bundleSourceEid.getD (octetsOf "(anonymous)"))], true)
    else if !l.readPayload || !l.cmdlineMem then ([], true)
    else (handlePayload cfg l dlv.bundleSourceEid payload, true)

/-- The loop of `main`; `none` is a round in which `bp_receive` fails, or one that starts
    after an interrupt. -/
def mainLoop (cfg : BpcmddCfg) : List (Option (BpDelivery × Luck)) → List Effect
  | [] => []
  | none :: _ => []
  | some (dlv, l) :: rounds =>
    let (effects, goesOn) := handleDelivery cfg dlv l
    effects ++ if goesOn then mainLoop cfg rounds else []

end IonContrib.Bpcmd
