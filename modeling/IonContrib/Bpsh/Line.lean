/-
  IonContrib.Bpsh.Line

  The line editor of the `bpsh` client (`readLineRaw`, `loadLine` in `bpsh.c`),
  with the memory that it works on: a buffer with the line and its NUL, and a
  second one for the line that is put aside while the history is shown.

  A step is what lies between two reads from the terminal or two looks at the
  flag that a signal clears.  A copy beyond the end of a buffer is a state of its
  own (`stray`).
-/
import IonContrib.Lib.Block
import IonContrib.Lib.Lts

namespace IonContrib.Bpsh.Line

open Block

def bpshLineBufsize : Nat := 8 * 1024

/-- The commands that were entered before, oldest first. -/
structure History where
  lines : List Octets
  /-- They are C strings. -/
  noNul : ∀ line ∈ lines, 0 ∉ line

/-- What `read (STDIN_FILENO, &c, 1)` comes to. -/
inductive ReadResult
  | octet (c : UInt8)
  | closed
  | failed
  deriving DecidableEq, Repr

inductive Pc
  | starting
  /-- Not on a terminal: about to call `fgets`. -/
  | fallback
  /-- At the head of the loop. -/
  | looking
  | reading
  /-- Reads `seq0`. -/
  | escape
  /-- Reads `seq1`. -/
  | bracket
  /-- Reads on to the `~`. -/
  | extended (seq1 : UInt8)
  | leaving (ret : Int)
  | returned (ret : Int)
  /-- There was an access beyond a buffer. -/
  | stray
  deriving DecidableEq, Repr

structure LineState where
  pc : Pc
  running : Bool
  /-- In raw mode. -/
  raw : Bool
  buf : Octets
  len : Nat
  pos : Nat
  hpos : Nat
  saved : Octets
  deriving DecidableEq, Repr

/-! ## Keys -/

/-- `buf` and `len` of the line with `src` in it. -/
def loadLine (size : Nat) (buf src : Octets) : Option (Octets × Nat) := do
  let n := if src.length > size - 1 then size - 1 else src.length
  let buf ← store buf 0 (src.take n)
  let buf ← store buf n [0]
  return (buf, n)

def backspace (d : LineState) : Option LineState :=
  if d.pos > 0 then do
    let buf ← move d.buf (d.pos - 1) d.pos (d.len - d.pos)
    let buf ← store buf (d.len - 1) [0]
    return { d with buf := buf, pos := d.pos - 1, len := d.len - 1 }
  else some d

def delete (d : LineState) : Option LineState :=
  if d.pos < d.len then do
    let buf ← move d.buf d.pos (d.pos + 1) (d.len - d.pos - 1)
    let buf ← store buf (d.len - 1) [0]
    return { d with buf := buf, len := d.len - 1 }
  else some d

def insert (size : Nat) (d : LineState) (c : UInt8) : Option LineState :=
  if d.len + 1 < size then do
    let buf ← move d.buf (d.pos + 1) d.pos (d.len - d.pos)
    let buf ← store buf d.pos [c]
    let buf ← store buf (d.len + 1) [0]
    return { d with buf := buf, pos := d.pos + 1, len := d.len + 1 }
  else some d

def rightArrow (d : LineState) : LineState :=
  if d.pos < d.len then { d with pos := d.pos + 1 } else d

def leftArrow (d : LineState) : LineState :=
  if d.pos > 0 then { d with pos := d.pos - 1 } else d

def home (d : LineState) : LineState := { d with pos := 0 }

def toEnd (d : LineState) : LineState := { d with pos := d.len }

/-- The line is put aside. -/
def stash (d : LineState) : Option LineState := do
  let line ← load d.buf 0 d.len
  let saved ← store d.saved 0 line
  let saved ← store saved d.len [0]
  return { d with saved := saved }

def upArrow (size : Nat) (history : List Octets) (d : LineState) : Option LineState :=
  if d.hpos > 0 then do
    let d ← if d.hpos = history.length then stash d else some d
    let src ← history[d.hpos - 1]?
    let (buf, len) ← loadLine size d.buf src
    return { d with hpos := d.hpos - 1, buf := buf, len := len, pos := len }
  else some d

/-- The line below the one that is shown. -/
def below (history : List Octets) (d : LineState) : Option Octets :=
  if d.hpos + 1 = history.length then cText d.saved else history[d.hpos + 1]?

def downArrow (size : Nat) (history : List Octets) (d : LineState) : Option LineState :=
  if d.hpos < history.length then do
    let src ← below history d
    let (buf, len) ← loadLine size d.buf src
    return { d with hpos := d.hpos + 1, buf := buf, len := len, pos := len }
  else some d

/-! ## Escape sequences -/

/-- `ESC [ n ... ~`. -/
def extendedKey (d : LineState) (seq1 : UInt8) : Option LineState :=
  if seq1 = 0x33 then delete d
  else if seq1 = 0x31 ∨ seq1 = 0x37 then some (home d)
  else if seq1 = 0x34 ∨ seq1 = 0x38 then some (toEnd d)
  else some d

/-- `ESC [ A` and so on. -/
def arrowKey (size : Nat) (history : List Octets) (d : LineState) (seq1 : UInt8) :
    Option LineState :=
  if seq1 = 0x43 then some (rightArrow d)
  else if seq1 = 0x44 then some (leftArrow d)
  else if seq1 = 0x48 then some (home d)
  else if seq1 = 0x46 then some (toEnd d)
  else if seq1 = 0x41 then upArrow size history d
  else if seq1 = 0x42 then downArrow size history d
  else some d

/-! ## The loop -/

/-- The end of a round of the loop. -/
def again (d : LineState) : Option LineState → LineState
  | none => { d with pc := .stray }
  | some d' => { d' with pc := .looking }

def readKey (size : Nat) (d : LineState) : ReadResult → LineState
  | .failed => { d with pc := .leaving (-1) }
  | .closed => { d with pc := .leaving (if d.len = 0 then -1 else 0) }
  | .octet c =>
    if c = 0x0d ∨ c = 0x0a then { d with pc := .leaving 0 }
    else if c = 4 then { d with pc := if d.len = 0 then .leaving (-1) else .looking }
    else if c = 127 ∨ c = 8 then again d (backspace d)
    else if c = 27 then { d with pc := .escape }
    else if c < 32 then { d with pc := .looking }
    else again d (insert size d c)

def readSeq0 (d : LineState) : ReadResult → LineState
  | .octet c => { d with pc := if c = 0x5b ∨ c = 0x4f then .bracket else .looking }
  | _ => { d with pc := .looking }

def readSeq1 (size : Nat) (history : List Octets) (d : LineState) : ReadResult → LineState
  | .octet c =>
    if 0x30 ≤ c ∧ c ≤ 0x39 then { d with pc := .extended c }
    else again d (arrowKey size history d c)
  | _ => { d with pc := .looking }

def readTilde (d : LineState) (seq1 : UInt8) : ReadResult → LineState
  | .octet c => if c = 0x7e then again d (extendedKey d seq1) else d
  | _ => again d (extendedKey d seq1)

/-- `fgets`: a line with its newline, as much of it as there is room for; nothing at the end of
    the input. -/
def fgets (size : Nat) (input : Octets) : Option Octets :=
  if input = [] ∧ size ≠ 1 then none
  else
    some ((input.takeWhile (· ≠ 0x0a) ++ (input.dropWhile (· ≠ 0x0a)).take 1).take (size - 1))

/-- Without a terminal. -/
def readFallback (size : Nat) (d : LineState) (input : Octets) : LineState :=
  match fgets size input with
  | none => { d with pc := .returned (-1) }
  | some line =>
    match store d.buf 0 (line ++ [0]) with
    | none => { d with pc := .stray }
    | some buf => { d with buf := buf, pc := .returned 0 }

inductive Event
  /-- `tcgetattr`. -/
  | begin (ok : Bool)
  | fgets (input : Octets)
  /-- `BPSH_RUNNING ()` at the head of the loop. -/
  | look
  | read (r : ReadResult)
  | leave
  /-- `SIGINT`. -/
  | interrupt
  deriving DecidableEq, Repr

def begin (d : LineState) (ok : Bool) : LineState :=
  if ok = false then { d with pc := .fallback }
  else
    match store d.buf 0 [0] with
    | none => { d with pc := .stray }
    | some buf => { d with buf := buf, raw := true, pc := .looking }

/-- What is left to do when the loop is over. -/
def finish (d : LineState) (ret : Int) : LineState :=
  match store d.buf d.len [0] with
  | none => { d with pc := .stray }
  | some buf => { d with buf := buf, pc := .returned (if d.running then ret else -1) }

/-- `readLineRaw` up to its next read. -/
def step (size : Nat) (history : History) (d : LineState) : Event → Option LineState
  | .begin ok => if d.pc = .starting then some (begin d ok) else none
  | .fgets input => if d.pc = .fallback then some (readFallback size d input) else none
  | .look =>
    if d.pc = .looking then
      some { d with pc := if d.running then .reading else .leaving 0 }
    else none
  | .read r =>
    match d.pc with
    | .reading => some (readKey size d r)
    | .escape => some (readSeq0 d r)
    | .bracket => some (readSeq1 size history.lines d r)
    | .extended seq1 => some (readTilde d seq1 r)
    | _ => none
  | .leave =>
    match d.pc with
    | .leaving ret => some (finish d ret)
    | _ => none
  | .interrupt =>
    match d.pc with
    | .returned _ => none
    | .stray => none
    | _ => some { d with running := false }

/-- `readLineRaw` when it is called with a buffer; there is nothing yet in the stash. -/
def start (history : History) (buf saved : Octets) : LineState where
  pc := .starting
  running := true
  raw := false
  buf := buf
  len := 0
  pos := 0
  hpos := history.lines.length
  saved := saved

/-! ## The reference editor -/

inductive Key
  | char (c : UInt8)
  | backspace
  | delete
  | left
  | right
  | home
  | toEnd
  | older
  | newer
  | enter
  /-- Ctrl+D. -/
  | endOfText
  /-- The input has ended, or reading it has failed. -/
  | closed
  | failed
  deriving DecidableEq, Repr

/-- Where the input stands within a key. -/
inductive Mode
  | plain
  | escape
  | bracket
  | extended (seq1 : UInt8)
  deriving DecidableEq, Repr

/-- The key that an octet outside of an escape sequence is. -/
def plainKey (c : UInt8) : Option Key :=
  if c = 0x0d ∨ c = 0x0a then some .enter
  else if c = 4 then some .endOfText
  else if c = 127 ∨ c = 8 then some .backspace
  else if c < 32 then none
  else some (.char c)

/-- The key of a sequence `ESC [ c`. -/
def csiKey (c : UInt8) : Option Key :=
  [(0x41, Key.older), (0x42, .newer), (0x43, .right), (0x44, .left), (0x46, .toEnd),
    (0x48, .home)].lookup c

/-- The key of a sequence `ESC [ c ... ~`. -/
def tildeKey (c : UInt8) : Option Key :=
  [(0x31, Key.home), (0x33, .delete), (0x34, .toEnd), (0x37, .home), (0x38, .toEnd)].lookup c

def scan : Mode → ReadResult → Mode × Option Key
  | .plain, .octet c => if c = 27 then (.escape, none) else (.plain, plainKey c)
  | .plain, .closed => (.plain, some .closed)
  | .plain, .failed => (.plain, some .failed)
  | .escape, .octet c => (if c = 0x5b ∨ c = 0x4f then .bracket else .plain, none)
  | .bracket, .octet c =>
    if 0x30 ≤ c ∧ c ≤ 0x39 then (.extended c, none) else (.plain, csiKey c)
  | .extended seq1, .octet c =>
    if c = 0x7e then (.plain, tildeKey seq1) else (.extended seq1, none)
  -- A sequence that is cut short counts for what there is of it.
  | .extended seq1, _ => (.plain, tildeKey seq1)
  | _, _ => (.plain, none)

/-- The keys in what was read. -/
def decode (rs : List ReadResult) : Mode × List Key :=
  rs.foldl (fun p r => ((scan p.1 r).1, p.2 ++ (scan p.1 r).2.toList)) (.plain, [])

/-- A line with a cursor, within a history with a cursor. -/
structure Editor where
  before : Octets
  after : Octets
  /-- The lines above, nearest first. -/
  older : List Octets
  /-- The line that is shown and those below, when it is one of the history. -/
  newer : List Octets
  /-- The new line, while a line of the history is shown. -/
  draft : Octets
  deriving DecidableEq, Repr

namespace Editor

def line (e : Editor) : Octets := e.before ++ e.after

/-- An empty line. -/
def fresh (history : List Octets) : Editor := ⟨[], [], history.reverse, [], []⟩

/-- Another line is shown, as much of it as there is room for. -/
def showLine (limit : Nat) (e : Editor) (line : Octets) : Editor :=
  { e with before := line.take limit, after := [] }

def edit (limit : Nat) (e : Editor) : Key → Editor
  | .char c => if e.line.length < limit then { e with before := e.before ++ [c] } else e
  | .backspace => { e with before := e.before.dropLast }
  | .delete => { e with after := e.after.tail }
  | .left =>
    match e.before.getLast? with
    | none => e
    | some c => { e with before := e.before.dropLast, after := c :: e.after }
  | .right =>
    match e.after with
    | [] => e
    | c :: after => { e with before := e.before ++ [c], after := after }
  | .home => { e with before := [], after := e.line }
  | .toEnd => { e with before := e.line, after := [] }
  | .older =>
    match e.older with
    | [] => e
    | line :: older =>
      let draft := if e.newer = [] then e.line else e.draft
      showLine limit { e with older := older, newer := line :: e.newer, draft := draft } line
  | .newer =>
    match e.newer with
    | [] => e
    | line :: newer =>
      showLine limit { e with older := line :: e.older, newer := newer } (newer.headD e.draft)
  | _ => e

/-- Whether a key ends the line, and if the line is taken then. -/
def verdict (e : Editor) : Key → Option Bool
  | .enter => some true
  | .endOfText => if e.line = [] then some false else none
  | .closed => some (e.line ≠ [])
  | .failed => some false
  | _ => none

def press (limit : Nat) (p : Editor × Option Bool) (k : Key) : Editor × Option Bool :=
  match p.2 with
  | some _ => p
  | none =>
    match p.1.verdict k with
    | some taken => (p.1, some taken)
    | none => (p.1.edit limit k, none)

/-- The editor after these keys. -/
def drive (limit : Nat) (history : List Octets) (ks : List Key) : Editor × Option Bool :=
  ks.foldl (press limit) (fresh history, none)

end Editor

end IonContrib.Bpsh.Line
