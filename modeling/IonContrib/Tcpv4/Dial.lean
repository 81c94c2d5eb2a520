/-
  IonContrib.Tcpv4.Dial

  How an engine comes by its sessions: `tcpv4OpenSession` of the senders and the
  accept thread, the record of each node's attempts (`findDial`, `backOff`,
  `tcpv4DialOutcome`) and the countdown of `clockTick`.

  Both ways check under the engine lock and insert under it again later, with a
  connect or a call to watch the socket between.  So a sender that has passed its
  check is `opening` until it has a session or has failed, and the accept thread
  may be `admitting`.  What a session itself does is a step of `Engine`; only the
  receiver thread's report of its outcome comes in between.
-/
import IonContrib.Tcpv4.Engine

namespace IonContrib.Tcpv4

/-- Seconds. -/
def tcpv4MaxReconnect : Nat := 60
def tcpv4BusySlack : Nat := 8
def tcpv4MaxPeerNegotiating : Nat := 4

/-! ## The record of a node's attempts -/

/-- `addr` is the address of the entry.  None is freed before the engine stops. -/
structure Tcpv4Dial where
  addr : Nat
  nodeId : Octets
  interval : Nat
  secUntilRetry : Nat
  deriving DecidableEq, Repr

def Tcpv4Dial.start (addr : Nat) (nodeId : Octets) : Tcpv4Dial :=
  ⟨addr, nodeIdField nodeId, 1, 0⟩

/-- `mem` is whether there is memory for a new entry. -/
def findDial (dials : List Tcpv4Dial) (nodeId : Octets) (mem : Bool) :
    Option (Tcpv4Dial × List Tcpv4Dial) :=
  match dials.find? fun dial => tcpv4NodeIdMatches dial.nodeId nodeId with
  | some dial => some (dial, dials)
  | none =>
    if !mem then none
    else
      let dial := Tcpv4Dial.start dials.length nodeId
      some (dial, dial :: dials)

/-- `rand` is what `rand_r` draws. -/
def backOff (rand : Nat) (dial : Tcpv4Dial) : Tcpv4Dial :=
  let half := dial.interval / 2
  let interval := dial.interval * 2
  { dial with
    secUntilRetry := dial.interval - half + rand % (half + 1)
    interval := if interval > tcpv4MaxReconnect then tcpv4MaxReconnect else interval }

def Tcpv4Dial.reset (dial : Tcpv4Dial) : Tcpv4Dial :=
  { dial with interval := 1, secUntilRetry := 0 }

def Tcpv4Dial.tick (dial : Tcpv4Dial) : Tcpv4Dial :=
  if dial.secUntilRetry > 0 then { dial with secUntilRetry := dial.secUntilRetry - 1 } else dial

/-- A write through a pointer to an entry. -/
def updateDial (dials : List Tcpv4Dial) (addr : Nat) (f : Tcpv4Dial → Tcpv4Dial) :
    List Tcpv4Dial :=
  dials.map fun dial => if dial.addr = addr then f dial else dial

/-- A session that this node dialled. -/
def Tcpv4Conn.dialled (c : Tcpv4Conn) : Bool := c.activeRole && tcpv4NodeIdIsSet c.dialNodeId

def tcpv4DialOutcome (dials : List Tcpv4Dial) (c : Tcpv4Conn) (established mem : Bool)
    (rand : Nat) : List Tcpv4Dial :=
  if !c.dialled then dials
  else
    match findDial dials c.dialNodeId mem with
    | none => dials
    | some (dial, dials) =>
      updateDial dials dial.addr (if established then Tcpv4Dial.reset else backOff rand)

/-! ## The engine -/

/-- A sender in `tcpv4OpenSession`, past its check: the lock is free until it has connected. -/
structure Opening where
  thread : Nat
  nodeId : Octets
  dial : Nat
  deriving DecidableEq, Repr

/-- The accept thread, between its check and `startConn`. -/
structure Admitting where
  peerHost : Octets
  busy : Bool
  deriving DecidableEq, Repr

structure Tcpv4Engine extends Engine where
  connCount : Nat
  maxSessions : Nat
  /-- `peerAddr` of each session, by its serial number; empty for those dialled. -/
  peerAddr : Nat → Octets
  dials : List Tcpv4Dial
  /-- The sessions whose receiver thread has called `tcpv4DialOutcome`. -/
  reported : List Nat
  opening : List Opening
  admitting : Option Admitting

inductive ConnectResult where
  /-- `parseTcpv4DuctName` fails. -/
  | badDuctName
  | unreachable (rand : Nat)
  /-- The socket cannot be watched, or there is no memory for the session. -/
  | notStarted
  | started
  deriving DecidableEq, Repr

inductive DialAct where
  /-- The first hold of the lock in `tcpv4OpenSession`. -/
  | openSession (thread : Nat) (nodeId : Octets) (mem : Bool)
  /-- The rest of it. -/
  | connect (thread : Nat) (result : ConnectResult)
  /-- A connection from `peerHost` (empty if unknown), up to the accept thread's check. -/
  | accept (peerHost : Octets)
  /-- The rest of that turn of the accept thread. -/
  | admission (started : Bool)
  | conn (serial : Nat) (a : ConnAct)
  /-- The call of `tcpv4DialOutcome`. -/
  | outcome (serial : Nat) (mem : Bool) (rand : Nat)
  | find (nodeId : Octets)
  | tick
  | reap

namespace Tcpv4Engine

def init (maxSessions : Nat) : Tcpv4Engine where
  toEngine := .init
  connCount := 0
  maxSessions := maxSessions
  peerAddr := fun _ => []
  dials := []
  reported := []
  opening := []
  admitting := none

/-- The session keeps `tcpv4OpenSession` from opening another to the node. -/
def keeps (nodeId : Octets) (c : Tcpv4Conn) : Bool :=
  !(c.failed || c.receiverDone || c.state = .ending) &&
    (tcpv4NodeIdMatches c.dialNodeId nodeId || tcpv4NodeIdMatches c.routeNodeId nodeId)

def openSession (e : Tcpv4Engine) (thread : Nat) (nodeId : Octets) (mem : Bool) : Tcpv4Engine :=
  if e.conns.any (keeps nodeId) then e
  else
    match findDial e.dials nodeId mem with
    | none => e
    | some (dial, dials) =>
      let e := { e with dials := dials }
      if dial.secUntilRetry > 0 then e
      else if e.connCount ≥ e.maxSessions then e
      else { e with opening := ⟨thread, nodeId, dial.addr⟩ :: e.opening }

/-- `startConn`, as far as the insertion; `nodeId` is the node that is dialled, if it is. -/
def insertConn (e : Tcpv4Engine) (nodeId : Option Octets) (peerAddr : Octets) (busy : Bool) :
    Tcpv4Engine :=
  { e with
    toEngine := e.toEngine.startConn nodeId busy
    connCount := e.connCount + 1
    peerAddr := fun serial => if serial = e.next then peerAddr else e.peerAddr serial }

def connect (e : Tcpv4Engine) (o : Opening) (result : ConnectResult) : Tcpv4Engine :=
  let e := { e with opening := e.opening.filter fun o' => o'.thread ≠ o.thread }
  match result with
  | .badDuctName | .notStarted => e
  | .unreachable rand => { e with dials := updateDial e.dials o.dial (backOff rand) }
  | .started => e.insertConn (some o.nodeId) [] false

/-- A session part way through negotiation, with that peer. -/
def isNegotiating (e : Tcpv4Engine) (peerHost : Octets) (c : Tcpv4Conn) : Bool :=
  !(c.failed || c.receiverDone || c.state ≠ .negotiating) && e.peerAddr c.serial = peerHost

def countNegotiating (e : Tcpv4Engine) (peerHost : Octets) : Nat :=
  if peerHost = [] then 0 else e.conns.countP (e.isNegotiating peerHost)

def accept (e : Tcpv4Engine) (peerHost : Octets) : Tcpv4Engine :=
  if peerHost ≠ [] ∧ e.countNegotiating peerHost ≥ tcpv4MaxPeerNegotiating then e
  else if e.connCount ≥ e.maxSessions + tcpv4BusySlack then e
  else { e with admitting := some ⟨peerHost, e.connCount ≥ e.maxSessions⟩ }

/-- A step of the sessions alone. -/
def onEngine (cfg : ClaConfig) (e : Tcpv4Engine) (a : EngineAct) : Option Tcpv4Engine :=
  (e.toEngine.step cfg a).map fun e' => { e with toEngine := e' }

/-- What the receiver thread does once it is past `tcpv4Establish`. -/
def isAfterOutcome : ConnAct → Bool
  | .leave | .failOwn => true
  | _ => false

def step (cfg : ClaConfig) (e : Tcpv4Engine) : DialAct → Option Tcpv4Engine
  | .openSession thread nodeId mem =>
    if e.opening.any fun o => o.thread = thread then none
    else some (e.openSession thread nodeId mem)
  | .connect thread result =>
    match e.opening.find? fun o => o.thread = thread with
    | none => none
    | some o => some (e.connect o result)
  | .accept peerHost => if e.admitting.isSome then none else some (e.accept peerHost)
  | .admission started =>
    match e.admitting with
    | none => none
    | some a =>
      let e := { e with admitting := none }
      some (if started then e.insertConn none a.peerHost a.busy else e)
  | .conn serial a =>
    if isAfterOutcome a && !e.reported.contains serial then none
    else e.onEngine cfg (.conn serial a)
  | .outcome serial mem rand =>
    match e.conns.find? fun c => c.serial = serial with
    | none => none
    | some c =>
      -- `tcpv4Establish` has returned: the session runs, or it has failed.
      if e.reported.contains serial || (c.pc ≠ .running && c.pc ≠ .failing) then none
      else some { e with
        dials := tcpv4DialOutcome e.dials c (c.pc = .running) mem rand
        reported := serial :: e.reported }
  | .find nodeId => e.onEngine cfg (.find nodeId)
  | .tick => some { e with dials := e.dials.map Tcpv4Dial.tick }
  | .reap => (e.onEngine cfg .reap).map fun e' =>
    { e' with connCount := e.connCount - (e.conns.length - e'.conns.length) }

/-! ## What a step can do -/

def withoutThread (e : Tcpv4Engine) (thread : Nat) : Tcpv4Engine :=
  { e with opening := e.opening.filter fun o => o.thread ≠ thread }

inductive Stepped (cfg : ClaConfig) (e : Tcpv4Engine) : DialAct → Tcpv4Engine → Prop
  /-- A session is there already, or there is no memory. -/
  | notOpened {thread : Nat} {nodeId : Octets} {mem : Bool} :
      Stepped cfg e (.openSession thread nodeId mem) e
  | tooSoon {thread : Nat} {nodeId : Octets} {mem : Bool} {dial : Tcpv4Dial}
      {dials : List Tcpv4Dial} (h_find : findDial e.dials nodeId mem = some (dial, dials)) :
      Stepped cfg e (.openSession thread nodeId mem) { e with dials := dials }
  | opens {thread : Nat} {nodeId : Octets} {mem : Bool} {dial : Tcpv4Dial}
      {dials : List Tcpv4Dial} (h_thread : ∀ o ∈ e.opening, o.thread ≠ thread)
      (h_none : ∀ c ∈ e.conns, keeps nodeId c = false)
      (h_find : findDial e.dials nodeId mem = some (dial, dials))
      (h_wait : dial.secUntilRetry = 0) (h_room : e.connCount < e.maxSessions) :
      Stepped cfg e (.openSession thread nodeId mem)
        { e with dials := dials, opening := ⟨thread, nodeId, dial.addr⟩ :: e.opening }
  | notConnected {thread : Nat} {result : ConnectResult} {o : Opening} (h_o : o ∈ e.opening)
      (h_thread : o.thread = thread) (h_result : result = .badDuctName ∨ result = .notStarted) :
      Stepped cfg e (.connect thread result) (e.withoutThread thread)
  | unreachable {thread rand : Nat} {o : Opening} (h_o : o ∈ e.opening)
      (h_thread : o.thread = thread) : Stepped cfg e (.connect thread (.unreachable rand))
        { e.withoutThread thread with dials := updateDial e.dials o.dial (backOff rand) }
  | started {thread : Nat} {o : Opening} (h_o : o ∈ e.opening) (h_thread : o.thread = thread) :
      Stepped cfg e (.connect thread .started)
        ((e.withoutThread thread).insertConn (some o.nodeId) [] false)
  | refused {peerHost : Octets} : Stepped cfg e (.accept peerHost) e
  | admits {peerHost : Octets} (h_idle : e.admitting = none)
      (h_peer : peerHost ≠ [] → e.countNegotiating peerHost < tcpv4MaxPeerNegotiating)
      (h_room : e.connCount < e.maxSessions + tcpv4BusySlack) : Stepped cfg e (.accept peerHost)
        { e with admitting := some ⟨peerHost, e.connCount ≥ e.maxSessions⟩ }
  | dropped (h_some : e.admitting ≠ none) :
      Stepped cfg e (.admission false) { e with admitting := none }
  | admitted {a : Admitting} (h_some : e.admitting = some a) : Stepped cfg e (.admission true)
      ({ e with admitting := none }.insertConn none a.peerHost a.busy)
  | conn {serial : Nat} {a : ConnAct} {e' : Engine}
      (h_report : isAfterOutcome a = true → serial ∈ e.reported)
      (h_step : e.toEngine.step cfg (.conn serial a) = some e') :
      Stepped cfg e (.conn serial a) { e with toEngine := e' }
  | outcome {serial rand : Nat} {mem : Bool} {c : Tcpv4Conn}
      (h_find : e.conns.find? (fun c => c.serial = serial) = some c)
      (h_report : serial ∉ e.reported) (h_pc : c.pc = .running ∨ c.pc = .failing) :
      Stepped cfg e (.outcome serial mem rand)
        { e with
          dials := tcpv4DialOutcome e.dials c (c.pc = .running) mem rand
          reported := serial :: e.reported }
  | find {nodeId : Octets} {e' : Engine} (h_step : e.toEngine.step cfg (.find nodeId) = some e') :
      Stepped cfg e (.find nodeId) { e with toEngine := e' }
  | tick : Stepped cfg e .tick { e with dials := e.dials.map Tcpv4Dial.tick }
  | reap {e' : Engine} (h_step : e.toEngine.step cfg .reap = some e') : Stepped cfg e .reap
      { e with toEngine := e', connCount := e.connCount - (e.conns.length - e'.conns.length) }

theorem stepped_openSession {cfg : ClaConfig} {e : Tcpv4Engine} {thread : Nat}
    (h_thread : ∀ o ∈ e.opening, o.thread ≠ thread) (nodeId : Octets) (mem : Bool) :
    Stepped cfg e (.openSession thread nodeId mem) (e.openSession thread nodeId mem) := by
  unfold openSession
  by_cases h_keeps : e.conns.any (keeps nodeId) = true
  · rw [if_pos h_keeps]
    exact .notOpened
  · rw [if_neg h_keeps]
    have h_none : ∀ c ∈ e.conns, keeps nodeId c = false := by simpa using h_keeps
    cases h_find : findDial e.dials nodeId mem with
    | none => exact .notOpened
    | some p =>
      obtain ⟨dial, dials⟩ := p
      dsimp only
      by_cases h_wait : dial.secUntilRetry > 0
      · rw [if_pos h_wait]
        exact .tooSoon h_find
      · rw [if_neg h_wait]
        by_cases h_full : e.connCount ≥ e.maxSessions
        · rw [if_pos h_full]
          exact .tooSoon h_find
        · rw [if_neg h_full]
          exact .opens h_thread h_none h_find (by omega) (by omega)

theorem stepped_connect {cfg : ClaConfig} {e : Tcpv4Engine} {o : Opening} (h_o : o ∈ e.opening)
    (result : ConnectResult) : Stepped cfg e (.connect o.thread result) (e.connect o result) := by
  cases result with
  | badDuctName => exact .notConnected h_o rfl (.inl rfl)
  | unreachable rand => exact .unreachable h_o rfl
  | notStarted => exact .notConnected h_o rfl (.inr rfl)
  | started => exact .started h_o rfl

theorem stepped_accept {cfg : ClaConfig} {e : Tcpv4Engine} (h_idle : e.admitting = none)
    (peerHost : Octets) : Stepped cfg e (.accept peerHost) (e.accept peerHost) := by
  unfold accept
  by_cases h_many : peerHost ≠ [] ∧ e.countNegotiating peerHost ≥ tcpv4MaxPeerNegotiating
  · rw [if_pos h_many]
    exact .refused
  · rw [if_neg h_many]
    by_cases h_full : e.connCount ≥ e.maxSessions + tcpv4BusySlack
    · rw [if_pos h_full]
      exact .refused
    · rw [if_neg h_full]
      refine .admits h_idle (fun h_peer => ?_) (by omega)
      have h_few := (not_and.mp h_many) h_peer
      omega

theorem stepped {cfg : ClaConfig} {e e' : Tcpv4Engine} {a : DialAct}
    (h : step cfg e a = some e') : Stepped cfg e a e' := by
  cases a with
  | openSession thread nodeId mem =>
    simp only [step] at h
    split at h
    · cases h
    · rename_i h_thread
      obtain rfl := Option.some.inj h
      exact stepped_openSession (by simpa using h_thread) nodeId mem
  | connect thread result =>
    simp only [step] at h
    split at h
    · cases h
    · rename_i o h_find
      obtain rfl := Option.some.inj h
      obtain rfl : o.thread = thread := by simpa using List.find?_some h_find
      exact stepped_connect (List.mem_of_find?_eq_some h_find) result
  | accept peerHost =>
    simp only [step] at h
    split at h
    · cases h
    · rename_i h_idle
      obtain rfl := Option.some.inj h
      exact stepped_accept (by simpa using h_idle) peerHost
  | admission ok =>
    simp only [step] at h
    split at h
    · cases h
    · rename_i a h_some
      obtain rfl := Option.some.inj h
      cases ok with
      | true => exact .admitted h_some
      | false => exact .dropped (by rw [h_some]; simp)
  | conn serial a =>
    simp only [step] at h
    split at h
    · cases h
    · rename_i h_report
      obtain ⟨e₁, h_step, rfl⟩ := Option.map_eq_some_iff.mp h
      refine .conn (fun h_after => ?_) h_step
      simpa [h_after] using h_report
  | outcome serial mem rand =>
    simp only [step] at h
    split at h
    · cases h
    · rename_i c h_find
      split at h
      · cases h
      · rename_i h_guard
        obtain rfl := Option.some.inj h
        simp only [Bool.or_eq_true, not_or, Bool.and_eq_true, decide_eq_true_eq] at h_guard
        refine .outcome h_find (by simpa using h_guard.1) ?_
        by_cases h_running : c.pc = .running
        · exact .inl h_running
        · exact .inr (Classical.not_not.mp fun h_failing => h_guard.2 ⟨h_running, h_failing⟩)
  | find nodeId =>
    obtain ⟨e₁, h_step, rfl⟩ := Option.map_eq_some_iff.mp h
    exact .find h_step
  | tick =>
    obtain rfl := Option.some.inj h
    exact .tick
  | reap =>
    simp only [step] at h
    obtain ⟨e₁, h_on, rfl⟩ := Option.map_eq_some_iff.mp h
    obtain ⟨e₂, h_step, rfl⟩ := Option.map_eq_some_iff.mp h_on
    exact .reap h_step

end Tcpv4Engine

end IonContrib.Tcpv4
