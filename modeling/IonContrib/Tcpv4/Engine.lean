/-
  IonContrib.Tcpv4.Engine

  The sessions of an engine: `startConn`, the receiver threads on their way
  through `tcpv4Establish` and past it, `reapConns`, and the choice of a session
  for a bundle (`findConn`).

  A step is what a thread does between two points where another thread can come
  in; the fields here are written under the engine lock.  Senders, the accept
  thread, the clock thread and any number of receiver threads take steps in any
  order.  What a session does with its transfers is the subject of `Session`.
-/
import IonContrib.Lib.Lts
import IonContrib.Tcpv4.Negotiate

namespace IonContrib.Tcpv4

/-! ## One session -/

/-- A session as `startConn` makes it; `nodeId` is the node that is dialled, if it is. -/
def Tcpv4Conn.start (serial : Nat) (nodeId : Option Octets) (busy : Bool) : Tcpv4Conn where
  serial := serial
  activeRole := nodeId.isSome
  state := .negotiating
  failed := false
  receiverDone := false
  busy := busy
  tls := none
  peerNodeId := []
  dialNodeId := nodeIdField (nodeId.getD [])
  routeNodeId := nodeIdField (nodeId.getD [])
  peerAuthenticated := false
  nodeIdAuthenticated := false
  keepalive := 0
  segmentMtu := 64 * 1024
  transferMtu := 256 * 1024
  txSenders := 0
  pc := .beginning

/-- What can happen to a session.  `io` is whether the writes of the step succeed and its
    reads do not end early; `s` are the octets that have arrived. -/
inductive ConnAct where
  | beginThread (ok : Bool)
  | contact (s : Octets) (io : Bool)
  | handshake (tls : Option TlsConn)
  | sessInit (s : Octets) (io : Bool)
  | establish
  /-- `startTermination`, `handleSessTerm` or the idle test of the clock. -/
  | terminate
  /-- The message loop returns, or was never entered. -/
  | leave
  /-- `tcpv4ConnFail` by a thread other than the receiver thread. -/
  | fail
  | failOwn
  | finish
  | release

namespace Tcpv4Conn

def failing (c : Tcpv4Conn) : Tcpv4Conn := { c with pc := .failing }

def exchangeContact (cfg : ClaConfig) (c : Tcpv4Conn) (s : Octets) (io : Bool) :
    Option Tcpv4Conn :=
  if !io then some c.failing
  else
    match recvContact s with
    | .wait => none
    | .fail => some c.failing
    | .got peer _ =>
      match applyContact cfg c peer with
      | .error _ => some c.failing
      | .ok enableTls => some { c with pc := if enableTls then .handshake else .sessInit }

/-- The handshake and the checks behind it. -/
def handshake (cfg : ClaConfig) (c : Tcpv4Conn) (tls : Option TlsConn) : Tcpv4Conn :=
  match tls with
  | none => c.failing
  | some t =>
    let c := { c with tls := some t, peerAuthenticated := t.tlsPeerAuthenticated }
    if cfg.noVerify then { c with pc := .sessInit }
    else
      match checkCertProfile cfg t with
      | .error _ => c.failing
      | .ok _ => { c with pc := .sessInit }

def exchangeSessInit (cfg : ClaConfig) (c : Tcpv4Conn) (s : Octets) (io : Bool) :
    Option Tcpv4Conn :=
  if c.busy || !io then some c.failing
  else
    match recvSessInit s with
    | .wait => none
    | .fail => some c.failing
    | .got peer _ =>
      match applySessInit cfg c peer with
      | .error _ => some c.failing
      | .ok c => some { c with pc := .establishing }

def step (cfg : ClaConfig) (c : Tcpv4Conn) (a : ConnAct) : Option Tcpv4Conn :=
  match a, c.pc with
  | .beginThread ok, .beginning =>
    some (if ok then { c with pc := .contact }
      else { c with failed := true, receiverDone := true, pc := .done })
  | .contact s io, .contact => c.exchangeContact cfg s io
  | .handshake tls, .handshake => some (c.handshake cfg tls)
  | .sessInit s io, .sessInit => c.exchangeSessInit cfg s io
  | .establish, .establishing => some { c with state := .established, pc := .running }
  | .leave, .running => some c.failing
  | .failOwn, .failing => some { c with failed := true, pc := .finishing }
  | .finish, .finishing => some { c with receiverDone := true, pc := .done }
  | .terminate, _ => if c.state = .negotiating then none else some { c with state := .ending }
  | .fail, _ => some { c with failed := true }
  | .release, _ => if c.txSenders = 0 then none else some { c with txSenders := c.txSenders - 1 }
  | _, _ => none

end Tcpv4Conn

/-! ## The engine -/

/-- `conns` is the list of the source: the newest session comes first. -/
structure Engine where
  conns : List Tcpv4Conn
  next : Nat

def Engine.init : Engine := ⟨[], 0⟩

/-- One turn of the loop of `findConn`: the best session so far, and `*exists`. -/
def findConnTurn (nodeId : Octets) (found : Option Tcpv4Conn × Bool) (c : Tcpv4Conn) :
    Option Tcpv4Conn × Bool :=
  if c.failed || c.receiverDone then found
  else
    match c.state with
    | .ending => found
    | .negotiating =>
      if tcpv4NodeIdMatches c.dialNodeId nodeId then (found.1, true) else found
    | .established =>
      if !tcpv4NodeIdMatches c.routeNodeId nodeId then found
      else
        match found.1 with
        | none => (some c, true)
        | some best =>
          -- A later match in the list is an older session.
          if best.nodeIdAuthenticated && !c.nodeIdAuthenticated then (some best, true)
          else (some c, true)

def findConn (conns : List Tcpv4Conn) (nodeId : Octets) : Option Tcpv4Conn × Bool :=
  if !tcpv4NodeIdIsSet nodeId then (none, false)
  else conns.foldl (findConnTurn nodeId) (none, false)

inductive EngineAct where
  /-- A sender gets to the `startConn` of `tcpv4OpenSession`. -/
  | dial (nodeId : Octets)
  | accept (busy : Bool)
  | conn (serial : Nat) (a : ConnAct)
  /-- A sender looks for a session to a node, and holds what it finds. -/
  | find (nodeId : Octets)
  | reap

namespace Engine

def startConn (e : Engine) (nodeId : Option Octets) (busy : Bool) : Engine :=
  ⟨Tcpv4Conn.start e.next nodeId busy :: e.conns, e.next + 1⟩

/-- A step of one session. -/
def onConn (e : Engine) (serial : Nat) (f : Tcpv4Conn → Option Tcpv4Conn) : Option Engine :=
  match e.conns.find? fun c => c.serial = serial with
  | none => none
  | some c =>
    (f c).map fun c' => { e with conns := e.conns.map fun d => if d.serial = serial then c' else d }

def step (cfg : ClaConfig) (e : Engine) : EngineAct → Option Engine
  | .dial nodeId => some (e.startConn (some nodeId) false)
  | .accept busy => some (e.startConn none busy)
  | .conn serial a => e.onConn serial fun c => c.step cfg a
  | .find nodeId =>
    match (findConn e.conns nodeId).1 with
    | none => some e
    | some best => e.onConn best.serial fun c => some { c with txSenders := c.txSenders + 1 }
  | .reap => some { e with
      conns := e.conns.filter fun c => !(c.receiverDone && c.txSenders = 0) }

end Engine

end IonContrib.Tcpv4
