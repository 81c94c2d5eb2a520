/-
  IonContrib.Quic.Engine

  The connections of a QUICCL engine and those who work on them: any number of
  senders on their way through `quicEngineSendTo`, and the I/O thread, which
  accepts, brings up, reads, fails and reaps (`quicsession.c`).

  A step is what a thread does between two points where another thread can come
  in.  The I/O thread is the only one that reads signalling, but senders look at
  a connection between two messages of it, so a step takes one message.

  What a step can do to a connection is said once (`QuicSess.step_keeps`,
  `Engine.step_conn`); the claims of a sender are read off `claimReadyConn_some`
  and `claimReadyConn_none`.
-/
import Mathlib.Logic.Function.Basic
import IonContrib.Quic.Signal

namespace IonContrib.Quic

/-! ## One connection -/

/-- The fields of a `QuicConn` that more than one thread looks at.  `parse` is the `off` of
    `sessParseSig` while it runs.  The last three are not in the source: the neighbour
    `quicEngineConnect` was called for, the node numbers the peer has announced, and whether a
    SESS_TERM of the peer was handled. -/
structure QuicSess where
  sig : SigConn
  handshakeDone : Bool
  dataStreamsOpen : Bool
  failed : Bool
  sendBusy : Bool
  parse : Option Nat
  dialled : Option Nat
  announced : List Nat
  termReceived : Bool
  deriving DecidableEq

/-- What `perConnBringup` gets from outside: whether stream 0 and the data streams can be opened,
    and whether there is memory. -/
structure BringupEnv where
  sigStream : Bool
  dataStreams : Bool
  mem : Bool

/-- What the I/O thread does on a connection. -/
inductive SessAct where
  | handshakeDone
  | bringup (env : BringupEnv)
  | recvSig (data : Octets) (mem : Bool)
  /-- A round of `sessParseSig`. -/
  | parseSig (mem : Bool)
  | fail
  /-- What the I/O thread does on its way out. -/
  | stop (mem : Bool)

namespace QuicSess

/-- A connection that is dialled for a neighbour, or accepted. -/
def start (dialled : Option Nat) : QuicSess where
  sig := SigConn.init dialled.isSome
  handshakeDone := false
  dataStreamsOpen := false
  failed := false
  sendBusy := dialled.isSome
  parse := none
  dialled := dialled
  announced := []
  termReceived := false

/-- The first half of `perConnBringup`: the active peer opens stream 0 and sends its SESS_INIT. -/
def bringupSig (cfg : SigCfg) (env : BringupEnv) (c : QuicSess) : QuicSess × Bool :=
  if c.sig.clientRole ∧ c.handshakeDone ∧ !c.sig.sessInitSent then
    if !env.sigStream then ({ c with failed := true }, false)
    else
      match c.sig.sendSessInit cfg env.mem with
      | (sig, true) => ({ c with sig := sig }, true)
      | (sig, false) => ({ c with sig := sig, failed := true }, false)
  else (c, true)

def bringupData (unreliable : Bool) (env : BringupEnv) (c : QuicSess) : QuicSess :=
  if !unreliable ∧ c.handshakeDone ∧ c.sig.sessInitSent ∧ !c.dataStreamsOpen then
    if env.dataStreams then { c with dataStreamsOpen := true } else { c with failed := true }
  else c

def perConnBringup (cfg : SigCfg) (unreliable : Bool) (env : BringupEnv) (c : QuicSess) :
    QuicSess :=
  match c.bringupSig cfg env with
  | (c, true) => c.bringupData unreliable env
  | (c, false) => c

/-- The octets at which the next round looks. -/
def front (c : QuicSess) : Octets := c.sig.sigRx.drop (c.parse.getD 0)

/-- The node number that the message at the front announces. -/
def frontNode (c : QuicSess) : Option Nat :=
  match quicMsgDecodeSessInit c.front with
  | .ok peer _ => ipnNode peer.nodeId
  | _ => none

def frontTerm (c : QuicSess) : Bool :=
  match quicMsgDecodeSessTerm c.front with
  | .ok _ _ => true
  | _ => false

/-- A round of `sessParseSig`. -/
def parseRound (cfg : SigCfg) (mem : Bool) (c : QuicSess) : QuicSess :=
  let seen := { c with announced := c.frontNode.toList ++ c.announced }
  match sigRound cfg mem c.sig c.front with
  | .stop => { c with sig := { c.sig with sigRx := c.front }, parse := none }
  | .bad sig => { seen with sig := sig, failed := true, parse := none }
  | .next sig n => { seen with
      sig := sig
      parse := some (c.parse.getD 0 + n)
      termReceived := c.termReceived || c.frontTerm }

/-- The data streams are open where they are needed. -/
def streamsOpen (unreliable : Bool) (c : QuicSess) : Bool := unreliable || c.dataStreamsOpen

/-- What `quicEngineConnect` waits for. -/
def ready (unreliable : Bool) (c : QuicSess) : Bool :=
  c.sig.sessState = .established && !c.failed && c.streamsOpen unreliable

/-- The I/O thread feeds a connection that has failed, too, until it has reaped it. -/
def step (cfg : SigCfg) (unreliable : Bool) (c : QuicSess) : SessAct → Option QuicSess
  | .handshakeDone => some { c with handshakeDone := true }
  | .bringup env => if c.failed then none else some (c.perConnBringup cfg unreliable env)
  | .recvSig data mem =>
    if c.parse.isSome then none
    else
      match sigStore mem c.sig data with
      | none => some { c with failed := true }
      | some sig => some { c with sig := sig, parse := some 0 }
  | .parseSig mem => if c.parse.isNone then none else some (c.parseRound cfg mem)
  | .fail => some { c with failed := true }
  | .stop mem =>
    if !c.failed ∧ c.sig.sessState = .established ∧ !c.sig.termSent then
      some { c with sig := (c.sig.sendSessTerm mem qmsgTermUnknown false).1 }
    else none

end QuicSess

/-! ## The engine -/

/-- Where a thread is in `quicEngineSendTo`. -/
inductive SenderPc where
  | looking
  /-- In `quicEngineConnect`, before the connection is on the list. -/
  | dialling
  /-- In `quicEngineConnect`, waiting for the session. -/
  | waiting (id : Nat)
  /-- Sending on a connection it has claimed. -/
  | holding (id : Nat)
  | done
  deriving DecidableEq

structure Sender where
  nodeNbr : Nat
  dialed : Bool
  waited : Nat
  pc : SenderPc
  deriving DecidableEq

inductive IoPc where
  | running
  | stopping
  | stopped
  deriving DecidableEq

/-- `conns` is the list of the source: the newest connection comes first. -/
structure Engine where
  cfg : SigCfg
  unreliable : Bool
  conn : Nat → QuicSess
  conns : List Nat
  next : Nat
  senders : List Sender
  io : IoPc

inductive EngineAct where
  /-- A thread calls `quicEngineSendTo`. -/
  | sendTo (nodeNbr : Nat)
  /-- It runs `claimReadyConn`. -/
  | look (i : Nat)
  | dialFails (i : Nat)
  /-- The connection it dials is put on the list. -/
  | publish (i : Nat)
  | waitEnds (i : Nat) (timeout : Bool)
  | sent (i : Nat)
  | accept
  | conn (id : Nat) (a : SessAct)
  | reap (id : Nat)
  /-- The I/O thread leaves its loop. -/
  | leave
  | stopped

namespace Engine

def init (cfg : SigCfg) (unreliable : Bool) : Engine where
  cfg := cfg
  unreliable := unreliable
  conn _ := QuicSess.start none
  conns := []
  next := 0
  senders := []
  io := .running

/-- The loop of `claimReadyConn`, with `ready` and `*exists` so far. -/
def claimFrom (e : Engine) (nodeNbr : Nat) : List Nat → Option Nat → Bool → Option Nat × Bool
  | [], ready, found => (ready, found)
  | id :: conns, ready, found =>
    let qc := e.conn id
    if qc.failed ∨ qc.sig.peerNode ≠ nodeNbr then e.claimFrom nodeNbr conns ready found
    else if qc.sig.sessState ≠ .established ∨ qc.sendBusy ∨ !qc.streamsOpen e.unreliable then
      e.claimFrom nodeNbr conns ready true
    else if qc.sig.clientRole then (some id, true)
    else e.claimFrom nodeNbr conns (ready.or (some id)) true

/-- The connection that is claimed, and `*exists`. -/
def claimReadyConn (e : Engine) (nodeNbr : Nat) : Option Nat × Bool :=
  e.claimFrom nodeNbr e.conns none false

def setBusy (e : Engine) (id : Nat) (busy : Bool) : Engine :=
  { e with conn := Function.update e.conn id { e.conn id with sendBusy := busy } }

def setSender (e : Engine) (i : Nat) (s : Sender) : Engine :=
  { e with senders := e.senders.set i s }

/-- A new connection at the head of the list. -/
def addConn (e : Engine) (dialled : Option Nat) : Engine :=
  { e with
    conn := Function.update e.conn e.next (QuicSess.start dialled)
    conns := e.next :: e.conns
    next := e.next + 1 }

/-- A round of the loop of `quicEngineSendTo`. -/
def look (e : Engine) (i : Nat) (s : Sender) : Engine :=
  match e.claimReadyConn s.nodeNbr with
  | (some id, _) => (e.setBusy id true).setSender i { s with pc := .holding id }
  | (none, true) =>
    e.setSender i
      (if s.waited ≥ 50 then { s with pc := .done } else { s with waited := s.waited + 1 })
  | (none, false) => e.setSender i { s with pc := if s.dialed then .done else .dialling }

/-- `quicEngineConnect` gives up its pin. -/
def waitEnds (e : Engine) (i : Nat) (s : Sender) (id : Nat) : Engine :=
  (e.setBusy id false).setSender i
    (if (e.conn id).ready e.unreliable then { s with dialed := true, pc := .looking }
    else { s with pc := .done })

/-- What a sender does. -/
def senderStep (e : Engine) (i : Nat) (s : Sender) : EngineAct → Option Engine
  | .look _ => if s.pc = .looking then some (e.look i s) else none
  | .dialFails _ => if s.pc = .dialling then some (e.setSender i { s with pc := .done }) else none
  | .publish _ =>
    if s.pc = .dialling then
      some ((e.addConn (some s.nodeNbr)).setSender i { s with pc := .waiting e.next })
    else none
  | .waitEnds _ timeout =>
    match s.pc with
    | .waiting id =>
      if (e.conn id).failed ∨ (e.conn id).ready e.unreliable ∨ timeout then
        some (e.waitEnds i s id)
      else none
    | _ => none
  | .sent _ =>
    match s.pc with
    | .holding id => some ((e.setBusy id false).setSender i { s with pc := .done })
    | _ => none
  | _ => none

/-- What the I/O thread does on a connection, before and after it has left its loop. -/
def ioMay (e : Engine) : SessAct → Bool
  | .stop _ => e.io = .stopping
  | .fail => e.io ≠ .stopped
  | _ => e.io = .running

def step (e : Engine) (a : EngineAct) : Option Engine :=
  match a with
  | .sendTo nodeNbr =>
    -- `scanPlans` passes over node 0.
    if nodeNbr = 0 then none
    else some { e with senders := e.senders ++ [⟨nodeNbr, false, 0, .looking⟩] }
  | .look i | .dialFails i | .publish i | .waitEnds i _ | .sent i =>
    e.senders[i]?.bind fun s => e.senderStep i s a
  | .accept => if e.io = .running then some (e.addConn none) else none
  | .conn id act =>
    if id ∈ e.conns ∧ e.ioMay act then
      ((e.conn id).step e.cfg e.unreliable act).map fun c =>
        { e with conn := Function.update e.conn id c }
    else none
  | .reap id =>
    if e.io = .running ∧ (e.conn id).failed ∧ !(e.conn id).sendBusy then
      some { e with conns := e.conns.filter (· ≠ id) }
    else none
  | .leave => if e.io = .running then some { e with io := .stopping } else none
  | .stopped =>
    if e.io = .stopping then
      some { e with
        io := .stopped
        conn := fun id => if id ∈ e.conns then { e.conn id with failed := true } else e.conn id }
    else none

end Engine

/-! ## What a step does to a connection -/

namespace QuicSess

/-- What no step changes, and what only grows. -/
structure Keeps (c c' : QuicSess) : Prop where
  clientRole : c'.sig.clientRole = c.sig.clientRole
  dialled : c'.dialled = c.dialled
  sendBusy : c'.sendBusy = c.sendBusy
  failed : c.failed = true → c'.failed = true
  announced : ∀ n ∈ c.announced, n ∈ c'.announced
  termSent : c.sig.termSent = true → c'.sig.termSent = true
  termReceived : c.termReceived = true → c'.termReceived = true

/-- What an act does to the session: nothing, what a SESS_INIT asks for, or what a SESS_TERM does. -/
inductive Moved (cfg : SigCfg) (c c' : QuicSess) : SessAct → Prop
  | rest {act : SessAct} (h_terms : c'.sig.terms = c.sig.terms)
    (h_state : c'.sig.sessState = c.sig.sessState)
    (h_sent : c'.sig.termSent = c.sig.termSent ∨ ∃ mem, act = .stop mem)
    (h_received : c'.termReceived = c.termReceived) : Moved cfg c c' act
  | init {mem : Bool} {peer : QuicSessInit} {n : Nat}
    (h_front : quicMsgDecodeSessInit c.front = .ok peer n)
    (h_terms : c'.sig.terms = c.sig.negotiated cfg peer)
    (h_state : c'.sig.sessState = .established ∨ c'.sig.sessState = c.sig.sessState)
    (h_sent : c'.sig.termSent = c.sig.termSent)
    (h_received : c'.termReceived = c.termReceived)
    (h_announced : ∀ node ∈ ipnNode peer.nodeId, node ∈ c'.announced) :
    Moved cfg c c' (.parseSig mem)
  | term {mem : Bool} (h_terms : c'.sig.terms = c.sig.terms)
    (h_state : c'.sig.sessState = .ending) : Moved cfg c c' (.parseSig mem)

theorem bringupSig_eq (cfg : SigCfg) (env : BringupEnv) (c : QuicSess) :
    ∃ q failed, (c.bringupSig cfg env).1 = { c with sig := c.sig.withQueued q, failed := failed } ∧
      q.termSent = c.sig.termSent ∧ (c.failed = true → failed = true) := by
  have h_same : c.sig.withQueued ⟨c.sig.sessInitSent, c.sig.termSent, c.sig.sigTx,
      c.sig.sigTxCap⟩ = c.sig := rfl
  unfold bringupSig
  split
  · split
    · exact ⟨⟨c.sig.sessInitSent, c.sig.termSent, c.sig.sigTx, c.sig.sigTxCap⟩, true, rfl, rfl,
        fun _ => rfl⟩
    · obtain ⟨q, h_q, h_term⟩ := c.sig.sendSessInit_eq cfg env.mem
      cases h_send : c.sig.sendSessInit cfg env.mem with
      | mk sig done =>
        rw [h_send] at h_q
        obtain rfl : sig = c.sig.withQueued q := h_q
        cases done with
        | true => exact ⟨q, c.failed, rfl, h_term, id⟩
        | false => exact ⟨q, true, rfl, h_term, fun _ => rfl⟩
  · exact ⟨⟨c.sig.sessInitSent, c.sig.termSent, c.sig.sigTx, c.sig.sigTxCap⟩, c.failed, rfl, rfl,
      id⟩

theorem bringupData_eq (unreliable : Bool) (env : BringupEnv) (c : QuicSess) :
    ∃ opened failed, c.bringupData unreliable env =
        { c with dataStreamsOpen := opened, failed := failed } ∧
      (c.failed = true → failed = true) := by
  unfold bringupData
  split
  · split
    · exact ⟨true, c.failed, rfl, id⟩
    · exact ⟨c.dataStreamsOpen, true, rfl, fun _ => rfl⟩
  · exact ⟨c.dataStreamsOpen, c.failed, rfl, id⟩

theorem perConnBringup_eq (cfg : SigCfg) (unreliable : Bool) (env : BringupEnv) (c : QuicSess) :
    ∃ q opened failed, c.perConnBringup cfg unreliable env = { c with
        sig := c.sig.withQueued q, dataStreamsOpen := opened, failed := failed } ∧
      q.termSent = c.sig.termSent ∧ (c.failed = true → failed = true) := by
  obtain ⟨q, failed, h_sig, h_term, h_failed⟩ := bringupSig_eq cfg env c
  unfold perConnBringup
  cases h_cases : c.bringupSig cfg env with
  | mk c₁ done =>
    rw [h_cases] at h_sig
    dsimp only at h_sig
    subst h_sig
    cases done with
    | false => exact ⟨q, c.dataStreamsOpen, failed, rfl, h_term, h_failed⟩
    | true =>
      obtain ⟨opened, failed', h_data, h_failed'⟩ := bringupData_eq unreliable env
        { c with sig := c.sig.withQueued q, failed := failed }
      exact ⟨q, opened, failed', h_data, h_term, fun h => h_failed' (h_failed h)⟩

theorem not_frontTerm {c : QuicSess} (h : c.front.head? ≠ some qmsgSessTerm) :
    c.frontTerm = false := by
  unfold frontTerm
  cases h_dec : quicMsgDecodeSessTerm c.front with
  | need => rfl
  | bad => rfl
  | ok m n => exact absurd (decodeMsg_head stable_sessTermFields h_dec) h

theorem mem_of_frontNode {c : QuicSess} {peer : QuicSessInit} {n : Nat}
    (h : quicMsgDecodeSessInit c.front = .ok peer n) {node : Nat}
    (h_node : node ∈ ipnNode peer.nodeId) : node ∈ c.frontNode.toList ++ c.announced := by
  refine List.mem_append_left _ ?_
  unfold frontNode
  rw [h]
  exact Option.mem_toList.mpr h_node

theorem parseRound_moved (cfg : SigCfg) (mem : Bool) (c : QuicSess) :
    Keeps c (c.parseRound cfg mem) ∧ Moved cfg c (c.parseRound cfg mem) (.parseSig mem) := by
  unfold parseRound
  cases h_round : sigRound cfg mem c.sig c.front with
  | stop => exact ⟨⟨rfl, rfl, rfl, id, fun _ => id, id, id⟩, .rest rfl rfl (.inl rfl) rfl⟩
  | bad sig =>
    dsimp only
    rcases sigRound_bad h_round with ⟨peer, n, q, h_dec, h_sent, rfl⟩ | ⟨q, h_sent, rfl⟩
    · rw [notePeerNode_eq]
      refine ⟨⟨rfl, rfl, rfl, fun _ => rfl, fun _ => List.mem_append_right _, ?_, id⟩, ?_⟩
      · exact fun h => h_sent.trans h
      · refine .init h_dec ?_ (.inr rfl) h_sent rfl fun node => mem_of_frontNode h_dec
        rw [SigConn.negotiated, notePeerNode_eq]
        rfl
    · exact ⟨⟨rfl, rfl, rfl, fun _ => rfl, fun _ => List.mem_append_right _,
        fun h => h_sent.trans h, id⟩, .rest rfl rfl (.inl h_sent) rfl⟩
  | next sig n =>
    dsimp only
    rcases sigRound_next h_round with ⟨peer, q, h_dec, h_sent, rfl⟩ | ⟨q, h_sent, rfl⟩ |
      ⟨h_head, rfl⟩
    · have h_term : c.frontTerm = false := by
        refine not_frontTerm ?_
        rw [decodeMsg_head stable_sessInitFields h_dec]
        decide
      rw [notePeerNode_eq, h_term, Bool.or_false]
      refine ⟨⟨rfl, rfl, rfl, id, fun _ => List.mem_append_right _, fun h => h_sent.trans h, id⟩, ?_⟩
      refine .init h_dec ?_ (.inl rfl) h_sent rfl fun node => mem_of_frontNode h_dec
      rw [SigConn.negotiated, notePeerNode_eq]
      rfl
    · refine ⟨⟨rfl, rfl, rfl, id, fun _ => List.mem_append_right _, h_sent, fun h => ?_⟩,
        .term rfl rfl⟩
      rw [h]
      rfl
    · rw [not_frontTerm h_head, Bool.or_false]
      exact ⟨⟨rfl, rfl, rfl, id, fun _ => List.mem_append_right _, id, id⟩,
        .rest rfl rfl (.inl rfl) rfl⟩

/-- All that a step of the I/O thread does to a connection. -/
theorem step_moved {cfg : SigCfg} {unreliable : Bool} {c c' : QuicSess} {act : SessAct}
    (h : c.step cfg unreliable act = some c') : Keeps c c' ∧ Moved cfg c c' act := by
  cases act with
  | handshakeDone =>
    obtain rfl := Option.some.inj h
    exact ⟨⟨rfl, rfl, rfl, id, fun _ => id, id, id⟩, .rest rfl rfl (.inl rfl) rfl⟩
  | bringup env =>
    obtain ⟨-, h⟩ := Option.ite_none_left_eq_some.mp h
    obtain rfl := Option.some.inj h
    obtain ⟨q, opened, failed, h_eq, h_term, h_failed⟩ := perConnBringup_eq cfg unreliable env c
    rw [h_eq]
    exact ⟨⟨rfl, rfl, rfl, h_failed, fun _ => id, fun h => h_term.trans h, id⟩,
      .rest rfl rfl (.inl h_term) rfl⟩
  | recvSig data mem =>
    obtain ⟨-, h⟩ := Option.ite_none_left_eq_some.mp h
    cases h_store : sigStore mem c.sig data with
    | none =>
      rw [h_store] at h
      obtain rfl := Option.some.inj h
      exact ⟨⟨rfl, rfl, rfl, fun _ => rfl, fun _ => id, id, id⟩, .rest rfl rfl (.inl rfl) rfl⟩
    | some sig =>
      rw [h_store] at h
      obtain rfl := Option.some.inj h
      obtain ⟨rx, cap, rfl⟩ : ∃ rx cap, sig = { c.sig with sigRx := rx, sigRxCap := cap } := by
        unfold sigStore at h_store
        dsimp only at h_store
        split at h_store
        · obtain ⟨-, h_eq⟩ := Option.ite_none_right_eq_some.mp h_store
          exact ⟨_, _, (Option.some.inj h_eq).symm⟩
        · exact ⟨_, _, (Option.some.inj h_store).symm⟩
      exact ⟨⟨rfl, rfl, rfl, id, fun _ => id, id, id⟩, .rest rfl rfl (.inl rfl) rfl⟩
  | parseSig mem =>
    obtain ⟨-, h⟩ := Option.ite_none_left_eq_some.mp h
    obtain rfl := Option.some.inj h
    exact parseRound_moved cfg mem c
  | fail =>
    obtain rfl := Option.some.inj h
    exact ⟨⟨rfl, rfl, rfl, fun _ => rfl, fun _ => id, id, id⟩, .rest rfl rfl (.inl rfl) rfl⟩
  | stop mem =>
    obtain ⟨-, h⟩ := Option.ite_none_right_eq_some.mp h
    obtain rfl := Option.some.inj h
    obtain ⟨q, h_eq, h_sent⟩ := c.sig.sendSessTerm_eq mem qmsgTermUnknown false
    rw [h_eq]
    exact ⟨⟨rfl, rfl, rfl, id, fun _ => id, h_sent, id⟩, .rest rfl rfl (.inr ⟨mem, rfl⟩) rfl⟩

end QuicSess

/-! ## Claims -/

namespace Engine

/-- A connection `claimReadyConn` counts as one to the node. -/
structure Counts (e : Engine) (nodeNbr id : Nat) : Prop where
  live : (e.conn id).failed = false
  peerNode : (e.conn id).sig.peerNode = nodeNbr

/-- One that a sender may take. -/
structure Takes (e : Engine) (nodeNbr id : Nat) : Prop extends e.Counts nodeNbr id where
  established : (e.conn id).sig.sessState = .established
  free : (e.conn id).sendBusy = false

theorem claimFrom_spec (e : Engine) (nodeNbr : Nat) (conns : List Nat) (ready : Option Nat)
    (found : Bool) :
    (∀ id, (e.claimFrom nodeNbr conns ready found).1 = some id →
      ready = some id ∨ id ∈ conns ∧ e.Takes nodeNbr id) ∧
    ((e.claimFrom nodeNbr conns ready found).1 = none →
      ((e.claimFrom nodeNbr conns ready found).2 = true ↔
        found = true ∨ ∃ id ∈ conns, e.Counts nodeNbr id)) := by
  induction conns generalizing ready found with
  | nil => simp [claimFrom]
  | cons id conns ih =>
    unfold claimFrom
    dsimp only
    by_cases h_other : (e.conn id).failed = true ∨ (e.conn id).sig.peerNode ≠ nodeNbr
    · rw [if_pos h_other]
      obtain ⟨h_some, h_none⟩ := ih ready found
      have h_not : ¬ e.Counts nodeNbr id := by
        rintro ⟨h_live, h_peer⟩
        rw [h_live] at h_other
        exact h_other.elim (fun h => by cases h) fun h => h h_peer
      refine ⟨fun id' h => (h_some id' h).imp_right fun h => ⟨List.mem_cons_of_mem _ h.1, h.2⟩, ?_⟩
      intro h
      rw [h_none h]
      simp only [List.mem_cons, exists_eq_or_imp, h_not, false_or]
    · rw [if_neg h_other]
      obtain ⟨h_live, h_peer⟩ := not_or.mp h_other
      have h_counts : e.Counts nodeNbr id := ⟨Bool.not_eq_true _ ▸ h_live, not_not.mp h_peer⟩
      by_cases h_wait : (e.conn id).sig.sessState ≠ .established ∨ (e.conn id).sendBusy = true ∨
          (!(e.conn id).streamsOpen e.unreliable) = true
      · rw [if_pos h_wait]
        obtain ⟨h_some, h_none⟩ := ih ready true
        refine ⟨fun id' h => (h_some id' h).imp_right fun h =>
          ⟨List.mem_cons_of_mem _ h.1, h.2⟩, fun h => ?_⟩
        rw [h_none h]
        exact ⟨fun _ => Or.inr ⟨id, List.mem_cons_self, h_counts⟩, fun _ => Or.inl rfl⟩
      · rw [if_neg h_wait]
        obtain ⟨h_est, h_wait⟩ := not_or.mp h_wait
        obtain ⟨h_free, -⟩ := not_or.mp h_wait
        have h_takes : e.Takes nodeNbr id :=
          ⟨h_counts, not_not.mp h_est, Bool.not_eq_true _ ▸ h_free⟩
        by_cases h_role : (e.conn id).sig.clientRole = true
        · rw [if_pos h_role]
          refine ⟨fun id' h => ?_, fun h => by cases h⟩
          obtain rfl := Option.some.inj h
          exact Or.inr ⟨List.mem_cons_self, h_takes⟩
        · rw [if_neg h_role]
          obtain ⟨h_some, h_none⟩ := ih (ready.or (some id)) true
          refine ⟨fun id' h => ?_, fun h => ?_⟩
          · rcases h_some id' h with h_ready | ⟨h_in, h_takes'⟩
            · cases ready with
              | none =>
                obtain rfl := Option.some.inj h_ready
                exact Or.inr ⟨List.mem_cons_self, h_takes⟩
              | some id'' => exact Or.inl h_ready
            · exact Or.inr ⟨List.mem_cons_of_mem _ h_in, h_takes'⟩
          · rw [h_none h]
            exact ⟨fun _ => Or.inr ⟨id, List.mem_cons_self, h_counts⟩, fun _ => Or.inl rfl⟩

/-- What is claimed is on the list, established, and nobody else's. -/
theorem claimReadyConn_some {e : Engine} {nodeNbr id : Nat}
    (h : (e.claimReadyConn nodeNbr).1 = some id) : id ∈ e.conns ∧ e.Takes nodeNbr id :=
  ((claimFrom_spec e nodeNbr e.conns none false).1 id h).resolve_left (by simp)

/-- Where nothing is claimed, `*exists` says whether a live connection to the node is there. -/
theorem claimReadyConn_none {e : Engine} {nodeNbr : Nat} (h : (e.claimReadyConn nodeNbr).1 = none) :
    (e.claimReadyConn nodeNbr).2 = true ↔ ∃ id ∈ e.conns, e.Counts nodeNbr id := by
  have h_spec := (claimFrom_spec e nodeNbr e.conns none false).2 h
  rw [claimReadyConn, h_spec]
  simp

/-! ## What a step is -/

/-- All the steps there are. -/
inductive Stepped (e : Engine) : EngineAct → Engine → Prop
  | sendTo {nodeNbr : Nat} (h : nodeNbr ≠ 0) : Stepped e (.sendTo nodeNbr)
    { e with senders := e.senders ++ [⟨nodeNbr, false, 0, .looking⟩] }
  | claim {i : Nat} {s : Sender} {id : Nat} (h_s : e.senders[i]? = some s) (h_pc : s.pc = .looking)
    (h : (e.claimReadyConn s.nodeNbr).1 = some id) :
    Stepped e (.look i) ((e.setBusy id true).setSender i { s with pc := .holding id })
  | retry {i : Nat} {s s' : Sender} (h_s : e.senders[i]? = some s) (h_pc : s.pc = .looking)
    (h : e.claimReadyConn s.nodeNbr = (none, true)) (h_node : s'.nodeNbr = s.nodeNbr)
    (h_next : s'.pc = .looking ∨ s'.pc = .done) : Stepped e (.look i) (e.setSender i s')
  | dial {i : Nat} {s : Sender} (h_s : e.senders[i]? = some s) (h_pc : s.pc = .looking)
    (h : e.claimReadyConn s.nodeNbr = (none, false)) (h_dialed : s.dialed = false) :
    Stepped e (.look i) (e.setSender i { s with pc := .dialling })
  | giveUp {i : Nat} {s : Sender} (h_s : e.senders[i]? = some s) (h_pc : s.pc = .looking)
    (h : e.claimReadyConn s.nodeNbr = (none, false)) (h_dialed : s.dialed = true) :
    Stepped e (.look i) (e.setSender i { s with pc := .done })
  | dialFails {i : Nat} {s : Sender} (h_s : e.senders[i]? = some s) (h_pc : s.pc = .dialling) :
    Stepped e (.dialFails i) (e.setSender i { s with pc := .done })
  | publish {i : Nat} {s : Sender} (h_s : e.senders[i]? = some s) (h_pc : s.pc = .dialling) :
    Stepped e (.publish i)
      ((e.addConn (some s.nodeNbr)).setSender i { s with pc := .waiting e.next })
  | waitEnds {i : Nat} {s s' : Sender} {id : Nat} {timeout : Bool}
    (h_s : e.senders[i]? = some s) (h_pc : s.pc = .waiting id) (h_node : s'.nodeNbr = s.nodeNbr)
    (h_next : s'.pc = .looking ∨ s'.pc = .done) :
    Stepped e (.waitEnds i timeout) ((e.setBusy id false).setSender i s')
  | sent {i : Nat} {s : Sender} {id : Nat} (h_s : e.senders[i]? = some s)
    (h_pc : s.pc = .holding id) :
    Stepped e (.sent i) ((e.setBusy id false).setSender i { s with pc := .done })
  | accept (h : e.io = .running) : Stepped e .accept (e.addConn none)
  | conn {id : Nat} {act : SessAct} {c : QuicSess} (h_in : id ∈ e.conns)
    (h_io : e.ioMay act = true) (h : (e.conn id).step e.cfg e.unreliable act = some c) :
    Stepped e (.conn id act) { e with conn := Function.update e.conn id c }
  | reap {id : Nat} (h_failed : (e.conn id).failed = true) (h_free : (e.conn id).sendBusy = false) :
    Stepped e (.reap id) { e with conns := e.conns.filter (· ≠ id) }
  | leave (h : e.io = .running) : Stepped e .leave { e with io := .stopping }
  | stopped (h : e.io = .stopping) : Stepped e .stopped { e with
      io := .stopped
      conn := fun id => if id ∈ e.conns then { e.conn id with failed := true } else e.conn id }

theorem look_stepped {e : Engine} {i : Nat} {s : Sender} (h_s : e.senders[i]? = some s)
    (h_pc : s.pc = .looking) : e.Stepped (.look i) (e.look i s) := by
  unfold look
  cases h_claim : e.claimReadyConn s.nodeNbr with
  | mk ready found =>
    cases ready with
    | some id => exact .claim h_s h_pc (congrArg Prod.fst h_claim)
    | none =>
      cases found with
      | true =>
        dsimp only
        split
        · exact .retry h_s h_pc h_claim rfl (Or.inr rfl)
        · exact .retry h_s h_pc h_claim rfl (Or.inl h_pc)
      | false =>
        dsimp only
        by_cases h_dialed : s.dialed = true
        · rw [if_pos h_dialed]
          exact .giveUp h_s h_pc h_claim h_dialed
        · rw [if_neg h_dialed]
          exact .dial h_s h_pc h_claim (Bool.not_eq_true _ ▸ h_dialed)

theorem senderStep_stepped {e e' : Engine} {i : Nat} {s : Sender} {a : EngineAct}
    (h_s : e.senders[i]? = some s) (h_a : a = .look i ∨ a = .dialFails i ∨ a = .publish i ∨
      (∃ timeout, a = .waitEnds i timeout) ∨ a = .sent i)
    (h : e.senderStep i s a = some e') : e.Stepped a e' := by
  rcases h_a with rfl | rfl | rfl | ⟨timeout, rfl⟩ | rfl
  · obtain ⟨h_pc, h⟩ := Option.ite_none_right_eq_some.mp h
    obtain rfl := Option.some.inj h
    exact look_stepped h_s h_pc
  · obtain ⟨h_pc, h⟩ := Option.ite_none_right_eq_some.mp h
    obtain rfl := Option.some.inj h
    exact .dialFails h_s h_pc
  · obtain ⟨h_pc, h⟩ := Option.ite_none_right_eq_some.mp h
    obtain rfl := Option.some.inj h
    exact .publish h_s h_pc
  · unfold senderStep at h
    dsimp only at h
    split at h
    · next id h_pc =>
      obtain ⟨-, h⟩ := Option.ite_none_right_eq_some.mp h
      obtain rfl := Option.some.inj h
      unfold waitEnds
      split
      · exact .waitEnds h_s h_pc rfl (Or.inl rfl)
      · exact .waitEnds h_s h_pc rfl (Or.inr rfl)
    · cases h
  · unfold senderStep at h
    dsimp only at h
    split at h
    · next id h_pc =>
      obtain rfl := Option.some.inj h
      exact .sent h_s h_pc
    · cases h

theorem stepped_of_step {e e' : Engine} {a : EngineAct} (h : e.step a = some e') :
    e.Stepped a e' := by
  cases a with
  | sendTo nodeNbr =>
    obtain ⟨h_node, h⟩ := Option.ite_none_left_eq_some.mp h
    obtain rfl := Option.some.inj h
    exact .sendTo h_node
  | look i =>
    obtain ⟨s, h_s, h⟩ := Option.bind_eq_some_iff.mp h
    exact senderStep_stepped h_s (by simp) h
  | dialFails i =>
    obtain ⟨s, h_s, h⟩ := Option.bind_eq_some_iff.mp h
    exact senderStep_stepped h_s (by simp) h
  | publish i =>
    obtain ⟨s, h_s, h⟩ := Option.bind_eq_some_iff.mp h
    exact senderStep_stepped h_s (by simp) h
  | waitEnds i timeout =>
    obtain ⟨s, h_s, h⟩ := Option.bind_eq_some_iff.mp h
    exact senderStep_stepped h_s (by simp) h
  | sent i =>
    obtain ⟨s, h_s, h⟩ := Option.bind_eq_some_iff.mp h
    exact senderStep_stepped h_s (by simp) h
  | accept =>
    obtain ⟨h_io, h⟩ := Option.ite_none_right_eq_some.mp h
    obtain rfl := Option.some.inj h
    exact .accept h_io
  | conn id act =>
    obtain ⟨⟨h_in, h_io⟩, h⟩ := Option.ite_none_right_eq_some.mp h
    obtain ⟨c, h_c, rfl⟩ := Option.map_eq_some_iff.mp h
    exact .conn h_in h_io h_c
  | reap id =>
    obtain ⟨⟨-, h_failed, h_free⟩, h⟩ := Option.ite_none_right_eq_some.mp h
    obtain rfl := Option.some.inj h
    exact .reap h_failed (by simpa using h_free)
  | leave =>
    obtain ⟨h_io, h⟩ := Option.ite_none_right_eq_some.mp h
    obtain rfl := Option.some.inj h
    exact .leave h_io
  | stopped =>
    obtain ⟨h_io, h⟩ := Option.ite_none_right_eq_some.mp h
    obtain rfl := Option.some.inj h
    exact .stopped h_io

/-- What any step does to any connection: at most it is pinned, let go of or failed, or it is the
    one of the step, or it is new. -/
theorem Stepped.conn_cases {e e' : Engine} {a : EngineAct} (h : e.Stepped a e') (id : Nat) :
    (∃ busy failed, e'.conn id = { e.conn id with sendBusy := busy, failed := failed } ∧
      ((e.conn id).failed = true → failed = true)) ∨
    (∃ act, a = .conn id act ∧ id ∈ e.conns ∧ e.ioMay act = true ∧
      (e.conn id).step e.cfg e.unreliable act = some (e'.conn id)) ∨
    (id = e.next ∧ e'.next = e.next + 1 ∧ ∃ dialled, e'.conn id = QuicSess.start dialled) := by
  have h_same : ∀ c : QuicSess, ∃ busy failed, c = { c with sendBusy := busy, failed := failed } ∧
      (c.failed = true → failed = true) := fun c => ⟨c.sendBusy, c.failed, rfl, fun h => h⟩
  have h_busy : ∀ id' busy, ∃ busy' failed,
      Function.update e.conn id' { e.conn id' with sendBusy := busy } id =
        { e.conn id with sendBusy := busy', failed := failed } ∧
      ((e.conn id).failed = true → failed = true) := by
    intro id' busy
    by_cases h_id : id = id'
    · subst h_id
      rw [Function.update_self]
      exact ⟨busy, (e.conn id).failed, rfl, fun h => h⟩
    · rw [Function.update_of_ne h_id]
      exact h_same _
  have h_add : ∀ dialled,
      (∃ busy failed, Function.update e.conn e.next (QuicSess.start dialled) id =
        { e.conn id with sendBusy := busy, failed := failed } ∧
          ((e.conn id).failed = true → failed = true)) ∨
      (id = e.next ∧ ∃ d, Function.update e.conn e.next (QuicSess.start dialled) id =
        QuicSess.start d) := by
    intro dialled
    by_cases h_id : id = e.next
    · subst h_id
      rw [Function.update_self]
      exact Or.inr ⟨rfl, dialled, rfl⟩
    · rw [Function.update_of_ne h_id]
      exact Or.inl (h_same _)
  cases h with
  | sendTo | retry | dial | giveUp | dialFails | reap | leave => exact Or.inl (h_same _)
  | claim => exact Or.inl (h_busy _ true)
  | waitEnds => exact Or.inl (h_busy _ false)
  | sent => exact Or.inl (h_busy _ false)
  | publish =>
    exact (h_add _).imp_right fun h => Or.inr ⟨h.1, rfl, h.2⟩
  | accept =>
    exact (h_add none).imp_right fun h => Or.inr ⟨h.1, rfl, h.2⟩
  | @conn id' act c h_in h_io h_step =>
    by_cases h_id : id = id'
    · subst h_id
      exact Or.inr (Or.inl ⟨act, rfl, h_in, h_io, h_step.trans (by simp)⟩)
    · left
      dsimp only
      rw [Function.update_of_ne h_id]
      exact h_same _
  | stopped =>
    left
    dsimp only
    by_cases h_in : id ∈ e.conns
    · rw [if_pos h_in]
      exact ⟨(e.conn id).sendBusy, true, rfl, fun _ => rfl⟩
    · rw [if_neg h_in]
      exact h_same _

theorem Stepped.listed {e e' : Engine} {a : EngineAct} (h : e.Stepped a e')
    (h_listed : ∀ id ∈ e.conns, id < e.next) :
    e.next ≤ e'.next ∧ ∀ id ∈ e'.conns, id < e'.next := by
  have h_add : ∀ id ∈ e.next :: e.conns, id < e.next + 1 := by
    refine List.forall_mem_cons.mpr ⟨Nat.lt_succ_self _, fun id h_id => ?_⟩
    exact Nat.lt_succ_of_lt (h_listed id h_id)
  cases h with
  | publish => exact ⟨Nat.le_succ _, h_add⟩
  | accept => exact ⟨Nat.le_succ _, h_add⟩
  | reap => exact ⟨Nat.le_refl _, fun id h_id => h_listed id (List.mem_of_mem_filter h_id)⟩
  | _ => exact ⟨Nat.le_refl _, h_listed⟩

end Engine

end IonContrib.Quic
