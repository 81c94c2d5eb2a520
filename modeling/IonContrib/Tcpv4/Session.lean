/-
  IonContrib.Tcpv4.Session

  One end of an established session: the shared `Tcpv4Conn`, and the threads
  that work on it (senders in `queueXfer`, the transmit thread, the receiver
  thread, the delivery thread, the clock thread, and the thread that stops the
  engine).  Each thread has a program counter; a step of a thread is what it
  does between two points where another thread can come in, i.e. one section
  under a mutex, one read or write on the socket, or one call into BP.

  The peer and the network are outside: octets arrive in `inOctets` and leave
  through `outOctets`.  How a call into other code comes out is the `Outcome`
  of the step.  A socket that has failed a write accepts no more octets.
-/
import IonContrib.Lib.Lts
import IonContrib.Tcpv4.Rx
import IonContrib.Tcpv4.Tx

namespace IonContrib.Tcpv4

/-! ## Cutting a bufferful into segments -/

def tcpv4TxbufSize : Nat := 64 * 1024
def tcpv4TxSegsPerWrite : Nat := 16

/-- The header buffers of `sendSegments`. -/
def sendHdrCap : Nat := 32 + tmsgXferextLengthLen

/-- One round of `sendSegments`' loop: the header and the data octets of the segment
    that starts `consumed` octets into a bufferful of `len`, which itself starts `off`
    octets into the transfer. -/
def cutSegment (mtu : Nat) (x : Xfer) (len off consumed : Nat) : Option (XferSegment × Octets) :=
  let chunk := if len - consumed > mtu then mtu else len - consumed
  let last : UInt8 := if off + consumed + chunk = x.length then tmsgFlagEnd else 0
  let data := (x.bundle.drop (off + consumed)).take chunk
  if off + consumed = 0 then
    (tcpv4MsgEncodeXferLengthExt tmsgXferextLengthLen x.length).map fun ext =>
      (⟨tmsgFlagStart ||| last, x.transferId, ext, chunk⟩, data)
  else some (⟨last, x.transferId, [], chunk⟩, data)

/-- The segments of one write, at most `segs` of them, and how much of the bufferful has
    been consumed after them. -/
def cutRun (mtu : Nat) (x : Xfer) (len off : Nat) : Nat → Nat → Option (Octets × Nat)
  | 0, consumed => some ([], consumed)
  | segs + 1, consumed =>
    if consumed < len then
      match cutSegment mtu x len off consumed with
      | none => none
      | some (seg, data) =>
        match tcpv4MsgEncodeXferSegmentHdr sendHdrCap seg,
            cutRun mtu x len off segs (consumed + seg.dataLength) with
        | some hdr, some (rest, consumed) => some (hdr ++ data ++ rest, consumed)
        | _, _ => none
    else some ([], consumed)

/-! ## State -/

/-- `TCS_ESTABLISHED` and `TCS_ENDING`. -/
inductive SessState where
  | established
  | ending
  deriving DecidableEq, Repr

/-- What the session was configured and negotiated to. -/
structure SessCfg where
  rx : RxCfg
  window : TxWindow
  segmentMtu : Nat
  transferMtu : Nat
  keepalive : Nat
  idleSec : Nat
  deriving DecidableEq, Repr

/-- Where the message loop goes on: the next message, or the end of the loop. -/
inductive RxNext where
  | loop
  | ret (clean : Bool)
  deriving DecidableEq, Repr

/-- The receiver thread.  From `failing` on it is past the message loop, taking the
    session down. -/
inductive RxPc where
  | loop
  | body (type : UInt8)
  | refusing (reason : UInt8) (seg : XferSegment)
  | payload (seg : XferSegment)
  | acking (m : XferAck)
  | handing (seg : XferSegment)
  | reporting (x : Xfer) (reject : Option Ctrl)
  | stopping (say : Option Ctrl) (ok bad : RxNext)
  | saying (m : Ctrl) (ok bad : RxNext)
  | failing
  | txStop
  | joinXmit
  | dlvStop
  | joinDlv
  | closing
  | done
  deriving DecidableEq, Repr

/-- The transmit thread.  `writing` is inside `sendSegments`; `checking` is the look at
    `x->refused` after a bufferful. -/
inductive XmitPc where
  | starting
  | idle
  | opening (x : Xfer)
  | reading (x : Xfer) (off : Nat)
  | writing (x : Xfer) (off len consumed : Nat)
  | checking (x : Xfer) (off : Nat)
  | lettingGo (x : Xfer) (failed : Bool)
  | reporting (x : Xfer) (failed : Bool)
  | failing
  | ended
  deriving DecidableEq, Repr

inductive DlvPc where
  | idle
  | delivering
  | acking
  | finishing (failed : Bool)
  | failing
  | ended
  deriving DecidableEq, Repr

/-- The clock thread, for this session: between ticks, or acting on what the tick found. -/
inductive ClockPc where
  | idle
  | timedOut
  | termStop
  | termSay
  | keepalive
  | failing
  deriving DecidableEq, Repr

/-- `tcpv4EngineStop`, once it has joined the clock and accept threads. -/
inductive StopPc where
  | running
  | txStop
  | dlvStop
  | collect
  | say
  | failing
  | done
  deriving DecidableEq, Repr

/-- What the session does that can be seen from outside, in the order it happens. -/
inductive Event where
  /-- `queueXfer` returned 0 (`true`) or -1. -/
  | returned (ref : Nat) (ok : Bool)
  /-- The transmit thread took a transfer off the queue. -/
  | took (x : Xfer)
  /-- The done callback was called. -/
  | reported (ref : Nat) (bundle : Octets) (ok : Bool)
  /-- BP took a bundle. -/
  | delivered (bundle : Octets)
  /-- A whole short message went out. -/
  | sent (m : Ctrl)
  /-- `clockTick` began an idle termination. -/
  | idleTerm
  deriving DecidableEq, Repr

structure Conn where
  state : SessState
  termSent : Bool
  failed : Bool
  receiverDone : Bool
  cleanClose : Bool
  tx : TxSide
  rx : RxSide
  dlv : DlvSide
  secSinceTx : Nat
  secSinceRx : Nat
  secSinceData : Nat
  inOctets : Octets
  outOctets : Octets
  broken : Bool
  nextRef : Nat
  senders : List Xfer
  dead : List Xfer
  drained : Bool
  rxPc : RxPc
  xmitPc : XmitPc
  dlvPc : DlvPc
  clockPc : ClockPc
  stopPc : StopPc
  log : List Event
  deriving DecidableEq, Repr

/-- A session that has just been established. -/
def Conn.init : Conn where
  state := .established
  termSent := false
  failed := false
  receiverDone := false
  cleanClose := false
  tx := TxSide.init
  rx := RxSide.init
  dlv := DlvSide.init
  secSinceTx := 0
  secSinceRx := 0
  secSinceData := 0
  inOctets := []
  outOctets := []
  broken := false
  nextRef := 0
  senders := []
  dead := []
  drained := false
  rxPc := .loop
  xmitPc := .starting
  dlvPc := .idle
  clockPc := .idle
  stopPc := .running
  log := []

/-- How a call into other code comes out: as wanted, end of stream, an error, no memory,
    or a write that failed after some octets. -/
inductive Outcome where
  | ok
  | eof
  | err
  | noMem
  | short (n : Nat)
  deriving DecidableEq, Repr

/-- The reads of the step do not hit the end of the stream or an error. -/
def Outcome.reads : Outcome → Bool
  | .eof => false
  | .err => false
  | _ => true

namespace Conn

def note (c : Conn) (e : Event) : Conn := { c with log := c.log ++ [e] }

/-- `tcpv4ConnFail`: the socket is shut down. -/
def tcpv4ConnFail (c : Conn) : Conn := { c with failed := true, broken := true }

/-- Put octets on the socket under `sendMutex`: all of them, or only the first few. -/
def send (c : Conn) (data : Octets) (o : Outcome) : Option (Conn × Bool) :=
  match o with
  | .ok =>
    if c.broken then none
    else some ({ c with outOctets := c.outOctets ++ data, secSinceTx := 0 }, true)
  | .short n =>
    some ({ c with
      outOctets := if c.broken then c.outOctets else c.outOctets ++ data.take n
      broken := true }, false)
  | _ => none

/-- `tcpv4SendXferAck` and its siblings. -/
def sendCtrl (c : Conn) (m : Ctrl) (o : Outcome) : Option (Conn × Bool) :=
  match m.encode with
  | none => some (c, false)
  | some data =>
    match c.send data o with
    | none => none
    | some (c, true) => some (c.note (.sent m), true)
    | some (c, false) => some (c, false)

/-- Call the done callback. -/
def report (c : Conn) (x : Xfer) : Conn :=
  c.note (.reported x.ref x.bundle (tcpv4XferSucceeded x))

/-! ## Sender threads -/

/-- `queueXfer` up to its waiting loop. -/
def call (cfg : SessCfg) (c : Conn) (bundle : Octets) (o : Outcome) : Option Conn :=
  if c.drained then none
  else
    let c' := { c with nextRef := c.nextRef + 1 }
    if bundle.length > cfg.transferMtu then some (c'.note (.returned c.nextRef false))
    else
      match o with
      | .noMem => some (c'.note (.returned c.nextRef false))
      | _ => some { c' with senders := c.senders ++ [newXfer c.nextRef bundle] }

def sender (c : Conn) (r : Nat) : Option Xfer := c.senders.find? fun x => x.ref = r

def leave (c : Conn) (r : Nat) (ok : Bool) : Conn :=
  { c with senders := c.senders.eraseP fun x => x.ref = r }.note (.returned r ok)

/-- A sender finds the condition of its waiting loop false. -/
def room (cfg : SessCfg) (c : Conn) (r : Nat) : Option Conn :=
  match c.sender r with
  | none => none
  | some x =>
    if queueXferWaits cfg.window c.tx x.length then none
    else
      let (tx, ok) := queueXferAdd c.tx x
      if ok then some ({ c with tx := tx, secSinceData := 0 }.leave r true)
      else some (c.leave r false)

/-- A waiting sender's `pthread_cond_timedwait` answers `ETIMEDOUT`. -/
def timeout (cfg : SessCfg) (c : Conn) (r : Nat) : Option Conn :=
  match c.sender r with
  | none => none
  | some x => if queueXferWaits cfg.window c.tx x.length then some (c.leave r false) else none

/-! ## Transmit thread -/

/-- `x->refused`, which other threads may have set. -/
def refusedNow (c : Conn) (x : Xfer) : Bool :=
  match c.tx.windowed x.ref with
  | none => x.refused
  | some y => y.refused

/-- Where the transmit thread goes on after a transfer. -/
def afterXfer (failed : Bool) : XmitPc := if failed then .failing else .idle

def xmitStep (cfg : SessCfg) (c : Conn) (o : Outcome) : Option Conn :=
  match c.xmitPc with
  | .starting =>
    match o with
    | .noMem => some { c with xmitPc := .failing }
    | _ => some { c with xmitPc := .idle }
  | .idle =>
    match xmitTake c.tx with
    | .idle => none
    | .stopped => some { c with xmitPc := .ended }
    | .took x tx => some ({ c with tx := tx, xmitPc := .opening x }.note (.took x))
  | .opening x =>
    match o with
    | .err => some { c with xmitPc := .lettingGo x true }
    | _ => some { c with xmitPc := .reading x 0 }
  | .reading x off =>
    if off < x.length then
      match o with
      | .err => some { c with xmitPc := .lettingGo x true }
      | _ =>
        let want := x.length - off
        let want := if want > tcpv4TxbufSize then tcpv4TxbufSize else want
        some { c with xmitPc := .writing x off want 0 }
    else some { c with xmitPc := .lettingGo x false }
  | .writing x off len consumed =>
    if consumed < len then
      match cutRun cfg.segmentMtu x len off tcpv4TxSegsPerWrite consumed with
      | none => some { c with xmitPc := .lettingGo x true }
      | some (data, consumed) =>
        match c.send data o with
        | none => none
        | some (c, true) => some { c with xmitPc := .writing x off len consumed }
        | some (c, false) => some { c with xmitPc := .lettingGo x true }
    else some { c with xmitPc := .checking x (off + len) }
  | .checking x off =>
    if c.refusedNow x then some { c with xmitPc := .lettingGo x false }
    else some { c with xmitPc := .reading x off }
  | .lettingGo x failed =>
    match xmitLetGo c.tx x.ref failed with
    | (tx, none) => some { c with tx := tx, xmitPc := afterXfer failed }
    | (tx, some done) => some { c with tx := tx, xmitPc := .reporting done failed }
  | .reporting x failed => some ({ c with xmitPc := afterXfer failed }.report x)
  | .failing => some { c.tcpv4ConnFail with xmitPc := .ended }
  | .ended => none

/-! ## Receiver thread -/

def goOn (c : Conn) (next : RxNext) : Conn :=
  match next with
  | .loop => { c with rxPc := .loop }
  | .ret clean => { c with rxPc := .failing, cleanClose := clean }

/-- Send a message and go on, whatever becomes of it. -/
def sayAnyway (m : Ctrl) (next : RxNext) : RxPc := .saying m next next

/-- The start of `handleXferSegment`, once the header is there. -/
def handleSegmentHdr (cfg : SessCfg) (c : Conn) (seg : XferSegment) (o : Outcome) : Conn :=
  match segmentAdmit cfg.rx (c.state = .ending) c.rx seg (o ≠ .noMem) with
  | (rx, .fail m) => { c with rx := rx, rxPc := sayAnyway m (.ret false) }
  | (rx, .refuse reason) => { c with rx := rx, rxPc := .refusing reason seg }
  | (rx, .accept) => { c with rx := rx, rxPc := .payload seg }

/-- After the locked section of `handleXferAck` / `handleXferRefuse`: report what was
    finished, then reject an unexpected message. -/
def afterTxSection (c : Conn) (tx : TxSide) (done : Option Xfer) (reject : Option Ctrl) : Conn :=
  match done, reject with
  | some x, _ => { c with tx := tx, rxPc := .reporting x reject }
  | none, some m => { c with tx := tx, rxPc := sayAnyway m .loop }
  | none, none => { c with tx := tx, rxPc := .loop }

def handleAck (c : Conn) (ack : XferAck) : Conn :=
  let (tx, done, unexpected) := xferAckSection c.tx ack
  c.afterTxSection tx done (if unexpected then some (rejectUnexpected tmsgXferAck) else none)

def handleRefuse (c : Conn) (refuse : XferRefuse) : Conn :=
  let (tx, done, known) := xferRefuseSection c.tx refuse
  c.afterTxSection tx done (if known then none else some (rejectUnexpected tmsgXferRefuse))

/-- A MSG_REJECT of the transfer machinery starts a termination
    (`startTermination (conn, TMSG_TERM_UNKNOWN)`). -/
def handleReject (c : Conn) (rej : MsgReject) : Conn :=
  if rej.rejectedType = tmsgXferSegment ∨ rej.rejectedType = tmsgXferAck ∨
      rej.rejectedType = tmsgSessInit then
    { c with
      termSent := true
      state := .ending
      rxPc :=
        .stopping (if c.termSent then none else some (.sessTerm ⟨0, tmsgTermUnknown⟩))
          .loop (.ret false) }
  else { c with rxPc := .loop }

/-- A SESS_TERM is answered once; an answer to our own ends the message loop. -/
def handleSessTerm (c : Conn) (term : SessTerm) : Conn :=
  let replyNeeded := !hasFlag term.flags tmsgTermFlagReply && !c.termSent
  { c with
    termSent := true
    state := .ending
    rxPc :=
      if replyNeeded then
        .stopping (some (.sessTerm ⟨tmsgTermFlagReply, term.reason⟩)) .loop .loop
      else .stopping none (.ret true) (.ret true) }

/-- Run a reader on the octets that have arrived. -/
def reading {α : Type} (c : Conn) (r : Recv α) (o : Outcome) (k : Conn → α → Conn) : Option Conn :=
  if !o.reads then some (c.goOn (.ret false))
  else
    match r with
    | .wait => none
    | .fail => some (c.goOn (.ret false))
    | .got a rest => some (k { c with inOctets := rest } a)

/-- What follows the type octet of a message. -/
def handleBody (cfg : SessCfg) (c : Conn) (type : UInt8) (o : Outcome) : Option Conn :=
  if type = tmsgXferSegment then
    c.reading (recvXferSegmentHdr segHdrCap c.inOctets) o fun c seg =>
      c.handleSegmentHdr cfg seg o
  else if type = tmsgXferAck then c.reading (recvXferAck c.inOctets) o handleAck
  else if type = tmsgXferRefuse then c.reading (recvXferRefuse c.inOctets) o handleRefuse
  else if type = tmsgKeepalive then some (c.goOn .loop)
  else if type = tmsgMsgReject then c.reading (tcpv4RecvMsgReject c.inOctets) o handleReject
  else if type = tmsgSessTerm then c.reading (recvSessTerm c.inOctets) o handleSessTerm
  else if type = tmsgSessInit then
    some { c with rxPc := sayAnyway (rejectUnexpected type) (.ret false) }
  else some { c with rxPc := sayAnyway (.msgReject ⟨tmsgRejectTypeUnknown, type⟩) (.ret false) }

/-- The END branch of `handleXferSegment`. -/
def finishSegment (c : Conn) (seg : XferSegment) : Conn :=
  match segmentDone c.rx seg with
  | (rx, .next) => { c with rx := rx, rxPc := .loop }
  | (rx, .ack m) => { c with rx := rx, rxPc := .acking m }
  | (rx, .handOver) => { c with rx := rx, rxPc := .handing seg }

/-- A read of as many octets as the segment has; none at all when it has no data. -/
def readData (c : Conn) (len : Nat) (o : Outcome) (k : Conn → Octets → Conn) : Option Conn :=
  if len = 0 then some (k c []) else c.reading (tcpv4ConnRecv len c.inOctets) o k

/-- The payload: drained when the transfer is refused, else read into the reassembly
    buffer. -/
def takePayload (c : Conn) (seg : XferSegment) (o : Outcome) : Option Conn :=
  if c.rx.rxRefused then c.readData seg.dataLength o fun c _ => c.finishSegment seg
  else
    match rxReserve c.rx (c.rx.rxLen + seg.dataLength) (o ≠ .noMem) with
    | none => some { c with rxPc := sayAnyway termExhausted (.ret false) }
    | some rx =>
      { c with rx := rx }.readData seg.dataLength o fun c data =>
        { c with rx := segmentStore c.rx data }.finishSegment seg

/-- The end of `receiverThread`, after `tcpv4MessageLoop`. -/
def takeDown (c : Conn) : Option Conn :=
  match c.rxPc with
  | .failing => some { c.tcpv4ConnFail with rxPc := .txStop }
  | .txStop => some { c with tx := tcpv4TxStop c.tx, rxPc := .joinXmit }
  | .joinXmit => if c.xmitPc = .ended then some { c with rxPc := .dlvStop } else none
  | .dlvStop => some { c with dlv := { c.dlv with dlvStopped := true }, rxPc := .joinDlv }
  | .joinDlv => if c.dlvPc = .ended then some { c with rxPc := .closing } else none
  | .closing => some { c.tcpv4ConnFail with receiverDone := true, rxPc := .done }
  | _ => none

def recvStep (cfg : SessCfg) (c : Conn) (o : Outcome) : Option Conn :=
  match c.rxPc with
  | .loop =>
    match o with
    | .eof => some (c.goOn (.ret (c.state = .ending)))
    | .err => some (c.goOn (.ret false))
    | _ =>
      match c.inOctets with
      | [] => none
      | type :: rest =>
        some { c with
          inOctets := rest
          secSinceRx := 0
          secSinceData := if type = tmsgKeepalive then c.secSinceData else 0
          rxPc := .body type }
  | .body type => c.handleBody cfg type o
  | .refusing reason seg =>
    if c.dlv.busy then none
    else if c.dlv.bad then some { c with rxPc := .payload seg }
    else (c.sendCtrl (.refuse ⟨reason, seg.transferId⟩) o).map fun p =>
      { p.1 with rxPc := .payload seg }
  | .payload seg => c.takePayload seg o
  | .acking m =>
    if c.dlv.busy then none
    else if c.dlv.bad then some (c.goOn (.ret false))
    else (c.sendCtrl (.ack m) o).map fun p => p.1.goOn (if p.2 then .loop else .ret false)
  | .handing seg =>
    if c.dlv.busy then none
    else if c.dlv.bad then some (c.goOn (.ret false))
    else
      let (rx, dlv) := handOverTransfer c.rx c.dlv seg
      some { c with rx := rx, dlv := dlv, rxPc := .loop }
  | .reporting x reject =>
    match reject with
    | none => some ({ c with rxPc := .loop }.report x)
    | some m => some ({ c with rxPc := sayAnyway m .loop }.report x)
  | .stopping say ok bad =>
    let c := { c with tx := tcpv4TxStop c.tx }
    match say with
    | none => some (c.goOn ok)
    | some m => some { c with rxPc := .saying m ok bad }
  | .saying m ok bad => (c.sendCtrl m o).map fun p => p.1.goOn (if p.2 then ok else bad)
  | _ => c.takeDown

/-! ## Delivery thread -/

def dlvStep (c : Conn) (o : Outcome) : Option Conn :=
  match c.dlvPc with
  | .idle =>
    if c.dlv.dlvPending then some { c with dlvPc := .delivering }
    else if c.dlv.dlvStopped then some { c with dlvPc := .ended }
    else none
  | .delivering =>
    match o with
    | .err => some { c with dlvPc := .finishing true }
    | _ => some ({ c with dlvPc := .acking }.note (.delivered c.dlv.bundle))
  | .acking => (c.sendCtrl (.ack c.dlv.ack) o).map fun p => { p.1 with dlvPc := .finishing (!p.2) }
  | .finishing failed =>
    some { c with
      dlv := { c.dlv with dlvPending := false, dlvFailed := failed || c.dlv.dlvFailed }
      dlvPc := if failed then .failing else .idle }
  | .failing => some { c.tcpv4ConnFail with dlvPc := .ended }
  | .ended => none

/-! ## Clock thread -/

/-- The idle test of `clockTick`. -/
def idleNow (cfg : SessCfg) (c : Conn) : Bool :=
  decide (cfg.idleSec > 0) && decide (c.state = .established) && !c.termSent &&
    !c.tx.txActive && !c.rx.rxActive && decide (c.secSinceData ≥ cfg.idleSec)

/-- What the clock thread does for this session under the engine lock.  A session that
    has both timed out and gone idle is failed without a SESS_TERM. -/
def clockTick (cfg : SessCfg) (c : Conn) : Conn :=
  if c.failed || c.receiverDone then c
  else
    let c := { c with
      secSinceTx := c.secSinceTx + 1
      secSinceRx := c.secSinceRx + 1
      secSinceData := c.secSinceData + 1 }
    let sendKa := decide (cfg.keepalive > 0) && decide (c.secSinceTx ≥ cfg.keepalive)
    let timedOut := decide (cfg.keepalive > 0) && decide (c.secSinceRx > 2 * cfg.keepalive)
    let sendTerm := c.idleNow cfg
    let c :=
      if sendTerm then { c with termSent := true, state := .ending }.note .idleTerm else c
    { c with
      clockPc :=
        if timedOut then .timedOut
        else if sendTerm then .termStop
        else if sendKa then .keepalive
        else .idle }

def clockStep (cfg : SessCfg) (c : Conn) (o : Outcome) : Option Conn :=
  match c.clockPc with
  | .idle => if c.stopPc = .running ∧ !c.drained then some (c.clockTick cfg) else none
  | .timedOut => some { c.tcpv4ConnFail with clockPc := .idle }
  | .termStop => some { c with tx := tcpv4TxStop c.tx, clockPc := .termSay }
  | .termSay => (c.sendCtrl (.sessTerm ⟨0, tmsgTermIdleTimeout⟩) o).map fun p =>
      { p.1 with clockPc := if p.2 then .idle else .failing }
  | .keepalive => (c.sendCtrl .keepalive o).map fun p =>
      { p.1 with clockPc := if p.2 then .idle else .failing }
  | .failing => some { c.tcpv4ConnFail with clockPc := .idle }

/-! ## Taking the session down -/

def stopStep (c : Conn) (o : Outcome) : Option Conn :=
  match c.stopPc with
  | .running =>
    if c.clockPc = .idle ∧ !c.drained then some { c with termSent := true, stopPc := .txStop }
    else none
  | .txStop => some { c with tx := tcpv4TxStop c.tx, stopPc := .dlvStop }
  | .dlvStop => some { c with dlv := { c.dlv with dlvStopped := true }, stopPc := .collect }
  | .collect =>
    some { c with
      stopPc := if c.state = .established ∧ !c.failed then .say else .failing }
  | .say => (c.sendCtrl (.sessTerm ⟨0, tmsgTermUnknown⟩) o).map fun p =>
      { p.1 with stopPc := .failing }
  | .failing => some { c.tcpv4ConnFail with stopPc := .done }
  | .done => none

/-- `freeConn`, from `reapConns` on the clock thread or from `tcpv4EngineStop`: the drain
    under the lock, then one report at a time. -/
def freeStep (c : Conn) : Option Conn :=
  if c.drained then
    match c.dead with
    | [] => none
    | x :: rest => some ({ c with dead := rest }.report x)
  else if c.receiverDone ∧
      ((c.stopPc = .running ∧ c.clockPc = .idle ∧ c.senders = []) ∨ c.stopPc = .done) then
    let (tx, dead) := tcpv4TxDrain c.tx
    some { c with tx := tx, dead := dead, drained := true }
  else none

end Conn

/-! ## Steps -/

inductive Act where
  | call (bundle : Octets) (o : Outcome)
  | room (r : Nat)
  | timeout (r : Nat)
  | xmit (o : Outcome)
  | recv (o : Outcome)
  | dlv (o : Outcome)
  | clock (o : Outcome)
  | stop (o : Outcome)
  | free
  /-- Octets from the peer. -/
  | arrive (data : Octets)
  deriving DecidableEq, Repr

def step (cfg : SessCfg) (c : Conn) : Act → Option Conn
  | .call bundle o => c.call cfg bundle o
  | .room r => c.room cfg r
  | .timeout r => c.timeout cfg r
  | .xmit o => c.xmitStep cfg o
  | .recv o => c.recvStep cfg o
  | .dlv o => c.dlvStep o
  | .clock o => c.clockStep cfg o
  | .stop o => c.stopStep o
  | .free => c.freeStep
  | .arrive data => some { c with inOctets := c.inOctets ++ data }

/-! ## What the helpers do -/

/-- A step that fails the transfer on an error and else goes on. -/
theorem Outcome.err_or {α : Type} {a b x : α} {o : Outcome}
    (h : (match o with | .err => a | _ => b) = x) : a = x ∨ b = x := by
  cases o with
  | err => exact Or.inl h
  | ok => exact Or.inr h
  | eof => exact Or.inr h
  | noMem => exact Or.inr h
  | short n => exact Or.inr h

theorem Outcome.noMem_or {α : Type} {a b x : α} {o : Outcome}
    (h : (match o with | .noMem => a | _ => b) = x) : a = x ∨ b = x := by
  cases o with
  | noMem => exact Or.inl h
  | ok => exact Or.inr h
  | eof => exact Or.inr h
  | err => exact Or.inr h
  | short n => exact Or.inr h

namespace Conn

/-- A message goes out whole, or the socket takes the front of it at most and is broken. -/
theorem send_cases {c c' : Conn} {data : Octets} {o : Outcome} {b : Bool}
    (h : c.send data o = some (c', b)) :
    (b = true ∧ c.broken = false ∧
        c' = { c with outOctets := c.outOctets ++ data, secSinceTx := 0 }) ∨
      (b = false ∧ ∃ n, c' = { c with
        outOctets := if c.broken then c.outOctets else c.outOctets ++ data.take n
        broken := true }) := by
  cases o with
  | ok =>
    by_cases h_broken : c.broken = true
    · simp [send, h_broken] at h
    · rw [send, if_neg h_broken, Option.some.injEq, Prod.mk.injEq] at h
      exact Or.inl ⟨h.2.symm, by simpa using h_broken, h.1.symm⟩
  | short n =>
    simp only [send, Option.some.injEq, Prod.mk.injEq] at h
    exact Or.inr ⟨h.2.symm, n, h.1.symm⟩
  | eof => simp [send] at h
  | err => simp [send] at h
  | noMem => simp [send] at h

theorem sendCtrl_cases {c c' : Conn} {m : Ctrl} {o : Outcome} {b : Bool}
    (h : c.sendCtrl m o = some (c', b)) :
    (b = true ∧ c.broken = false ∧
        c' = { c with
          outOctets := c.outOctets ++ m.octets
          secSinceTx := 0
          log := c.log ++ [.sent m] }) ∨
      (b = false ∧ ∃ n, c' = { c with
        outOctets := if c.broken then c.outOctets else c.outOctets ++ m.octets.take n
        broken := true }) := by
  rw [sendCtrl, Ctrl.encode_eq] at h
  cases h_send : c.send m.octets o with
  | none => simp [h_send] at h
  | some p =>
    obtain ⟨c₁, b₁⟩ := p
    rcases send_cases h_send with ⟨rfl, h_ok, rfl⟩ | ⟨rfl, n, rfl⟩
    · simp only [h_send, Option.some.injEq, Prod.mk.injEq] at h
      exact Or.inl ⟨h.2.symm, h_ok, h.1.symm⟩
    · simp only [h_send, Option.some.injEq, Prod.mk.injEq] at h
      exact Or.inr ⟨h.2.symm, n, h.1.symm⟩

/-- A read fails the session, or takes what the reader takes. -/
theorem reading_cases {α : Type} {c c' : Conn} {r : Recv α} {o : Outcome} {k : Conn → α → Conn}
    (h : c.reading r o k = some c') :
    c' = c.goOn (.ret false) ∨
      ∃ a rest, r = .got a rest ∧ c' = k { c with inOctets := rest } a := by
  unfold reading at h
  cases h_reads : o.reads with
  | false => exact Or.inl (by simpa [h_reads] using h.symm)
  | true =>
    simp only [h_reads, Bool.not_true, Bool.false_eq_true, if_false] at h
    cases r with
    | wait => simp at h
    | fail => exact Or.inl (by simpa using h.symm)
    | got a rest => exact Or.inr ⟨a, rest, rfl, by simpa using h.symm⟩

end Conn

end IonContrib.Tcpv4
