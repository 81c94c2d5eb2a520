/-
  IonContrib.Tcpv4.Tx

  The transmission side of a session (`tcpv4tx.c`, and the sections of
  `handleXferAck` / `handleXferRefuse` in `tcpv4rx.c` that run under `txMutex`).

  Every function of this file is one stretch of the source that holds
  `txMutex` from beginning to end, so it is one atomic step of its thread.
  A transfer's address (`ref`) is what `MTAKE` gave `queueXfer` for it; the two
  lists are kept through their tail pointers as in the source.
-/
import IonContrib.Lib.TailList
import IonContrib.Tcpv4.Msg

namespace IonContrib.Tcpv4

/-- One bundle being transmitted (`Tcpv4Xfer`). -/
structure Xfer where
  ref : Nat
  bundle : Octets
  transferId : Nat
  inFlight : Bool
  acked : Bool
  refused : Bool
  completed : Bool
  deriving DecidableEq, Repr

/-- `queueXfer` is called with the length of the bundle. -/
def Xfer.length (x : Xfer) : Nat := x.bundle.length

/-- `TCPV4_XFER_SUCCEEDED`. -/
def tcpv4XferSucceeded (x : Xfer) : Bool := x.completed || (x.acked && !x.refused)

abbrev XferList := TailList Xfer

def txAppend (l : XferList) (x : Xfer) : XferList := l.append Xfer.ref x

def txUnlink (l : XferList) (r : Nat) : Option XferList := l.unlink Xfer.ref r

/-- The part of `Tcpv4Conn` that `txMutex` guards. -/
structure TxSide where
  txQueue : XferList
  txWindow : XferList
  txCount : Int
  txBytes : Int
  nextTxId : Nat
  txAckedLen : Nat
  txStopped : Bool
  txActive : Bool
  deriving DecidableEq, Repr

/-- A session starts out zeroed. -/
def TxSide.init : TxSide where
  txQueue := TailList.empty
  txWindow := TailList.empty
  txCount := 0
  txBytes := 0
  nextTxId := 0
  txAckedLen := 0
  txStopped := false
  txActive := false

/-- The transfer at an address, as the window holds it. -/
def TxSide.windowed (t : TxSide) (r : Nat) : Option Xfer :=
  t.txWindow.items.find? fun y => y.ref = r

/-- `x->field = ...` for a transfer on the window. -/
def TxSide.touch (t : TxSide) (r : Nat) (f : Xfer → Xfer) : TxSide :=
  { t with txWindow := t.txWindow.modify Xfer.ref r f }

/-- Retire a transfer of the window, if the transmit thread has let go of it and its
    outcome is known.  The caller reports what is returned. -/
def tcpv4TxFinished (t : TxSide) (x : Option Xfer) : TxSide × Option Xfer :=
  match x with
  | none => (t, none)
  | some x =>
    if x.inFlight || (!x.acked && !x.refused) then (t, none)
    else
      let t :=
        if t.txWindow.items.head?.map Xfer.ref = some x.ref then { t with txAckedLen := 0 } else t
      match txUnlink t.txWindow x.ref with
      | none => (t, none)
      | some w =>
        let count := t.txCount - 1
        ({ t with
            txWindow := w
            txCount := count
            txBytes := t.txBytes - x.length
            txActive := count ≠ 0 }, some x)

/-- `tcpv4TxStop`. -/
def tcpv4TxStop (t : TxSide) : TxSide := { t with txStopped := true }

/-- The locked part of `tcpv4TxDrain`: both lists are spliced out, each element
    pushed onto the front of `dead`. -/
def tcpv4TxDrain (t : TxSide) : TxSide × List Xfer :=
  ({ t with
      txQueue := TailList.empty
      txWindow := TailList.empty
      txCount := 0
      txBytes := 0
      txStopped := true
      txActive := false },
   t.txWindow.items.reverse ++ t.txQueue.items.reverse)

/-! ## Handing a bundle to a session -/

/-- The configured window; a limit that is not positive is no limit. -/
structure TxWindow where
  txWindow : Int
  txWindowBytes : Int
  deriving DecidableEq, Repr

/-- The condition of `queueXfer`'s waiting loop. -/
def queueXferWaits (cfg : TxWindow) (t : TxSide) (length : Nat) : Bool :=
  !t.txStopped && decide (t.txCount > 0) &&
    ((decide (cfg.txWindow > 0) && decide (t.txCount ≥ cfg.txWindow)) ||
      (decide (cfg.txWindowBytes > 0) && decide (t.txBytes + length > cfg.txWindowBytes)))

/-- A zeroed `Tcpv4Xfer` for a bundle. -/
def newXfer (ref : Nat) (bundle : Octets) : Xfer where
  ref := ref
  bundle := bundle
  transferId := 0
  inFlight := false
  acked := false
  refused := false
  completed := false

/-- The end of `queueXfer`, once its loop has ended with `result` still 0: -1 when the
    session was stopped, else the transfer goes onto the queue. -/
def queueXferAdd (t : TxSide) (x : Xfer) : TxSide × Bool :=
  if t.txStopped then (t, false)
  else
    ({ t with
        txQueue := txAppend t.txQueue x
        txCount := t.txCount + 1
        txBytes := t.txBytes + x.length
        txActive := true }, true)

/-! ## The transmit thread -/

/-- What the transmit thread finds when it looks for work. -/
inductive Taken where
  | idle
  | stopped
  | took (x : Xfer) (t : TxSide)
  deriving DecidableEq, Repr

/-- Move the head of the queue to the window. -/
def xmitTake (t : TxSide) : Taken :=
  match t.txQueue.items.head? with
  | none => if t.txStopped then .stopped else .idle
  | some x =>
    if t.txStopped then .stopped
    else
      let x' := { x with transferId := t.nextTxId, inFlight := true }
      .took x'
        { t with
          txQueue := (txUnlink t.txQueue x.ref).getD t.txQueue
          nextTxId := (t.nextTxId + 1) % 2 ^ 64
          txWindow := txAppend t.txWindow x' }

/-- Let go of a transfer that has been written, abandoned, or has failed. -/
def xmitLetGo (t : TxSide) (r : Nat) (failed : Bool) : TxSide × Option Xfer :=
  let t := t.touch r fun x =>
    { x with inFlight := false, refused := if failed then true else x.refused }
  tcpv4TxFinished t (t.windowed r)

/-! ## Acknowledgements and refusals -/

/-- `handleXferAck` under the lock: the finished transfer, and whether the message was
    unexpected. -/
def xferAckSection (t : TxSide) (ack : XferAck) : TxSide × Option Xfer × Bool :=
  match t.txWindow.items.head? with
  | none => (t, none, true)
  | some head =>
    if ack.transferId ≠ head.transferId then (t, none, true)
    else if ack.ackLength ≤ t.txAckedLen ∨ ack.ackLength > head.length then
      let t := t.touch head.ref fun x => { x with refused := true }
      let (t, done) := tcpv4TxFinished t (t.windowed head.ref)
      (t, done, true)
    else
      let t := { t with txAckedLen := ack.ackLength }
      if ack.ackLength = head.length then
        let t := t.touch head.ref fun x => { x with acked := true }
        let (t, done) := tcpv4TxFinished t (t.windowed head.ref)
        (t, done, false)
      else (t, none, false)

/-- `handleXferRefuse` under the lock: the finished transfer, and whether the refused one
    was on the window at all. -/
def xferRefuseSection (t : TxSide) (refuse : XferRefuse) : TxSide × Option Xfer × Bool :=
  match t.txWindow.items.find? fun y => y.transferId = refuse.transferId with
  | none => (t, none, false)
  | some x =>
    let t := t.touch x.ref fun y =>
      { y with
        refused := true
        completed := if refuse.reason = tmsgRefuseCompleted then true else y.completed }
    let (t, done) := tcpv4TxFinished t (t.windowed x.ref)
    (t, done, true)

end IonContrib.Tcpv4
