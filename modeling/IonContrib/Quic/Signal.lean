/-
  IonContrib.Quic.Signal

  Signalling on stream 0 of a connection: the session messages of `quicmsg.c`
  and what `quicsession.c` makes of them.

  `sessParseSig` takes one message after the other off what has been received.
  Taking one is a `sigRound`, and other threads may look at the connection
  between two of them.  What a round does to the session is said once, in
  `sigRound_next`: only a SESS_INIT changes what was negotiated, and only a
  SESS_INIT or a SESS_TERM the state.
-/
import IonContrib.Lib.Decimal
import IonContrib.Quic.Stream

namespace IonContrib.Quic

open Octets

def qmsgSessInit : UInt8 := 0x01
def qmsgKeepalive : UInt8 := 0x05
def qmsgSessTerm : UInt8 := 0x06
def qmsgMsgReject : UInt8 := 0x07

def qmsgRejectUnsupported : UInt8 := 0x01
def qmsgTermFlagReply : UInt8 := 0x01
def qmsgTermUnknown : UInt8 := 0x00

/-! ## Messages -/

structure QuicSessInit where
  keepalive : Nat
  segmentMru : Nat
  datagramMru : Nat
  transferMru : Nat
  nodeId : Octets
  sessExt : Octets
  deriving DecidableEq, Repr

structure QuicSessTerm where
  flags : UInt8
  reason : UInt8
  sessExt : Octets
  deriving DecidableEq, Repr

structure QuicMsgReject where
  rejectedType : UInt8
  reason : UInt8
  deriving DecidableEq, Repr

def quicMsgEncodeSessInit (cap : Nat) (m : QuicSessInit) : Option Octets :=
  let w := wInit cap
  let w := wU8 w qmsgSessInit
  let w := wU16 w m.keepalive
  let w := wU64 w m.segmentMru
  let w := wU64 w m.datagramMru
  let w := wU64 w m.transferMru
  let w := wU16 w m.nodeId.length
  let w := wBytes w m.nodeId
  let w := wU32 w m.sessExt.length
  (wBytes w m.sessExt).result

def quicMsgEncodeSessTerm (cap : Nat) (m : QuicSessTerm) : Option Octets :=
  let w := wInit cap
  let w := wU8 w qmsgSessTerm
  let w := wU8 w m.flags
  let w := wU8 w m.reason
  let w := wU32 w m.sessExt.length
  (wBytes w m.sessExt).result

def quicMsgEncodeMsgReject (cap : Nat) (m : QuicMsgReject) : Option Octets :=
  let w := wInit cap
  let w := wU8 w qmsgMsgReject
  let w := wU8 w m.rejectedType
  (wU8 w m.reason).result

/-- An octet count and as many octets. -/
def extField : Reader → Octets × Reader :=
  Reader.andThen rU32 fun len => Reader.andThen (rBytes · len) fun ext r => (ext.getD [], r)

def QuicSessInit.fields : Reader → QuicSessInit × Reader :=
  Reader.andThen rU16 fun keepalive =>
  Reader.andThen rU64 fun segmentMru =>
  Reader.andThen rU64 fun datagramMru =>
  Reader.andThen rU64 fun transferMru =>
  Reader.andThen rU16 fun nodeIdLen =>
  Reader.andThen (rBytes · nodeIdLen) fun nodeId =>
  Reader.andThen extField fun sessExt r =>
    (⟨keepalive, segmentMru, datagramMru, transferMru, nodeId.getD [], sessExt⟩, r)

def QuicSessTerm.fields : Reader → QuicSessTerm × Reader :=
  Reader.andThen rU8 fun flags =>
  Reader.andThen rU8 fun reason =>
  Reader.andThen extField fun sessExt r => (⟨flags, reason, sessExt⟩, r)

def QuicMsgReject.fields : Reader → QuicMsgReject × Reader :=
  Reader.andThen rU8 fun rejectedType => Reader.andThen rU8 fun reason r =>
    (⟨rejectedType, reason⟩, r)

def quicMsgDecodeSessInit (buf : Octets) : Decoded QuicSessInit :=
  decodeMsg qmsgSessInit QuicSessInit.fields buf

def quicMsgDecodeSessTerm (buf : Octets) : Decoded QuicSessTerm :=
  decodeMsg qmsgSessTerm QuicSessTerm.fields buf

def quicMsgDecodeMsgReject (buf : Octets) : Decoded QuicMsgReject :=
  decodeMsg qmsgMsgReject QuicMsgReject.fields buf

theorem stable_extField : Reader.Stable extField :=
  Reader.stable_rU32.andThen fun len => (Reader.stable_rBytes len).andThen fun ext =>
    Reader.stable_pure (ext.getD [])

theorem stable_sessInitFields : Reader.Stable QuicSessInit.fields := by
  refine Reader.stable_rU16.andThen fun keepalive => ?_
  refine Reader.stable_rU64.andThen fun segmentMru => ?_
  refine Reader.stable_rU64.andThen fun datagramMru => ?_
  refine Reader.stable_rU64.andThen fun transferMru => ?_
  refine Reader.stable_rU16.andThen fun nodeIdLen => ?_
  refine (Reader.stable_rBytes nodeIdLen).andThen fun nodeId => ?_
  exact stable_extField.andThen fun sessExt => Reader.stable_pure _

theorem stable_sessTermFields : Reader.Stable QuicSessTerm.fields := by
  refine Reader.stable_rU8.andThen fun flags => ?_
  refine Reader.stable_rU8.andThen fun reason => ?_
  exact stable_extField.andThen fun sessExt => Reader.stable_pure _

theorem decodeMsg_head {μ : Type} {type : UInt8} {fields : Reader → μ × Reader}
    (hf : Reader.Stable fields) {buf : Octets} {m : μ} {n : Nat}
    (h : decodeMsg type fields buf = .ok m n) : buf.head? = some type := by
  cases buf with
  | nil =>
    rw [decodeMsg_nil hf] at h
    cases h
  | cons b bs =>
    rw [decodeMsg_cons] at h
    by_cases h_type : b = type
    · exact congrArg some h_type
    · rw [if_neg h_type] at h
      cases h

/-! ## Node numbers -/

def isSpace (c : UInt8) : Bool := c = 0x20 || (0x09 ≤ c && c ≤ 0x0d)

/-- `sscanf (text, "%llu", &n)`, which also takes a sign and saturates. -/
def sscanfLlu (text : Octets) : Option Nat :=
  let text := text.dropWhile isSpace
  let digits := (if text.take 1 = [0x2d] ∨ text.take 1 = [0x2b] then text.drop 1 else text).takeWhile
    isDigit
  if digits = [] then none
  else if 2 ^ 64 ≤ decimal digits then some (2 ^ 64 - 1)
  else if text.take 1 = [0x2d] then some ((2 ^ 64 - decimal digits) % 2 ^ 64)
  else some (decimal digits)

/-- What `notePeerNode` finds in a node id: the number of "ipn:<node>.<service>". -/
def ipnNode (nodeId : Octets) : Option Nat :=
  if nodeId.length ≤ 4 then none
  else
    let idbuf := (nodeId.take 63).takeWhile (· ≠ 0)
    if idbuf.take 4 = [0x69, 0x70, 0x6e, 0x3a] then sscanfLlu (idbuf.drop 4) else none

/-- `isprintf` into `char nodeId[32]`. -/
def ipnText (node : Nat) : Octets :=
  (("ipn:" ++ toString node ++ ".0").toList.map fun c => UInt8.ofNat c.toNat).take 31

/-! ## Session -/

/-- `QSS_*`. -/
inductive SessState where
  | connecting
  | established
  | ending
  deriving DecidableEq, Repr

structure SigCfg where
  idleSec : Int
  segmentMru : Int
  ownFqnn : Nat
  deriving DecidableEq

/-- The fields of `QuicConn` that signalling reads and sets. -/
structure SigConn where
  clientRole : Bool
  peerNode : Nat
  sessState : SessState
  sessInitSent : Bool
  termSent : Bool
  keepalive : Nat
  peerSegmentMru : Nat
  peerTransferMru : Nat
  sigTx : Octets
  sigTxCap : Nat
  sigRx : Octets
  sigRxCap : Nat
  deriving DecidableEq

namespace SigConn

def init (clientRole : Bool) : SigConn where
  clientRole := clientRole
  peerNode := 0
  sessState := .connecting
  sessInitSent := false
  termSent := false
  keepalive := 0
  peerSegmentMru := 0
  peerTransferMru := 0
  sigTx := []
  sigTxCap := 0
  sigRx := []
  sigRxCap := 0

/-- The connection, and whether it was done. -/
def sigQueue (mem : Bool) (c : SigConn) (bytes : Octets) : SigConn × Bool :=
  let want := c.sigTx.length + bytes.length
  if want > c.sigTxCap then
    if mem then
      ({ c with
        sigTx := c.sigTx ++ bytes
        sigTxCap := doubleUntil want (if c.sigTxCap = 0 then 256 else c.sigTxCap) want }, true)
    else (c, false)
  else ({ c with sigTx := c.sigTx ++ bytes }, true)

/-- Half of the idle timeout, cast to 16 bits. -/
def ourKeepalive (cfg : SigCfg) : Nat :=
  (if cfg.idleSec > 1 then cfg.idleSec / 2 else 1).toNat % 2 ^ 16

def sessInit (cfg : SigCfg) : QuicSessInit where
  keepalive := ourKeepalive cfg
  segmentMru :=
    if cfg.segmentMru > 0 ∧ cfg.segmentMru < quicclaBufsz then cfg.segmentMru.toNat
    else quicclaBufsz
  datagramMru := 0
  transferMru := quicclaBufsz
  nodeId := ipnText cfg.ownFqnn
  sessExt := []

def sendSessInit (cfg : SigCfg) (mem : Bool) (c : SigConn) : SigConn × Bool :=
  match quicMsgEncodeSessInit 128 (sessInit cfg) with
  | none => (c, false)
  | some out => sigQueue mem { c with sessInitSent := true } out

def sendSessTerm (mem : Bool) (c : SigConn) (reason : UInt8) (reply : Bool) : SigConn × Bool :=
  match quicMsgEncodeSessTerm 16 ⟨if reply then qmsgTermFlagReply else 0, reason, []⟩ with
  | none => (c, false)
  | some out => sigQueue mem { c with termSent := true } out

def sendMsgReject (mem : Bool) (c : SigConn) (rejectedType reason : UInt8) : SigConn × Bool :=
  match quicMsgEncodeMsgReject 8 ⟨rejectedType, reason⟩ with
  | none => (c, false)
  | some out => sigQueue mem c out

def sessNegotiate (cfg : SigCfg) (c : SigConn) (peer : QuicSessInit) : SigConn :=
  { c with
    keepalive := if peer.keepalive < ourKeepalive cfg then peer.keepalive else ourKeepalive cfg
    peerSegmentMru := peer.segmentMru
    peerTransferMru := peer.transferMru }

def notePeerNode (c : SigConn) (peer : QuicSessInit) : SigConn :=
  match ipnNode peer.nodeId with
  | none => c
  | some node => { c with peerNode := node }

/-- The reply of the entity that accepted the connection. -/
def replySessInit (cfg : SigCfg) (mem : Bool) (c : SigConn) : SigConn × Bool :=
  if !c.clientRole ∧ !c.sessInitSent then sendSessInit cfg mem c else (c, true)

def handleSessInit (cfg : SigCfg) (mem : Bool) (c : SigConn) (peer : QuicSessInit) :
    SigConn × Bool :=
  match replySessInit cfg mem (notePeerNode (sessNegotiate cfg c peer) peer) with
  | (c, false) => (c, false)
  | (c, true) => ({ c with sessState := .established }, true)

def handleSessTerm (mem : Bool) (c : SigConn) : SigConn :=
  let c := { c with sessState := .ending }
  if !c.termSent then (sendSessTerm mem c qmsgTermUnknown true).1 else c

end SigConn

/-! ## Parsing -/

/-- One round of the loop of `sessParseSig`: the loop ends, it returns -1, or it goes on `n` octets
    further. -/
inductive SigRound where
  | stop
  | bad (c : SigConn)
  | next (c : SigConn) (n : Nat)

open SigConn in
/-- The round at the octets `p`. -/
def sigRound (cfg : SigCfg) (mem : Bool) (c : SigConn) (p : Octets) : SigRound :=
  match p with
  | [] => .stop
  | type :: _ =>
    if type = qmsgSessInit then
      match quicMsgDecodeSessInit p with
      | .need => .stop
      | .bad => .bad c
      | .ok peer n =>
        match handleSessInit cfg mem c peer with
        | (c, false) => .bad c
        | (c, true) => .next c n
    else if type = qmsgKeepalive then .next c 1
    else if type = qmsgSessTerm then
      match quicMsgDecodeSessTerm p with
      | .need => .stop
      | .bad => .bad c
      | .ok _ n => .next (handleSessTerm mem c) n
    else if type = qmsgMsgReject then
      match quicMsgDecodeMsgReject p with
      | .need => .stop
      | .bad => .bad c
      | .ok _ n => .next c n
    else .bad (sendMsgReject mem c type qmsgRejectUnsupported).1

/-- The loop of `sessParseSig` from `off` on; `mem off` says whether there is memory for what the
    message there is answered with.  A round takes at least one octet. -/
def sessParseSigFrom (cfg : SigCfg) (mem : Nat → Bool) : Nat → SigConn → Nat → SigConn × Bool
  | 0, c, off => ({ c with sigRx := c.sigRx.drop off }, true)
  | fuel + 1, c, off =>
    match sigRound cfg (mem off) c (c.sigRx.drop off) with
    | .stop => ({ c with sigRx := c.sigRx.drop off }, true)
    | .bad c => (c, false)
    | .next c n => sessParseSigFrom cfg mem fuel c (off + n)

def sessParseSig (cfg : SigCfg) (mem : Nat → Bool) (c : SigConn) : SigConn × Bool :=
  sessParseSigFrom cfg mem (c.sigRx.length + 1) c 0

/-- Where the octets are put; `mem` says whether there is memory for more. -/
def sigStore (mem : Bool) (c : SigConn) (data : Octets) : Option SigConn :=
  let want := c.sigRx.length + data.length
  if want > c.sigRxCap then
    if mem then
      some { c with
        sigRx := c.sigRx ++ data
        sigRxCap := doubleUntil want (if c.sigRxCap = 0 then 256 else c.sigRxCap) want }
    else none
  else some { c with sigRx := c.sigRx ++ data }

def sessRecvSig (cfg : SigCfg) (rxMem : Bool) (mem : Nat → Bool) (c : SigConn) (data : Octets) :
    SigConn × Bool :=
  match sigStore rxMem c data with
  | none => (c, false)
  | some c => sessParseSig cfg mem c

/-! ## What a round changes -/

/-- What the session was negotiated to be. -/
structure SigConn.Terms where
  keepalive : Nat
  peerSegmentMru : Nat
  peerTransferMru : Nat
  peerNode : Nat
  deriving DecidableEq

namespace SigConn

def terms (c : SigConn) : Terms := ⟨c.keepalive, c.peerSegmentMru, c.peerTransferMru, c.peerNode⟩

/-- What a SESS_INIT of the peer makes of them. -/
def negotiated (cfg : SigCfg) (c : SigConn) (peer : QuicSessInit) : Terms :=
  (notePeerNode (sessNegotiate cfg c peer) peer).terms

/-- What is queued, and the marks of it. -/
structure Queued where
  sessInitSent : Bool
  termSent : Bool
  sigTx : Octets
  sigTxCap : Nat

def withQueued (c : SigConn) (q : Queued) : SigConn :=
  { c with
    sessInitSent := q.sessInitSent, termSent := q.termSent
    sigTx := q.sigTx, sigTxCap := q.sigTxCap }

theorem sigQueue_eq (mem : Bool) (c : SigConn) (bytes : Octets) :
    ∃ q, (sigQueue mem c bytes).1 = c.withQueued q ∧ q.termSent = c.termSent := by
  unfold sigQueue
  dsimp only
  split
  · split
    · exact ⟨⟨c.sessInitSent, c.termSent, _, _⟩, rfl, rfl⟩
    · exact ⟨⟨c.sessInitSent, c.termSent, c.sigTx, c.sigTxCap⟩, rfl, rfl⟩
  · exact ⟨⟨c.sessInitSent, c.termSent, _, c.sigTxCap⟩, rfl, rfl⟩

theorem sendSessInit_eq (cfg : SigCfg) (mem : Bool) (c : SigConn) :
    ∃ q, (sendSessInit cfg mem c).1 = c.withQueued q ∧ q.termSent = c.termSent := by
  unfold sendSessInit
  split
  · exact ⟨⟨c.sessInitSent, c.termSent, c.sigTx, c.sigTxCap⟩, rfl, rfl⟩
  · obtain ⟨q, h_q, h_term⟩ := sigQueue_eq mem { c with sessInitSent := true } _
    exact ⟨q, h_q, h_term⟩

theorem replySessInit_eq (cfg : SigCfg) (mem : Bool) (c : SigConn) :
    ∃ q, (replySessInit cfg mem c).1 = c.withQueued q ∧ q.termSent = c.termSent := by
  unfold replySessInit
  split
  · exact sendSessInit_eq cfg mem c
  · exact ⟨⟨c.sessInitSent, c.termSent, c.sigTx, c.sigTxCap⟩, rfl, rfl⟩

theorem sendMsgReject_eq (mem : Bool) (c : SigConn) (rejectedType reason : UInt8) :
    ∃ q, (sendMsgReject mem c rejectedType reason).1 = c.withQueued q ∧
      q.termSent = c.termSent := by
  unfold sendMsgReject
  split
  · exact ⟨⟨c.sessInitSent, c.termSent, c.sigTx, c.sigTxCap⟩, rfl, rfl⟩
  · exact sigQueue_eq mem c _

theorem sendSessTerm_eq (mem : Bool) (c : SigConn) (reason : UInt8) (reply : Bool) :
    ∃ q, (sendSessTerm mem c reason reply).1 = c.withQueued q ∧
      (c.termSent = true → q.termSent = true) := by
  unfold sendSessTerm
  split
  · exact ⟨⟨c.sessInitSent, c.termSent, c.sigTx, c.sigTxCap⟩, rfl, id⟩
  · obtain ⟨q, h_q, h_term⟩ := sigQueue_eq mem { c with termSent := true } _
    exact ⟨q, h_q, fun _ => h_term⟩

theorem handleSessTerm_eq (mem : Bool) (c : SigConn) :
    ∃ q, handleSessTerm mem c = { c.withQueued q with sessState := .ending } ∧
      (c.termSent = true → q.termSent = true) := by
  unfold handleSessTerm
  dsimp only
  split
  · obtain ⟨q, h_q, h_term⟩ := sendSessTerm_eq mem { c with sessState := .ending } qmsgTermUnknown
      true
    exact ⟨q, h_q, h_term⟩
  · exact ⟨⟨c.sessInitSent, c.termSent, c.sigTx, c.sigTxCap⟩, rfl, id⟩

/-- A SESS_INIT that was answered, and one that could not be. -/
theorem handleSessInit_eq (cfg : SigCfg) (mem : Bool) (c : SigConn) (peer : QuicSessInit) :
    ∃ q, q.termSent = c.termSent ∧
      (handleSessInit cfg mem c peer =
          ({ (notePeerNode (sessNegotiate cfg c peer) peer).withQueued q with
            sessState := .established }, true) ∨
        handleSessInit cfg mem c peer =
          ((notePeerNode (sessNegotiate cfg c peer) peer).withQueued q, false)) := by
  obtain ⟨q, h_q, h_term⟩ := replySessInit_eq cfg mem (notePeerNode (sessNegotiate cfg c peer) peer)
  have h_note : (notePeerNode (sessNegotiate cfg c peer) peer).termSent = c.termSent := by
    unfold notePeerNode
    split <;> rfl
  refine ⟨q, h_term.trans h_note, ?_⟩
  unfold handleSessInit
  cases h_reply : replySessInit cfg mem (notePeerNode (sessNegotiate cfg c peer) peer) with
  | mk c' done =>
    rw [h_reply] at h_q
    dsimp only at h_q
    subst h_q
    cases done with
    | true => exact Or.inl rfl
    | false => exact Or.inr rfl

end SigConn

open SigConn

theorem notePeerNode_eq (c : SigConn) (peer : QuicSessInit) :
    notePeerNode c peer = { c with peerNode := (ipnNode peer.nodeId).getD c.peerNode } := by
  unfold notePeerNode
  cases ipnNode peer.nodeId <;> rfl

/-- A round that goes on: it has taken a SESS_INIT, a SESS_TERM, or a message that changes
    nothing. -/
theorem sigRound_next {cfg : SigCfg} {mem : Bool} {c c' : SigConn} {p : Octets} {n : Nat}
    (h : sigRound cfg mem c p = .next c' n) :
    (∃ peer q, quicMsgDecodeSessInit p = .ok peer n ∧ q.termSent = c.termSent ∧
      c' = { (notePeerNode (sessNegotiate cfg c peer) peer).withQueued q with
        sessState := .established }) ∨
    (∃ q, (c.termSent = true → q.termSent = true) ∧
      c' = { c.withQueued q with sessState := .ending }) ∨
    (p.head? ≠ some qmsgSessTerm ∧ c' = c) := by
  cases p with
  | nil => cases h
  | cons type rest =>
    unfold sigRound at h
    dsimp only at h
    split at h
    · cases h_dec : quicMsgDecodeSessInit (type :: rest) with
      | need => rw [h_dec] at h; cases h
      | bad => rw [h_dec] at h; cases h
      | ok peer used =>
        left
        rw [h_dec] at h
        dsimp only at h
        obtain ⟨q, h_term, h_done | h_failed⟩ := handleSessInit_eq cfg mem c peer
        · rw [h_done] at h
          obtain ⟨rfl, rfl⟩ := SigRound.next.inj h
          exact ⟨peer, q, rfl, h_term, rfl⟩
        · rw [h_failed] at h
          cases h
    · split at h
      · next h_type =>
        obtain ⟨rfl, -⟩ := SigRound.next.inj h
        exact Or.inr (Or.inr ⟨fun h_head => absurd (h_type.symm.trans (Option.some.inj h_head))
          (by decide), rfl⟩)
      · split at h
        · cases h_dec : quicMsgDecodeSessTerm (type :: rest) with
          | need => rw [h_dec] at h; cases h
          | bad => rw [h_dec] at h; cases h
          | ok term used =>
            rw [h_dec] at h
            obtain ⟨rfl, -⟩ := SigRound.next.inj h
            obtain ⟨q, h_eq, h_term⟩ := handleSessTerm_eq mem c
            exact Or.inr (Or.inl ⟨q, h_term, h_eq⟩)
        · next h_term =>
          split at h
          · cases h_dec : quicMsgDecodeMsgReject (type :: rest) with
            | need => rw [h_dec] at h; cases h
            | bad => rw [h_dec] at h; cases h
            | ok rej used =>
              rw [h_dec] at h
              obtain ⟨rfl, -⟩ := SigRound.next.inj h
              exact Or.inr (Or.inr ⟨fun h_head => h_term (Option.some.inj h_head), rfl⟩)
          · cases h

/-- A round that fails: on a SESS_INIT that could not be answered, or without a change of the
    session. -/
theorem sigRound_bad {cfg : SigCfg} {mem : Bool} {c c' : SigConn} {p : Octets}
    (h : sigRound cfg mem c p = .bad c') :
    (∃ peer n q, quicMsgDecodeSessInit p = .ok peer n ∧ q.termSent = c.termSent ∧
      c' = (notePeerNode (sessNegotiate cfg c peer) peer).withQueued q) ∨
    ∃ q, q.termSent = c.termSent ∧ c' = c.withQueued q := by
  have h_same : ∃ q : Queued, q.termSent = c.termSent ∧ c = c.withQueued q :=
    ⟨⟨c.sessInitSent, c.termSent, c.sigTx, c.sigTxCap⟩, rfl, rfl⟩
  cases p with
  | nil => cases h
  | cons type rest =>
    unfold sigRound at h
    dsimp only at h
    split at h
    · cases h_dec : quicMsgDecodeSessInit (type :: rest) with
      | need => rw [h_dec] at h; cases h
      | bad =>
        rw [h_dec] at h
        obtain rfl := SigRound.bad.inj h
        exact Or.inr h_same
      | ok peer used =>
        rw [h_dec] at h
        dsimp only at h
        obtain ⟨q, h_term, h_done | h_failed⟩ := handleSessInit_eq cfg mem c peer
        · rw [h_done] at h
          cases h
        · rw [h_failed] at h
          obtain rfl := SigRound.bad.inj h
          exact Or.inl ⟨peer, used, q, rfl, h_term, rfl⟩
    · split at h
      · cases h
      · split at h
        · cases h_dec : quicMsgDecodeSessTerm (type :: rest) with
          | need => rw [h_dec] at h; cases h
          | bad =>
            rw [h_dec] at h
            obtain rfl := SigRound.bad.inj h
            exact Or.inr h_same
          | ok term used => rw [h_dec] at h; cases h
        · split at h
          · cases h_dec : quicMsgDecodeMsgReject (type :: rest) with
            | need => rw [h_dec] at h; cases h
            | bad =>
              rw [h_dec] at h
              obtain rfl := SigRound.bad.inj h
              exact Or.inr h_same
            | ok rej used => rw [h_dec] at h; cases h
          · obtain rfl := SigRound.bad.inj h
            obtain ⟨q, h_eq, h_term⟩ := sendMsgReject_eq mem c type qmsgRejectUnsupported
            exact Or.inr ⟨q, h_term, h_eq⟩

end IonContrib.Quic
