/-
  IonContrib.Tcpv4.Negotiate

  Contact and session negotiation (`tcpv4negotiate.c`), from the octets of the
  peer up to what `applySessInit` makes of its SESS_INIT: whether the session
  is acceptable, and which node it may carry bundles to.

  The certificate of the peer is outside: a `TlsConn` is what the TLS backend
  answers about it, for every node ID that may be asked.
-/
import IonContrib.Tcpv4.Msg
import IonContrib.Tcpv4.NodeId

namespace IonContrib.Tcpv4

open Octets

/-! ## Messages -/

/-- `TMSG_MAGIC`, i.e. `dtn!`. -/
def tmsgMagic : Octets := [0x64, 0x74, 0x6e, 0x21]
def tmsgVersion : UInt8 := 4
def tmsgContactLen : Nat := 6
def tmsgContactCanTls : UInt8 := 0x01
def tmsgTermVersionMismatch : UInt8 := 0x02
def tmsgTermBusy : UInt8 := 0x03
def tmsgTermContactFailure : UInt8 := 0x04

structure Contact where
  version : UInt8
  flags : UInt8
  deriving DecidableEq, Repr

structure SessInit where
  keepalive : Nat
  segmentMru : Nat
  transferMru : Nat
  nodeId : Octets
  sessExt : Octets
  deriving DecidableEq, Repr

def tcpv4MsgDecodeContact (buf : Octets) : Decoded Contact :=
  let (magic, r) := rBytes (rInit buf) tmsgMagic.length
  if magic.any fun m => m ≠ tmsgMagic then .bad
  else
    let (version, r) := rU8 r
    let (flags, r) := rU8 r
    if r.ok then .ok ⟨version, flags⟩ r.off else .need

def tcpv4MsgEncodeSessInit (cap : Nat) (m : SessInit) : Option Octets :=
  let w := wU8 (wInit cap) tmsgSessInit
  let w := wU16 w m.keepalive
  let w := wU64 w m.segmentMru
  let w := wU64 w m.transferMru
  let w := wU16 w m.nodeId.length
  let w := wBytes w m.nodeId
  let w := wU32 w m.sessExt.length
  (wBytes w m.sessExt).result

def tcpv4MsgDecodeSessInit (buf : Octets) : Decoded SessInit :=
  let (type, r) := rU8 (rInit buf)
  if type != tmsgSessInit then (if r.ok then .bad else .need)
  else
    let (keepalive, r) := rU16 r
    let (segmentMru, r) := rU64 r
    let (transferMru, r) := rU64 r
    let (nodeIdLen, r) := rU16 r
    let (nodeId, r) := rBytes r nodeIdLen
    let (sessExtLen, r) := rU32 r
    let (sessExt, r) := rBytes r sessExtLen
    if !r.ok then .need
    else .ok ⟨keepalive, segmentMru, transferMru, nodeId.getD [], sessExt.getD []⟩ r.off

/-! ## Configuration and the certificate of the peer -/

/-- `TCPV4_TLS_*`. -/
inductive TlsPolicy where
  | require
  | prefer
  | disable
  deriving DecidableEq, Repr

/-- `TCPV4_EIDPOL_*`, and likewise `TCPV4_EKUPOL_*`. -/
inductive CertPolicy where
  | require
  | prefer
  | none
  deriving DecidableEq, Repr

structure ClaConfig where
  noVerify : Bool
  tlsPolicy : TlsPolicy
  eidPolicy : CertPolicy
  ekuPolicy : CertPolicy
  keepalive : Nat
  segmentMru : Nat
  transferMru : Nat
  /-- The engine's own node ID. -/
  nodeId : Octets
  deriving DecidableEq, Repr

/-- `TCPV4_NODEID_*`. -/
inductive NodeIdMatch where
  | success
  | absent
  | failure
  | error
  deriving DecidableEq, Repr

/-- `TCPV4_KU_*`. -/
inductive KeyUsage where
  | ok
  | absent
  | wrong
  | error
  deriving DecidableEq, Repr

/-- `TCPV4_EKU_*`. -/
inductive KeyPurpose where
  | present
  | noBundle
  | absent
  | wrong
  | error
  deriving DecidableEq, Repr

/-- What the TLS backend answers about a handshake and the peer's certificate. -/
structure TlsConn where
  tlsMatchNodeId : Octets → NodeIdMatch
  tlsCheckKeyUsage : KeyUsage
  tlsCheckKeyPurpose : KeyPurpose
  tlsPeerAuthenticated : Bool

/-! ## A session, as the engine sees it -/

/-- `TCS_*`. -/
inductive ConnState where
  | negotiating
  | established
  | ending
  deriving DecidableEq, Repr

/-- How far the receiver thread of a session has got: to the calls of `tcpv4Establish`, in the
    message loop, past it. -/
inductive EstablishPc where
  | beginning
  | contact
  | handshake
  | sessInit
  | establishing
  | running
  | failing
  | finishing
  | done
  deriving DecidableEq, Repr

/-- The part of `Tcpv4Conn` that the engine lock guards.  `serial` counts the calls of
    `startConn` before the one that made the session; it stands for its address. -/
structure Tcpv4Conn where
  serial : Nat
  activeRole : Bool
  state : ConnState
  failed : Bool
  receiverDone : Bool
  busy : Bool
  tls : Option TlsConn
  peerNodeId : Octets
  dialNodeId : Octets
  routeNodeId : Octets
  peerAuthenticated : Bool
  nodeIdAuthenticated : Bool
  keepalive : Nat
  segmentMtu : Nat
  transferMtu : Nat
  txSenders : Nat
  pc : EstablishPc

/-- Why a session is not acceptable: what is noted, and the reason of the SESS_TERM. -/
structure Refusal where
  memo : Option String
  term : Option UInt8
  deriving DecidableEq, Repr

/-- A SESS_TERM "Contact Failure", and a note. -/
def contactFailure {α : Type} (memo : String) : Except Refusal α :=
  .error ⟨some memo, some tmsgTermContactFailure⟩

/-! ## Contact headers -/

/-- `exchangeContact`, once the contact header of the peer is there: Enable TLS. -/
def applyContact (cfg : ClaConfig) (c : Tcpv4Conn) (peer : Contact) : Except Refusal Bool :=
  if peer.version ≠ tmsgVersion then
    if c.activeRole then .error ⟨some "[?] tcpv4cla peer speaks another TCPCL version", none⟩
    else .error ⟨none, some tmsgTermVersionMismatch⟩
  else
    let enableTls := cfg.tlsPolicy ≠ .disable && hasFlag peer.flags tmsgContactCanTls
    if !enableTls && cfg.tlsPolicy = .require then
      contactFailure "[?] tcpv4cla requires TLS but peer cannot"
    else .ok enableTls

def recvContact (s : Octets) : Recv Contact :=
  (tcpv4ConnRecv tmsgContactLen s).bind fun buf s =>
    match tcpv4MsgDecodeContact buf with
    | .ok m _ => .got m s
    | _ => .fail

/-! ## The certificate profile -/

def checkCertProfile (cfg : ClaConfig) (tls : TlsConn) : Except Refusal Unit :=
  if tls.tlsCheckKeyUsage = .wrong then
    contactFailure ("[?] tcpv4cla: peer's certificate key usage does not allow the " ++
      "signature that authenticated it (RFC 9174 4.4.4.1);")
  else
    match tls.tlsCheckKeyPurpose with
    | .wrong =>
      contactFailure "[?] tcpv4cla: peer's certificate is not valid for this role (RFC 9174 4.4.2);"
    | .noBundle =>
      if cfg.ekuPolicy = .require then
        contactFailure ("[?] tcpv4cla: peer's certificate carries no id-kp-bundleSecurity and " ++
          "policy requires one;")
      else .ok ()
    | _ => .ok ()

/-! ## SESS_INIT -/

/-- The walk over the session extension items. -/
inductive ExtCheck where
  | fine
  | critical
  | malformed
  deriving DecidableEq, Repr

/-- Each item takes at least one octet, so the length of the list is fuel enough. -/
def checkSessExtFrom : Nat → Octets → ExtCheck
  | 0, _ => .malformed
  | fuel + 1, list =>
    match tcpv4MsgNextExtItem list with
    | .done => .fine
    | .bad => .malformed
    | .item it rest =>
      if hasFlag it.flags tmsgExtCritical then .critical else checkSessExtFrom fuel rest

def checkSessExt (list : Octets) : ExtCheck := checkSessExtFrom (list.length + 1) list

/-- What `applySessInit` takes for the claim of the peer.  A well-formed node ID has no NUL. -/
def claimedNodeId (peer : SessInit) : Octets :=
  if 0 < peer.nodeId.length ∧ peer.nodeId.length < tcpv4MaxNodeIdLen then peer.nodeId else []

/-- Whether the certificate authenticates the claim.  It is asked only when the peer is
    verified, the policy wants it and there is a claim. -/
def authenticateNodeId (cfg : ClaConfig) (c : Tcpv4Conn) (claimed : Octets) :
    Except Refusal Bool :=
  match c.tls with
  | none => .ok false
  | some tls =>
    if !cfg.noVerify && cfg.eidPolicy ≠ .none && claimed ≠ [] then
      match tls.tlsMatchNodeId claimed with
      | .success => .ok true
      | .failure =>
        contactFailure ("[?] tcpv4cla: peer's certificate does not authenticate the node ID " ++
          "it claims;")
      | _ =>
        if cfg.eidPolicy = .require then
          contactFailure ("[?] tcpv4cla: peer's certificate carries no NODE-ID and policy " ++
            "requires one;")
        else .ok false
    else .ok false

/-- The node the session may carry bundles to. -/
def routeNodeIdFor (cfg : ClaConfig) (c : Tcpv4Conn) (claimed : Octets) (authenticated : Bool) :
    Octets :=
  if authenticated then claimed
  else if c.activeRole then
    -- A peer that was dialled may name no other node than the one it was dialled for.
    if tcpv4NodeIdIsSet claimed && !tcpv4NodeIdMatches claimed c.dialNodeId then []
    else c.dialNodeId
  else if cfg.eidPolicy = .none && tcpv4NodeIdIsSet claimed then claimed
  else []

def applySessInit (cfg : ClaConfig) (c : Tcpv4Conn) (peer : SessInit) :
    Except Refusal Tcpv4Conn :=
  if peer.segmentMru = 0 ∨ peer.transferMru = 0 then
    contactFailure "[?] tcpv4cla got an unusable MRU from"
  else
    match checkSessExt peer.sessExt with
    | .critical =>
      contactFailure "[?] tcpv4cla got a critical session extension it cannot handle from"
    | .malformed =>
      contactFailure "[?] tcpv4cla got a malformed session extension list from"
    | .fine =>
      if peer.nodeId ≠ [] ∧ tcpv4NodeIdIsWellFormed peer.nodeId = false then
        contactFailure "[?] tcpv4cla got a malformed node ID from"
      else
        let claimed := claimedNodeId peer
        match authenticateNodeId cfg c claimed with
        | .error refusal => .error refusal
        | .ok authenticated =>
          .ok { c with
            segmentMtu := peer.segmentMru
            transferMtu := peer.transferMru
            keepalive :=
              if peer.keepalive < cfg.keepalive then peer.keepalive else cfg.keepalive
            peerNodeId := claimed
            nodeIdAuthenticated := authenticated
            routeNodeId := routeNodeIdFor cfg c claimed authenticated }

/-- What follows the fixed part of a SESS_INIT, for a node ID of a given length. -/
def recvSessInitRest (fixed : Octets) (nodeIdLen : Nat) (s : Octets) : Recv SessInit :=
  if nodeIdLen ≥ tcpv4MaxNodeIdLen then .fail
  else
    (tcpv4ConnRecv nodeIdLen s).bind fun nodeId s =>
      (tcpv4ConnRecv 4 s).bind fun lenOctets s =>
        let extLen := beNat lenOctets
        if extLen > tcpv4MaxExtLen then .fail
        else
          (tcpv4ConnRecv extLen s).bind fun ext s =>
            let buf := tmsgSessInit :: fixed ++ nodeId ++ lenOctets ++ ext
            match tcpv4MsgDecodeSessInit buf with
            | .ok m used => if used = buf.length then .got m s else .fail
            | _ => .fail

/-- `recvSessInit` up to the message itself.  Anything else than a SESS_INIT fails. -/
def recvSessInit (s : Octets) : Recv SessInit :=
  (tcpv4ConnRecv 1 s).bind fun type s =>
    if type ≠ [tmsgSessInit] then .fail
    else
      (tcpv4ConnRecv 20 s).bind fun fixed s =>
        recvSessInitRest fixed (beNat (fixed.drop 18)) s

end IonContrib.Tcpv4
