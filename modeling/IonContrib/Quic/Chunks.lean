/-
  IonContrib.Quic.Chunks

  One stream in whichever chunks QUIC hands it over.

  `sessRecvSig` and `recvStreamDataCb` put a chunk behind what is left of the ones
  before it and take what messages there are.  Apart from the two receive buffers,
  what a connection comes to is what `sigParser` and `xferParser` make of all the
  octets at once (`recvSig_keepsStep`, `recvData_keepsStep`), so the chunks do not
  matter.

  Which requests for memory are answered and which bundles are taken are fixed by
  the place in the stream; for the receive buffers themselves, which grow by the
  chunk, there is memory.
-/
import IonContrib.Quic.Front

namespace IonContrib.Quic

open Octets

/-! ## The signalling stream -/

/-- The connection, and the octets of each message that was handled. -/
structure SigRun where
  conn : SigConn
  handled : List Octets

/-- How many octets have been handled: the place of the next message in the stream. -/
def SigRun.pos (w : SigRun) : Nat := w.handled.flatten.length

/-- The messages that the loop of `sessParseSig` handles from `off` on. -/
def sigHandled (cfg : SigCfg) (mem : Nat → Bool) : Nat → SigConn → Nat → List Octets
  | 0, _, _ => []
  | fuel + 1, c, off =>
    match sigRound cfg (mem off) c (c.sigRx.drop off) with
    | .stop => []
    | .bad _ => []
    | .next c' n => (c.sigRx.drop off).take n :: sigHandled cfg mem fuel c' (off + n)

/-- A chunk of the signalling stream.  `memAt` says at which places of the stream there is memory
    for an answer, `rxMem` whether there is for the receive buffer. -/
def recvSig (cfg : SigCfg) (rxMem : Bool) (memAt : Nat → Bool) (w : SigRun) (data : Octets) :
    SigRun × Bool :=
  let mem := fun off => memAt (w.pos + off)
  let out := sessRecvSig cfg rxMem mem w.conn data
  let handled :=
    match sigStore rxMem w.conn data with
    | none => []
    | some c => sigHandled cfg mem (c.sigRx.length + 1) c 0
  (⟨out.1, w.handled ++ handled⟩, out.2)

namespace SigConn

/-- The same connection with another receive buffer. -/
def withRx (c : SigConn) (sigRx : Octets) (sigRxCap : Nat) : SigConn :=
  { c with sigRx := sigRx, sigRxCap := sigRxCap }

def bare (c : SigConn) : SigConn := c.withRx [] 0

section

variable (cfg : SigCfg) (mem : Bool) (c : SigConn) (rx : Octets) (cap : Nat)

theorem sigQueue_withRx (bytes : Octets) :
    sigQueue mem (c.withRx rx cap) bytes =
      ((sigQueue mem c bytes).1.withRx rx cap, (sigQueue mem c bytes).2) := by
  unfold sigQueue
  dsimp only
  by_cases h_grow : c.sigTx.length + bytes.length > c.sigTxCap
  · have h_grow' : (c.withRx rx cap).sigTx.length + bytes.length > (c.withRx rx cap).sigTxCap :=
      h_grow
    rw [if_pos h_grow, if_pos h_grow']
    cases mem with
    | true => rfl
    | false => rfl
  · have h_grow' : ¬ (c.withRx rx cap).sigTx.length + bytes.length > (c.withRx rx cap).sigTxCap :=
      h_grow
    rw [if_neg h_grow, if_neg h_grow']
    rfl

theorem sendSessInit_withRx :
    sendSessInit cfg mem (c.withRx rx cap) =
      ((sendSessInit cfg mem c).1.withRx rx cap, (sendSessInit cfg mem c).2) := by
  unfold sendSessInit
  cases quicMsgEncodeSessInit 128 (sessInit cfg) with
  | none => rfl
  | some out => exact sigQueue_withRx mem { c with sessInitSent := true } rx cap out

theorem sendSessTerm_withRx (reason : UInt8) (reply : Bool) :
    sendSessTerm mem (c.withRx rx cap) reason reply =
      ((sendSessTerm mem c reason reply).1.withRx rx cap, (sendSessTerm mem c reason reply).2) := by
  unfold sendSessTerm
  split
  · rfl
  · exact sigQueue_withRx mem { c with termSent := true } rx cap _

theorem sendMsgReject_withRx (rejectedType reason : UInt8) :
    sendMsgReject mem (c.withRx rx cap) rejectedType reason =
      ((sendMsgReject mem c rejectedType reason).1.withRx rx cap,
        (sendMsgReject mem c rejectedType reason).2) := by
  unfold sendMsgReject
  split
  · rfl
  · exact sigQueue_withRx mem c rx cap _

theorem notePeerNode_withRx (peer : QuicSessInit) :
    notePeerNode (c.withRx rx cap) peer = (notePeerNode c peer).withRx rx cap := by
  rw [notePeerNode_eq, notePeerNode_eq]
  rfl

theorem handleSessInit_withRx (peer : QuicSessInit) :
    handleSessInit cfg mem (c.withRx rx cap) peer =
      ((handleSessInit cfg mem c peer).1.withRx rx cap, (handleSessInit cfg mem c peer).2) := by
  have h_note : notePeerNode (sessNegotiate cfg (c.withRx rx cap) peer) peer =
      (notePeerNode (sessNegotiate cfg c peer) peer).withRx rx cap :=
    notePeerNode_withRx (sessNegotiate cfg c peer) rx cap peer
  have h_reply : ∀ c₁ : SigConn, replySessInit cfg mem (c₁.withRx rx cap) =
      ((replySessInit cfg mem c₁).1.withRx rx cap, (replySessInit cfg mem c₁).2) := by
    intro c₁
    unfold replySessInit
    by_cases h_first : (!c₁.clientRole) = true ∧ (!c₁.sessInitSent) = true
    · have h_first' : (!(c₁.withRx rx cap).clientRole) = true ∧
          (!(c₁.withRx rx cap).sessInitSent) = true := h_first
      rw [if_pos h_first, if_pos h_first']
      exact sendSessInit_withRx cfg mem c₁ rx cap
    · have h_first' : ¬ ((!(c₁.withRx rx cap).clientRole) = true ∧
          (!(c₁.withRx rx cap).sessInitSent) = true) := h_first
      rw [if_neg h_first, if_neg h_first']
  unfold handleSessInit
  rw [h_note, h_reply]
  obtain ⟨c₂, ok, h_done⟩ : ∃ c₂ ok,
      replySessInit cfg mem (notePeerNode (sessNegotiate cfg c peer) peer) = (c₂, ok) :=
    ⟨_, _, rfl⟩
  rw [h_done]
  cases ok with
  | true => rfl
  | false => rfl

theorem handleSessTerm_withRx :
    handleSessTerm mem (c.withRx rx cap) = (handleSessTerm mem c).withRx rx cap := by
  unfold handleSessTerm
  dsimp only
  by_cases h_first : (!c.termSent) = true
  · have h_first' : (!(c.withRx rx cap).termSent) = true := h_first
    rw [if_pos h_first, if_pos h_first']
    exact congrArg Prod.fst
      (sendSessTerm_withRx mem { c with sessState := .ending } rx cap qmsgTermUnknown true)
  · have h_first' : ¬ (!(c.withRx rx cap).termSent) = true := h_first
    rw [if_neg h_first, if_neg h_first']
    rfl

/-- Nothing that is done with a message depends on the receive buffer. -/
theorem sigHandle_withRx (m : SigMsg) :
    (c.withRx rx cap).sigHandle cfg mem m =
      ((c.sigHandle cfg mem m).1.withRx rx cap, (c.sigHandle cfg mem m).2) := by
  cases m with
  | sessInit peer => exact handleSessInit_withRx cfg mem c rx cap peer
  | keepalive => rfl
  | sessTerm m => exact congrArg (·, true) (handleSessTerm_withRx mem c rx cap)
  | msgReject m => rfl
  | unknown type =>
    exact congrArg (fun out : SigConn × Bool => (out.1, false))
      (sendMsgReject_withRx mem c rx cap type qmsgRejectUnsupported)

theorem sigHandle_sigRx (m : SigMsg) : (c.sigHandle cfg mem m).1.sigRx = c.sigRx := by
  have h_same : c = c.withRx c.sigRx c.sigRxCap := rfl
  rw [h_same, sigHandle_withRx]
  rfl

end

end SigConn

/-- What is done with a message, given its octets. -/
def sigTake (cfg : SigCfg) (memAt : Nat → Bool) (s : SigRun) (octets : Octets) (m : SigMsg) :
    SigRun × Bool :=
  let out := s.conn.sigHandle cfg (memAt s.pos) m
  (⟨out.1, s.handled ++ if out.2 then [octets] else []⟩, out.2)

/-- The signalling stream as a whole. -/
def sigParser (cfg : SigCfg) (memAt : Nat → Bool) : FrontParser SigRun UInt8 :=
  settled_sigFront.parser (sigTake cfg memAt)

/-- Where the parser is when the connection is as in `w`. -/
def SigRun.bare (w : SigRun) : SigRun := ⟨w.conn.bare, w.handled⟩

section

variable (cfg : SigCfg) (memAt : Nat → Bool)

theorem sigTake_bare (c : SigConn) (handled : List Octets) {base off : Nat}
    (h_pos : handled.flatten.length = base + off) (octets : Octets) (m : SigMsg) :
    sigTake cfg memAt ⟨c.bare, handled⟩ octets m =
      (⟨(c.sigHandle cfg (memAt (base + off)) m).1.bare,
        handled ++ if (c.sigHandle cfg (memAt (base + off)) m).2 then [octets] else []⟩,
        (c.sigHandle cfg (memAt (base + off)) m).2) := by
  have h_at : (SigRun.mk c.bare handled).pos = base + off := h_pos
  unfold sigTake
  dsimp only
  rw [h_at, SigConn.bare, SigConn.sigHandle_withRx]
  rfl

/-- The loop of `sessParseSig` from `off` on, `base + off` octets into the stream, does what the
    parser does. -/
theorem sessParseSigFrom_parse (fuel : Nat) (c : SigConn) {handled : List Octets}
    {base off : Nat} (h_pos : handled.flatten.length = base + off) :
    (sigParser cfg memAt).parseFrom fuel ⟨c.bare, handled⟩ (c.sigRx.drop off) =
      ⟨⟨(sessParseSigFrom cfg (fun i => memAt (base + i)) fuel c off).1.bare,
          handled ++ sigHandled cfg (fun i => memAt (base + i)) fuel c off⟩,
        if (sessParseSigFrom cfg (fun i => memAt (base + i)) fuel c off).2 then
          some (sessParseSigFrom cfg (fun i => memAt (base + i)) fuel c off).1.sigRx
        else none⟩ := by
  induction fuel generalizing c off handled with
  | zero =>
    rw [sigHandled, List.append_nil]
    rfl
  | succ fuel ih =>
    have h_take := sigTake_bare cfg memAt c handled h_pos
    rw [sigHandled, sessParseSigFrom, sigRound_eq]
    generalize h_p : c.sigRx.drop off = p at h_take ⊢
    cases h_front : sigFront p with
    | need =>
      rw [FrontParser.parseFrom_more (msgLook_need (Or.inr h_front)), frontRound, ← h_p]
      dsimp only
      rw [List.append_nil]
      rfl
    | bad =>
      have h_some := sigFront_ne_nil (Or.inl h_front)
      rw [FrontParser.parseFrom_bad (msgLook_bad h_some h_front), frontRound]
      dsimp only
      rw [List.append_nil]
      rfl
    | ok m n =>
      have h_some := sigFront_ne_nil (Or.inr ⟨m, n, h_front⟩)
      obtain ⟨-, h_le, -⟩ := settled_sigFront.ok h_some h_front
      have h_one := h_take (p.take n) m
      rw [frontRound]
      cases h_ok : (c.sigHandle cfg (memAt (base + off)) m).2 with
      | true =>
        rw [h_ok, if_pos rfl] at h_one
        have h_look := msgLook_next h_some h_front (congrArg Prod.snd h_one)
        have h_rx : (c.sigHandle cfg (memAt (base + off)) m).1.sigRx.drop (off + n) = p.drop n := by
          rw [SigConn.sigHandle_sigRx, ← List.drop_drop, h_p]
        have h_next : (handled ++ [p.take n]).flatten.length = base + (off + n) := by
          rw [List.flatten_append, List.flatten_singleton, List.length_append, h_pos,
            List.length_take]
          omega
        rw [FrontParser.parseFrom_next h_look, h_one, if_pos rfl]
        dsimp only
        rw [← h_rx, ih _ h_next, List.append_assoc]
        rfl
      | false =>
        rw [h_ok, if_neg Bool.false_ne_true] at h_one
        have h_look := msgLook_failed h_some h_front (congrArg Prod.snd h_one)
        rw [FrontParser.parseFrom_bad h_look, h_one, if_neg Bool.false_ne_true]
        dsimp only
        rfl

theorem sigStore_of_mem (c : SigConn) (data : Octets) :
    ∃ cap, sigStore true c data = some (c.withRx (c.sigRx ++ data) cap) := by
  unfold sigStore
  dsimp only
  split
  · exact ⟨_, rfl⟩
  · exact ⟨c.sigRxCap, rfl⟩

theorem recvSig_keepsStep :
    KeepsStep (recvSig cfg true memAt) (sigParser cfg memAt) SigRun.bare fun w => w.conn.sigRx := by
  intro w data _
  obtain ⟨cap, h_store⟩ := sigStore_of_mem w.conn data
  have h_pos : w.handled.flatten.length = w.pos + 0 := rfl
  have h_parse := sessParseSigFrom_parse cfg memAt ((w.conn.sigRx ++ data).length + 1)
    (w.conn.withRx (w.conn.sigRx ++ data) cap) h_pos
  unfold recvSig sessRecvSig
  dsimp only
  rw [h_store]
  exact h_parse

end

/-! ## A data stream -/

/-- The receiver, the bundles passed to the delivery callback, and the octets of each message that
    was handled. -/
structure DataRun where
  rx : StreamRx
  delivered : List Octets
  handled : List Octets

/-- The messages that the loop of `deliverBundles` handles at the octets `buf`. -/
def xferHandled (env : StreamEnv) : Nat → StreamRx → Octets → List Octets → List Octets
  | 0, _, _, _ => []
  | fuel + 1, q, buf, delivered =>
    match xferFront buf with
    | .need => []
    | .bad => []
    | .ok m n =>
      let out := xferHandle q env.xferMem (decide (env.refuses ≠ some delivered.length)) m
      if out.ok then
        buf.take n ::
          xferHandled env fuel out.rx (buf.drop n) (delivered ++ out.delivered.toList)
      else []

/-- Which bundle of a call is refused, `n` having been passed on before. -/
def refusesFrom (refuses : Option Nat) (n : Nat) : Option Nat :=
  refuses.bind fun r => if n ≤ r then some (r - n) else none

/-- A chunk of the data stream `streamId`; QUIC may also call with no octets.  `refuses` is the
    bundle of the stream, if any, that the delivery callback does not take. -/
def recvData (rxMem xferMem : Bool) (refuses : Option Nat) (streamId : Int) (w : DataRun)
    (data : Octets) : DataRun × Bool :=
  if data = [] then (w, true)
  else
    let env : StreamEnv := ⟨rxMem, xferMem, refusesFrom refuses w.delivered.length⟩
    let out := recvStreamDataCb env w.rx streamId data
    let handled :=
      match rxGrow { w.rx with ackStreamId := streamId } (w.rx.rxBuf.length + data.length)
        rxMem with
      | none => []
      | some q =>
        xferHandled env ((w.rx.rxBuf ++ data).length + 1) { q with rxBuf := w.rx.rxBuf ++ data }
          (w.rx.rxBuf ++ data) []
    (⟨out.rx, w.delivered ++ out.delivered, w.handled ++ handled⟩, out.ok)

/-- The same receiver with another receive buffer, for another stream. -/
def StreamRx.withRx (q : StreamRx) (streamId : Int) (rxBuf : Octets) (rxCap : Nat) : StreamRx :=
  { q with ackStreamId := streamId, rxBuf := rxBuf, rxCap := rxCap }

def StreamRx.bare (q : StreamRx) : StreamRx := q.withRx 0 [] 0

section

variable (q : StreamRx) (streamId : Int) (rx : Octets) (cap : Nat)

theorem xferBegin_withRx (seg : QuicXferSegment) :
    xferBegin (q.withRx streamId rx cap) seg = (xferBegin q seg).withRx streamId rx cap := by
  unfold xferBegin
  by_cases h_start : seg.isStart = true
  · rw [if_pos h_start, if_pos h_start]
    rfl
  · rw [if_neg h_start, if_neg h_start]

theorem xferGrow_withRx (want : Nat) (mem : Bool) :
    xferGrow (q.withRx streamId rx cap) want mem =
      (xferGrow q want mem).map fun q => q.withRx streamId rx cap := by
  unfold xferGrow
  by_cases h_grow : want > q.xferCap
  · have h_grow' : want > (q.withRx streamId rx cap).xferCap := h_grow
    rw [if_pos h_grow, if_pos h_grow']
    cases mem with
    | true => rfl
    | false => rfl
  · have h_grow' : ¬ want > (q.withRx streamId rx cap).xferCap := h_grow
    rw [if_neg h_grow, if_neg h_grow']
    rfl

/-- What came of a segment, for another receive buffer. -/
def XferOut.withRx (out : XferOut) : XferOut := { out with rx := out.rx.withRx streamId rx cap }

theorem xferStore_withRx (seg : QuicXferSegment) (segData : Octets) (takes : Bool) :
    xferStore (q.withRx streamId rx cap) seg segData takes =
      (xferStore q seg segData takes).withRx streamId rx cap := by
  unfold xferStore
  dsimp only
  by_cases h_more : (!seg.isEnd) = true
  · rw [if_pos h_more, if_pos h_more]
    rfl
  · rw [if_neg h_more, if_neg h_more]
    by_cases h_len : (q.xfer ++ segData).length ≠ q.xferBundleLen
    · have h_len' : ((q.withRx streamId rx cap).xfer ++ segData).length ≠
          (q.withRx streamId rx cap).xferBundleLen := h_len
      rw [if_pos h_len, if_pos h_len']
      rfl
    · have h_len' : ¬ ((q.withRx streamId rx cap).xfer ++ segData).length ≠
          (q.withRx streamId rx cap).xferBundleLen := h_len
      rw [if_neg h_len, if_neg h_len']
      rfl

theorem xferReassemble_withRx (seg : QuicXferSegment) (segData : Octets) (mem takes : Bool) :
    xferReassemble (q.withRx streamId rx cap) seg segData mem takes =
      (xferReassemble q seg segData mem takes).withRx streamId rx cap := by
  unfold xferReassemble
  dsimp only
  rw [xferBegin_withRx]
  generalize xferBegin q seg = q₁
  by_cases h_none : (!q₁.xferActive) = true
  · have h_none' : (!(q₁.withRx streamId rx cap).xferActive) = true := h_none
    rw [if_pos h_none, if_pos h_none']
    rfl
  · have h_none' : ¬ (!(q₁.withRx streamId rx cap).xferActive) = true := h_none
    rw [if_neg h_none, if_neg h_none']
    by_cases h_over : seg.segmentLength > q₁.xferBundleLen ∨
        q₁.xfer.length > q₁.xferBundleLen - seg.segmentLength
    · have h_over' : seg.segmentLength > (q₁.withRx streamId rx cap).xferBundleLen ∨
          (q₁.withRx streamId rx cap).xfer.length >
            (q₁.withRx streamId rx cap).xferBundleLen - seg.segmentLength := h_over
      rw [if_pos h_over, if_pos h_over']
      rfl
    · have h_over' : ¬ (seg.segmentLength > (q₁.withRx streamId rx cap).xferBundleLen ∨
          (q₁.withRx streamId rx cap).xfer.length >
            (q₁.withRx streamId rx cap).xferBundleLen - seg.segmentLength) := h_over
      rw [if_neg h_over, if_neg h_over', xferGrow_withRx]
      have h_len : (q₁.withRx streamId rx cap).xfer.length = q₁.xfer.length := rfl
      rw [h_len]
      cases xferGrow q₁ (q₁.xfer.length + seg.segmentLength) mem with
      | none => rfl
      | some q₂ => exact xferStore_withRx q₂ streamId rx cap seg segData takes

/-- Nothing that is done with a message depends on the receive buffer or the stream. -/
theorem xferHandle_withRx (mem takes : Bool) (m : XferMsg) :
    xferHandle (q.withRx streamId rx cap) mem takes m =
      (xferHandle q mem takes m).withRx streamId rx cap := by
  cases m with
  | segment seg segData => exact xferReassemble_withRx q streamId rx cap seg segData mem takes
  | xferAck m => rfl
  | xferRefuse m => rfl

end

/-- What is done with a message, given its octets. -/
def xferTake (xferMem : Bool) (refuses : Option Nat) (s : DataRun) (octets : Octets)
    (m : XferMsg) : DataRun × Bool :=
  let out := xferHandle s.rx xferMem (decide (refuses ≠ some s.delivered.length)) m
  (⟨out.rx, s.delivered ++ out.delivered.toList, s.handled ++ if out.ok then [octets] else []⟩,
    out.ok)

/-- A data stream as a whole. -/
def xferParser (xferMem : Bool) (refuses : Option Nat) : FrontParser DataRun UInt8 :=
  settled_xferFront.parser (xferTake xferMem refuses)

def DataRun.bare (w : DataRun) : DataRun := ⟨w.rx.bare, w.delivered, w.handled⟩

theorem refusesFrom_eq_some {refuses : Option Nat} {n k : Nat} :
    refusesFrom refuses n = some k ↔ refuses = some (n + k) := by
  unfold refusesFrom
  rw [Option.bind_eq_some_iff]
  constructor
  · rintro ⟨r, rfl, h_some⟩
    obtain ⟨h_le, h_eq⟩ := Option.ite_none_right_eq_some.mp h_some
    have h_k := Option.some.inj h_eq
    congr 1
    omega
  · rintro rfl
    refine ⟨n + k, rfl, ?_⟩
    rw [if_pos (Nat.le_add_right n k), Nat.add_sub_cancel_left]

/-- What a call of `deliverBundles` leaves, as the parser has it. -/
def ParseOut.parsed (out : ParseOut) (before handled : List Octets) : Parsed DataRun UInt8 :=
  ⟨⟨out.rx.bare, before ++ out.delivered, handled⟩, if out.ok then some out.rx.rxBuf else none⟩

section

variable {env : StreamEnv} {refuses : Option Nat} {before : List Octets}

theorem xferTake_bare (h_env : env.refuses = refusesFrom refuses before.length) (q : StreamRx)
    (delivered handled : List Octets) (octets : Octets) (m : XferMsg) :
    xferTake env.xferMem refuses ⟨q.bare, before ++ delivered, handled⟩ octets m =
      (⟨(xferHandle q env.xferMem (decide (env.refuses ≠ some delivered.length)) m).rx.bare,
        before ++ (delivered ++
          (xferHandle q env.xferMem (decide (env.refuses ≠ some delivered.length)) m).delivered.toList),
        handled ++
          if (xferHandle q env.xferMem (decide (env.refuses ≠ some delivered.length)) m).ok then
            [octets] else []⟩,
        (xferHandle q env.xferMem (decide (env.refuses ≠ some delivered.length)) m).ok) := by
  have h_takes : decide (refuses ≠ some (before ++ delivered).length) =
      decide (env.refuses ≠ some delivered.length) := by
    rw [h_env, List.length_append]
    exact decide_eq_decide.mpr (not_congr refusesFrom_eq_some).symm
  unfold xferTake
  dsimp only
  rw [h_takes, StreamRx.bare, xferHandle_withRx, List.append_assoc]
  rfl

/-- The loop of `deliverBundles` does what the parser does, `before` having been delivered by the
    calls before. -/
theorem deliverBundlesFrom_parse (h_env : env.refuses = refusesFrom refuses before.length)
    (fuel : Nat) (q : StreamRx) (buf : Octets) (delivered handled : List Octets) :
    (xferParser env.xferMem refuses).parseFrom fuel ⟨q.bare, before ++ delivered, handled⟩ buf =
      (deliverBundlesFrom env fuel q buf delivered).parsed before
        (handled ++ xferHandled env fuel q buf delivered) := by
  induction fuel generalizing q buf delivered handled with
  | zero =>
    rw [xferHandled, List.append_nil]
    rfl
  | succ fuel ih =>
    have h_take := xferTake_bare h_env q delivered handled
    rw [deliverBundlesFrom_eq, xferHandled]
    cases h_front : xferFront buf with
    | need =>
      rw [FrontParser.parseFrom_more (msgLook_need (Or.inr h_front)), frontDeliver]
      dsimp only
      rw [List.append_nil]
      rfl
    | bad =>
      have h_some := xferFront_ne_nil (Or.inl h_front)
      rw [FrontParser.parseFrom_bad (msgLook_bad h_some h_front), frontDeliver]
      dsimp only
      rw [List.append_nil]
      rfl
    | ok m n =>
      have h_some := xferFront_ne_nil (Or.inr ⟨m, n, h_front⟩)
      have h_one := h_take (buf.take n) m
      rw [frontDeliver]
      dsimp only
      generalize xferHandle q env.xferMem (decide (env.refuses ≠ some delivered.length)) m = out
        at h_one ⊢
      cases h_ok : out.ok with
      | true =>
        rw [h_ok, if_pos rfl] at h_one
        have h_look := msgLook_next h_some h_front (congrArg Prod.snd h_one)
        rw [FrontParser.parseFrom_next h_look, h_one, if_pos rfl, if_pos rfl]
        dsimp only
        rw [ih, List.append_assoc]
        rfl
      | false =>
        rw [h_ok, if_neg Bool.false_ne_true] at h_one
        have h_look := msgLook_failed h_some h_front (congrArg Prod.snd h_one)
        rw [FrontParser.parseFrom_bad h_look, h_one, if_neg Bool.false_ne_true,
          if_neg Bool.false_ne_true]
        rfl

end

theorem rxGrow_withRx (q : StreamRx) (streamId : Int) (want : Nat) :
    ∃ cap, rxGrow { q with ackStreamId := streamId } want true =
      some (q.withRx streamId q.rxBuf cap) := by
  unfold rxGrow
  split
  · exact ⟨_, rfl⟩
  · exact ⟨q.rxCap, rfl⟩

theorem xferHandle_stream (q : StreamRx) (mem takes : Bool) (m : XferMsg) :
    (xferHandle q mem takes m).rx.ackStreamId = q.ackStreamId := by
  have h_same : q = q.withRx q.ackStreamId q.rxBuf q.rxCap := rfl
  rw [h_same, xferHandle_withRx]
  rfl

theorem deliverBundlesFrom_stream (env : StreamEnv) (fuel : Nat) (q : StreamRx) (buf : Octets)
    (delivered : List Octets) :
    (deliverBundlesFrom env fuel q buf delivered).rx.ackStreamId = q.ackStreamId := by
  induction fuel generalizing q buf delivered with
  | zero => rfl
  | succ fuel ih =>
    rw [deliverBundlesFrom_eq]
    cases xferFront buf with
    | need => rfl
    | bad => rfl
    | ok m n =>
      have h_stream := xferHandle_stream q env.xferMem
        (decide (env.refuses ≠ some delivered.length)) m
      rw [frontDeliver]
      split
      · rw [ih, h_stream]
      · exact h_stream

section

variable (xferMem : Bool) (refuses : Option Nat) (streamId : Int)

theorem recvData_nil (w : DataRun) : recvData true xferMem refuses streamId w [] = (w, true) :=
  if_pos rfl

/-- A chunk that is not empty. -/
theorem recvData_parse (w : DataRun) {data : Octets} (h_some : data ≠ []) :
    (xferParser xferMem refuses).parse w.bare (w.rx.rxBuf ++ data) =
        ⟨(recvData true xferMem refuses streamId w data).1.bare,
          if (recvData true xferMem refuses streamId w data).2 then
            some (recvData true xferMem refuses streamId w data).1.rx.rxBuf
          else none⟩ ∧
      (recvData true xferMem refuses streamId w data).1.rx.ackStreamId = streamId := by
  obtain ⟨cap, h_grow⟩ := rxGrow_withRx w.rx streamId (w.rx.rxBuf.length + data.length)
  have h_env : (⟨true, xferMem, refusesFrom refuses w.delivered.length⟩ : StreamEnv).refuses =
      refusesFrom refuses w.delivered.length := rfl
  have h_parse := deliverBundlesFrom_parse h_env ((w.rx.rxBuf ++ data).length + 1)
    (w.rx.withRx streamId (w.rx.rxBuf ++ data) cap) (w.rx.rxBuf ++ data) [] w.handled
  have h_stream := deliverBundlesFrom_stream
    ⟨true, xferMem, refusesFrom refuses w.delivered.length⟩ ((w.rx.rxBuf ++ data).length + 1)
    (w.rx.withRx streamId (w.rx.rxBuf ++ data) cap) (w.rx.rxBuf ++ data) []
  rw [List.append_nil] at h_parse
  unfold recvData recvStreamDataCb
  dsimp only
  rw [if_neg h_some, h_grow]
  exact ⟨h_parse, h_stream⟩

theorem recvData_keepsStep :
    KeepsStep (recvData true xferMem refuses streamId) (xferParser xferMem refuses) DataRun.bare
      fun w => w.rx.rxBuf := by
  intro w data h_wait
  by_cases h_some : data = []
  · subst h_some
    rw [List.append_nil, FrontParser.parse_more h_wait, recvData_nil]
    rfl
  · exact (recvData_parse xferMem refuses streamId w h_some).1

/-- Any octets at all make the stream the one that is acknowledged on. -/
theorem whileOk_stream (w : DataRun) (chunks : List Octets) :
    (whileOk (recvData true xferMem refuses streamId) w chunks).1.rx.ackStreamId =
      if chunks.flatten = [] then w.rx.ackStreamId else streamId := by
  induction chunks generalizing w with
  | nil => rfl
  | cons x chunks ih =>
    unfold whileOk
    rw [List.flatten_cons]
    by_cases h_some : x = []
    · subst h_some
      rw [recvData_nil, if_pos rfl, ih, List.nil_append]
    · have h_stream := (recvData_parse xferMem refuses streamId w h_some).2
      have h_all : x ++ chunks.flatten ≠ [] := List.append_ne_nil_of_left_ne_nil h_some _
      rw [if_neg h_all]
      split
      · rw [ih, h_stream, ite_self]
      · exact h_stream

end

/-! ## Frames -/

/-- The octets that `frameBundle` allocates. -/
def frameCap (peerSegmentMru len : Nat) : Nat :=
  len + frameSegments (frameSegMru peerSegmentMru) len * 40

theorem length_frameSegs_le (segMru txid len nSeg rounds segId : Nat) (src : Octets) :
    ((frameSegs segMru txid len nSeg rounds segId src).flatMap segWire).length ≤
      src.length + rounds * 40 := by
  induction rounds generalizing segId src with
  | zero => exact Nat.zero_le _
  | succ rounds ih =>
    have h_hdr := (length_hdr_frameSegment txid len nSeg segId (segLen segMru src)).2
    have h_len := segLen_le segMru src
    have h_rest := ih (segId + 1) (src.drop (segLen segMru src))
    rw [List.length_drop] at h_rest
    rw [frameSegs, List.flatMap_cons, List.length_append, segWire, List.length_append,
      length_take_segLen]
    dsimp only
    omega

/-- All segments are written, and within the buffer. -/
theorem frameBundle_room (peerSegmentMru txid : Nat) (bundle : Octets) :
    ∃ framed, frameBundle peerSegmentMru txid bundle true = some framed ∧
      framed.length ≤ frameCap peerSegmentMru bundle.length := by
  have h_room := length_frameSegs_le (frameSegMru peerSegmentMru) txid bundle.length
    (frameSegments (frameSegMru peerSegmentMru) bundle.length)
    (frameSegments (frameSegMru peerSegmentMru) bundle.length) 0 bundle
  have h_cap : ([] : Octets).length + bundle.length +
      frameSegments (frameSegMru peerSegmentMru) bundle.length * 40 ≤
        frameCap peerSegmentMru bundle.length := by
    rw [List.length_nil, Nat.zero_add]
    exact Nat.le_refl _
  exact ⟨_, frameFrom_eq h_cap, h_room⟩

/-- A frame in one chunk. -/
theorem recvData_frame {bundle framed : Octets} (h_small : bundle.length ≤ quicclaBufsz)
    (h_frame : Frame bundle framed) {q : StreamRx} (h_buf : q.rxBuf = []) (streamId : Int) :
    (recvData true true none streamId ⟨q, [], []⟩ framed).2 = true ∧
      (recvData true true none streamId ⟨q, [], []⟩ framed).1.delivered = [bundle] ∧
      (recvData true true none streamId ⟨q, [], []⟩ framed).1.rx.rxBuf = [] := by
  have h_sent : Sent.Ok ⟨bundle, framed⟩ := ⟨h_small, h_frame⟩
  have h_ok : ∀ f ∈ [(⟨bundle, framed⟩ : Sent)], f.Ok := by
    intro f h_f
    rw [List.mem_singleton.mp h_f]
    exact h_sent
  have h_octets : streamOctets [⟨bundle, framed⟩] = framed := List.append_nil framed
  have h_pos : 0 < framed.length := h_sent.framed_pos
  have h_some : framed ≠ [] := List.ne_nil_of_length_pos h_pos
  have h_all : 0 + framed.length ≤ (streamOctets [⟨bundle, framed⟩]).length := by
    rw [h_octets]
    omega
  have h_takes : (⟨true, true, refusesFrom none ([] : List Octets).length⟩ : StreamEnv).refuses =
      none := rfl
  obtain ⟨q', done, ahead, off, h_split, h_recv, h_ahead, h_off⟩ :=
    recvStreamDataCb_ahead rfl rfl h_takes (Ahead.of_nil h_buf h_ok) h_ok h_pos h_all streamId
  rw [h_octets, List.drop_zero, List.take_length] at h_recv
  -- Not all of the frame can still be ahead when all of its octets are there.
  have h_done : done = [⟨bundle, framed⟩] ∧ ahead = [] := by
    cases done with
    | nil =>
      rw [List.nil_append] at h_split
      subst h_split
      have h_lt : off < framed.length := h_ahead.off_lt
      have h_zero : (streamOctets []).length = 0 := rfl
      omega
    | cons f done =>
      obtain ⟨rfl, h_rest⟩ := List.cons.inj h_split
      obtain ⟨rfl, rfl⟩ := List.append_eq_nil_iff.mp h_rest.symm
      exact ⟨rfl, rfl⟩
  obtain ⟨rfl, rfl⟩ := h_done
  unfold recvData
  rw [if_neg h_some]
  dsimp only
  rw [h_recv]
  exact ⟨rfl, rfl, h_ahead.2⟩

/-! ## The chunks do not matter -/

/-- Two ways of receiving the signalling stream came to the same, but for what a receive buffer
    has grown to and what is left in it after a failure. -/
structure SameSig (a b : SigRun × Bool) : Prop where
  ok : a.2 = b.2
  handled : a.1.handled = b.1.handled
  conn : a.1.conn.bare = b.1.conn.bare
  rest : a.2 = true → a.1.conn.sigRx = b.1.conn.sigRx

/-- The same of a data stream. -/
structure SameData (a b : DataRun × Bool) : Prop where
  ok : a.2 = b.2
  delivered : a.1.delivered = b.1.delivered
  handled : a.1.handled = b.1.handled
  rx : a.1.rx.bare = b.1.rx.bare
  stream : a.1.rx.ackStreamId = b.1.rx.ackStreamId
  rest : a.2 = true → a.1.rx.rxBuf = b.1.rx.rxBuf

theorem sig_chunks (cfg : SigCfg) (memAt : Nat → Bool) {c : SigConn} (h_rx : c.sigRx = [])
    {chunks chunks' : List Octets} (h_same : chunks.flatten = chunks'.flatten) :
    SameSig (whileOk (recvSig cfg true memAt) ⟨c, []⟩ chunks)
      (whileOk (recvSig cfg true memAt) ⟨c, []⟩ chunks') := by
  have h_wait : (sigParser cfg memAt).look (SigRun.mk c []).bare c.sigRx = .more :=
    msgLook_need (Or.inl h_rx)
  obtain ⟨h_ok, h_bare, h_rest⟩ :=
    whileOk_chunks (recvSig_keepsStep cfg memAt) h_wait h_same
  obtain ⟨h_conn, h_handled⟩ := SigRun.mk.inj h_bare
  exact ⟨h_ok, h_handled, h_conn, h_rest⟩

theorem data_chunks (xferMem : Bool) (refuses : Option Nat) (streamId : Int) {q : StreamRx}
    (h_rx : q.rxBuf = []) {chunks chunks' : List Octets}
    (h_same : chunks.flatten = chunks'.flatten) :
    SameData (whileOk (recvData true xferMem refuses streamId) ⟨q, [], []⟩ chunks)
      (whileOk (recvData true xferMem refuses streamId) ⟨q, [], []⟩ chunks') := by
  have h_wait : (xferParser xferMem refuses).look (DataRun.mk q [] []).bare q.rxBuf = .more :=
    msgLook_need (Or.inl h_rx)
  obtain ⟨h_ok, h_bare, h_rest⟩ :=
    whileOk_chunks (recvData_keepsStep xferMem refuses streamId) h_wait h_same
  obtain ⟨h_conn, h_delivered, h_handled⟩ := DataRun.mk.inj h_bare
  refine ⟨h_ok, h_delivered, h_handled, h_conn, ?_, h_rest⟩
  rw [whileOk_stream, whileOk_stream, h_same]

/-- A frame in any chunks. -/
theorem frame_chunks {peerSegmentMru txid : Nat} (h_mru : peerSegmentMru < 2 ^ 64)
    (h_txid : txid < 2 ^ 64) {bundle framed : Octets} (h_small : bundle.length ≤ quicclaBufsz)
    (h_framed : frameBundle peerSegmentMru txid bundle true = some framed) (streamId : Int)
    {q : StreamRx} (h_rx : q.rxBuf = []) {chunks : List Octets} (h_chunks : chunks.flatten = framed) :
    (whileOk (recvData true true none streamId) ⟨q, [], []⟩ chunks).2 = true ∧
      (whileOk (recvData true true none streamId) ⟨q, [], []⟩ chunks).1.delivered = [bundle] ∧
      (whileOk (recvData true true none streamId) ⟨q, [], []⟩ chunks).1.rx.rxBuf = [] := by
  have h_same : chunks.flatten = [framed].flatten := by
    rw [h_chunks, List.flatten_singleton]
  have h_frame := frameBundle_frame h_mru h_txid h_framed
  obtain ⟨h_ok, h_delivered, h_rest⟩ := recvData_frame h_small h_frame h_rx streamId
  have h_one : whileOk (recvData true true none streamId) ⟨q, [], []⟩ [framed] =
      recvData true true none streamId ⟨q, [], []⟩ framed := by
    rw [whileOk, if_pos h_ok]
    exact Prod.ext rfl h_ok.symm
  have h_chunk := data_chunks true none streamId h_rx h_same
  rw [h_one] at h_chunk
  have h_all := h_chunk.ok.trans h_ok
  exact ⟨h_all, h_chunk.delivered.trans h_delivered, (h_chunk.rest h_all).trans h_rest⟩

/-- Neither stream is received otherwise when it comes in other chunks, and a bundle that
    `frameBundle` has written comes out of any chunks. -/
theorem chunks_do_not_matter :
    (∀ (cfg : SigCfg) (memAt : Nat → Bool) (c : SigConn) (chunks chunks' : List Octets),
      c.sigRx = [] → chunks.flatten = chunks'.flatten →
        SameSig (whileOk (recvSig cfg true memAt) ⟨c, []⟩ chunks)
          (whileOk (recvSig cfg true memAt) ⟨c, []⟩ chunks')) ∧
    (∀ (xferMem : Bool) (refuses : Option Nat) (streamId : Int) (q : StreamRx)
        (chunks chunks' : List Octets), q.rxBuf = [] → chunks.flatten = chunks'.flatten →
        SameData (whileOk (recvData true xferMem refuses streamId) ⟨q, [], []⟩ chunks)
          (whileOk (recvData true xferMem refuses streamId) ⟨q, [], []⟩ chunks')) ∧
    ∀ (peerSegmentMru txid : Nat) (bundle : Octets), 1 ≤ peerSegmentMru →
      peerSegmentMru < 2 ^ 64 → txid < 2 ^ 64 → bundle.length ≤ quicclaBufsz →
        ∃ framed, frameBundle peerSegmentMru txid bundle true = some framed ∧
          framed.length ≤ frameCap peerSegmentMru bundle.length ∧
          ∀ (streamId : Int) (q : StreamRx) (chunks : List Octets), q.rxBuf = [] →
            chunks.flatten = framed →
              (whileOk (recvData true true none streamId) ⟨q, [], []⟩ chunks).2 = true ∧
              (whileOk (recvData true true none streamId) ⟨q, [], []⟩ chunks).1.delivered =
                [bundle] ∧
              (whileOk (recvData true true none streamId) ⟨q, [], []⟩ chunks).1.rx.rxBuf = [] := by
  refine ⟨?_, ?_, ?_⟩
  · intro cfg memAt c chunks chunks' h_rx h_same
    exact sig_chunks cfg memAt h_rx h_same
  · intro xferMem refuses streamId q chunks chunks' h_rx h_same
    exact data_chunks xferMem refuses streamId h_rx h_same
  · intro peerSegmentMru txid bundle _ h_mru h_txid h_small
    obtain ⟨framed, h_framed, h_room⟩ := frameBundle_room peerSegmentMru txid bundle
    refine ⟨framed, h_framed, h_room, fun streamId q chunks h_rx h_chunks => ?_⟩
    exact frame_chunks h_mru h_txid h_small h_framed streamId h_rx h_chunks

/-- Two messages in one chunk and in two, and a frame octet by octet. -/
theorem chunks_do_not_matter_octets :
    SameSig (whileOk (recvSig ⟨30, 0, 1⟩ true fun _ => true) ⟨SigConn.init false, []⟩ [[5, 7, 1, 1]])
        (whileOk (recvSig ⟨30, 0, 1⟩ true fun _ => true) ⟨SigConn.init false, []⟩
          [[5, 7], [1, 1]]) ∧
      ∃ framed, frameBundle 2 0 [1, 2, 3] true = some framed ∧
        (whileOk (recvData true true none 4) ⟨StreamRx.init, [], []⟩
          (framed.map fun b => [b])).1.delivered = [[1, 2, 3]] := by
  refine ⟨chunks_do_not_matter.1 _ _ _ _ _ rfl rfl, ?_⟩
  obtain ⟨framed, h_framed, -, h_chunks⟩ := chunks_do_not_matter.2.2 2 0 [1, 2, 3] (by decide)
    (by decide) (by decide) (by decide)
  have h_flatten : (framed.map fun b => [b]).flatten = framed := List.flatMap_singleton' framed
  exact ⟨framed, h_framed, (h_chunks 4 StreamRx.init _ rfl h_flatten).2.1⟩

/-- What is left behind after a failure depends on the chunks, for nothing is taken out of the
    buffer then; and so does a failure for want of a larger buffer. -/
theorem chunks_leave_different :
    (∃ (cfg : SigCfg) (memAt : Nat → Bool) (c : SigConn) (chunks chunks' : List Octets),
      c.sigRx = [] ∧ chunks.flatten = chunks'.flatten ∧
        (whileOk (recvSig cfg true memAt) ⟨c, []⟩ chunks).1.conn ≠
          (whileOk (recvSig cfg true memAt) ⟨c, []⟩ chunks').1.conn) ∧
    ∃ (cfg : SigCfg) (memAt : Nat → Bool) (c : SigConn) (chunks chunks' : List Octets),
      c.sigRx = [] ∧ chunks.flatten = chunks'.flatten ∧
        (whileOk (recvSig cfg false memAt) ⟨c, []⟩ chunks).2 ≠
          (whileOk (recvSig cfg false memAt) ⟨c, []⟩ chunks').2 := by
  constructor
  · refine ⟨⟨30, 0, 1⟩, fun _ => true, SigConn.init false, [[5], [255]], [[5, 255]], rfl, rfl, ?_⟩
    decide
  · have h_same : [List.replicate 256 (5 : UInt8), [5]].flatten =
        [List.replicate 257 (5 : UInt8)].flatten := by decide +kernel
    refine ⟨⟨30, 0, 1⟩, fun _ => true, { SigConn.init false with sigRxCap := 256 }, _, _, rfl,
      h_same, ?_⟩
    decide +kernel

end IonContrib.Quic
