/-
  IonContrib.Quic.RxBounds

  How much a peer can make a connection hold (`sigRx`, `rxBuf`, `xfer`).

  What a parser leaves in its buffer is the beginning of one message, so it is
  bounded by the longest message.  That is a bound of this end only as far as the
  peer does not choose it: extension lists have 32-bit lengths, and no parser
  looks at one before all of the list is there (`extList_unbounded`).  With lists
  of at most `E` octets all buffers are bounded (`receive_bounded`).

  A session that has failed is still fed until it is reaped.  It hands back no
  flow-control credit, and QUIC takes no more from the peer than it has credit
  for, so what a buffer holds and the credit that is left do not grow together.
-/
import IonContrib.Quic.Buffers
import IonContrib.Quic.Front

namespace IonContrib.Quic

open Octets Lts

/-! ## Messages and their extension lists -/

def sessInitNodeIdLen (p : Octets) : Nat := beNat ((p.drop 27).take 2)

/-- The length of the extension list that the signalling message at the front announces, if it is
    there to be read. -/
def sigExtLen : Octets → Nat
  | [] => 0
  | type :: rest =>
    let p := type :: rest
    if type = qmsgSessInit ∧ 29 ≤ p.length ∧ 33 + sessInitNodeIdLen p ≤ p.length then
      beNat ((p.drop (29 + sessInitNodeIdLen p)).take 4)
    else if type = qmsgSessTerm ∧ 7 ≤ p.length then beNat ((p.drop 3).take 4)
    else 0

/-- The length of the signalling message at the front, if all of it is there. -/
def sigMsgLen : Octets → Option Nat
  | [] => none
  | type :: rest =>
    if type = qmsgSessInit then (quicMsgDecodeSessInit (type :: rest)).used
    else if type = qmsgKeepalive then some 1
    else if type = qmsgSessTerm then (quicMsgDecodeSessTerm (type :: rest)).used
    else if type = qmsgMsgReject then (quicMsgDecodeMsgReject (type :: rest)).used
    else none

/-- The same for the data streams. -/
def dataExtLen : Octets → Nat
  | type :: flags :: rest =>
    if type = qmsgXferSegment ∧ hasFlag flags qmsgFlagStart ∧ 16 ≤ rest.length then
      beNat ((rest.drop 12).take 4)
    else 0
  | _ => 0

def dataMsgLen : Octets → Option Nat
  | [] => none
  | type :: rest =>
    if type = qmsgXferSegment then
      match quicMsgDecodeXferSegmentHdr (type :: rest) with
      | .ok seg hdr =>
        if seg.segmentLength > quicclaBufsz ∨ seg.bundleLength > quicclaBufsz then none
        else if (type :: rest).length - hdr < seg.segmentLength then none
        else some (hdr + seg.segmentLength)
      | _ => none
    else if type = qmsgXferAck then (quicMsgDecodeXferAck (type :: rest)).used
    else if type = qmsgXferRefuse then (quicMsgDecodeXferRefuse (type :: rest)).used
    else none

/-- No message in `buf` announces an extension list of more than `E` octets. -/
def ExtsWithin (extLen : Octets → Nat) (msgLen : Octets → Option Nat) (E : Nat) :
    Nat → Octets → Prop
  | 0, _ => True
  | fuel + 1, buf => extLen buf ≤ E ∧
    ∀ n ∈ msgLen buf, ExtsWithin extLen msgLen E fuel (buf.drop n)

instance decidableExtsWithin (extLen : Octets → Nat) (msgLen : Octets → Option Nat) (E : Nat) :
    ∀ fuel buf, Decidable (ExtsWithin extLen msgLen E fuel buf)
  | 0, _ => .isTrue trivial
  | fuel + 1, buf =>
    have : ∀ b, Decidable (ExtsWithin extLen msgLen E fuel b) :=
      decidableExtsWithin extLen msgLen E fuel
    inferInstanceAs (Decidable (_ ∧ ∀ n ∈ msgLen buf, _))

/-! ## Headers and what they need -/

/-- A decoder's answer where the fields are there. -/
theorem decodeMsg_ok {μ : Type} {type : UInt8} {fields : Reader → μ × Reader} {rest : Octets}
    (h : (fields ⟨rest, 1, true⟩).2.ok = true) :
    ∃ m n, decodeMsg type fields (type :: rest) = .ok m n := by
  rw [decodeMsg_cons, if_pos rfl, if_pos h]
  exact ⟨_, _, rfl⟩

theorem extField_of_le {rest : Octets} (off : Nat) (h : 4 ≤ rest.length)
    (h_ext : 4 + beNat (rest.take 4) ≤ rest.length) :
    extField ⟨rest, off, true⟩ = ((rest.drop 4).take (beNat (rest.take 4)),
      ⟨rest.drop (4 + beNat (rest.take 4)), off + 4 + beNat (rest.take 4), true⟩) := by
  have h_drop : beNat (rest.take 4) ≤ (rest.drop 4).length := by
    rw [List.length_drop]
    omega
  simp only [extField, Reader.andThen, rU32_of_le _ h, rBytes_of_le _ h_drop, List.drop_drop,
    Option.getD_some]

/-- A SESS_INIT whose extension list is there is there. -/
theorem sessInit_ok {rest : Octets} (h_len : 28 ≤ rest.length)
    (h_node : 32 + sessInitNodeIdLen (qmsgSessInit :: rest) ≤ rest.length)
    (h_ext : 32 + sessInitNodeIdLen (qmsgSessInit :: rest) +
      beNat (((qmsgSessInit :: rest).drop (29 + sessInitNodeIdLen (qmsgSessInit :: rest))).take 4) ≤
        rest.length) :
    ∃ m n, quicMsgDecodeSessInit (qmsgSessInit :: rest) = .ok m n := by
  apply decodeMsg_ok
  have h_idLen : sessInitNodeIdLen (qmsgSessInit :: rest) = beNat ((rest.drop 26).take 2) := rfl
  rw [h_idLen] at h_node h_ext
  generalize h_id : beNat ((rest.drop 26).take 2) = idLen at h_node h_ext
  have h_extLen : ((qmsgSessInit :: rest).drop (29 + idLen)).take 4 =
      ((rest.drop 28).drop idLen).take 4 := by
    rw [List.drop_drop, show 29 + idLen = (28 + idLen) + 1 by omega, List.drop_succ_cons]
  rw [h_extLen] at h_ext
  unfold QuicSessInit.fields
  simp (disch := first | omega | (rw [List.length_drop]; omega)) only [Reader.andThen,
    rU16_of_le, rU64_of_le, List.drop_drop, Nat.reduceAdd]
  rw [h_id, rBytes_of_le _ (by rw [List.length_drop]; omega)]
  rw [extField_of_le _ (by simp only [List.length_drop]; omega)
    (by simp only [List.length_drop]; omega)]

theorem sessTerm_ok {rest : Octets} (h_len : 6 ≤ rest.length)
    (h_ext : 6 + beNat (((qmsgSessTerm :: rest).drop 3).take 4) ≤ rest.length) :
    ∃ m n, quicMsgDecodeSessTerm (qmsgSessTerm :: rest) = .ok m n := by
  apply decodeMsg_ok
  rw [List.drop_succ_cons] at h_ext
  unfold QuicSessTerm.fields
  simp (disch := first | omega | (rw [List.length_drop]; omega)) only [Reader.andThen, rU8_of_le,
    List.drop_drop, Nat.reduceAdd]
  rw [extField_of_le _ (by simp only [List.length_drop]; omega)
    (by simp only [List.length_drop]; omega)]

theorem msgReject_ok {rest : Octets} (h_len : 2 ≤ rest.length) :
    ∃ m n, quicMsgDecodeMsgReject (qmsgMsgReject :: rest) = .ok m n := by
  apply decodeMsg_ok
  unfold QuicMsgReject.fields
  simp (disch := first | omega | (rw [List.length_drop]; omega)) only [Reader.andThen, rU8_of_le]

theorem xferAck_ok {rest : Octets} (h_len : 19 ≤ rest.length) :
    ∃ m n, quicMsgDecodeXferAck (qmsgXferAck :: rest) = .ok m n := by
  apply decodeMsg_ok
  unfold QuicXferAck.fields
  simp (disch := first | omega | (simp only [List.length_drop]; omega)) only [Reader.andThen,
    rU8_of_le, rU16_of_le, rU64_of_le]

theorem xferRefuse_ok {rest : Octets} (h_len : 9 ≤ rest.length) :
    ∃ m n, quicMsgDecodeXferRefuse (qmsgXferRefuse :: rest) = .ok m n := by
  apply decodeMsg_ok
  unfold QuicXferRefuse.fields
  simp (disch := first | omega | (simp only [List.length_drop]; omega)) only [Reader.andThen,
    rU8_of_le, rU64_of_le]

/-- A segment header whose extension list is there is there, and no longer than that. -/
theorem xferSegment_ok {flags : UInt8} {rest : Octets} (h_len : 29 ≤ rest.length)
    (h_start : hasFlag flags qmsgFlagStart = true →
      33 + beNat ((rest.drop 12).take 4) ≤ rest.length) :
    ∃ m n, quicMsgDecodeXferSegmentHdr (qmsgXferSegment :: flags :: rest) = .ok m n ∧
      n ≤ 35 + dataExtLen (qmsgXferSegment :: flags :: rest) := by
  have h_fields : (QuicXferSegment.fields ⟨flags :: rest, 1, true⟩).2.ok = true ∧
      (QuicXferSegment.fields ⟨flags :: rest, 1, true⟩).2.off ≤
        35 + dataExtLen (qmsgXferSegment :: flags :: rest) := by
    unfold QuicXferSegment.fields
    simp (disch := first | omega | (simp only [List.length_drop]; omega)) only [Reader.andThen,
      rU8_cons, rU16_of_le, rU64_of_le, List.drop_drop, Nat.reduceAdd]
    by_cases h_flag : hasFlag flags qmsgFlagStart = true
    · have h_ext := h_start h_flag
      have h_extLen : dataExtLen (qmsgXferSegment :: flags :: rest) =
          beNat ((rest.drop 12).take 4) := if_pos ⟨rfl, h_flag, by omega⟩
      rw [xferExtField_start h_flag, extField_of_le _ (by rw [List.length_drop]; omega)
        (by rw [List.length_drop]; omega), h_extLen]
      simp (disch := simp only [List.length_drop]; omega) only [rU64_of_le, rU8_of_le]
      exact ⟨trivial, by omega⟩
    · rw [xferExtField_more h_flag]
      simp (disch := simp only [List.length_drop]; omega) only [rU64_of_le, rU8_of_le]
      exact ⟨trivial, by omega⟩
  rw [quicMsgDecodeXferSegmentHdr, decodeMsg_cons, if_pos rfl, if_pos h_fields.1]
  exact ⟨_, _, rfl, h_fields.2⟩

/-! ## Signalling -/

theorem sigMsgLen_pos {p : Octets} {n : Nat} (h : sigMsgLen p = some n) : 0 < n := by
  cases p with
  | nil => cases h
  | cons type rest =>
    unfold sigMsgLen at h
    dsimp only at h
    split at h
    · exact sessInit_used_pos h
    · split at h
      · obtain rfl := Option.some.inj h
        exact Nat.one_pos
      · split at h
        · exact sessTerm_used_pos h
        · split at h
          · exact msgReject_used_pos h
          · cases h

/-- The longest SESS_INIT. -/
def sigBound (E : Nat) : Nat := 33 + 65535 + E

/-- A round that waits for more octets has the beginning of a message. -/
theorem sigRound_stop {cfg : SigCfg} {mem : Bool} {c : SigConn} {p : Octets} {E : Nat}
    (h : sigRound cfg mem c p = .stop) (h_ext : sigExtLen p ≤ E) : p.length < sigBound E := by
  unfold sigBound
  cases p with
  | nil => simp
  | cons type rest =>
    refine Nat.lt_of_not_le fun h_long => ?_
    rw [List.length_cons] at h_long
    unfold sigRound at h
    dsimp only at h
    split at h
    · next h_type =>
      subst h_type
      -- All of it is there.
      have h_node : sessInitNodeIdLen (qmsgSessInit :: rest) < 65536 := by
        have h_lt := beNat_lt (((qmsgSessInit :: rest).drop 27).take 2)
        have h_two : (((qmsgSessInit :: rest).drop 27).take 2).length = 2 := by
          rw [List.length_take, List.length_drop, List.length_cons]
          omega
        rwa [h_two] at h_lt
      have h_extLen : sigExtLen (qmsgSessInit :: rest) =
          beNat (((qmsgSessInit :: rest).drop
            (29 + sessInitNodeIdLen (qmsgSessInit :: rest))).take 4) := by
        refine if_pos ⟨rfl, ?_, ?_⟩
        · rw [List.length_cons]
          omega
        · rw [List.length_cons]
          omega
      rw [h_extLen] at h_ext
      obtain ⟨peer, n, h_dec⟩ := sessInit_ok (show 28 ≤ rest.length by omega) (by omega) (by omega)
      rw [h_dec] at h
      dsimp only at h
      split at h
      · cases h
      · cases h
    · split at h
      · cases h
      · split at h
        · next h_init h_keepalive h_type =>
          subst h_type
          have h_extLen : sigExtLen (qmsgSessTerm :: rest) =
              beNat (((qmsgSessTerm :: rest).drop 3).take 4) := by
            rw [sigExtLen, if_neg fun h => absurd h.1 (by decide), if_pos]
            refine ⟨rfl, ?_⟩
            rw [List.length_cons]
            omega
          rw [h_extLen] at h_ext
          obtain ⟨term, n, h_dec⟩ := sessTerm_ok (show 6 ≤ rest.length by omega) (by omega)
          rw [h_dec] at h
          cases h
        · split at h
          · next h_type =>
            subst h_type
            obtain ⟨rej, n, h_dec⟩ := msgReject_ok (show 2 ≤ rest.length by omega)
            rw [h_dec] at h
            cases h
          · cases h

theorem sigRound_msgLen {cfg : SigCfg} {mem : Bool} {c c' : SigConn} {p : Octets} {n : Nat}
    (h : sigRound cfg mem c p = .next c' n) : sigMsgLen p = some n := by
  cases p with
  | nil => cases h
  | cons type rest =>
    unfold sigRound at h
    rw [sigMsgLen]
    dsimp only at h
    split at h
    · next h_type =>
      rw [if_pos h_type]
      cases h_dec : quicMsgDecodeSessInit (type :: rest) with
      | need => rw [h_dec] at h; cases h
      | bad => rw [h_dec] at h; cases h
      | ok peer used =>
        rw [h_dec] at h
        dsimp only at h
        split at h
        · cases h
        · exact congrArg some (SigRound.next.inj h).2
    · next h_init =>
      rw [if_neg h_init]
      split at h
      · next h_type =>
        rw [if_pos h_type]
        exact congrArg some (SigRound.next.inj h).2
      · next h_keepalive =>
        rw [if_neg h_keepalive]
        split at h
        · next h_type =>
          rw [if_pos h_type]
          cases h_dec : quicMsgDecodeSessTerm (type :: rest) with
          | need => rw [h_dec] at h; cases h
          | bad => rw [h_dec] at h; cases h
          | ok term used =>
            rw [h_dec] at h
            exact congrArg some (SigRound.next.inj h).2
        · next h_term =>
          rw [if_neg h_term]
          split at h
          · next h_type =>
            rw [if_pos h_type]
            cases h_dec : quicMsgDecodeMsgReject (type :: rest) with
            | need => rw [h_dec] at h; cases h
            | bad => rw [h_dec] at h; cases h
            | ok rej used =>
              rw [h_dec] at h
              exact congrArg some (SigRound.next.inj h).2
          · cases h

/-- Rounds leave the received octets alone. -/
theorem sigRound_sigRx {cfg : SigCfg} {mem : Bool} {c c' : SigConn} {p : Octets}
    (h : (∃ n, sigRound cfg mem c p = .next c' n) ∨ sigRound cfg mem c p = .bad c') :
    c'.sigRx = c.sigRx ∧ c'.sigRxCap = c.sigRxCap := by
  rcases h with ⟨n, h⟩ | h
  · rcases sigRound_next h with ⟨peer, q, -, -, rfl⟩ | ⟨q, -, rfl⟩ | ⟨-, rfl⟩
    · rw [notePeerNode_eq]
      exact ⟨rfl, rfl⟩
    · exact ⟨rfl, rfl⟩
    · exact ⟨rfl, rfl⟩
  · rcases sigRound_bad h with ⟨peer, n, q, -, -, rfl⟩ | ⟨q, -, rfl⟩
    · rw [notePeerNode_eq]
      exact ⟨rfl, rfl⟩
    · exact ⟨rfl, rfl⟩

/-- What `sessParseSig` leaves: the beginning of a message, or all of it when it fails. -/
theorem sessParseSigFrom_rest {cfg : SigCfg} {mem : Nat → Bool} {E fuel off : Nat} {c c' : SigConn}
    {ok : Bool} (h : sessParseSigFrom cfg mem fuel c off = (c', ok))
    (h_fuel : c.sigRx.length < off + fuel)
    (h_ext : ExtsWithin sigExtLen sigMsgLen E fuel (c.sigRx.drop off)) :
    c'.sigRxCap = c.sigRxCap ∧ (ok = true → c'.sigRx.length < sigBound E) ∧
      (ok = false → c'.sigRx = c.sigRx) := by
  induction fuel generalizing c off with
  | zero =>
    obtain ⟨rfl, rfl⟩ := Prod.mk.inj h
    refine ⟨rfl, fun _ => ?_, fun h => by cases h⟩
    show (c.sigRx.drop off).length < sigBound E
    rw [List.length_drop]
    unfold sigBound
    omega
  | succ fuel ih =>
    unfold sessParseSigFrom at h
    obtain ⟨h_front, h_rest⟩ := h_ext
    cases h_round : sigRound cfg (mem off) c (c.sigRx.drop off) with
    | stop =>
      rw [h_round] at h
      obtain ⟨rfl, rfl⟩ := Prod.mk.inj h
      exact ⟨rfl, fun _ => sigRound_stop h_round h_front, fun h => by cases h⟩
    | bad c₁ =>
      rw [h_round] at h
      obtain ⟨rfl, rfl⟩ := Prod.mk.inj h
      obtain ⟨h_rx, h_cap⟩ := sigRound_sigRx (Or.inr h_round)
      exact ⟨h_cap, fun h => (by cases h), fun _ => h_rx⟩
    | next c₁ n =>
      rw [h_round] at h
      obtain ⟨h_rx, h_cap⟩ := sigRound_sigRx (Or.inl ⟨n, h_round⟩)
      have h_len := sigRound_msgLen h_round
      have h_pos := sigMsgLen_pos h_len
      obtain ⟨h_cap', h_ok, h_bad⟩ := ih h (by rw [h_rx]; omega)
        (by rw [h_rx, ← List.drop_drop]; exact h_rest n h_len)
      exact ⟨h_cap'.trans h_cap, h_ok, fun h => (h_bad h).trans h_rx⟩

/-! ## Bundles -/

/-- The longest segment. -/
def rxBound (E : Nat) : Nat := 35 + E + quicclaBufsz

/-- The transfer under way fits one bundle. -/
structure XferOk (q : StreamRx) : Prop where
  length : q.xfer.length ≤ quicclaBufsz
  bundle : q.xferBundleLen ≤ quicclaBufsz
  cap : q.xferCap = 0 ∨ q.xferCap = quicclaBufsz

theorem xferGrow_ok {q q' : StreamRx} {want : Nat} {mem : Bool} (h : XferOk q)
    (h_want : want ≤ quicclaBufsz) (h_grow : xferGrow q want mem = some q') :
    ∃ cap, q' = { q with xferCap := cap } ∧ (cap = 0 ∨ cap = quicclaBufsz) := by
  unfold xferGrow at h_grow
  dsimp only at h_grow
  split at h_grow
  · next h_more =>
    obtain ⟨-, h_eq⟩ := Option.ite_none_right_eq_some.mp h_grow
    refine ⟨_, (Option.some.inj h_eq).symm, Or.inr ?_⟩
    -- The first size is large enough.
    have h_first : (if q.xferCap = 0 then quicclaBufsz else q.xferCap) = quicclaBufsz := by
      rcases h.cap with h_cap | h_cap
      · rw [if_pos h_cap]
      · rw [if_neg (by rw [h_cap]; decide), h_cap]
    rw [h_first]
    cases want with
    | zero => rfl
    | succ want => rw [doubleUntil, if_neg (by omega)]
  · exact ⟨q.xferCap, (Option.some.inj h_grow).symm, h.cap⟩

theorem xferReassemble_ok {q : StreamRx} {seg : QuicXferSegment} {segData : Octets}
    (h : XferOk q) (h_bundle : seg.bundleLength ≤ quicclaBufsz)
    (h_data : segData.length = seg.segmentLength) (mem takes : Bool) :
    XferOk (xferReassemble q seg segData mem takes).rx ∧
      (xferReassemble q seg segData mem takes).rx.rxBuf = q.rxBuf ∧
      (xferReassemble q seg segData mem takes).rx.rxCap = q.rxCap := by
  have h_begin : XferOk (xferBegin q seg) ∧ (xferBegin q seg).rxBuf = q.rxBuf ∧
      (xferBegin q seg).rxCap = q.rxCap := by
    unfold xferBegin
    split
    · exact ⟨⟨Nat.zero_le _, h_bundle, h.cap⟩, rfl, rfl⟩
    · exact ⟨h, rfl, rfl⟩
  unfold xferReassemble
  dsimp only
  generalize xferBegin q seg = q₁ at h_begin
  obtain ⟨h₁, h_rx, h_cap⟩ := h_begin
  split
  · exact ⟨h₁, h_rx, h_cap⟩
  · split
    · exact ⟨h₁, h_rx, h_cap⟩
    · next h_room =>
      obtain ⟨h_seg, h_room⟩ := not_or.mp h_room
      have h_len := h₁.bundle
      cases h_grow : xferGrow q₁ (q₁.xfer.length + seg.segmentLength) mem with
      | none => exact ⟨h₁, h_rx, h_cap⟩
      | some q₂ =>
        obtain ⟨cap, rfl, h_cap₂⟩ := xferGrow_ok h₁ (by omega) h_grow
        have h_xfer : (q₁.xfer ++ segData).length ≤ quicclaBufsz := by
          rw [List.length_append, h_data]
          omega
        dsimp only
        unfold xferStore
        dsimp only
        split
        · exact ⟨⟨h_xfer, h_len, h_cap₂⟩, h_rx, h_cap⟩
        · split
          · exact ⟨⟨h_xfer, h_len, h_cap₂⟩, h_rx, h_cap⟩
          · exact ⟨⟨h_xfer, h_len, h_cap₂⟩, h_rx, h_cap⟩

/-- What a call of `deliverBundles` leaves. -/
structure RxLeft (E : Nat) (q : StreamRx) (out : ParseOut) : Prop where
  xfer : XferOk out.rx
  cap : out.rx.rxCap = q.rxCap
  ok : out.ok = true → out.rx.rxBuf.length < rxBound E
  bad : out.ok = false → out.rx.rxBuf = q.rxBuf

/-- A segment that is not all there yet is bounded, as soon as its extension list is. -/
theorem xferSegment_short {rest : Octets} {E : Nat}
    (h_ext : dataExtLen (qmsgXferSegment :: rest) ≤ E)
    (h : quicMsgDecodeXferSegmentHdr (qmsgXferSegment :: rest) = .need ∨
      ∃ seg hdr, quicMsgDecodeXferSegmentHdr (qmsgXferSegment :: rest) = .ok seg hdr ∧
        seg.segmentLength ≤ quicclaBufsz ∧
        (qmsgXferSegment :: rest).length - hdr < seg.segmentLength) :
    (qmsgXferSegment :: rest).length < rxBound E := by
  unfold rxBound
  refine Nat.lt_of_not_le fun h_long => ?_
  cases rest with
  | nil =>
    rw [List.length_singleton] at h_long
    omega
  | cons flags rest =>
    rw [List.length_cons, List.length_cons] at h_long
    have h_extLen : hasFlag flags qmsgFlagStart = true →
        dataExtLen (qmsgXferSegment :: flags :: rest) = beNat ((rest.drop 12).take 4) :=
      fun h_flag => if_pos ⟨rfl, h_flag, by omega⟩
    obtain ⟨seg, hdr, h_dec, h_hdr⟩ := @xferSegment_ok flags rest (by omega) fun h_flag => by
      have h_eq := h_extLen h_flag
      omega
    rw [h_dec] at h
    rcases h with h | ⟨seg', hdr', h_eq, h_seg, h_short⟩
    · cases h
    · obtain ⟨rfl, rfl⟩ := Decoded.ok.inj h_eq
      rw [List.length_cons, List.length_cons] at h_short
      omega

theorem dataMsgLen_eq (buf : Octets) : dataMsgLen buf = (xferFront buf).used := by
  cases buf with
  | nil => rfl
  | cons type rest =>
    have h_head : ∀ t : UInt8, (type :: rest).head? = some t ↔ type = t := fun t =>
      ⟨fun h => Option.some.inj h, fun h => congrArg some h⟩
    have h_some : type :: rest ≠ [] := List.cons_ne_nil type rest
    unfold dataMsgLen xferFront segmentFront
    rw [if_neg h_some]
    simp only [h_head]
    by_cases h_segment : type = qmsgXferSegment
    · rw [if_pos h_segment, if_pos h_segment]
      cases quicMsgDecodeXferSegmentHdr (type :: rest) with
      | need => rfl
      | bad => rfl
      | ok seg hdr =>
        dsimp only
        by_cases h_size : seg.segmentLength > quicclaBufsz ∨ seg.bundleLength > quicclaBufsz
        · rw [if_pos h_size, if_pos h_size]
          rfl
        · rw [if_neg h_size, if_neg h_size]
          by_cases h_short : (type :: rest).length - hdr < seg.segmentLength
          · rw [if_pos h_short, if_pos h_short]
            rfl
          · rw [if_neg h_short, if_neg h_short]
            rfl
    · rw [if_neg h_segment, if_neg h_segment]
      by_cases h_ack : type = qmsgXferAck
      · rw [if_pos h_ack, if_pos h_ack]
        cases quicMsgDecodeXferAck (type :: rest) <;> rfl
      · rw [if_neg h_ack, if_neg h_ack]
        by_cases h_refuse : type = qmsgXferRefuse
        · rw [if_pos h_refuse, if_pos h_refuse]
          cases quicMsgDecodeXferRefuse (type :: rest) <;> rfl
        · rw [if_neg h_refuse, if_neg h_refuse]
          rfl

/-- What is not a whole message is bounded, as soon as its extension list is. -/
theorem xferFront_short {buf : Octets} {E : Nat} (h : xferFront buf = .need)
    (h_ext : dataExtLen buf ≤ E) : buf.length < rxBound E := by
  cases buf with
  | nil =>
    unfold rxBound
    rw [List.length_nil]
    omega
  | cons type rest =>
    have h_type : ∀ t : UInt8, (type :: rest).head? = some t → type = t := fun t h =>
      Option.some.inj h
    rcases xferFront_need h with
      h_nil | ⟨h_head, h_need⟩ | ⟨h_head, h_need⟩ | ⟨h_head, h_need⟩
    · cases h_nil
    · obtain rfl := h_type _ h_head
      exact xferSegment_short h_ext h_need
    · obtain rfl := h_type _ h_head
      refine Nat.lt_of_not_le fun h_long => ?_
      unfold rxBound at h_long
      rw [List.length_cons] at h_long
      obtain ⟨ack, n, h_ok⟩ := xferAck_ok (show 19 ≤ rest.length by omega)
      rw [h_need] at h_ok
      cases h_ok
    · obtain rfl := h_type _ h_head
      refine Nat.lt_of_not_le fun h_long => ?_
      unfold rxBound at h_long
      rw [List.length_cons] at h_long
      obtain ⟨ref, n, h_ok⟩ := xferRefuse_ok (show 9 ≤ rest.length by omega)
      rw [h_need] at h_ok
      cases h_ok

theorem xferHandle_ok {buf : Octets} {m : XferMsg} {n : Nat} (h_front : xferFront buf = .ok m n)
    {q : StreamRx} (h : XferOk q) (mem takes : Bool) :
    XferOk (xferHandle q mem takes m).rx ∧ (xferHandle q mem takes m).rx.rxBuf = q.rxBuf ∧
      (xferHandle q mem takes m).rx.rxCap = q.rxCap := by
  rcases xferFront_ok h_front with ⟨seg, hdr, -, -, -, h_bundle, h_room, rfl, -⟩ | ⟨-, h_same⟩
  · have h_data : ((buf.drop hdr).take seg.segmentLength).length = seg.segmentLength := by
      rw [List.length_take, List.length_drop]
      omega
    exact xferReassemble_ok h h_bundle h_data mem takes
  · rw [h_same]
    exact ⟨h, rfl, rfl⟩

theorem deliverBundlesFrom_left {env : StreamEnv} {E fuel : Nat} {q : StreamRx} {buf : Octets}
    {delivered : List Octets} (h : XferOk q) (h_fuel : buf.length < fuel)
    (h_ext : ExtsWithin dataExtLen dataMsgLen E fuel buf) :
    RxLeft E q (deliverBundlesFrom env fuel q buf delivered) := by
  induction fuel generalizing q buf delivered with
  | zero => cases h_fuel
  | succ fuel ih =>
    obtain ⟨h_front, h_rest⟩ := h_ext
    rw [deliverBundlesFrom_eq]
    cases h_msg : xferFront buf with
    | need =>
      exact ⟨⟨h.length, h.bundle, h.cap⟩, rfl, fun _ => xferFront_short h_msg h_front,
        fun h => by cases h⟩
    | bad => exact ⟨h, rfl, fun h => (by cases h), fun _ => rfl⟩
    | ok m n =>
      have h_some := xferFront_ne_nil (Or.inr ⟨m, n, h_msg⟩)
      obtain ⟨h_pos, h_le, -⟩ := settled_xferFront.ok h_some h_msg
      have h_len : dataMsgLen buf = some n := by
        rw [dataMsgLen_eq, h_msg]
        rfl
      obtain ⟨h₁, h_rx, h_cap⟩ := xferHandle_ok h_msg h env.xferMem
        (decide (env.refuses ≠ some delivered.length))
      rw [frontDeliver]
      split
      · -- The rounds that follow, behind the message.
        have h_short : (buf.drop n).length < fuel := by
          rw [List.length_drop]
          omega
        have h_left := @ih _ _ (delivered ++ (xferHandle q env.xferMem
          (decide (env.refuses ≠ some delivered.length)) m).delivered.toList) h₁ h_short
          (h_rest n h_len)
        exact ⟨h_left.xfer, h_left.cap.trans h_cap, h_left.ok,
          fun h => (h_left.bad h).trans h_rx⟩
      · exact ⟨h₁, h_cap, fun h => (by cases h), fun _ => h_rx⟩

/-! ## Runs -/

/-- `initial_max_data`. -/
def initialMaxData : Nat := quicclaBufsz * 4

/-- What the octets of the peer are received into, and how many more QUIC takes. -/
structure RxConn where
  sig : SigConn
  rx : StreamRx
  failed : Bool
  credit : Nat

inductive RxAct where
  | sig (data : Octets) (rxMem : Bool) (mem : Nat → Bool)
  | data (env : StreamEnv) (streamId : Int) (data : Octets)

namespace RxConn

def init (clientRole : Bool) : RxConn :=
  ⟨SigConn.init clientRole, StreamRx.init, false, initialMaxData⟩

/-- The rest of `recvStreamDataCb`: the credit is handed back unless it has failed. -/
def received (c : RxConn) (data : Octets) (ok : Bool) : RxConn :=
  { c with
    failed := c.failed || !ok
    credit := if ok then c.credit else c.credit - data.length }

def step (cfg : SigCfg) (c : RxConn) : RxAct → Option RxConn
  | .sig data rxMem mem =>
    if 0 < data.length ∧ data.length ≤ c.credit then
      let out := sessRecvSig cfg rxMem mem c.sig data
      some ({ c with sig := out.1 }.received data out.2)
    else none
  | .data env streamId data =>
    if streamId ≠ quicclSigStream ∧ 0 < data.length ∧ data.length ≤ c.credit then
      let out := recvStreamDataCb env c.rx streamId data
      some ({ c with rx := out.rx }.received data out.ok)
    else none

/-- None of the messages that are there with what comes announces more than `E` octets of
    extensions. -/
def Announces (E : Nat) (c : RxConn) : RxAct → Prop
  | .sig data _ _ => ExtsWithin sigExtLen sigMsgLen E ((c.sig.sigRx ++ data).length + 1)
      (c.sig.sigRx ++ data)
  | .data _ _ data => ExtsWithin dataExtLen dataMsgLen E ((c.rx.rxBuf ++ data).length + 1)
      (c.rx.rxBuf ++ data)

instance (E : Nat) (c : RxConn) : DecidablePred (c.Announces E)
  | .sig _ _ _ => inferInstanceAs (Decidable (ExtsWithin _ _ _ _ _))
  | .data _ _ _ => inferInstanceAs (Decidable (ExtsWithin _ _ _ _ _))

/-- What a connection holds, with what may still come. -/
structure Bounded (E : Nat) (c : RxConn) : Prop where
  credit : c.credit ≤ initialMaxData
  sigRx : c.sig.sigRx.length + c.credit ≤ sigBound E + initialMaxData
  rxBuf : c.rx.rxBuf.length + c.credit ≤ rxBound E + initialMaxData
  xfer : XferOk c.rx
  sigRxCap : c.sig.sigRxCap ≤ 2 * (sigBound E + initialMaxData)
  rxCap : c.rx.rxCap ≤ 2 * (rxBound E + initialMaxData)
  /-- What could not be complete within the bound has ended the session. -/
  live : c.failed = false → c.sig.sigRx.length < sigBound E ∧ c.rx.rxBuf.length < rxBound E

theorem Bounded.init (E : Nat) (clientRole : Bool) : Bounded E (RxConn.init clientRole) where
  credit := Nat.le_refl _
  sigRx := Nat.add_le_add_right (Nat.zero_le _) _
  rxBuf := Nat.add_le_add_right (Nat.zero_le _) _
  xfer := ⟨Nat.zero_le _, Nat.zero_le _, Or.inl rfl⟩
  sigRxCap := Nat.zero_le _
  rxCap := by
    show quicclaBufsz ≤ _
    unfold initialMaxData
    omega
  live _ := by
    refine ⟨?_, ?_⟩
    · show 0 < sigBound E
      unfold sigBound
      omega
    · show 0 < rxBound E
      unfold rxBound
      omega

/-- What a call leaves of the signalling buffer. -/
theorem sessRecvSig_left {cfg : SigCfg} {rxMem : Bool} {mem : Nat → Bool} {c : SigConn}
    {data : Octets} {E : Nat} {out : SigConn × Bool}
    (h_out : sessRecvSig cfg rxMem mem c data = out)
    (h_ext : ExtsWithin sigExtLen sigMsgLen E ((c.sigRx ++ data).length + 1) (c.sigRx ++ data)) :
    out.1.sigRxCap ≤ max (max c.sigRxCap 256) (2 * (c.sigRx.length + data.length)) ∧
      (out.2 = true → out.1.sigRx.length < sigBound E) ∧
      (out.2 = false → out.1.sigRx.length ≤ c.sigRx.length + data.length) := by
  subst h_out
  unfold sessRecvSig
  cases h_store : sigStore rxMem c data with
  | none => exact ⟨by simp, fun h => (by cases h), fun _ => Nat.le_add_right _ _⟩
  | some c₁ =>
    have h_c₁ : c₁.sigRx = c.sigRx ++ data ∧
        c₁.sigRxCap ≤ max (max c.sigRxCap 256) (2 * (c.sigRx.length + data.length)) := by
      unfold sigStore at h_store
      dsimp only at h_store
      split at h_store
      · obtain ⟨-, h_eq⟩ := Option.ite_none_right_eq_some.mp h_store
        obtain rfl := Option.some.inj h_eq
        refine ⟨rfl, Nat.le_trans (doubleUntil_le _ _ _) ?_⟩
        by_cases h_zero : c.sigRxCap = 0
        · rw [if_pos h_zero]
          omega
        · rw [if_neg h_zero]
          omega
      · obtain rfl := Option.some.inj h_store
        refine ⟨rfl, ?_⟩
        show c.sigRxCap ≤ _
        omega
    obtain ⟨h_rx, h_cap⟩ := h_c₁
    dsimp only
    cases h_parse : sessParseSig cfg mem c₁ with
    | mk c₂ ok =>
      have h_fuel : c₁.sigRx.length < 0 + (c₁.sigRx.length + 1) := by omega
      obtain ⟨h_cap₂, h_ok, h_bad⟩ := sessParseSigFrom_rest h_parse h_fuel
        (by rw [h_rx]; exact h_ext)
      refine ⟨h_cap₂ ▸ h_cap, h_ok, fun h => ?_⟩
      rw [h_bad h, h_rx, List.length_append]

/-- What a call leaves of the buffer of the data streams. -/
theorem recvStreamDataCb_left {env : StreamEnv} {q : StreamRx} {streamId : Int} {data : Octets}
    {E : Nat} {out : ParseOut} (h_out : recvStreamDataCb env q streamId data = out) (h : XferOk q)
    (h_ext : ExtsWithin dataExtLen dataMsgLen E ((q.rxBuf ++ data).length + 1) (q.rxBuf ++ data)) :
    XferOk out.rx ∧ out.rx.rxCap ≤ max q.rxCap (2 * (q.rxBuf.length + data.length)) ∧
      (out.ok = true → out.rx.rxBuf.length < rxBound E) ∧
      (out.ok = false → out.rx.rxBuf.length ≤ q.rxBuf.length + data.length) := by
  subst h_out
  unfold recvStreamDataCb
  dsimp only
  cases h_grow : rxGrow { q with ackStreamId := streamId } (q.rxBuf.length + data.length)
      env.rxMem with
  | none =>
    exact ⟨⟨h.length, h.bundle, h.cap⟩, Nat.le_max_left _ _, fun h => (by cases h),
      fun _ => Nat.le_add_right _ _⟩
  | some q₁ =>
    obtain ⟨cap, rfl, h_cap⟩ : ∃ cap, q₁ = { q with ackStreamId := streamId, rxCap := cap } ∧
        cap ≤ max q.rxCap (2 * (q.rxBuf.length + data.length)) := by
      unfold rxGrow at h_grow
      split at h_grow
      · next h_more =>
        obtain ⟨-, h_eq⟩ := Option.ite_none_right_eq_some.mp h_grow
        refine ⟨_, (Option.some.inj h_eq).symm, Nat.le_trans (doubleUntil_le _ _ _) ?_⟩
        dsimp only at h_more ⊢
        omega
      · exact ⟨q.rxCap, (Option.some.inj h_grow).symm, Nat.le_max_left _ _⟩
    have h_left := @deliverBundlesFrom_left env E ((q.rxBuf ++ data).length + 1)
      { q with ackStreamId := streamId, rxCap := cap, rxBuf := q.rxBuf ++ data } (q.rxBuf ++ data)
      [] ⟨h.length, h.bundle, h.cap⟩ (Nat.lt_succ_self _) h_ext
    refine ⟨h_left.xfer, Nat.le_trans (Nat.le_of_eq h_left.cap) h_cap, h_left.ok, fun h_bad => ?_⟩
    have h_rx := h_left.bad h_bad
    exact Nat.le_of_eq ((congrArg List.length h_rx).trans List.length_append)

theorem Bounded.step {cfg : SigCfg} {E : Nat} {c c' : RxConn} {a : RxAct} (h : Bounded E c)
    (h_a : c.Announces E a) (h_step : c.step cfg a = some c') : Bounded E c' := by
  obtain ⟨h_credit, h_sig, h_rx, h_xfer, h_sigCap, h_rxCap, h_live⟩ := h
  cases a with
  | sig data rxMem mem =>
    obtain ⟨⟨h_some, h_fits⟩, h_eq⟩ := Option.ite_none_right_eq_some.mp h_step
    obtain rfl := Option.some.inj h_eq
    generalize h_out : sessRecvSig cfg rxMem mem c.sig data = out
    obtain ⟨h_cap, h_ok, h_bad⟩ := sessRecvSig_left h_out h_a
    have h_256 : 256 ≤ 2 * (sigBound E + initialMaxData) := by
      unfold sigBound
      omega
    cases h_done : out.2 with
    | true =>
      have h_len := h_ok h_done
      refine ⟨h_credit, ?_, h_rx, h_xfer, ?_, h_rxCap, fun h_failed => ⟨h_len, ?_⟩⟩
      · show out.1.sigRx.length + c.credit ≤ _
        omega
      · show out.1.sigRxCap ≤ _
        omega
      · exact (h_live (Bool.or_eq_false_iff.mp h_failed).1).2
    | false =>
      have h_len := h_bad h_done
      refine ⟨?_, ?_, ?_, h_xfer, ?_, h_rxCap, fun h_failed => ?_⟩
      · show c.credit - data.length ≤ _
        omega
      · show out.1.sigRx.length + (c.credit - data.length) ≤ _
        omega
      · show c.rx.rxBuf.length + (c.credit - data.length) ≤ _
        omega
      · show out.1.sigRxCap ≤ _
        omega
      · cases (Bool.or_eq_false_iff.mp h_failed).2
  | data env streamId data =>
    obtain ⟨⟨-, h_some, h_fits⟩, h_eq⟩ := Option.ite_none_right_eq_some.mp h_step
    obtain rfl := Option.some.inj h_eq
    generalize h_out : recvStreamDataCb env c.rx streamId data = out
    obtain ⟨h_xfer', h_cap, h_ok, h_bad⟩ := recvStreamDataCb_left h_out h_xfer h_a
    cases h_done : out.ok with
    | true =>
      have h_len := h_ok h_done
      refine ⟨h_credit, h_sig, ?_, h_xfer', h_sigCap, ?_, fun h_failed => ⟨?_, h_len⟩⟩
      · show out.rx.rxBuf.length + c.credit ≤ _
        omega
      · show out.rx.rxCap ≤ _
        omega
      · exact (h_live (Bool.or_eq_false_iff.mp h_failed).1).1
    | false =>
      have h_len := h_bad h_done
      refine ⟨?_, ?_, ?_, h_xfer', h_sigCap, ?_, fun h_failed => ?_⟩
      · show c.credit - data.length ≤ _
        omega
      · show c.sig.sigRx.length + (c.credit - data.length) ≤ _
        omega
      · show out.rx.rxBuf.length + (c.credit - data.length) ≤ _
        omega
      · show out.rx.rxCap ≤ _
        omega
      · cases (Bool.or_eq_false_iff.mp h_failed).2

end RxConn

end IonContrib.Quic
