/-
  IonContrib.Quic.Front

  The message at the front of a stream, apart from what is done with it.

  Neither loop of `quicsession.c` looks at the session to find out which message is
  at the front and how long it is: `sigFront` and `xferFront` say so of the octets
  alone.  Both are settled by the octets of the message (`Settled`): what comes
  behind it makes no difference.  A round of either loop is then what the session
  does with that message (`sigHandle`, `xferHandle`).
-/
import IonContrib.Lib.FrontParser
import IonContrib.Quic.Signal

namespace IonContrib.Quic

open Octets

/-! ## What a message takes -/

open Reader in
theorem advances_extField : Advances extField :=
  advances_rU32.andThen fun len => (advances_rBytes len).andThen fun ext =>
    advances_pure (ext.getD [])

theorem decodeMsg_used_pos {μ : Type} {type : UInt8} {fields : Reader → μ × Reader}
    (hs : Reader.Stable fields) (hf : Reader.Advances fields) {buf : Octets} {n : Nat}
    (h : (decodeMsg type fields buf).used = some n) : 0 < n := by
  cases buf with
  | nil =>
    rw [decodeMsg_nil hs] at h
    cases h
  | cons b bs =>
    rw [decodeMsg_cons] at h
    split at h
    · split at h
      · obtain rfl := Option.some.inj h
        exact hf ⟨bs, 1, true⟩
      · cases h
    · cases h

open Reader in
theorem sessInit_used_pos {p : Octets} {n : Nat} (h : (quicMsgDecodeSessInit p).used = some n) :
    0 < n := by
  refine decodeMsg_used_pos stable_sessInitFields ?_ h
  refine advances_rU16.andThen fun keepalive => advances_rU64.andThen fun segmentMru => ?_
  refine advances_rU64.andThen fun datagramMru => advances_rU64.andThen fun transferMru => ?_
  refine advances_rU16.andThen fun nodeIdLen => (advances_rBytes nodeIdLen).andThen fun nodeId => ?_
  exact advances_extField.andThen fun sessExt => advances_pure _

open Reader in
theorem sessTerm_used_pos {p : Octets} {n : Nat} (h : (quicMsgDecodeSessTerm p).used = some n) :
    0 < n := by
  refine decodeMsg_used_pos stable_sessTermFields ?_ h
  refine advances_rU8.andThen fun flags => advances_rU8.andThen fun reason => ?_
  exact advances_extField.andThen fun sessExt => advances_pure _

open Reader in
theorem msgReject_used_pos {p : Octets} {n : Nat} (h : (quicMsgDecodeMsgReject p).used = some n) :
    0 < n := by
  refine decodeMsg_used_pos ?_ ?_ h
  · exact stable_rU8.andThen fun rejectedType => stable_rU8.andThen fun reason => stable_pure _
  · exact advances_rU8.andThen fun rejectedType => advances_rU8.andThen fun reason =>
      advances_pure _

open Reader in
theorem xferAck_used_pos {p : Octets} {n : Nat} (h : (quicMsgDecodeXferAck p).used = some n) :
    0 < n := by
  refine decodeMsg_used_pos stable_ackFields ?_ h
  refine advances_rU8.andThen fun flags => advances_rU16.andThen fun segmentId => ?_
  exact advances_rU64.andThen fun transferId => advances_rU64.andThen fun ackLength =>
    advances_pure _

open Reader in
theorem xferRefuse_used_pos {p : Octets} {n : Nat} (h : (quicMsgDecodeXferRefuse p).used = some n) :
    0 < n := by
  refine decodeMsg_used_pos stable_refuseFields ?_ h
  exact advances_rU8.andThen fun reason => advances_rU64.andThen fun transferId =>
    advances_pure _

theorem xferExtField_start {flags : UInt8} (h : hasFlag flags qmsgFlagStart = true) :
    xferExtField flags = extField := if_pos h

theorem xferExtField_more {flags : UInt8} (h : ¬ hasFlag flags qmsgFlagStart = true) (r : Reader) :
    xferExtField flags r = ([], r) := by
  rw [xferExtField, if_neg h]

open Reader in
theorem xferSegment_used_pos {p : Octets} {n : Nat}
    (h : (quicMsgDecodeXferSegmentHdr p).used = some n) : 0 < n := by
  refine decodeMsg_used_pos stable_segmentFields ?_ h
  refine advances_rU8.andThen fun flags => advances_rU16.andThen fun segmentId => ?_
  refine advances_rU16.andThen fun totalSegments => advances_rU64.andThen fun transferId => ?_
  have h_ext : Advances (xferExtField flags) := by
    by_cases h_flag : hasFlag flags qmsgFlagStart = true
    · rw [xferExtField_start h_flag]
      exact advances_extField
    · exact fun r => Nat.le_of_eq (by rw [xferExtField_more h_flag])
  refine h_ext.andThen fun ext => advances_rU64.andThen fun segmentLength => ?_
  exact advances_rU64.andThen fun bundleLength => advances_rU8.andThen fun serviceMode =>
    advances_pure _

/-! ## Settled fronts -/

/-- A decoder of the message at the front that makes the same of it whatever comes behind. -/
structure Settled {μ : Type} (front : Octets → Decoded μ) : Prop where
  ok : ∀ {p m n}, p ≠ [] → front p = .ok m n →
    0 < n ∧ n ≤ p.length ∧ ∀ x, front (p ++ x) = .ok m n
  bad : ∀ {p}, p ≠ [] → front p = .bad → ∀ x, front (p ++ x) = .bad

def mapMsg {μ ν : Type} (f : μ → ν) : Decoded μ → Decoded ν
  | .need => .need
  | .bad => .bad
  | .ok m n => .ok (f m) n

namespace Settled

variable {μ ν : Type}

theorem decodeMsg {type : UInt8} {fields : Reader → μ × Reader} (hs : Reader.Stable fields)
    (h_pos : ∀ {p n}, (decodeMsg type fields p).used = some n → 0 < n) :
    Settled (decodeMsg type fields) where
  ok := by
    intro p m n h_some h
    have h_append := decodeMsg_append hs h
    exact ⟨h_pos (by rw [h]; rfl), (h_append []).2, fun x => (h_append x).1⟩
  bad := by
    intro p h_some h x
    obtain ⟨b, bs, rfl⟩ := List.exists_cons_of_ne_nil h_some
    rw [decodeMsg_cons] at h
    rw [List.cons_append, decodeMsg_cons]
    by_cases h_type : b = type
    · rw [if_pos h_type] at h
      split at h
      · cases h
      · cases h
    · exact if_neg h_type

theorem map {front : Octets → Decoded μ} (h : Settled front) (f : μ → ν) :
    Settled fun p => mapMsg f (front p) where
  ok := by
    intro p m n h_some h_eq
    cases h_front : front p with
    | need => rw [h_front] at h_eq; cases h_eq
    | bad => rw [h_front] at h_eq; cases h_eq
    | ok m' n' =>
      rw [h_front] at h_eq
      obtain ⟨rfl, rfl⟩ := Decoded.ok.inj h_eq
      obtain ⟨h_pos, h_le, h_more⟩ := h.ok h_some h_front
      exact ⟨h_pos, h_le, fun x => by rw [h_more x, mapMsg]⟩
  bad := by
    intro p h_some h_eq x
    cases h_front : front p with
    | need => rw [h_front] at h_eq; cases h_eq
    | bad => rw [h.bad h_some h_front x, mapMsg]
    | ok m' n' => rw [h_front] at h_eq; cases h_eq

/-- A message of one octet. -/
theorem octet (m : UInt8 → μ) : Settled fun p => .ok (m (p.headD 0)) 1 where
  ok := by
    intro p m' n h_some h
    obtain ⟨rfl, rfl⟩ := Decoded.ok.inj h
    obtain ⟨b, bs, rfl⟩ := List.exists_cons_of_ne_nil h_some
    exact ⟨Nat.one_pos, Nat.succ_pos _, fun x => rfl⟩
  bad := by
    intro p h_some h
    cases h

/-- Of two decoders the first octet picks one. -/
theorem byType {type : UInt8} {front other : Octets → Decoded μ} (h : Settled front)
    (h_other : Settled other) :
    Settled fun p => if p.head? = some type then front p else other p where
  ok := by
    intro p m n h_some h_eq
    have h_head : ∀ x, (p ++ x).head? = p.head? := fun x => List.head?_append_of_ne_nil p h_some
    by_cases h_type : p.head? = some type
    · rw [if_pos h_type] at h_eq
      obtain ⟨h_pos, h_le, h_more⟩ := h.ok h_some h_eq
      exact ⟨h_pos, h_le, fun x => by rw [if_pos ((h_head x).trans h_type), h_more x]⟩
    · rw [if_neg h_type] at h_eq
      obtain ⟨h_pos, h_le, h_more⟩ := h_other.ok h_some h_eq
      refine ⟨h_pos, h_le, fun x => ?_⟩
      rw [if_neg (by rwa [h_head x]), h_more x]
  bad := by
    intro p h_some h_eq x
    have h_head : (p ++ x).head? = p.head? := List.head?_append_of_ne_nil p h_some
    by_cases h_type : p.head? = some type
    · rw [if_pos h_type] at h_eq
      rw [if_pos (h_head.trans h_type), h.bad h_some h_eq x]
    · rw [if_neg h_type] at h_eq
      rw [if_neg (by rwa [h_head]), h_other.bad h_some h_eq x]

end Settled

/-- Nothing is needed of an empty front. -/
theorem Settled.nonempty {μ : Type} {front : Octets → Decoded μ} (h : Settled front) :
    Settled fun p => if p = [] then .need else front p where
  ok := by
    intro p m n h_some h_eq
    rw [if_neg h_some] at h_eq
    obtain ⟨h_pos, h_le, h_more⟩ := h.ok h_some h_eq
    refine ⟨h_pos, h_le, fun x => ?_⟩
    have h_append : p ++ x ≠ [] := List.append_ne_nil_of_left_ne_nil h_some x
    rw [if_neg h_append, h_more x]
  bad := by
    intro p h_some h_eq x
    rw [if_neg h_some] at h_eq
    have h_append : p ++ x ≠ [] := List.append_ne_nil_of_left_ne_nil h_some x
    rw [if_neg h_append, h.bad h_some h_eq x]

/-- A look at the message at the front: `take` is what is done with it, given its octets, and
    whether that went well. -/
def msgLook {μ σ : Type} (front : Octets → Decoded μ) (take : σ → Octets → μ → σ × Bool) (s : σ)
    (p : Octets) : Look σ :=
  if p = [] then .more
  else
    match front p with
    | .need => .more
    | .bad => .bad s
    | .ok m n =>
      if (take s (p.take n) m).2 then .next (take s (p.take n) m).1 n
      else .bad (take s (p.take n) m).1

section

variable {μ σ : Type} {front : Octets → Decoded μ} {take : σ → Octets → μ → σ × Bool} {s : σ}
  {p : Octets}

theorem msgLook_need (h : p = [] ∨ front p = .need) : msgLook front take s p = .more := by
  unfold msgLook
  by_cases h_nil : p = []
  · exact if_pos h_nil
  · rw [if_neg h_nil, h.resolve_left h_nil]

theorem msgLook_bad (h_some : p ≠ []) (h : front p = .bad) : msgLook front take s p = .bad s := by
  unfold msgLook
  rw [if_neg h_some, h]

theorem msgLook_next {m : μ} {n : Nat} (h_some : p ≠ []) (h : front p = .ok m n)
    (h_ok : (take s (p.take n) m).2 = true) :
    msgLook front take s p = .next (take s (p.take n) m).1 n := by
  unfold msgLook
  rw [if_neg h_some, h]
  exact if_pos h_ok

theorem msgLook_failed {m : μ} {n : Nat} (h_some : p ≠ []) (h : front p = .ok m n)
    (h_failed : (take s (p.take n) m).2 = false) :
    msgLook front take s p = .bad (take s (p.take n) m).1 := by
  have h_ok : ¬ (take s (p.take n) m).2 = true := by rw [h_failed]; exact Bool.false_ne_true
  unfold msgLook
  rw [if_neg h_some, h]
  exact if_neg h_ok

theorem msgLook_cases (front : Octets → Decoded μ) (take : σ → Octets → μ → σ × Bool) (s : σ)
    (p : Octets) :
    msgLook front take s p = .more ∨
    p ≠ [] ∧ front p = .bad ∧ msgLook front take s p = .bad s ∨
    ∃ m n, p ≠ [] ∧ front p = .ok m n ∧
      ((take s (p.take n) m).2 = true ∧ msgLook front take s p = .next (take s (p.take n) m).1 n ∨
        (take s (p.take n) m).2 = false ∧
          msgLook front take s p = .bad (take s (p.take n) m).1) := by
  by_cases h_nil : p = []
  · exact Or.inl (msgLook_need (Or.inl h_nil))
  · cases h_front : front p with
    | need => exact Or.inl (msgLook_need (Or.inr h_front))
    | bad => exact Or.inr (Or.inl ⟨h_nil, rfl, msgLook_bad h_nil h_front⟩)
    | ok m n =>
      refine Or.inr (Or.inr ⟨m, n, h_nil, rfl, ?_⟩)
      cases h_ok : (take s (p.take n) m).2 with
      | true => exact Or.inl ⟨rfl, msgLook_next h_nil h_front h_ok⟩
      | false => exact Or.inr ⟨rfl, msgLook_failed h_nil h_front h_ok⟩

/-- The loop that takes one message after the other. -/
def Settled.parser (h : Settled front) (take : σ → Octets → μ → σ × Bool) :
    FrontParser σ UInt8 where
  look := msgLook front take
  takes := by
    intro s s' p n h_next
    rcases msgLook_cases front take s p with
      h_look | ⟨-, -, h_look⟩ | ⟨m, k, h_some, h_front, ⟨-, h_look⟩ | ⟨-, h_look⟩⟩
    · rw [h_look] at h_next
      cases h_next
    · rw [h_look] at h_next
      cases h_next
    · rw [h_look] at h_next
      obtain ⟨-, rfl⟩ := Look.next.inj h_next
      obtain ⟨h_pos, h_le, -⟩ := h.ok h_some h_front
      exact ⟨h_pos, h_le⟩
    · rw [h_look] at h_next
      cases h_next
  next_append := by
    intro s s' p n h_next x
    rcases msgLook_cases front take s p with
      h_look | ⟨-, -, h_look⟩ | ⟨m, k, h_some, h_front, ⟨h_ok, h_look⟩ | ⟨-, h_look⟩⟩
    · rw [h_look] at h_next
      cases h_next
    · rw [h_look] at h_next
      cases h_next
    · rw [h_look] at h_next
      obtain ⟨rfl, rfl⟩ := Look.next.inj h_next
      obtain ⟨-, h_le, h_more⟩ := h.ok h_some h_front
      have h_append : p ++ x ≠ [] := List.append_ne_nil_of_left_ne_nil h_some x
      have h_take : (p ++ x).take k = p.take k := List.take_append_of_le_length h_le
      rw [← h_take] at h_ok ⊢
      exact msgLook_next h_append (h_more x) h_ok
    · rw [h_look] at h_next
      cases h_next
  bad_append := by
    intro s s' p h_bad x
    rcases msgLook_cases front take s p with
      h_look | ⟨h_some, h_front, h_look⟩ | ⟨m, k, h_some, h_front, ⟨-, h_look⟩ | ⟨h_ok, h_look⟩⟩
    · rw [h_look] at h_bad
      cases h_bad
    · rw [h_look] at h_bad
      obtain rfl := Look.bad.inj h_bad
      exact msgLook_bad (List.append_ne_nil_of_left_ne_nil h_some x) (h.bad h_some h_front x)
    · rw [h_look] at h_bad
      cases h_bad
    · rw [h_look] at h_bad
      obtain rfl := Look.bad.inj h_bad
      obtain ⟨-, h_le, h_more⟩ := h.ok h_some h_front
      have h_append : p ++ x ≠ [] := List.append_ne_nil_of_left_ne_nil h_some x
      have h_take : (p ++ x).take k = p.take k := List.take_append_of_le_length h_le
      rw [← h_take] at h_ok ⊢
      exact msgLook_failed h_append (h_more x) h_ok

end

/-! ## Signalling -/

inductive SigMsg where
  | sessInit (m : QuicSessInit)
  | keepalive
  | sessTerm (m : QuicSessTerm)
  | msgReject (m : QuicMsgReject)
  | unknown (type : UInt8)

/-- The signalling message at the front. -/
def sigFront (p : Octets) : Decoded SigMsg :=
  if p = [] then .need
  else if p.head? = some qmsgSessInit then mapMsg .sessInit (quicMsgDecodeSessInit p)
  else if p.head? = some qmsgKeepalive then .ok .keepalive 1
  else if p.head? = some qmsgSessTerm then mapMsg .sessTerm (quicMsgDecodeSessTerm p)
  else if p.head? = some qmsgMsgReject then mapMsg .msgReject (quicMsgDecodeMsgReject p)
  else .ok (.unknown (p.headD 0)) 1

theorem settled_sigFront : Settled sigFront := by
  have h_fields : Reader.Stable QuicMsgReject.fields := by
    refine Reader.stable_rU8.andThen fun rejectedType => ?_
    exact Reader.stable_rU8.andThen fun reason => Reader.stable_pure _
  have h_reject : Settled quicMsgDecodeMsgReject := Settled.decodeMsg h_fields msgReject_used_pos
  have h_term : Settled quicMsgDecodeSessTerm :=
    Settled.decodeMsg stable_sessTermFields sessTerm_used_pos
  have h_init : Settled quicMsgDecodeSessInit := by
    have h_decode : Settled (decodeMsg qmsgSessInit QuicSessInit.fields) := by
      apply Settled.decodeMsg stable_sessInitFields
      intro p n h
      exact sessInit_used_pos h
    exact h_decode
  apply Settled.nonempty
  apply (h_init.map SigMsg.sessInit).byType
  apply (Settled.octet fun _ => SigMsg.keepalive).byType
  apply (h_term.map SigMsg.sessTerm).byType
  exact (h_reject.map SigMsg.msgReject).byType (Settled.octet SigMsg.unknown)

theorem sigFront_ne_nil {p : Octets} (h : sigFront p = .bad ∨ ∃ m n, sigFront p = .ok m n) :
    p ≠ [] := by
  rintro rfl
  have h_need : sigFront [] = .need := if_pos rfl
  rw [h_need] at h
  rcases h with h | ⟨m, n, h⟩
  · cases h
  · cases h

namespace SigConn

/-- What the session does with a message, and whether it goes on. -/
def sigHandle (cfg : SigCfg) (mem : Bool) (c : SigConn) : SigMsg → SigConn × Bool
  | .sessInit peer => handleSessInit cfg mem c peer
  | .keepalive => (c, true)
  | .sessTerm _ => (handleSessTerm mem c, true)
  | .msgReject _ => (c, true)
  | .unknown type => ((sendMsgReject mem c type qmsgRejectUnsupported).1, false)

end SigConn

/-- A round is what the session does with the message at the front. -/
def frontRound (cfg : SigCfg) (mem : Bool) (c : SigConn) : Decoded SigMsg → SigRound
  | .need => .stop
  | .bad => .bad c
  | .ok m n =>
    if (c.sigHandle cfg mem m).2 then .next (c.sigHandle cfg mem m).1 n
    else .bad (c.sigHandle cfg mem m).1

theorem sigRound_eq (cfg : SigCfg) (mem : Bool) (c : SigConn) (p : Octets) :
    sigRound cfg mem c p = frontRound cfg mem c (sigFront p) := by
  cases p with
  | nil => rfl
  | cons type rest =>
    have h_head : ∀ t : UInt8, (type :: rest).head? = some t ↔ type = t := fun t =>
      ⟨fun h => Option.some.inj h, fun h => congrArg some h⟩
    have h_some : type :: rest ≠ [] := List.cons_ne_nil type rest
    unfold sigRound sigFront
    rw [if_neg h_some]
    simp only [h_head]
    by_cases h_init : type = qmsgSessInit
    · rw [if_pos h_init, if_pos h_init]
      cases quicMsgDecodeSessInit (type :: rest) with
      | need => rfl
      | bad => rfl
      | ok peer n =>
        obtain ⟨c', ok, h_done⟩ :
            ∃ c' ok, SigConn.handleSessInit cfg mem c peer = (c', ok) := ⟨_, _, rfl⟩
        have h_handle : c.sigHandle cfg mem (.sessInit peer) = (c', ok) := h_done
        rw [mapMsg, frontRound, h_handle]
        dsimp only
        rw [h_done]
        cases ok with
        | true => rfl
        | false => rfl
    · rw [if_neg h_init, if_neg h_init]
      by_cases h_keepalive : type = qmsgKeepalive
      · rw [if_pos h_keepalive, if_pos h_keepalive]
        rfl
      · rw [if_neg h_keepalive, if_neg h_keepalive]
        by_cases h_term : type = qmsgSessTerm
        · rw [if_pos h_term, if_pos h_term]
          cases quicMsgDecodeSessTerm (type :: rest) with
          | need => rfl
          | bad => rfl
          | ok term n => rfl
        · rw [if_neg h_term, if_neg h_term]
          by_cases h_reject : type = qmsgMsgReject
          · rw [if_pos h_reject, if_pos h_reject]
            cases quicMsgDecodeMsgReject (type :: rest) with
            | need => rfl
            | bad => rfl
            | ok rej n => rfl
          · rw [if_neg h_reject, if_neg h_reject]
            rfl

/-! ## Bundles -/

inductive XferMsg where
  | segment (seg : QuicXferSegment) (segData : Octets)
  | xferAck (m : QuicXferAck)
  | xferRefuse (m : QuicXferRefuse)

/-- The segment at the front, with its data. -/
def segmentFront (p : Octets) : Decoded XferMsg :=
  match quicMsgDecodeXferSegmentHdr p with
  | .need => .need
  | .bad => .bad
  | .ok seg hdr =>
    if seg.segmentLength > quicclaBufsz ∨ seg.bundleLength > quicclaBufsz then .bad
    else if p.length - hdr < seg.segmentLength then .need
    else .ok (.segment seg ((p.drop hdr).take seg.segmentLength)) (hdr + seg.segmentLength)

/-- The transfer message at the front. -/
def xferFront (p : Octets) : Decoded XferMsg :=
  if p = [] then .need
  else if p.head? = some qmsgXferSegment then segmentFront p
  else if p.head? = some qmsgXferAck then mapMsg .xferAck (quicMsgDecodeXferAck p)
  else if p.head? = some qmsgXferRefuse then mapMsg .xferRefuse (quicMsgDecodeXferRefuse p)
  else .bad

theorem Settled.never {μ : Type} : Settled fun _ => (.bad : Decoded μ) where
  ok := by
    intro p m n h_some h
    cases h
  bad := fun _ _ _ => rfl

theorem settled_segmentFront : Settled segmentFront := by
  have h_hdr : Settled quicMsgDecodeXferSegmentHdr :=
    Settled.decodeMsg stable_segmentFields xferSegment_used_pos
  constructor
  · intro p m n h_some h
    cases h_dec : quicMsgDecodeXferSegmentHdr p with
    | need => rw [segmentFront, h_dec] at h; cases h
    | bad => rw [segmentFront, h_dec] at h; cases h
    | ok seg hdr =>
      obtain ⟨h_pos, h_le, h_more⟩ := h_hdr.ok h_some h_dec
      rw [segmentFront, h_dec] at h
      dsimp only at h
      by_cases h_size : seg.segmentLength > quicclaBufsz ∨ seg.bundleLength > quicclaBufsz
      · rw [if_pos h_size] at h
        cases h
      · by_cases h_short : p.length - hdr < seg.segmentLength
        · rw [if_neg h_size, if_pos h_short] at h
          cases h
        · rw [if_neg h_size, if_neg h_short] at h
          obtain ⟨rfl, rfl⟩ := Decoded.ok.inj h
          refine ⟨by omega, by omega, fun x => ?_⟩
          have h_room : ¬ (p ++ x).length - hdr < seg.segmentLength := by
            rw [List.length_append]
            omega
          have h_data : seg.segmentLength ≤ (p.drop hdr).length := by
            rw [List.length_drop]
            omega
          rw [segmentFront, h_more x]
          dsimp only
          rw [if_neg h_size, if_neg h_room, List.drop_append_of_le_length h_le,
            List.take_append_of_le_length h_data]
  · intro p h_some h x
    cases h_dec : quicMsgDecodeXferSegmentHdr p with
    | need => rw [segmentFront, h_dec] at h; cases h
    | bad => rw [segmentFront, h_hdr.bad h_some h_dec x]
    | ok seg hdr =>
      rw [segmentFront, h_dec] at h
      dsimp only at h
      by_cases h_size : seg.segmentLength > quicclaBufsz ∨ seg.bundleLength > quicclaBufsz
      · rw [segmentFront, (h_hdr.ok h_some h_dec).2.2 x]
        exact if_pos h_size
      · rw [if_neg h_size] at h
        split at h
        · cases h
        · cases h

theorem settled_xferFront : Settled xferFront := by
  have h_ack : Settled quicMsgDecodeXferAck := Settled.decodeMsg stable_ackFields xferAck_used_pos
  have h_refuse : Settled quicMsgDecodeXferRefuse :=
    Settled.decodeMsg stable_refuseFields xferRefuse_used_pos
  apply Settled.nonempty
  apply settled_segmentFront.byType
  apply (h_ack.map XferMsg.xferAck).byType
  exact (h_refuse.map XferMsg.xferRefuse).byType Settled.never

/-- What the receiver does with a message; `takes` says whether the delivery callback takes the
    bundle that it completes. -/
def xferHandle (q : StreamRx) (mem takes : Bool) : XferMsg → XferOut
  | .segment seg segData => xferReassemble q seg segData mem takes
  | .xferAck _ => ⟨q, none, true⟩
  | .xferRefuse _ => ⟨q, none, true⟩

theorem xferFront_ne_nil {p : Octets} (h : xferFront p = .bad ∨ ∃ m n, xferFront p = .ok m n) :
    p ≠ [] := by
  rintro rfl
  have h_need : xferFront [] = .need := if_pos rfl
  rw [h_need] at h
  rcases h with h | ⟨m, n, h⟩
  · cases h
  · cases h

/-- A message that is there: a segment with all of its data, or one that changes nothing. -/
theorem xferFront_ok {p : Octets} {m : XferMsg} {n : Nat} (h : xferFront p = .ok m n) :
    (∃ seg hdr, p.head? = some qmsgXferSegment ∧ quicMsgDecodeXferSegmentHdr p = .ok seg hdr ∧
      seg.segmentLength ≤ quicclaBufsz ∧ seg.bundleLength ≤ quicclaBufsz ∧
      seg.segmentLength ≤ p.length - hdr ∧
      m = .segment seg ((p.drop hdr).take seg.segmentLength) ∧ n = hdr + seg.segmentLength) ∨
    (p.head? ≠ some qmsgXferSegment ∧ ∀ q mem takes, xferHandle q mem takes m = ⟨q, none, true⟩) := by
  unfold xferFront at h
  by_cases h_nil : p = []
  · rw [if_pos h_nil] at h
    cases h
  · rw [if_neg h_nil] at h
    by_cases h_segment : p.head? = some qmsgXferSegment
    · left
      rw [if_pos h_segment, segmentFront] at h
      cases h_dec : quicMsgDecodeXferSegmentHdr p with
      | need => rw [h_dec] at h; cases h
      | bad => rw [h_dec] at h; cases h
      | ok seg hdr =>
        rw [h_dec] at h
        dsimp only at h
        by_cases h_size : seg.segmentLength > quicclaBufsz ∨ seg.bundleLength > quicclaBufsz
        · rw [if_pos h_size] at h
          cases h
        · obtain ⟨h_seg, h_bundle⟩ := not_or.mp h_size
          rw [if_neg h_size] at h
          by_cases h_short : p.length - hdr < seg.segmentLength
          · rw [if_pos h_short] at h
            cases h
          · rw [if_neg h_short] at h
            obtain ⟨rfl, rfl⟩ := Decoded.ok.inj h
            exact ⟨seg, hdr, h_segment, rfl, Nat.le_of_not_lt h_seg, Nat.le_of_not_lt h_bundle,
              Nat.le_of_not_lt h_short, rfl, rfl⟩
    · right
      refine ⟨h_segment, ?_⟩
      rw [if_neg h_segment] at h
      by_cases h_ack : p.head? = some qmsgXferAck
      · rw [if_pos h_ack] at h
        cases h_dec : quicMsgDecodeXferAck p with
        | need => rw [h_dec] at h; cases h
        | bad => rw [h_dec] at h; cases h
        | ok ack hdr =>
          rw [h_dec] at h
          obtain ⟨rfl, rfl⟩ := Decoded.ok.inj h
          exact fun _ _ _ => rfl
      · rw [if_neg h_ack] at h
        by_cases h_refuse : p.head? = some qmsgXferRefuse
        · rw [if_pos h_refuse] at h
          cases h_dec : quicMsgDecodeXferRefuse p with
          | need => rw [h_dec] at h; cases h
          | bad => rw [h_dec] at h; cases h
          | ok ref hdr =>
            rw [h_dec] at h
            obtain ⟨rfl, rfl⟩ := Decoded.ok.inj h
            exact fun _ _ _ => rfl
        · rw [if_neg h_refuse] at h
          cases h

/-- Why more octets are needed. -/
theorem xferFront_need {p : Octets} (h : xferFront p = .need) :
    p = [] ∨
    (p.head? = some qmsgXferSegment ∧ (quicMsgDecodeXferSegmentHdr p = .need ∨
      ∃ seg hdr, quicMsgDecodeXferSegmentHdr p = .ok seg hdr ∧
        seg.segmentLength ≤ quicclaBufsz ∧ p.length - hdr < seg.segmentLength)) ∨
    (p.head? = some qmsgXferAck ∧ quicMsgDecodeXferAck p = .need) ∨
    (p.head? = some qmsgXferRefuse ∧ quicMsgDecodeXferRefuse p = .need) := by
  unfold xferFront at h
  by_cases h_nil : p = []
  · exact Or.inl h_nil
  · right
    rw [if_neg h_nil] at h
    by_cases h_segment : p.head? = some qmsgXferSegment
    · left
      refine ⟨h_segment, ?_⟩
      rw [if_pos h_segment, segmentFront] at h
      cases h_dec : quicMsgDecodeXferSegmentHdr p with
      | need => exact Or.inl rfl
      | bad => rw [h_dec] at h; cases h
      | ok seg hdr =>
        right
        rw [h_dec] at h
        dsimp only at h
        by_cases h_size : seg.segmentLength > quicclaBufsz ∨ seg.bundleLength > quicclaBufsz
        · rw [if_pos h_size] at h
          cases h
        · rw [if_neg h_size] at h
          by_cases h_short : p.length - hdr < seg.segmentLength
          · exact ⟨seg, hdr, rfl, Nat.le_of_not_lt (not_or.mp h_size).1, h_short⟩
          · rw [if_neg h_short] at h
            cases h
    · right
      rw [if_neg h_segment] at h
      by_cases h_ack : p.head? = some qmsgXferAck
      · left
        rw [if_pos h_ack] at h
        cases h_dec : quicMsgDecodeXferAck p with
        | need => exact ⟨h_ack, rfl⟩
        | bad => rw [h_dec] at h; cases h
        | ok ack hdr => rw [h_dec] at h; cases h
      · right
        rw [if_neg h_ack] at h
        by_cases h_refuse : p.head? = some qmsgXferRefuse
        · rw [if_pos h_refuse] at h
          cases h_dec : quicMsgDecodeXferRefuse p with
          | need => exact ⟨h_refuse, rfl⟩
          | bad => rw [h_dec] at h; cases h
          | ok ref hdr => rw [h_dec] at h; cases h
        · rw [if_neg h_refuse] at h
          cases h

/-- The loop of `deliverBundles` where the message at the front is `front`. -/
def frontDeliver (env : StreamEnv) (fuel : Nat) (q : StreamRx) (buf : Octets)
    (delivered : List Octets) : Decoded XferMsg → ParseOut
  | .need => ⟨{ q with rxBuf := buf }, delivered, true⟩
  | .bad => ⟨q, delivered, false⟩
  | .ok m n =>
    let out := xferHandle q env.xferMem (decide (env.refuses ≠ some delivered.length)) m
    let delivered := delivered ++ out.delivered.toList
    if out.ok then deliverBundlesFrom env fuel out.rx (buf.drop n) delivered
    else ⟨out.rx, delivered, false⟩

theorem deliverBundlesFrom_eq (env : StreamEnv) (fuel : Nat) (q : StreamRx) (buf : Octets)
    (delivered : List Octets) :
    deliverBundlesFrom env (fuel + 1) q buf delivered =
      frontDeliver env fuel q buf delivered (xferFront buf) := by
  cases buf with
  | nil => rfl
  | cons type rest =>
    have h_head : ∀ t : UInt8, (type :: rest).head? = some t ↔ type = t := fun t =>
      ⟨fun h => Option.some.inj h, fun h => congrArg some h⟩
    have h_some : type :: rest ≠ [] := List.cons_ne_nil type rest
    unfold deliverBundlesFrom xferFront segmentFront
    rw [if_neg h_some]
    simp only [h_head]
    by_cases h_segment : type = qmsgXferSegment
    · rw [if_pos h_segment, if_pos h_segment]
      cases quicMsgDecodeXferSegmentHdr (type :: rest) with
      | need => rfl
      | bad => rfl
      | ok seg hdr =>
        dsimp only
        by_cases h_size : seg.segmentLength > quicclaBufsz ∨ seg.bundleLength > quicclaBufsz
        · rw [if_pos h_size, if_pos h_size]
          rfl
        · rw [if_neg h_size, if_neg h_size]
          by_cases h_short : (type :: rest).length - hdr < seg.segmentLength
          · rw [if_pos h_short, if_pos h_short]
            rfl
          · rw [if_neg h_short, if_neg h_short, frontDeliver, xferHandle]
            cases h_ok : (xferReassemble q seg
                (((type :: rest).drop hdr).take seg.segmentLength) env.xferMem
                (decide (env.refuses ≠ some delivered.length))).ok with
            | true => rfl
            | false => rfl
    · rw [if_neg h_segment, if_neg h_segment]
      by_cases h_ack : type = qmsgXferAck
      · rw [if_pos h_ack, if_pos h_ack]
        cases quicMsgDecodeXferAck (type :: rest) with
        | need => rfl
        | bad => rfl
        | ok ack n =>
          show deliverBundlesFrom env fuel q ((type :: rest).drop n) delivered =
            deliverBundlesFrom env fuel q ((type :: rest).drop n) (delivered ++ [])
          rw [List.append_nil]
      · rw [if_neg h_ack, if_neg h_ack]
        by_cases h_refuse : type = qmsgXferRefuse
        · rw [if_pos h_refuse, if_pos h_refuse]
          cases quicMsgDecodeXferRefuse (type :: rest) with
          | need => rfl
          | bad => rfl
          | ok ref n =>
            show deliverBundlesFrom env fuel q ((type :: rest).drop n) delivered =
              deliverBundlesFrom env fuel q ((type :: rest).drop n) (delivered ++ [])
            rw [List.append_nil]
        · rw [if_neg h_refuse, if_neg h_refuse]
          rfl

end IonContrib.Quic
