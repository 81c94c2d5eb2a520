/-
  IonContrib.Quic.Forward

  Whether a session only moves forward.

  `handleSessInit` does not look at the state of the session: a SESS_INIT
  negotiates anew whenever it comes, and it takes a session that is ending back
  to where it may be claimed (`sessInit_revives`).  In runs in which that does
  not happen the session moves forward (`session_moves_forward`), since nothing
  else changes what was negotiated or leaves the ending state.
-/
import IonContrib.Quic.Engine

namespace IonContrib.Quic

open Lts

/-! ## One connection -/

/-- What a later state of a connection has kept of an earlier one. -/
structure QuicSess.Forward (c c' : QuicSess) : Prop where
  ending : c.sig.sessState = .ending → c'.sig.sessState = .ending
  up : c.sig.sessState ≠ .connecting → c'.sig.sessState ≠ .connecting
  terms : c.sig.sessState ≠ .connecting → c'.sig.terms = c.sig.terms
  termSent : c.sig.termSent = true → c'.sig.termSent = true
  termReceived : c.termReceived = true → c'.termReceived = true

theorem QuicSess.Forward.refl (c : QuicSess) : Forward c c := ⟨id, id, fun _ => rfl, id, id⟩

theorem QuicSess.Forward.trans {c₁ c₂ c₃ : QuicSess} (h : Forward c₁ c₂) (h' : Forward c₂ c₃) :
    Forward c₁ c₃ where
  ending h_ending := h'.ending (h.ending h_ending)
  up h_up := h'.up (h.up h_up)
  terms h_up := (h'.terms (h.up h_up)).trans (h.terms h_up)
  termSent h_sent := h'.termSent (h.termSent h_sent)
  termReceived h_received := h'.termReceived (h.termReceived h_received)

/-- The message at the front is no SESS_INIT of a session that is ending, and one of an established
    session asks for what it is. -/
def QuicSess.initRepeats (cfg : SigCfg) (c : QuicSess) : Bool :=
  match quicMsgDecodeSessInit c.front with
  | .ok peer _ => c.sig.sessState ≠ .ending ∧
    (c.sig.sessState = .established → c.sig.negotiated cfg peer = c.sig.terms)
  | _ => true

theorem QuicSess.initRepeats_ok {cfg : SigCfg} {c : QuicSess} (h : c.initRepeats cfg = true)
    {peer : QuicSessInit} {n : Nat} (h_front : quicMsgDecodeSessInit c.front = .ok peer n) :
    c.sig.sessState ≠ .ending ∧
      (c.sig.sessState = .established → c.sig.negotiated cfg peer = c.sig.terms) := by
  unfold initRepeats at h
  rw [h_front] at h
  exact of_decide_eq_true h

/-- A step keeps to it, if a round that takes a SESS_INIT does. -/
theorem QuicSess.step_forward {cfg : SigCfg} {unreliable : Bool} {c c' : QuicSess} {act : SessAct}
    (h : c.step cfg unreliable act = some c')
    (h_init : ∀ mem, act = .parseSig mem → c.initRepeats cfg = true) : Forward c c' := by
  obtain ⟨h_keeps, h_moved⟩ := step_moved h
  cases h_moved with
  | rest h_terms h_state h_sent h_received =>
    exact ⟨h_state.trans, fun h_up => h_state ▸ h_up, fun _ => h_terms, h_keeps.termSent,
      h_keeps.termReceived⟩
  | init h_front h_terms h_state h_sent h_received h_announced =>
    obtain ⟨h_ending, h_same⟩ := initRepeats_ok (h_init _ rfl) h_front
    refine ⟨fun h_end => absurd h_end h_ending, fun h_up => ?_, fun h_up => ?_, h_keeps.termSent,
      h_keeps.termReceived⟩
    · rcases h_state with h_state | h_state
      · rw [h_state]
        decide
      · rwa [h_state]
    · have h_est : c.sig.sessState = .established := by
        cases h_at : c.sig.sessState with
        | connecting => exact absurd h_at h_up
        | established => rfl
        | ending => exact absurd h_at h_ending
      rw [h_terms, h_same h_est]
  | term h_terms h_state =>
    refine ⟨fun _ => h_state, fun _ => ?_, fun _ => h_terms, h_keeps.termSent,
      h_keeps.termReceived⟩
    rw [h_state]
    decide

/-! ## Runs -/

namespace Engine

/-- What a step has to keep to: of SESS_INIT, and no sender looks for a connection once the I/O
    thread has left its loop. -/
def Steady (e : Engine) : EngineAct → Prop
  | .conn id (.parseSig _) => (e.conn id).initRepeats e.cfg = true
  | .look _ => e.io = .running
  | _ => True

instance (e : Engine) : DecidablePred e.Steady := fun a => by
  unfold Steady
  split <;> infer_instance

/-- A session that has a SESS_TERM behind it is ending, or the engine is. -/
structure TermInv (e : Engine) : Prop where
  received : ∀ id, (e.conn id).termReceived = true → (e.conn id).sig.sessState = .ending
  sent : ∀ id, (e.conn id).sig.termSent = true →
    (e.conn id).sig.sessState = .ending ∨ e.io ≠ .running
  listed : ∀ id ∈ e.conns, id < e.next

theorem TermInv.init (cfg : SigCfg) (unreliable : Bool) :
    TermInv (Engine.init cfg unreliable) where
  received id h := by cases h
  sent id h := by cases h
  listed id h := by cases h

theorem Stepped.io {e e' : Engine} {a : EngineAct} (h : e.Stepped a e')
    (h_io : e.io ≠ .running) : e'.io ≠ .running := by
  cases h with
  | leave h => exact absurd h h_io
  | stopped => exact fun h => by cases h
  | _ => exact h_io

/-- What a steady step leaves of every connection that was there. -/
theorem Stepped.forward {e e' : Engine} {a : EngineAct} (h : e.Stepped a e') (h_a : e.Steady a)
    {id : Nat} (h_id : id < e.next) : QuicSess.Forward (e.conn id) (e'.conn id) := by
  rcases h.conn_cases id with ⟨busy, failed, h_eq, -⟩ | ⟨act, rfl, -, -, h_step⟩ | ⟨h_new, -⟩
  · rw [h_eq]
    exact ⟨fun h => h, fun h => h, fun _ => rfl, fun h => h, fun h => h⟩
  · refine QuicSess.step_forward h_step fun mem h_act => ?_
    subst h_act
    exact h_a
  · exact absurd h_id (h_new ▸ Nat.lt_irrefl _)

theorem Stepped.termInv {e e' : Engine} {a : EngineAct} (h : e.Stepped a e') (h_a : e.Steady a)
    (h_inv : TermInv e) : TermInv e' := by
  have h_listed := (h.listed h_inv.listed).2
  refine ⟨fun id h_received => ?_, fun id h_sent => ?_, h_listed⟩
  · rcases h.conn_cases id with ⟨busy, failed, h_eq, -⟩ | ⟨act, rfl, -, -, h_step⟩ |
      ⟨-, -, d, h_eq⟩
    · rw [h_eq] at h_received ⊢
      exact h_inv.received id h_received
    · obtain ⟨h_keeps, h_moved⟩ := QuicSess.step_moved h_step
      cases h_moved with
      | rest h_terms h_state h_sent h_same =>
        rw [h_same] at h_received
        rw [h_state]
        exact h_inv.received id h_received
      | init h_front h_terms h_state h_sent h_same h_announced =>
        -- It was received before, so the session was ending.
        rw [h_same] at h_received
        exact absurd (h_inv.received id h_received) (QuicSess.initRepeats_ok h_a h_front).1
      | term h_terms h_state => exact h_state
    · rw [h_eq] at h_received
      cases h_received
  · rcases h.conn_cases id with ⟨busy, failed, h_eq, -⟩ | ⟨act, rfl, -, h_io, h_step⟩ |
      ⟨-, -, d, h_eq⟩
    · rw [h_eq] at h_sent ⊢
      exact (h_inv.sent id h_sent).imp_right h.io
    · have h_moved := (QuicSess.step_moved h_step).2
      cases h_moved with
      | rest h_terms h_state h_same h_received =>
        rw [h_state]
        rcases h_same with h_same | ⟨mem, rfl⟩
        · rw [h_same] at h_sent
          exact (h_inv.sent id h_sent).imp_right h.io
        · -- The I/O thread sends one on its own only on its way out.
          refine Or.inr (h.io ?_)
          rw [show e.io = .stopping from of_decide_eq_true h_io]
          decide
      | init h_front h_terms h_state h_same h_received h_announced =>
        rw [h_same] at h_sent
        refine Or.inr (h.io ((h_inv.sent id h_sent).resolve_left ?_))
        exact (QuicSess.initRepeats_ok h_a h_front).1
      | term h_terms h_state => exact Or.inl h_state
    · rw [h_eq] at h_sent
      cases h_sent

/-- The invariant of a steady run, and what it has kept of a connection of an earlier state. -/
structure ForwardInv (s : Engine) (id : Nat) (t : Engine) : Prop where
  inv : TermInv t
  known : id < t.next
  forward : QuicSess.Forward (s.conn id) (t.conn id)

/-- **A session moves forward** in every run whose steps are steady: what is ending stays so, what
    was negotiated stays as it is, and a session that has sent or received a SESS_TERM is not
    claimed. -/
theorem session_moves_forward {cfg : SigCfg} {unreliable : Bool} {as bs : List EngineAct}
    {s t : Engine} (h_meets : Meets step Steady (init cfg unreliable) (as ++ bs))
    (h_as : run step (init cfg unreliable) as = some s) (h_bs : run step s bs = some t) :
    (∀ id ∈ s.conns, QuicSess.Forward (s.conn id) (t.conn id)) ∧
    ∀ i bs' sender id, bs = .look i :: bs' → s.senders[i]? = some sender →
      (s.claimReadyConn sender.nodeNbr).1 = some id →
        (s.conn id).sig.termSent = false ∧ (s.conn id).termReceived = false := by
  have h_inv : TermInv s := by
    refine run_invariant_of_meets (fun e a e' h h_a h_step => ?_) (TermInv.init cfg unreliable)
      h_meets.of_append h_as
    exact (stepped_of_step h_step).termInv h_a h
  have h_meets_bs : Meets step Steady s bs := by
    rw [meets_iff] at h_meets ⊢
    rintro pre a rest m rfl h_pre
    exact h_meets (as ++ pre) a rest m (by rw [List.append_assoc]) (run_append.mpr ⟨s, h_as, h_pre⟩)
  refine ⟨fun id h_id => ?_, ?_⟩
  · have h_start : ForwardInv s id s := ⟨h_inv, h_inv.listed id h_id, QuicSess.Forward.refl _⟩
    refine ForwardInv.forward (run_invariant_of_meets (fun e a e' h h_a h_step => ?_) h_start
      h_meets_bs h_bs)
    have h_stepped := stepped_of_step h_step
    refine ⟨h_stepped.termInv h_a h.inv, ?_, h.forward.trans (h_stepped.forward h_a h.known)⟩
    have h_next := (h_stepped.listed h.inv.listed).1
    have h_known := h.known
    omega
  · rintro i bs' sender id rfl - h_claim
    have h_running : s.io = .running := h_meets_bs.1
    obtain ⟨-, h_takes⟩ := claimReadyConn_some h_claim
    have h_est := h_takes.established
    refine ⟨Bool.not_eq_true _ ▸ fun h_sent => ?_, Bool.not_eq_true _ ▸ fun h_received => ?_⟩
    · rcases h_inv.sent id h_sent with h_ending | h_io
      · rw [h_est] at h_ending
        cases h_ending
      · exact h_io h_running
    · have h_ending := h_inv.received id h_received
      rw [h_est] at h_ending
      cases h_ending

/-! ## A session that is revived -/

/-- SESS_INIT of ipn:2.0. -/
def initOctets (keepalive : UInt8) : Octets :=
  [0x01, 0, keepalive, 0, 0, 0, 0, 0, 1, 0, 0, 0, 0, 0, 0, 0, 0, 0, 0, 0, 0, 0, 0, 0, 1, 0, 0,
    0, 7, 0x69, 0x70, 0x6e, 0x3a, 0x32, 0x2e, 0x30, 0, 0, 0, 0]

/-- An accepted connection on which SESS_INIT comes, and then SESS_TERM. -/
def untilTerm : List EngineAct :=
  [.accept, .conn 0 .handshakeDone, .conn 0 (.recvSig (initOctets 15) true),
    .conn 0 (.parseSig true), .conn 0 (.parseSig true), .conn 0 (.bringup ⟨true, true, true⟩),
    .conn 0 (.recvSig [0x06, 0, 0, 0, 0, 0, 0] true), .conn 0 (.parseSig true),
    .conn 0 (.parseSig true)]

/-- Another SESS_INIT, and a sender. -/
def revival : List EngineAct :=
  [.conn 0 (.recvSig (initOctets 1) true), .conn 0 (.parseSig true), .conn 0 (.parseSig true),
    .sendTo 2, .look 0]

theorem session_moves_forward_untilTerm : ∃ s t,
    run step (init ⟨30, 0, 1⟩ false) untilTerm = some s ∧
    run step s [.sendTo 2, .look 0] = some t ∧
    (s.conn 0).sig.sessState = .ending ∧ QuicSess.Forward (s.conn 0) (t.conn 0) := by
  have h_run : ((run step (init ⟨30, 0, 1⟩ false) untilTerm).map fun s =>
      (s.conns, (s.conn 0).sig.sessState, (run step s [.sendTo 2, .look 0]).isSome)) =
        some ([0], .ending, true) := by decide +kernel
  obtain ⟨s, h_as, h_s⟩ := Option.map_eq_some_iff.mp h_run
  simp only [Prod.mk.injEq] at h_s
  obtain ⟨h_conns, h_state, h_bs⟩ := h_s
  obtain ⟨t, h_bs⟩ := Option.isSome_iff_exists.mp h_bs
  have h_meets : Meets step Steady (init ⟨30, 0, 1⟩ false) (untilTerm ++ [.sendTo 2, .look 0]) := by
    decide +kernel
  have h_forward := (session_moves_forward h_meets h_as h_bs).1 0 (by simp [h_conns])
  exact ⟨s, t, h_as, h_bs, h_state, h_forward⟩

/-- A session that was ending is established again, with another keepalive interval, and claimed. -/
theorem sessInit_revives : ∃ s t,
    run step (init ⟨30, 0, 1⟩ false) untilTerm = some s ∧ run step s revival = some t ∧
    (s.conn 0).sig.sessState = .ending ∧ (s.conn 0).sig.terms = ⟨15, 65536, 65536, 2⟩ ∧
    (s.conn 0).sig.termSent = true ∧ (s.conn 0).termReceived = true ∧
    (t.conn 0).sig.sessState = .established ∧ (t.conn 0).sig.terms = ⟨1, 65536, 65536, 2⟩ ∧
    t.senders[0]? = some ⟨2, false, 0, .holding 0⟩ := by
  have h_before : ((run step (init ⟨30, 0, 1⟩ false) untilTerm).map fun s =>
      ((s.conn 0).sig.sessState, (s.conn 0).sig.terms, (s.conn 0).sig.termSent,
        (s.conn 0).termReceived)) = some (.ending, ⟨15, 65536, 65536, 2⟩, true, true) := by
    decide +kernel
  have h_after : ((run step (init ⟨30, 0, 1⟩ false) (untilTerm ++ revival)).map fun t =>
      ((t.conn 0).sig.sessState, (t.conn 0).sig.terms, t.senders[0]?)) =
        some (.established, ⟨1, 65536, 65536, 2⟩, some ⟨2, false, 0, .holding 0⟩) := by
    decide +kernel
  obtain ⟨t, h_run, h_t⟩ := Option.map_eq_some_iff.mp h_after
  obtain ⟨s, h_as, h_bs⟩ := run_append.mp h_run
  rw [h_as, Option.map_some, Option.some.injEq] at h_before
  simp only [Prod.mk.injEq] at h_before h_t
  obtain ⟨h_state, h_terms, h_sent, h_received⟩ := h_before
  exact ⟨s, t, h_as, h_bs, h_state, h_terms, h_sent, h_received, h_t⟩

end Engine

end IonContrib.Quic
