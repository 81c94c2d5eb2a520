/-
  IonContrib.Quic.Dialling

  Whether there is one connection for each neighbour.

  `claimReadyConn` knows a connection by the node number its peer has announced.
  So it does not see one that is still coming up, nor one whose peer announced
  something else, and a second connection is dialled; while one that is ending
  still counts.  Where neither happens (`Apart`), at most one live connection is
  dialled for a node (`one_per_neighbour`).  That a connection has at most one
  sender, and only one for a node its peer has announced, holds in every run.
-/
import IonContrib.Quic.Forward

namespace IonContrib.Quic

open Lts

def Sender.pins (s : Sender) (id : Nat) : Prop := s.pc = .waiting id ∨ s.pc = .holding id

namespace Engine

/-! ## Senders -/

theorem getElem?_setSender {e : Engine} {i j : Nat} {s t : Sender}
    (h : (e.setSender i s).senders[j]? = some t) :
    (j = i ∧ t = s) ∨ (j ≠ i ∧ e.senders[j]? = some t) := by
  unfold setSender at h
  rw [List.getElem?_set] at h
  by_cases h_eq : i = j
  · rw [if_pos h_eq] at h
    obtain ⟨-, h⟩ := Option.ite_none_right_eq_some.mp h
    exact Or.inl ⟨h_eq.symm, (Option.some.inj h).symm⟩
  · rw [if_neg h_eq] at h
    exact Or.inr ⟨fun h => h_eq h.symm, h⟩

/-- Where a sender of the next state comes from. -/
inductive SenderFrom (e : Engine) (a : EngineAct) (j : Nat) (t : Sender) : Prop
  | same (h : e.senders[j]? = some t) (h_waits : ∀ timeout, a ≠ .waitEnds j timeout)
    (h_publish : a ≠ .publish j) (h_sent : a ≠ .sent j)
  | idle (h_pc : t.pc = .looking ∨ t.pc = .done)
    (h_node : t.nodeNbr ≠ 0 ∨ ∃ s, e.senders[j]? = some s ∧ t.nodeNbr = s.nodeNbr)
  | claim {s : Sender} {id : Nat} (h_a : a = .look j) (h : e.senders[j]? = some s)
    (h_t : t = { s with pc := .holding id }) (h_in : id ∈ e.conns) (h_takes : e.Takes s.nodeNbr id)
  | dial {s : Sender} (h_a : a = .look j) (h : e.senders[j]? = some s) (h_pc : s.pc = .looking)
    (h_dialed : s.dialed = false) (h_t : t = { s with pc := .dialling })
    (h_none : ∀ id ∈ e.conns, ¬ e.Counts s.nodeNbr id)
  | publish {s : Sender} (h_a : a = .publish j) (h : e.senders[j]? = some s)
    (h_pc : s.pc = .dialling) (h_t : t = { s with pc := .waiting e.next })

theorem Stepped.sender {e e' : Engine} {a : EngineAct} (h : e.Stepped a e') {j : Nat} {t : Sender}
    (h_t : e'.senders[j]? = some t) : SenderFrom e a j t := by
  have h_done : ∀ {s : Sender}, e.senders[j]? = some s → t = { s with pc := .done } →
      SenderFrom e a j t := by
    rintro s h_s rfl
    exact .idle (Or.inr rfl) (Or.inr ⟨s, h_s, rfl⟩)
  cases h with
  | sendTo h_node =>
    dsimp only at h_t
    rw [List.getElem?_append] at h_t
    split at h_t
    · exact .same h_t (fun _ h => by cases h) (fun h => by cases h) (fun h => by cases h)
    · obtain rfl := List.mem_singleton.mp (List.mem_of_getElem? h_t)
      exact .idle (Or.inl rfl) (Or.inl h_node)
  | @claim i s id h_s h_pc h_claim =>
    rcases getElem?_setSender h_t with ⟨rfl, rfl⟩ | ⟨h_ne, h_t⟩
    · obtain ⟨h_in, h_takes⟩ := claimReadyConn_some h_claim
      exact .claim rfl h_s rfl h_in h_takes
    · exact .same h_t (fun _ h => by cases h) (fun h => by cases h) (fun h => by cases h)
  | @retry i s s' h_s h_pc h_claim h_node h_next =>
    rcases getElem?_setSender h_t with ⟨rfl, rfl⟩ | ⟨h_ne, h_t⟩
    · exact .idle h_next (Or.inr ⟨s, h_s, h_node⟩)
    · exact .same h_t (fun _ h => by cases h) (fun h => by cases h) (fun h => by cases h)
  | @dial i s h_s h_pc h_claim h_dialed =>
    rcases getElem?_setSender h_t with ⟨rfl, rfl⟩ | ⟨h_ne, h_t⟩
    · refine .dial rfl h_s h_pc h_dialed rfl fun id h_in h_counts => ?_
      have h_found := (claimReadyConn_none (congrArg Prod.fst h_claim)).mpr ⟨id, h_in, h_counts⟩
      rw [h_claim] at h_found
      cases h_found
    · exact .same h_t (fun _ h => by cases h) (fun h => by cases h) (fun h => by cases h)
  | @giveUp i s h_s h_pc h_claim h_dialed =>
    rcases getElem?_setSender h_t with ⟨rfl, h_eq⟩ | ⟨h_ne, h_t⟩
    · exact h_done h_s h_eq
    · exact .same h_t (fun _ h => by cases h) (fun h => by cases h) (fun h => by cases h)
  | @dialFails i s h_s h_pc =>
    rcases getElem?_setSender h_t with ⟨rfl, h_eq⟩ | ⟨h_ne, h_t⟩
    · exact h_done h_s h_eq
    · exact .same h_t (fun _ h => by cases h) (fun h => by cases h) (fun h => by cases h)
  | @publish i s h_s h_pc =>
    rcases getElem?_setSender h_t with ⟨rfl, rfl⟩ | ⟨h_ne, h_t⟩
    · exact .publish rfl h_s h_pc rfl
    · exact .same h_t (fun _ h => by cases h)
        (fun h => h_ne (EngineAct.publish.inj h).symm) (fun h => by cases h)
  | @waitEnds i s s' id timeout h_s h_pc h_node h_next =>
    rcases getElem?_setSender h_t with ⟨rfl, rfl⟩ | ⟨h_ne, h_t⟩
    · exact .idle h_next (Or.inr ⟨s, h_s, h_node⟩)
    · exact .same h_t (fun _ h => h_ne (EngineAct.waitEnds.inj h).1.symm) (fun h => by cases h)
        (fun h => by cases h)
  | @sent i s id h_s h_pc =>
    rcases getElem?_setSender h_t with ⟨rfl, h_eq⟩ | ⟨h_ne, h_t⟩
    · exact h_done h_s h_eq
    · exact .same h_t (fun _ h => by cases h) (fun h => by cases h)
        (fun h => h_ne (EngineAct.sent.inj h).symm)
  | accept | conn | reap | leave | stopped =>
    exact .same h_t (fun _ h => by cases h) (fun h => by cases h) (fun h => by cases h)

/-- Where a live connection that was dialled comes from. -/
theorem Stepped.dialled {e e' : Engine} {a : EngineAct} (h : e.Stepped a e')
    (h_listed : ∀ id ∈ e.conns, id < e.next) {id : Nat} (h_in : id ∈ e'.conns)
    (h_live : (e'.conn id).failed = false) {nodeNbr : Nat}
    (h_dialled : (e'.conn id).dialled = some nodeNbr) :
    (id ∈ e.conns ∧ (e.conn id).failed = false ∧ (e.conn id).dialled = some nodeNbr) ∨
    ∃ i s, a = .publish i ∧ e.senders[i]? = some s ∧ s.pc = .dialling ∧ s.nodeNbr = nodeNbr ∧
      id = e.next := by
  have h_old : id ∈ e.conns →
      id ∈ e.conns ∧ (e.conn id).failed = false ∧ (e.conn id).dialled = some nodeNbr := by
    intro h_in
    refine ⟨h_in, ?_⟩
    rcases h.conn_cases id with ⟨busy, failed, h_eq, h_failed⟩ | ⟨act, -, -, -, h_step⟩ | ⟨h_new, -⟩
    · rw [h_eq] at h_live h_dialled
      refine ⟨Bool.not_eq_true _ ▸ fun h => ?_, h_dialled⟩
      rw [h_failed h] at h_live
      cases h_live
    · obtain ⟨h_keeps, -⟩ := QuicSess.step_moved h_step
      refine ⟨Bool.not_eq_true _ ▸ fun h => ?_, h_keeps.dialled ▸ h_dialled⟩
      rw [h_keeps.failed h] at h_live
      cases h_live
    · exact absurd (h_listed id h_in) (h_new ▸ Nat.lt_irrefl _)
  cases h with
  | @publish i s h_s h_pc =>
    rcases List.mem_cons.mp h_in with rfl | h_in
    · refine Or.inr ⟨i, s, rfl, h_s, h_pc, ?_, rfl⟩
      have h_conn : (Function.update e.conn e.next (QuicSess.start (some s.nodeNbr)) e.next).dialled =
        some nodeNbr := h_dialled
      rw [Function.update_self] at h_conn
      exact Option.some.inj h_conn
    · exact Or.inl (h_old h_in)
  | accept =>
    rcases List.mem_cons.mp h_in with rfl | h_in
    · have h_conn : (Function.update e.conn e.next (QuicSess.start none) e.next).dialled =
        some nodeNbr := h_dialled
      rw [Function.update_self] at h_conn
      cases h_conn
    · exact Or.inl (h_old h_in)
  | reap => exact Or.inl (h_old (List.mem_of_mem_filter h_in))
  | _ => exact Or.inl (h_old h_in)

/-! ## Dialling -/

/-- What a look has to keep to.  Where it finds no connection to the node, none was dialled for it
    that is still alive, and nobody is about to put one on the list; and where one that it finds is
    ending, there is one that is not. -/
def Apart (e : Engine) : EngineAct → Prop
  | .look i => ∀ s ∈ e.senders[i]?, s.pc = .looking →
    ((∀ id ∈ e.conns, ¬ e.Counts s.nodeNbr id) → s.dialed = false →
      (∀ id ∈ e.conns, (e.conn id).failed = false → (e.conn id).dialled ≠ some s.nodeNbr) ∧
      ∀ s' ∈ e.senders, s'.nodeNbr = s.nodeNbr → s'.pc ≠ .dialling) ∧
    ((∃ id ∈ e.conns, e.Counts s.nodeNbr id ∧ (e.conn id).sig.sessState = .ending) →
      ∃ id ∈ e.conns, e.Counts s.nodeNbr id ∧ (e.conn id).sig.sessState ≠ .ending)
  | _ => True

instance (e : Engine) (nodeNbr id : Nat) : Decidable (e.Counts nodeNbr id) :=
  decidable_of_iff ((e.conn id).failed = false ∧ (e.conn id).sig.peerNode = nodeNbr)
    ⟨fun h => ⟨h.1, h.2⟩, fun h => ⟨h.live, h.peerNode⟩⟩

instance (e : Engine) : DecidablePred e.Apart
  | .look _ => @Option.decidableForallMem _ _ (fun _ => @instDecidableForall _ _ inferInstance
    inferInstance) _
  | .sendTo _ => .isTrue trivial
  | .dialFails _ => .isTrue trivial
  | .publish _ => .isTrue trivial
  | .waitEnds _ _ => .isTrue trivial
  | .sent _ => .isTrue trivial
  | .accept => .isTrue trivial
  | .conn _ _ => .isTrue trivial
  | .reap _ => .isTrue trivial
  | .leave => .isTrue trivial
  | .stopped => .isTrue trivial

/-- One connection, or one sender that is about to put one on the list, for each node. -/
structure DialInv (e : Engine) : Prop where
  listed : ∀ id ∈ e.conns, id < e.next
  one : ∀ id ∈ e.conns, ∀ id' ∈ e.conns, (e.conn id).failed = false → (e.conn id').failed = false →
    ∀ nodeNbr, (e.conn id).dialled = some nodeNbr → (e.conn id').dialled = some nodeNbr → id = id'
  dialling : ∀ (i j : Nat) (s t : Sender), e.senders[i]? = some s → e.senders[j]? = some t → s.pc = .dialling →
    t.pc = .dialling → s.nodeNbr = t.nodeNbr → i = j
  apart : ∀ (i : Nat) (s : Sender), e.senders[i]? = some s → s.pc = .dialling → ∀ id ∈ e.conns,
    (e.conn id).failed = false → (e.conn id).dialled ≠ some s.nodeNbr

theorem DialInv.init (cfg : SigCfg) (unreliable : Bool) : DialInv (Engine.init cfg unreliable) where
  listed id h := by cases h
  one id h := by cases h
  dialling i j s t h := by cases h
  apart i s h := by cases h

/-- A sender that dials next has been dialling, or has looked and found nothing. -/
theorem Stepped.dials {e e' : Engine} {a : EngineAct} (h : e.Stepped a e') {j : Nat} {t : Sender}
    (h_t : e'.senders[j]? = some t) (h_pc : t.pc = .dialling) :
    (e.senders[j]? = some t ∧ a ≠ .publish j) ∨
    ∃ s, a = .look j ∧ e.senders[j]? = some s ∧ s.pc = .looking ∧ s.dialed = false ∧
      s.nodeNbr = t.nodeNbr ∧ ∀ id ∈ e.conns, ¬ e.Counts s.nodeNbr id := by
  cases h.sender h_t with
  | same h _ h_publish _ => exact Or.inl ⟨h, h_publish⟩
  | idle h_idle h_node =>
    rw [h_pc] at h_idle
    exact h_idle.elim (fun h => by cases h) fun h => by cases h
  | claim h_a h h_t h_in h_takes =>
    rw [h_t] at h_pc
    cases h_pc
  | dial h_a h h_look h_dialed h_t h_none =>
    exact Or.inr ⟨_, h_a, h, h_look, h_dialed, by rw [h_t], h_none⟩
  | publish h_a h h_dialling h_t =>
    rw [h_t] at h_pc
    cases h_pc

theorem DialInv.step {e e' : Engine} {a : EngineAct} (h_inv : DialInv e) (h_a : e.Apart a)
    (h : e.Stepped a e') : DialInv e' := by
  -- A sender that has just looked is the only one, by `Apart`.
  have h_alone : ∀ {j s}, a = .look j → e.senders[j]? = some s → s.pc = .looking →
      s.dialed = false → (∀ id ∈ e.conns, ¬ e.Counts s.nodeNbr id) →
      (∀ id ∈ e.conns, (e.conn id).failed = false → (e.conn id).dialled ≠ some s.nodeNbr) ∧
      ∀ s' ∈ e.senders, s'.nodeNbr = s.nodeNbr → s'.pc ≠ .dialling := by
    rintro j s rfl h_s h_look h_dialed h_none
    exact (h_a s h_s h_look).1 h_none h_dialed
  refine ⟨(h.listed h_inv.listed).2, ?_, ?_, ?_⟩
  · intro id h_id id' h_id' h_live h_live' nodeNbr h_dialled h_dialled'
    rcases h.dialled h_inv.listed h_id h_live h_dialled with ⟨h_id, h_live, h_dialled⟩ |
      ⟨i, s, h_act, h_s, h_pc, h_node, h_new⟩
    · rcases h.dialled h_inv.listed h_id' h_live' h_dialled' with ⟨h_id', h_live', h_dialled'⟩ |
        ⟨i, s, h_act, h_s, h_pc, h_node, h_new⟩
      · exact h_inv.one id h_id id' h_id' h_live h_live' nodeNbr h_dialled h_dialled'
      · exact absurd (h_node ▸ h_dialled) (h_inv.apart i s h_s h_pc id h_id h_live)
    · rcases h.dialled h_inv.listed h_id' h_live' h_dialled' with ⟨h_id', h_live', h_dialled'⟩ |
        ⟨-, -, -, -, -, -, h_new'⟩
      · exact absurd (h_node ▸ h_dialled') (h_inv.apart i s h_s h_pc id' h_id' h_live')
      · rw [h_new, h_new']
  · intro i j s t h_s h_t h_pc h_pc' h_node
    rcases h.dials h_s h_pc with ⟨h_s, -⟩ | ⟨s₀, h_act, h_s₀, h_look, h_dialed, h_node₀, h_none⟩
    · rcases h.dials h_t h_pc' with ⟨h_t, -⟩ | ⟨t₀, h_act, h_t₀, h_look, h_dialed, h_node₀, h_none⟩
      · exact h_inv.dialling i j s t h_s h_t h_pc h_pc' h_node
      · exact absurd h_pc ((h_alone h_act h_t₀ h_look h_dialed h_none).2 s
          (List.mem_of_getElem? h_s) (h_node.trans h_node₀.symm))
    · rcases h.dials h_t h_pc' with ⟨h_t, -⟩ | ⟨t₀, h_act', -⟩
      · exact absurd h_pc' ((h_alone h_act h_s₀ h_look h_dialed h_none).2 t
          (List.mem_of_getElem? h_t) (h_node.symm.trans h_node₀.symm))
      · rw [h_act] at h_act'
        exact EngineAct.look.inj h_act'
  · intro i s h_s h_pc id h_id h_live h_dialled
    rcases h.dials h_s h_pc with ⟨h_s, h_publish⟩ |
      ⟨s₀, h_act, h_s₀, h_look, h_dialed, h_node₀, h_none⟩
    · rcases h.dialled h_inv.listed h_id h_live h_dialled with ⟨h_id, h_live, h_dialled⟩ |
        ⟨j, t, h_act, h_t, h_pc', h_node, -⟩
      · exact h_inv.apart i s h_s h_pc id h_id h_live h_dialled
      · -- The sender that puts it on the list is the one that was dialling.
        obtain rfl := h_inv.dialling i j s t h_s h_t h_pc h_pc' h_node.symm
        exact h_publish h_act
    · rcases h.dialled h_inv.listed h_id h_live h_dialled with ⟨h_id, h_live, h_dialled⟩ |
        ⟨j, t, h_act', -⟩
      · exact (h_alone h_act h_s₀ h_look h_dialed h_none).1 id h_id h_live (h_node₀ ▸ h_dialled)
      · rw [h_act] at h_act'
        cases h_act'

/-! ## Claims -/

/-- Who has a connection pinned has it to himself, and was told that its peer is the neighbour. -/
structure PinInv (e : Engine) : Prop where
  listed : ∀ id ∈ e.conns, id < e.next
  node : ∀ (i : Nat) (s : Sender), e.senders[i]? = some s → s.nodeNbr ≠ 0
  pinned : ∀ (i : Nat) (s : Sender) (id : Nat), e.senders[i]? = some s → s.pins id →
    id < e.next ∧ (e.conn id).sendBusy = true
  once : ∀ (i j : Nat) (s t : Sender) (id : Nat), e.senders[i]? = some s → e.senders[j]? = some t →
    s.pins id → t.pins id → i = j
  peerNode : ∀ id, (e.conn id).sig.peerNode = 0 ∨
    (e.conn id).sig.peerNode ∈ (e.conn id).announced
  held : ∀ (i : Nat) (s : Sender) (id : Nat), e.senders[i]? = some s → s.pc = .holding id →
    s.nodeNbr ∈ (e.conn id).announced

theorem PinInv.init (cfg : SigCfg) (unreliable : Bool) : PinInv (Engine.init cfg unreliable) where
  listed id h := by cases h
  node i s h := by cases h
  pinned i s id h := by cases h
  once i j s t id h := by cases h
  peerNode id := Or.inl rfl
  held i s id h := by cases h

/-- Who pins a connection in the next state. -/
theorem Stepped.pins {e e' : Engine} {a : EngineAct} (h : e.Stepped a e') {j : Nat} {t : Sender}
    {id : Nat} (h_t : e'.senders[j]? = some t) (h_pins : t.pins id) :
    (e.senders[j]? = some t ∧ (∀ timeout, a ≠ .waitEnds j timeout) ∧ a ≠ .sent j) ∨
    (∃ s, a = .look j ∧ e.senders[j]? = some s ∧ t.nodeNbr = s.nodeNbr ∧ id ∈ e.conns ∧
      e.Takes s.nodeNbr id) ∨
    (a = .publish j ∧ id = e.next ∧ t.pc = .waiting id) := by
  unfold Sender.pins at h_pins
  cases h.sender h_t with
  | same h h_waits h_publish h_sent => exact Or.inl ⟨h, h_waits, h_sent⟩
  | idle h_idle h_node => rcases h_idle with h_idle | h_idle <;> simp [h_idle] at h_pins
  | @claim s id' h_a h h_t h_in h_takes =>
    subst h_t
    obtain rfl : id' = id := by simpa using h_pins
    exact Or.inr (Or.inl ⟨s, h_a, h, rfl, h_in, h_takes⟩)
  | dial h_a h h_look h_dialed h_t h_none => simp [h_t] at h_pins
  | publish h_a h h_pc h_t =>
    subst h_t
    obtain rfl : e.next = id := by simpa using h_pins
    exact Or.inr (Or.inr ⟨h_a, rfl, rfl⟩)

/-- What a sender has just claimed is pinned. -/
theorem Stepped.claimed {e e' : Engine} {i : Nat} (h : e.Stepped (.look i) e') {t : Sender}
    {id : Nat} (h_t : e'.senders[i]? = some t) (h_pins : t.pins id) :
    (e'.conn id).sendBusy = true := by
  unfold Sender.pins at h_pins
  cases h with
  | @claim _ s id' h_s h_pc h_claim =>
    rcases getElem?_setSender h_t with ⟨-, rfl⟩ | ⟨h_ne, -⟩
    · obtain rfl : id' = id := by simpa using h_pins
      show (Function.update e.conn id' _ id').sendBusy = true
      rw [Function.update_self]
    · exact absurd rfl h_ne
  | retry h_s h_pc h_claim h_node h_next =>
    rcases getElem?_setSender h_t with ⟨-, rfl⟩ | ⟨h_ne, -⟩
    · rcases h_next with h_next | h_next <;> simp [h_next] at h_pins
    · exact absurd rfl h_ne
  | dial =>
    rcases getElem?_setSender h_t with ⟨-, rfl⟩ | ⟨h_ne, -⟩
    · simp at h_pins
    · exact absurd rfl h_ne
  | giveUp =>
    rcases getElem?_setSender h_t with ⟨-, rfl⟩ | ⟨h_ne, -⟩
    · simp at h_pins
    · exact absurd rfl h_ne

/-- A connection stays pinned unless the sender that has it pinned lets go of it. -/
theorem Stepped.busy {e e' : Engine} {a : EngineAct} (h : e.Stepped a e') {id : Nat}
    (h_id : id < e.next) (h_busy : (e.conn id).sendBusy = true) :
    (e'.conn id).sendBusy = true ∨ ∃ (i : Nat) (s : Sender), e.senders[i]? = some s ∧ s.pins id ∧
      ((∃ timeout, a = .waitEnds i timeout) ∨ a = .sent i) := by
  have h_new : ∀ c, (Function.update e.conn e.next c id).sendBusy = true := by
    intro c
    rw [Function.update_of_ne (Nat.ne_of_lt h_id)]
    exact h_busy
  cases h with
  | @claim i s id' h_s h_pc h_claim =>
    left
    show (Function.update e.conn id' _ id).sendBusy = true
    by_cases h_eq : id = id'
    · subst h_eq
      rw [Function.update_self]
    · rwa [Function.update_of_ne h_eq]
  | @waitEnds i s s' id' timeout h_s h_pc h_node h_next =>
    by_cases h_eq : id = id'
    · subst h_eq
      exact Or.inr ⟨i, s, h_s, Or.inl h_pc, Or.inl ⟨timeout, rfl⟩⟩
    · left
      show (Function.update e.conn id' _ id).sendBusy = true
      rwa [Function.update_of_ne h_eq]
  | @sent i s id' h_s h_pc =>
    by_cases h_eq : id = id'
    · subst h_eq
      exact Or.inr ⟨i, s, h_s, Or.inr h_pc, Or.inr rfl⟩
    · left
      show (Function.update e.conn id' _ id).sendBusy = true
      rwa [Function.update_of_ne h_eq]
  | publish => exact Or.inl (h_new _)
  | accept => exact Or.inl (h_new _)
  | @conn id' act c h_in h_io h_step =>
    left
    show (Function.update e.conn id' c id).sendBusy = true
    by_cases h_eq : id = id'
    · subst h_eq
      rw [Function.update_self, (QuicSess.step_moved h_step).1.sendBusy]
      exact h_busy
    · rwa [Function.update_of_ne h_eq]
  | stopped =>
    left
    dsimp only
    split
    · exact h_busy
    · exact h_busy
  | _ => exact Or.inl h_busy

theorem Stepped.announced {e e' : Engine} {a : EngineAct} (h : e.Stepped a e') {id : Nat}
    (h_id : id < e.next) {n : Nat} (h_n : n ∈ (e.conn id).announced) :
    n ∈ (e'.conn id).announced := by
  rcases h.conn_cases id with ⟨busy, failed, h_eq, -⟩ | ⟨act, -, -, -, h_step⟩ | ⟨h_new, -⟩
  · rw [h_eq]
    exact h_n
  · exact (QuicSess.step_moved h_step).1.announced n h_n
  · exact absurd h_id (h_new ▸ Nat.lt_irrefl _)

theorem Stepped.peerNode {e e' : Engine} {a : EngineAct} (h : e.Stepped a e')
    (h_inv : ∀ id, (e.conn id).sig.peerNode = 0 ∨
      (e.conn id).sig.peerNode ∈ (e.conn id).announced) (id : Nat) :
    (e'.conn id).sig.peerNode = 0 ∨ (e'.conn id).sig.peerNode ∈ (e'.conn id).announced := by
  rcases h.conn_cases id with ⟨busy, failed, h_eq, -⟩ | ⟨act, -, -, -, h_step⟩ | ⟨-, -, d, h_eq⟩
  · rw [h_eq]
    exact h_inv id
  · obtain ⟨h_keeps, h_moved⟩ := QuicSess.step_moved h_step
    have h_same : (e'.conn id).sig.terms = (e.conn id).sig.terms →
        (e'.conn id).sig.peerNode = 0 ∨ (e'.conn id).sig.peerNode ∈ (e'.conn id).announced := by
      intro h_terms
      rw [show (e'.conn id).sig.peerNode = (e.conn id).sig.peerNode from
        congrArg SigConn.Terms.peerNode h_terms]
      exact (h_inv id).imp_right (h_keeps.announced _)
    cases h_moved with
    | rest h_terms _ _ _ => exact h_same h_terms
    | @init mem peer n h_front h_terms h_state h_sent h_received h_announced =>
      have h_node : (e'.conn id).sig.peerNode =
          (ipnNode peer.nodeId).getD (e.conn id).sig.peerNode := by
        have h_eq := congrArg SigConn.Terms.peerNode h_terms
        rw [SigConn.negotiated, notePeerNode_eq] at h_eq
        exact h_eq
      rw [h_node]
      cases h_ipn : ipnNode peer.nodeId with
      | none => exact (h_inv id).imp_right (h_keeps.announced _)
      | some node => exact Or.inr (h_announced node (by rw [h_ipn]; rfl))
    | term h_terms _ => exact h_same h_terms
  · rw [h_eq]
    exact Or.inl rfl

theorem PinInv.step {e e' : Engine} {a : EngineAct} (h_inv : PinInv e) (h : e.Stepped a e') :
    PinInv e' := by
  obtain ⟨h_next, h_listed⟩ := h.listed h_inv.listed
  have h_new : ∀ i, a = .publish i → e'.next = e.next + 1 ∧ (e'.conn e.next).sendBusy = true := by
    rintro i rfl
    cases h with
    | publish h_s h_pc =>
      refine ⟨rfl, ?_⟩
      show (Function.update e.conn e.next _ e.next).sendBusy = true
      rw [Function.update_self]
      rfl
  refine ⟨h_listed, fun i s h_s => ?_, fun i s id h_s h_pins => ?_, fun i j s t id h_s h_t h_pins
    h_pins' => ?_, h.peerNode h_inv.peerNode, fun i s id h_s h_pc => ?_⟩
  · cases h.sender h_s with
    | same h _ _ _ => exact h_inv.node i s h
    | idle _ h_node =>
      rcases h_node with h_node | ⟨s₀, h_s₀, h_node⟩
      · exact h_node
      · exact h_node ▸ h_inv.node i s₀ h_s₀
    | @claim s₀ _ _ h h_t _ _ =>
      rw [h_t]
      exact h_inv.node i s₀ h
    | @dial s₀ _ h _ _ h_t _ =>
      rw [h_t]
      exact h_inv.node i s₀ h
    | @publish s₀ _ h _ h_t =>
      rw [h_t]
      exact h_inv.node i s₀ h
  · rcases h.pins h_s h_pins with ⟨h_s, h_waits, h_sent⟩ | ⟨s₀, rfl, h_s₀, -, h_in, h_takes⟩ |
      ⟨h_act, rfl, -⟩
    · obtain ⟨h_id, h_busy⟩ := h_inv.pinned i s id h_s h_pins
      refine ⟨by omega, (h.busy h_id h_busy).resolve_right ?_⟩
      -- Who lets go of it is who has it.
      rintro ⟨j, t, h_t, h_pins', h_act⟩
      obtain rfl := h_inv.once i j s t id h_s h_t h_pins h_pins'
      exact h_act.elim (fun ⟨timeout, h_act⟩ => h_waits timeout h_act) h_sent
    · exact ⟨Nat.lt_of_lt_of_le (h_inv.listed id h_in) h_next, h.claimed h_s h_pins⟩
    · obtain ⟨h_succ, h_busy⟩ := h_new i h_act
      exact ⟨by omega, h_busy⟩
  · rcases h.pins h_s h_pins with ⟨h_s, -⟩ | ⟨s₀, h_act, h_s₀, -, h_in, h_takes⟩ |
      ⟨h_act, h_id, -⟩
    · rcases h.pins h_t h_pins' with ⟨h_t, -⟩ | ⟨t₀, h_act, h_t₀, -, h_in, h_takes⟩ |
        ⟨h_act, h_id, -⟩
      · exact h_inv.once i j s t id h_s h_t h_pins h_pins'
      · have h_busy := (h_inv.pinned i s id h_s h_pins).2
        rw [h_takes.free] at h_busy
        cases h_busy
      · have h_lt := (h_inv.pinned i s id h_s h_pins).1
        omega
    · rcases h.pins h_t h_pins' with ⟨h_t, -⟩ | ⟨t₀, h_act', -⟩ | ⟨h_act', -⟩
      · have h_busy := (h_inv.pinned j t id h_t h_pins').2
        rw [h_takes.free] at h_busy
        cases h_busy
      · rw [h_act] at h_act'
        exact EngineAct.look.inj h_act'
      · rw [h_act] at h_act'
        cases h_act'
    · rcases h.pins h_t h_pins' with ⟨h_t, -⟩ | ⟨t₀, h_act', -⟩ | ⟨h_act', -⟩
      · have h_lt := (h_inv.pinned j t id h_t h_pins').1
        omega
      · rw [h_act] at h_act'
        cases h_act'
      · rw [h_act] at h_act'
        exact EngineAct.publish.inj h_act'
  · rcases h.pins h_s (Or.inr h_pc) with ⟨h_s, -⟩ | ⟨s₀, -, h_s₀, h_node, h_in, h_takes⟩ |
      ⟨-, -, h_wait⟩
    · exact h.announced (h_inv.pinned i s id h_s (Or.inr h_pc)).1 (h_inv.held i s id h_s h_pc)
    · refine h.announced (h_inv.listed id h_in) ?_
      rw [h_node, ← h_takes.peerNode]
      refine (h_inv.peerNode id).resolve_left ?_
      rw [h_takes.peerNode]
      exact h_inv.node i s₀ h_s₀
    · rw [h_pc] at h_wait
      cases h_wait

/-! ## Connections that are ending -/

/-- The connections that are not ending. -/
def going (e : Engine) : List Nat := e.conns.filter fun id => (e.conn id).sig.sessState ≠ .ending

/-- One that is ending is never taken. -/
theorem claimFrom_going_fst (e : Engine) (nodeNbr : Nat) (conns : List Nat) (ready : Option Nat)
    (found found' : Bool) :
    (e.claimFrom nodeNbr (conns.filter fun id => (e.conn id).sig.sessState ≠ .ending) ready found').1 =
      (e.claimFrom nodeNbr conns ready found).1 := by
  induction conns generalizing ready found found' with
  | nil => rfl
  | cons id conns ih =>
    by_cases h_ending : (e.conn id).sig.sessState = .ending
    · rw [List.filter_cons_of_neg (by simp [h_ending]), claimFrom]
      by_cases h_other : (e.conn id).failed = true ∨ (e.conn id).sig.peerNode ≠ nodeNbr
      · rw [if_pos h_other]
        exact ih ready found found'
      · rw [if_neg h_other, if_pos (Or.inl (by rw [h_ending]; decide))]
        exact ih ready true found'
    · rw [List.filter_cons_of_pos (by simp [h_ending]), claimFrom, claimFrom]
      split
      · exact ih ready found found'
      · split
        · exact ih ready true true
        · split
          · rfl
          · exact ih _ true true

theorem claimFrom_found {e : Engine} {nodeNbr : Nat} {conns : List Nat} {ready : Option Nat}
    {found : Bool} (h_ready : ready.isSome = true → found = true)
    (h : (e.claimFrom nodeNbr conns ready found).1.isSome = true) :
    (e.claimFrom nodeNbr conns ready found).2 = true := by
  induction conns generalizing ready found with
  | nil => exact h_ready h
  | cons id conns ih =>
    unfold claimFrom at h ⊢
    dsimp only at h ⊢
    split
    · next h_other =>
      rw [if_pos h_other] at h
      exact ih h_ready h
    · next h_other =>
      rw [if_neg h_other] at h
      split
      · next h_wait =>
        rw [if_pos h_wait] at h
        exact ih (fun _ => rfl) h
      · next h_wait =>
        rw [if_neg h_wait] at h
        split
        · rfl
        · next h_role =>
          rw [if_neg h_role] at h
          exact ih (fun _ => rfl) h

/-- Where there is one that is not ending, or none at all, those that are make no difference. -/
theorem claimFrom_going {e : Engine} {nodeNbr : Nat}
    (h : (∃ id ∈ e.conns, e.Counts nodeNbr id ∧ (e.conn id).sig.sessState = .ending) →
      ∃ id ∈ e.conns, e.Counts nodeNbr id ∧ (e.conn id).sig.sessState ≠ .ending) :
    e.claimFrom nodeNbr e.going none false = e.claimReadyConn nodeNbr := by
  have h_fst : (e.claimFrom nodeNbr e.going none false).1 = (e.claimReadyConn nodeNbr).1 :=
    claimFrom_going_fst e nodeNbr e.conns none false false
  refine Prod.ext h_fst (Bool.eq_iff_iff.mpr ?_)
  cases h_claim : (e.claimReadyConn nodeNbr).1 with
  | some id =>
    have h_some : (e.claimReadyConn nodeNbr).1.isSome = true := by rw [h_claim]; rfl
    have h_going := claimFrom_found (fun h => by cases h) (h_fst ▸ h_some)
    rw [h_going, claimReadyConn, claimFrom_found (fun h => by cases h) h_some]
  | none =>
    rw [claimReadyConn_none h_claim, (claimFrom_spec e nodeNbr e.going none false).2
      (h_fst.trans h_claim)]
    constructor
    · rintro (h_false | ⟨id, h_in, h_counts⟩)
      · cases h_false
      · exact ⟨id, List.mem_of_mem_filter h_in, h_counts⟩
    · rintro ⟨id, h_in, h_counts⟩
      right
      by_cases h_ending : (e.conn id).sig.sessState = .ending
      · obtain ⟨id', h_in', h_counts', h_going⟩ := h ⟨id, h_in, h_counts, h_ending⟩
        exact ⟨id', List.mem_filter.mpr ⟨h_in', by simpa using h_going⟩, h_counts'⟩
      · exact ⟨id, List.mem_filter.mpr ⟨h_in, by simpa using h_ending⟩, h_counts⟩

/-! ## Runs -/

/-- No two live connections for one neighbour, and no two senders for one connection. -/
structure OnePerNeighbour (e : Engine) : Prop where
  dialled : ∀ id ∈ e.conns, ∀ id' ∈ e.conns, (e.conn id).failed = false →
    (e.conn id').failed = false → ∀ nodeNbr, (e.conn id).dialled = some nodeNbr →
      (e.conn id').dialled = some nodeNbr → id = id'
  claimed : ∀ (i j : Nat) (s t : Sender) (id : Nat), e.senders[i]? = some s →
    e.senders[j]? = some t → s.pc = .holding id → t.pc = .holding id → i = j
  announced : ∀ (i : Nat) (s : Sender) (id : Nat), e.senders[i]? = some s → s.pc = .holding id →
    s.nodeNbr ∈ (e.conn id).announced

/-- **One connection for each neighbour**, where every look is `Apart`; and then a connection that
    is ending is to a look as if it were not there. -/
theorem one_per_neighbour {cfg : SigCfg} {unreliable : Bool} {as bs : List EngineAct} {e : Engine}
    (h_meets : Meets step Apart (init cfg unreliable) (as ++ bs))
    (h_run : run step (init cfg unreliable) as = some e) :
    OnePerNeighbour e ∧ ∀ i bs' s, bs = .look i :: bs' → e.senders[i]? = some s →
      s.pc = .looking → e.claimFrom s.nodeNbr e.going none false = e.claimReadyConn s.nodeNbr := by
  have h_dial : DialInv e := by
    refine run_invariant_of_meets (fun e a e' h h_a h_step => ?_) (DialInv.init cfg unreliable)
      h_meets.of_append h_run
    exact h.step h_a (stepped_of_step h_step)
  have h_pin : PinInv e := by
    refine run_invariant (fun e a e' h h_step => ?_) (PinInv.init cfg unreliable) h_run
    exact h.step (stepped_of_step h_step)
  refine ⟨⟨h_dial.one, fun i j s t id h_s h_t h_pc h_pc' => ?_, h_pin.held⟩, ?_⟩
  · exact h_pin.once i j s t id h_s h_t (Or.inr h_pc) (Or.inr h_pc')
  · rintro i bs' s rfl h_s h_pc
    exact claimFrom_going ((h_meets.at_step h_run s h_s h_pc).2)

/-! ## A neighbour that is dialled twice, and one that is not -/

/-- A sender dials node 2, claims the connection and sends. -/
def oneDial : List EngineAct :=
  [.sendTo 2, .look 0, .publish 0, .conn 0 .handshakeDone, .conn 0 (.bringup ⟨true, true, true⟩),
    .conn 0 (.recvSig (initOctets 15) true), .conn 0 (.parseSig true), .conn 0 (.parseSig true),
    .waitEnds 0 false, .look 0]

/-- Two senders look for node 2 before either has put its connection on the list. -/
def twoDials : List EngineAct :=
  [.sendTo 2, .sendTo 2, .look 0, .look 1, .publish 0, .publish 1]

/-- SESS_TERM comes on the connection, and a second sender looks for the node. -/
def dialWhileEnding : List EngineAct :=
  [.sent 0, .conn 0 (.recvSig [0x06, 0, 0, 0, 0, 0, 0] true), .conn 0 (.parseSig true),
    .conn 0 (.parseSig true), .sendTo 2, .look 1]

theorem one_per_neighbour_oneDial : ∃ e, run step (init ⟨30, 0, 1⟩ false) oneDial = some e ∧
    e.senders[0]? = some ⟨2, true, 0, .holding 0⟩ ∧ OnePerNeighbour e := by
  have h_run : ((run step (init ⟨30, 0, 1⟩ false) oneDial).map fun e => e.senders[0]?) =
      some (some ⟨2, true, 0, .holding 0⟩) := by decide +kernel
  obtain ⟨e, h_e, h_sender⟩ := Option.map_eq_some_iff.mp h_run
  have h_meets : Meets step Apart (init ⟨30, 0, 1⟩ false) (oneDial ++ []) := by decide +kernel
  exact ⟨e, h_e, h_sender, (one_per_neighbour h_meets h_e).1⟩

/-- Two live connections dialled for node 2; and a sender that does not dial it since the only
    connection to it is ending. -/
theorem neighbour_dialled_twice :
    (∃ e, run step (init ⟨30, 0, 1⟩ false) twoDials = some e ∧ e.conns = [1, 0] ∧
      (e.conn 0).failed = false ∧ (e.conn 1).failed = false ∧
      (e.conn 0).dialled = some 2 ∧ (e.conn 1).dialled = some 2) ∧
    ∃ e, run step (init ⟨30, 0, 1⟩ false) (oneDial ++ dialWhileEnding) = some e ∧ e.conns = [0] ∧
      (e.conn 0).sig.sessState = .ending ∧ e.senders[1]? = some ⟨2, false, 1, .looking⟩ := by
  have h_twice : ((run step (init ⟨30, 0, 1⟩ false) twoDials).map fun e => (e.conns,
      (e.conn 0).failed, (e.conn 1).failed, (e.conn 0).dialled, (e.conn 1).dialled)) =
        some ([1, 0], false, false, some 2, some 2) := by decide +kernel
  have h_ending : ((run step (init ⟨30, 0, 1⟩ false) (oneDial ++ dialWhileEnding)).map fun e =>
      (e.conns, (e.conn 0).sig.sessState, e.senders[1]?)) =
        some ([0], .ending, some ⟨2, false, 1, .looking⟩) := by decide +kernel
  obtain ⟨e, h_e, h_eq⟩ := Option.map_eq_some_iff.mp h_twice
  obtain ⟨e', h_e', h_eq'⟩ := Option.map_eq_some_iff.mp h_ending
  simp only [Prod.mk.injEq] at h_eq h_eq'
  exact ⟨⟨e, h_e, h_eq⟩, ⟨e', h_e', h_eq'⟩⟩

end Engine

end IonContrib.Quic
