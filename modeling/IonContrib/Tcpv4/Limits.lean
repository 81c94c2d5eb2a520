/-
  IonContrib.Tcpv4.Limits

  How many sessions an engine holds, in all, from one peer and for one node.

  The limit on all sessions and the rule that a node is dialled once are checked
  before the lock is given up, and what was true then need not be true when the
  session is inserted.  Counting in what is still on its way makes both hold
  (`RoomLeft`, `Alone`).  The limit for one peer is the accept thread's own, which
  has only one session on its way at a time: it holds in every run.
-/
import IonContrib.Tcpv4.BackOff

namespace IonContrib.Tcpv4

open Lts

/-! ## A session ages -/

def Tcpv4Conn.live (c : Tcpv4Conn) : Bool := !(c.failed || c.receiverDone)

/-- No session comes back: from failing, from its end or from negotiation. -/
structure Tcpv4Conn.Aged (c c' : Tcpv4Conn) : Prop where
  serial : c'.serial = c.serial
  dialled : c'.dialled = c.dialled
  dialNodeId : c'.dialNodeId = c.dialNodeId
  failed : c.failed = true → c'.failed = true
  done : c.receiverDone = true → c'.receiverDone = true
  negotiating : c'.state = .negotiating → c.state = .negotiating
  ended : c.state = .ending → c'.state = .ending

namespace Tcpv4Conn

theorem Aged.of_eq {c c' : Tcpv4Conn} (h_serial : c'.serial = c.serial)
    (h_dialled : c'.dialled = c.dialled) (h_nodeId : c'.dialNodeId = c.dialNodeId)
    (h_failed : c'.failed = c.failed) (h_done : c'.receiverDone = c.receiverDone)
    (h_state : c'.state = c.state) : c.Aged c' where
  serial := h_serial
  dialled := h_dialled
  dialNodeId := h_nodeId
  failed := by rw [h_failed]; exact id
  done := by rw [h_done]; exact id
  negotiating := by rw [h_state]; exact id
  ended := by rw [h_state]; exact id

theorem Aged.refl (c : Tcpv4Conn) : c.Aged c := .of_eq rfl rfl rfl rfl rfl rfl

theorem Negotiates.aged {c c' : Tcpv4Conn} (h : c.Negotiates c') : c.Aged c' :=
  .of_eq h.serial h.dialled h.dialNodeId h.failed h.done h.state

theorem aged_step {cfg : ClaConfig} {c c' : Tcpv4Conn} {a : ConnAct} (h_ok : ConnOk cfg c)
    (h_step : c.step cfg a = some c') : c.Aged c' := by
  unfold step at h_step
  split at h_step
  · obtain rfl := Option.some.inj h_step
    split
    · exact .of_eq rfl rfl rfl rfl rfl rfl
    · exact ⟨rfl, rfl, rfl, fun _ => rfl, fun _ => rfl, id, id⟩
  · exact (negotiates_exchangeContact h_step).aged
  · obtain rfl := Option.some.inj h_step
    exact (negotiates_handshake cfg c _).aged
  · exact (negotiates_exchangeSessInit h_step).aged
  · rename_i h_pc
    obtain rfl := Option.some.inj h_step
    have h_state := h_ok.early (by rw [h_pc]; rfl)
    refine ⟨rfl, rfl, rfl, id, id, fun h => ?_, fun h => ?_⟩
    · cases h
    · rw [h_state] at h
      cases h
  · obtain rfl := Option.some.inj h_step
    exact .of_eq rfl rfl rfl rfl rfl rfl
  · obtain rfl := Option.some.inj h_step
    exact ⟨rfl, rfl, rfl, fun _ => rfl, id, id, id⟩
  · obtain rfl := Option.some.inj h_step
    exact ⟨rfl, rfl, rfl, id, fun _ => rfl, id, id⟩
  · split at h_step
    · cases h_step
    · obtain rfl := Option.some.inj h_step
      refine ⟨rfl, rfl, rfl, id, id, fun h => ?_, fun _ => rfl⟩
      cases h
  · obtain rfl := Option.some.inj h_step
    exact ⟨rfl, rfl, rfl, fun _ => rfl, id, id, id⟩
  · split at h_step
    · cases h_step
    · obtain rfl := Option.some.inj h_step
      exact .of_eq rfl rfl rfl rfl rfl rfl
  · cases h_step

theorem Aged.live {c c' : Tcpv4Conn} (h : c.Aged c') (h_live : c'.live = true) :
    c.live = true := by
  simp only [Tcpv4Conn.live, Bool.not_eq_true', Bool.or_eq_false_iff] at h_live ⊢
  constructor
  · cases h_failed : c.failed with
    | false => rfl
    | true => exact absurd (h.failed h_failed) (by simp [h_live.1])
  · cases h_done : c.receiverDone with
    | false => rfl
    | true => exact absurd (h.done h_done) (by simp [h_live.2])

end Tcpv4Conn

/-- The sessions age in place, or a new one is put in front of them, or some go. -/
theorem Engine.conns_aged {cfg : ClaConfig} {e e' : Engine} {act : EngineAct}
    (h_ok : EngineOk cfg e) (h_step : e.step cfg act = some e')
    (h_kind : ∀ nodeId, act ≠ .dial nodeId) (h_kind' : ∀ busy, act ≠ .accept busy) :
    ∃ f : Tcpv4Conn → Tcpv4Conn, (∀ c ∈ e.conns, c.Aged (f c)) ∧
      List.Sublist e'.conns (e.conns.map f) ∧ e'.next = e.next := by
  have h_on {serial : Nat} {f : Tcpv4Conn → Option Tcpv4Conn}
      (h_f : ∀ c d, c ∈ e.conns → f c = some d → c.Aged d)
      (h_on : e.onConn serial f = some e') : ∃ f : Tcpv4Conn → Tcpv4Conn,
        (∀ c ∈ e.conns, c.Aged (f c)) ∧ List.Sublist e'.conns (e.conns.map f) ∧
          e'.next = e.next := by
    obtain ⟨c, d, h_find, h_fc, rfl⟩ := Engine.eq_of_onConn h_on
    refine ⟨_, fun c₀ h_c₀ => ?_, List.Sublist.refl _, rfl⟩
    have h_c := List.mem_of_find?_eq_some h_find
    have h_serial : c.serial = serial := by simpa using List.find?_some h_find
    split
    · rename_i h_at
      obtain rfl := h_ok.serial_unique h_c h_c₀ (h_serial.trans h_at.symm)
      exact h_f c d h_c h_fc
    · exact .refl c₀
  have h_same : ∃ f : Tcpv4Conn → Tcpv4Conn, (∀ c ∈ e.conns, c.Aged (f c)) ∧
      List.Sublist e.conns (e.conns.map f) ∧ e.next = e.next :=
    ⟨id, fun c _ => .refl c, by rw [List.map_id], rfl⟩
  cases act with
  | dial nodeId => exact absurd rfl (h_kind nodeId)
  | accept busy => exact absurd rfl (h_kind' busy)
  | conn serial a =>
    exact h_on (fun c d h_c h_a => Tcpv4Conn.aged_step (h_ok.conns c h_c) h_a) h_step
  | find nodeId =>
    simp only [Engine.step] at h_step
    split at h_step
    · obtain rfl := Option.some.inj h_step
      exact h_same
    · refine h_on (fun c d h_c h_a => ?_) h_step
      obtain rfl := Option.some.inj h_a
      exact .of_eq rfl rfl rfl rfl rfl rfl
  | reap =>
    obtain rfl := Option.some.inj h_step
    obtain ⟨f, h_f, h_sub, h_next⟩ := h_same
    exact ⟨f, h_f, List.filter_sublist.trans h_sub, h_next⟩

/-! ## The limit on all sessions -/

namespace Tcpv4Engine

def liveSessions (e : Tcpv4Engine) : Nat := e.conns.countP Tcpv4Conn.live

/-- Sessions that have passed the check and are not on the list yet. -/
def inFlight (e : Tcpv4Engine) : Nat := e.opening.length + e.admitting.toList.length

/-- The checks of `tcpv4OpenSession` pass. -/
def mayOpen (e : Tcpv4Engine) (nodeId : Octets) (mem : Bool) : Bool :=
  !e.conns.any (keeps nodeId) && e.connCount < e.maxSessions &&
    (findDial e.dials nodeId mem).any fun p => p.1.secUntilRetry = 0

/-- The checks of the accept thread pass. -/
def mayAccept (e : Tcpv4Engine) (peerHost : Octets) : Bool :=
  (peerHost = [] || e.countNegotiating peerHost < tcpv4MaxPeerNegotiating) &&
    e.connCount < e.maxSessions + tcpv4BusySlack

/-- Where the checks pass, there is room for all that is in flight as well. -/
def RoomLeft (e : Tcpv4Engine) : DialAct → Prop
  | .openSession _ nodeId mem => e.mayOpen nodeId mem = true →
    e.liveSessions + e.inFlight < e.maxSessions + tcpv4BusySlack
  | .accept peerHost => e.mayAccept peerHost = true →
    e.liveSessions + e.inFlight < e.maxSessions + tcpv4BusySlack
  | _ => True

theorem mayOpen_of_opens {e : Tcpv4Engine} {nodeId : Octets} {mem : Bool} {dial : Tcpv4Dial}
    {dials : List Tcpv4Dial} (h_none : ∀ c ∈ e.conns, keeps nodeId c = false)
    (h_find : findDial e.dials nodeId mem = some (dial, dials)) (h_wait : dial.secUntilRetry = 0)
    (h_limit : e.connCount < e.maxSessions) : e.mayOpen nodeId mem = true := by
  have h_any : e.conns.any (keeps nodeId) = false := by simpa using h_none
  rw [mayOpen, h_any, h_find]
  simp [h_wait, h_limit]

theorem mayAccept_of_admits {e : Tcpv4Engine} {peerHost : Octets}
    (h_peer : peerHost ≠ [] → e.countNegotiating peerHost < tcpv4MaxPeerNegotiating)
    (h_limit : e.connCount < e.maxSessions + tcpv4BusySlack) : e.mayAccept peerHost = true := by
  unfold mayAccept
  by_cases h_unknown : peerHost = []
  · simp [h_unknown, h_limit]
  · simp [h_peer h_unknown, h_limit]

instance (e : Tcpv4Engine) : (a : DialAct) → Decidable (e.RoomLeft a)
  | .openSession _ _ _ => inferInstanceAs (Decidable (_ → _))
  | .accept _ => inferInstanceAs (Decidable (_ → _))
  | .connect .. | .admission _ | .conn .. | .outcome .. | .find _ | .tick | .reap => .isTrue trivial

theorem maxSessions_stepped {cfg : ClaConfig} {e e' : Tcpv4Engine} {a : DialAct}
    (h : e.Stepped cfg a e') : e'.maxSessions = e.maxSessions := by
  cases h <;> rfl

/-- The new list after a step that inserts nothing. -/
theorem liveSessions_le {e e' : Tcpv4Engine} {f : Tcpv4Conn → Tcpv4Conn}
    (h_aged : ∀ c ∈ e.conns, c.Aged (f c)) (h_sub : List.Sublist e'.conns (e.conns.map f)) :
    e'.liveSessions ≤ e.liveSessions := by
  have h_map : (e.conns.map f).countP Tcpv4Conn.live ≤ e.conns.countP Tcpv4Conn.live := by
    rw [List.countP_map]
    exact List.countP_mono_left fun c h_c h_live => (h_aged c h_c).live h_live
  exact Nat.le_trans h_sub.countP_le h_map

theorem liveSessions_insertConn (e : Tcpv4Engine) (nodeId : Option Octets) (peerAddr : Octets)
    (busy : Bool) : (e.insertConn nodeId peerAddr busy).liveSessions = e.liveSessions + 1 :=
  List.countP_cons_of_pos rfl

theorem length_withoutThread {e : Tcpv4Engine} {o : Opening} (h_o : o ∈ e.opening) :
    (e.withoutThread o.thread).opening.length < e.opening.length := by
  apply List.length_filter_lt_length_iff_exists.mpr
  exact ⟨o, h_o, by simp⟩

/-- What inserts nothing leaves the sessions to age. -/
theorem Stepped.aged {cfg : ClaConfig} {e e' : Tcpv4Engine} {a : DialAct}
    (h_ok : EngineOk cfg e.toEngine) (h : e.Stepped cfg a e') :
    (∃ f : Tcpv4Conn → Tcpv4Conn, (∀ c ∈ e.conns, c.Aged (f c)) ∧
      List.Sublist e'.conns (e.conns.map f) ∧ e'.next = e.next ∧ e'.peerAddr = e.peerAddr) ∨
    (∃ o ∈ e.opening, e' = (e.withoutThread o.thread).insertConn (some o.nodeId) [] false) ∨
    ∃ b, e.admitting = some b ∧
      e' = { e with admitting := none }.insertConn none b.peerHost b.busy := by
  have h_same : ∃ f : Tcpv4Conn → Tcpv4Conn, (∀ c ∈ e.conns, c.Aged (f c)) ∧
      List.Sublist e.conns (e.conns.map f) ∧ e.next = e.next ∧ e.peerAddr = e.peerAddr :=
    ⟨id, fun c _ => .refl c, by rw [List.map_id], rfl, rfl⟩
  cases h with
  | @started thread o h_o h_thread => exact .inr (.inl ⟨o, h_o, by rw [h_thread]⟩)
  | @admitted b h_some => exact .inr (.inr ⟨b, h_some, rfl⟩)
  | conn h_report h_step =>
    obtain ⟨f, h_f, h_sub, h_next⟩ := Engine.conns_aged h_ok h_step (by simp) (by simp)
    exact .inl ⟨f, h_f, h_sub, h_next, rfl⟩
  | find h_step =>
    obtain ⟨f, h_f, h_sub, h_next⟩ := Engine.conns_aged h_ok h_step (by simp) (by simp)
    exact .inl ⟨f, h_f, h_sub, h_next, rfl⟩
  | reap h_step =>
    obtain ⟨f, h_f, h_sub, h_next⟩ := Engine.conns_aged h_ok h_step (by simp) (by simp)
    exact .inl ⟨f, h_f, h_sub, h_next, rfl⟩
  | notOpened | tooSoon | opens | notConnected | unreachable | refused | admits | dropped
  | outcome | tick => exact .inl h_same

/-- What is in flight after a step that inserts nothing. -/
theorem Stepped.inFlight {cfg : ClaConfig} {e e' : Tcpv4Engine} {a : DialAct}
    (h : e.Stepped cfg a e') (h_room : e.RoomLeft a) :
    e'.inFlight ≤ e.inFlight ∨
      e'.inFlight = e.inFlight + 1 ∧ e'.conns = e.conns ∧
        e.liveSessions + e.inFlight < e.maxSessions + tcpv4BusySlack := by
  have h_thread : ∀ {thread}, (e.withoutThread thread).opening.length ≤ e.opening.length :=
    List.length_filter_le _ _
  cases h with
  | opens h_thread h_none h_find h_wait h_limit =>
    refine .inr ⟨?_, rfl, h_room (mayOpen_of_opens h_none h_find h_wait h_limit)⟩
    show e.opening.length + 1 + e.admitting.toList.length =
      e.opening.length + e.admitting.toList.length + 1
    omega
  | @admits peerHost h_idle h_peer h_limit =>
    refine .inr ⟨?_, rfl, h_room (mayAccept_of_admits h_peer h_limit)⟩
    show e.opening.length + 1 = e.opening.length + e.admitting.toList.length + 1
    rw [h_idle]
    rfl
  | @notConnected thread | @unreachable thread | @started thread =>
    have h_le := @h_thread thread
    exact .inl (Nat.add_le_add_right h_le _)
  | dropped | admitted => exact .inl (Nat.le_add_right _ _)
  | notOpened | tooSoon | refused | conn | outcome | find | tick | reap => exact .inl (Nat.le_refl _)

/-- The sessions and what is in flight fit the snapshots. -/
structure LimitOk (cfg : ClaConfig) (e : Tcpv4Engine) : Prop where
  engine : EngineOk cfg e.toEngine
  room : e.liveSessions + e.inFlight ≤ e.maxSessions + tcpv4BusySlack

theorem LimitOk.step {cfg : ClaConfig} {e e' : Tcpv4Engine} {a : DialAct} (h : LimitOk cfg e)
    (h_room : e.RoomLeft a) (h_step : e.Stepped cfg a e') : LimitOk cfg e' := by
  refine ⟨stepped_engineOk h.engine h_step, ?_⟩
  have h_limit := h.room
  rw [maxSessions_stepped h_step]
  obtain ⟨f, h_f, h_sub, -⟩ | ⟨o, h_o, rfl⟩ | ⟨b, h_b, rfl⟩ := h_step.aged h.engine
  · have h_live := liveSessions_le h_f h_sub
    rcases h_step.inFlight h_room with h_flight | ⟨h_flight, h_conns, h_left⟩
    · omega
    · have h_same : e'.liveSessions = e.liveSessions := by
        rw [liveSessions, h_conns, liveSessions]
      omega
  · -- The session has been counted all along: it is no longer in flight.
    have h_less := length_withoutThread h_o
    rw [liveSessions_insertConn]
    show e.liveSessions + 1 + ((e.withoutThread o.thread).opening.length +
      e.admitting.toList.length) ≤ e.maxSessions + tcpv4BusySlack
    have h_flight : e.inFlight = e.opening.length + e.admitting.toList.length := rfl
    omega
  · rw [liveSessions_insertConn]
    show e.liveSessions + 1 + (e.opening.length + 0) ≤ e.maxSessions + tcpv4BusySlack
    have h_flight : e.inFlight = e.opening.length + e.admitting.toList.length := rfl
    rw [h_b] at h_flight
    simp only [Option.toList_some, List.length_singleton] at h_flight
    omega

/-! ## The limit for one peer -/

/-- The new session counts for the peer it is from. -/
theorem negotiating_insertConn {cfg : ClaConfig} {e : Tcpv4Engine} (h_ok : EngineOk cfg e.toEngine)
    (nodeId : Option Octets) (peerAddr : Octets) (busy : Bool) (peerHost : Octets) :
    (e.insertConn nodeId peerAddr busy).conns.countP
        ((e.insertConn nodeId peerAddr busy).isNegotiating peerHost) =
      e.conns.countP (e.isNegotiating peerHost) + if peerAddr = peerHost then 1 else 0 := by
  have h_old : ∀ c ∈ e.conns, (e.insertConn nodeId peerAddr busy).isNegotiating peerHost c =
      e.isNegotiating peerHost c := by
    intro c h_c
    have h_ne : c.serial ≠ e.next := Nat.ne_of_lt (h_ok.fresh c h_c)
    have h_addr : (e.insertConn nodeId peerAddr busy).peerAddr c.serial = e.peerAddr c.serial :=
      if_neg h_ne
    rw [isNegotiating, isNegotiating, h_addr]
  have h_new : (e.insertConn nodeId peerAddr busy).isNegotiating peerHost
      (.start e.next nodeId busy) = decide (peerAddr = peerHost) := by
    have h_addr : (e.insertConn nodeId peerAddr busy).peerAddr e.next = peerAddr := if_pos rfl
    show (!(false || false || decide (ConnState.negotiating ≠ .negotiating)) &&
      decide ((e.insertConn nodeId peerAddr busy).peerAddr e.next = peerHost)) = _
    rw [h_addr]
    simp
  show (Tcpv4Conn.start e.next nodeId busy :: e.conns).countP _ = _
  rw [List.countP_cons, h_new, List.countP_congr fun c h_c => by rw [h_old c h_c]]
  simp

theorem isNegotiating_aged {e e' : Tcpv4Engine} {peerHost : Octets} {c c' : Tcpv4Conn}
    (h_aged : c.Aged c') (h_addr : e'.peerAddr = e.peerAddr)
    (h : e'.isNegotiating peerHost c' = true) : e.isNegotiating peerHost c = true := by
  have h_iff : ∀ (e : Tcpv4Engine) (c : Tcpv4Conn), e.isNegotiating peerHost c = true ↔
      c.live = true ∧ c.state = .negotiating ∧ e.peerAddr c.serial = peerHost := by
    intro e c
    simp [isNegotiating, Tcpv4Conn.live, and_assoc]
  obtain ⟨h_live, h_state, h_peer⟩ := (h_iff e' c').mp h
  rw [h_aged.serial, h_addr] at h_peer
  exact (h_iff e c).mpr ⟨h_aged.live h_live, h_aged.negotiating h_state, h_peer⟩

/-- The sessions that negotiate with one known peer, the one that is admitted with them. -/
structure PeerOk (cfg : ClaConfig) (e : Tcpv4Engine) : Prop where
  engine : EngineOk cfg e.toEngine
  few : ∀ peerHost, peerHost ≠ [] → e.conns.countP (e.isNegotiating peerHost) +
    e.admitting.toList.countP (fun a => a.peerHost = peerHost) ≤ tcpv4MaxPeerNegotiating

theorem PeerOk.step {cfg : ClaConfig} {e e' : Tcpv4Engine} {a : DialAct} (h : PeerOk cfg e)
    (h_step : e.Stepped cfg a e') : PeerOk cfg e' := by
  refine ⟨stepped_engineOk h.engine h_step, fun peerHost h_known => ?_⟩
  have h_few := h.few peerHost h_known
  obtain ⟨f, h_f, h_sub, -, h_addr⟩ | ⟨o, h_o, rfl⟩ | ⟨b, h_b, rfl⟩ := h_step.aged h.engine
  · have h_count : e'.conns.countP (e'.isNegotiating peerHost) ≤
        e.conns.countP (e.isNegotiating peerHost) := by
      refine Nat.le_trans h_sub.countP_le ?_
      rw [List.countP_map]
      exact List.countP_mono_left fun c h_c => isNegotiating_aged (h_f c h_c) h_addr
    have h_admitting : e'.admitting = e.admitting ∨ e'.admitting = none ∨
        ∃ host busy, e'.admitting = some ⟨host, busy⟩ ∧ e.admitting = none ∧
          (host ≠ [] → e.countNegotiating host < tcpv4MaxPeerNegotiating) := by
      cases h_step with
      | admits h_idle h_peer h_room => exact .inr (.inr ⟨_, _, rfl, h_idle, h_peer⟩)
      | dropped | admitted => exact .inr (.inl rfl)
      | notOpened | tooSoon | opens | notConnected | unreachable | started | refused | conn
      | outcome | find | tick | reap => exact .inl rfl
    rcases h_admitting with h_eq | h_none | ⟨host, busy, h_some, h_idle, h_peer⟩
    · rw [h_eq]
      omega
    · rw [h_none]
      exact Nat.le_trans h_count (Nat.le_trans (Nat.le_add_right _ _) h_few)
    · rw [h_some]
      simp only [Option.toList_some, List.countP_singleton, decide_eq_true_eq]
      split
      · rename_i h_host
        have h_less := h_peer (by rw [h_host]; exact h_known)
        rw [countNegotiating, if_neg (by rw [h_host]; exact h_known), h_host] at h_less
        omega
      · omega
  · -- A session that is dialled has no peer address.
    have h_ok : EngineOk cfg (e.withoutThread o.thread).toEngine := h.engine
    rw [negotiating_insertConn h_ok, if_neg fun h_nil => h_known h_nil.symm]
    exact h_few
  · have h_ok : EngineOk cfg { e with admitting := none }.toEngine := h.engine
    rw [negotiating_insertConn h_ok]
    rw [h_b] at h_few
    simp only [Option.toList_some, List.countP_singleton, decide_eq_true_eq] at h_few
    exact h_few

end Tcpv4Engine

/-! ## The snapshots -/

/-- A receiver thread takes its session down before it is done with it. -/
def Tcpv4Conn.FailedFirst (c : Tcpv4Conn) : Prop :=
  c.receiverDone = true ∨ c.pc = .finishing → c.failed = true

theorem Tcpv4Conn.Negotiates.failedFirst {c c' : Tcpv4Conn} (h : c.Negotiates c')
    (h_first : c.FailedFirst) : c'.FailedFirst := by
  rintro (h_done | h_pc)
  · rw [h.failed]
    exact h_first (.inl (h.done ▸ h_done))
  · rcases h.pc with h_in | h_failing
    · rw [h_pc] at h_in
      cases h_in
    · rw [h_pc] at h_failing
      cases h_failing

theorem Tcpv4Conn.FailedFirst.step {cfg : ClaConfig} {c c' : Tcpv4Conn} {a : ConnAct}
    (h : c.FailedFirst) (h_step : c.step cfg a = some c') : c'.FailedFirst := by
  -- The receiver thread goes on elsewhere, with the session as it is.
  have h_same : ∀ {d : Tcpv4Conn}, d.receiverDone = c.receiverDone → d.failed = c.failed →
      d.pc ≠ .finishing → d.FailedFirst := by
    rintro d h_done h_failed h_pc (h_at | h_at)
    · rw [h_failed]
      exact h (.inl (h_done ▸ h_at))
    · exact absurd h_at h_pc
  unfold Tcpv4Conn.step at h_step
  split at h_step
  · obtain rfl := Option.some.inj h_step
    split
    · exact h_same rfl rfl (by simp)
    · exact fun _ => rfl
  · exact (negotiates_exchangeContact h_step).failedFirst h
  · obtain rfl := Option.some.inj h_step
    exact (negotiates_handshake cfg c _).failedFirst h
  · exact (negotiates_exchangeSessInit h_step).failedFirst h
  · obtain rfl := Option.some.inj h_step
    exact h_same rfl rfl (by simp)
  · obtain rfl := Option.some.inj h_step
    exact h_same rfl rfl (by simp [failing])
  · obtain rfl := Option.some.inj h_step
    exact fun _ => rfl
  · rename_i h_pc
    obtain rfl := Option.some.inj h_step
    exact fun _ => h (.inr h_pc)
  · split at h_step
    · cases h_step
    · obtain rfl := Option.some.inj h_step
      exact h
  · obtain rfl := Option.some.inj h_step
    exact fun _ => rfl
  · split at h_step
    · cases h_step
    · obtain rfl := Option.some.inj h_step
      exact h
  · cases h_step

namespace Tcpv4Engine

/-- The sessions that `clockTick` collects in its array. -/
def clockSnapshot (e : Tcpv4Engine) : List Tcpv4Conn :=
  (e.conns.filter Tcpv4Conn.live).take (e.maxSessions + tcpv4BusySlack)

/-- A session that `tcpv4EngineStop` says goodbye to. -/
def isUp (c : Tcpv4Conn) : Bool := c.state = .established && !c.failed

def stopSnapshot (e : Tcpv4Engine) : List Tcpv4Conn :=
  (e.conns.filter isUp).take (e.maxSessions + tcpv4BusySlack)

theorem failedFirst_step {cfg : ClaConfig} {e e' : Tcpv4Engine} {a : DialAct}
    (h_step : e.Stepped cfg a e') (h : ∀ c ∈ e.conns, c.FailedFirst) :
    ∀ c ∈ e'.conns, c.FailedFirst := by
  obtain h_eq | ⟨act, h_act, -⟩ := h_step.engine
  · rw [h_eq]
    exact h
  · apply Engine.forall_conns_step h _ _ _ h_act
    · intro nodeId busy h_at
      simp [Tcpv4Conn.start] at h_at
    · intro c n h_c
      exact h_c
    · intro serial b c c' _ _ h_c h_b
      exact h_c.step h_b

/-- What a run of the engine has, the limit apart. -/
structure SessionsOk (cfg : ClaConfig) (maxSessions : Nat) (e : Tcpv4Engine) : Prop where
  peers : PeerOk cfg e
  failedFirst : ∀ c ∈ e.conns, c.FailedFirst
  max : e.maxSessions = maxSessions

theorem SessionsOk.run {cfg : ClaConfig} {maxSessions : Nat} {e : Tcpv4Engine}
    {as : List DialAct} (h_run : Lts.run (step cfg) (.init maxSessions) as = some e) :
    SessionsOk cfg maxSessions e := by
  refine run_invariant (fun e a e' h h_step => ?_) ?_ h_run
  · have h_stepped := stepped h_step
    exact ⟨h.peers.step h_stepped, failedFirst_step h_stepped h.failedFirst,
      (maxSessions_stepped h_stepped).trans h.max⟩
  · refine ⟨⟨EngineOk.init cfg, fun peerHost _ => ?_⟩, by simp [init, Engine.init], rfl⟩
    exact Nat.zero_le _

theorem LimitOk.run {cfg : ClaConfig} {maxSessions : Nat} {e : Tcpv4Engine} {as : List DialAct}
    (h_meets : Meets (Tcpv4Engine.step cfg) RoomLeft (.init maxSessions) as)
    (h_run : Lts.run (Tcpv4Engine.step cfg) (.init maxSessions) as = some e) : LimitOk cfg e := by
  refine run_invariant_of_meets (fun e a e' h h_room h_step => h.step h_room (stepped h_step))
    ⟨EngineOk.init cfg, ?_⟩ h_meets h_run
  exact Nat.zero_le _

/-- Where every check leaves room for what is in flight, the sessions keep to the limit and the
    snapshots take in all of them.  A known peer never has more in negotiation than it may. -/
theorem sessions_limited {cfg : ClaConfig} {maxSessions : Nat} {e : Tcpv4Engine}
    {as : List DialAct} (h_run : Lts.run (step cfg) (.init maxSessions) as = some e) :
    (Meets (step cfg) RoomLeft (.init maxSessions) as →
      e.liveSessions ≤ maxSessions + tcpv4BusySlack ∧
      e.clockSnapshot = e.conns.filter Tcpv4Conn.live ∧
      e.stopSnapshot = e.conns.filter isUp) ∧
    ∀ peerHost, peerHost ≠ [] → e.countNegotiating peerHost ≤ tcpv4MaxPeerNegotiating := by
  have h_ok := SessionsOk.run h_run
  constructor
  · intro h_meets
    have h_room := (LimitOk.run h_meets h_run).room
    have h_live : e.liveSessions ≤ e.maxSessions + tcpv4BusySlack := by omega
    refine ⟨h_ok.max ▸ h_live, ?_, ?_⟩
    · apply List.take_of_length_le
      rw [← List.countP_eq_length_filter]
      exact h_live
    · apply List.take_of_length_le
      rw [← List.countP_eq_length_filter]
      refine Nat.le_trans (List.countP_mono_left fun c h_c h_up => ?_) h_live
      -- A session that has not failed has a receiver thread.
      simp only [isUp, Bool.and_eq_true, Bool.not_eq_true'] at h_up
      have h_first := h_ok.failedFirst c h_c
      simp only [Tcpv4Conn.live, Bool.not_eq_true', Bool.or_eq_false_iff]
      refine ⟨h_up.2, ?_⟩
      by_contra h_done
      have h_failed := h_first (.inl (by simpa using h_done))
      rw [h_up.2] at h_failed
      cases h_failed
  · intro peerHost h_known
    rw [countNegotiating, if_neg h_known]
    exact Nat.le_trans (Nat.le_add_right _ _) (h_ok.peers.few peerHost h_known)

/-- Three connections from each of three peers come in while a sender connects. -/
def crowd : List DialAct :=
  [.openSession 0 dialledNodeId true] ++
    [[0x61], [0x62], [0x63]].flatMap (fun peerHost : Octets =>
      (List.replicate 3 [.accept peerHost, .admission true]).flatten) ++
    [.connect 0 .started]

theorem sessions_crowded : ¬ ∀ (cfg : ClaConfig) (maxSessions : Nat) (as : List DialAct)
    (e : Tcpv4Engine), Lts.run (step cfg) (.init maxSessions) as = some e →
      e.liveSessions ≤ maxSessions + tcpv4BusySlack := by
  intro h_claim
  have h_some : (Lts.run (step requiringConfig) (.init 1) crowd).map liveSessions = some 10 := by
    decide +kernel
  obtain ⟨e, h_run, h_live⟩ := Option.map_eq_some_iff.mp h_some
  have h_limit := h_claim requiringConfig 1 crowd e h_run
  rw [h_live] at h_limit
  exact absurd h_limit (by decide)

/-- One session dialled and one accepted. -/
def quiet : List DialAct :=
  [.openSession 0 dialledNodeId true, .connect 0 .started, .accept [0x61], .admission true]

theorem sessions_limited_quiet : ∃ e, Lts.run (step requiringConfig) (.init 2) quiet = some e ∧
    e.liveSessions = 2 ∧ e.clockSnapshot = e.conns.filter Tcpv4Conn.live ∧
      e.countNegotiating [0x61] ≤ tcpv4MaxPeerNegotiating := by
  have h_some : (Lts.run (step requiringConfig) (.init 2) quiet).map liveSessions = some 2 := by
    decide +kernel
  obtain ⟨e, h_run, h_live⟩ := Option.map_eq_some_iff.mp h_some
  have h_meets : Meets (step requiringConfig) RoomLeft (.init 2) quiet := by decide +kernel
  obtain ⟨h_limit, h_peer⟩ := sessions_limited h_run
  exact ⟨e, h_run, h_live, (h_limit h_meets).2.1, h_peer _ (by simp)⟩

end Tcpv4Engine

/-! ## Dialling a node once -/

/-- A session that this node dialled, and that is up or on its way up. -/
def Tcpv4Conn.coming (c : Tcpv4Conn) : Bool := c.dialled && c.live && c.state ≠ .ending

theorem Tcpv4Conn.Aged.coming {c c' : Tcpv4Conn} (h : c.Aged c') (h_coming : c'.coming = true) :
    c.coming = true := by
  simp only [Tcpv4Conn.coming, Bool.and_eq_true, decide_eq_true_eq] at h_coming ⊢
  obtain ⟨⟨h_dialled, h_live⟩, h_state⟩ := h_coming
  exact ⟨⟨h.dialled ▸ h_dialled, h.live h_live⟩, fun h_ended => h_state (h.ended h_ended)⟩

namespace Tcpv4Engine

/-- Who goes on to dial a node is the only one, and the node ID fits the fields of a session. -/
def Alone (e : Tcpv4Engine) : DialAct → Prop
  | .openSession _ nodeId mem => e.mayOpen nodeId mem = true →
    nodeId.length < tcpv4MaxNodeIdLen ∧
      ∀ o ∈ e.opening, tcpv4NodeIdMatches o.nodeId nodeId = false
  | _ => True

instance (e : Tcpv4Engine) : (a : DialAct) → Decidable (e.Alone a)
  | .openSession _ _ _ => inferInstanceAs (Decidable (_ → _ ∧ _))
  | .connect .. | .accept _ | .admission _ | .conn .. | .outcome .. | .find _ | .tick | .reap =>
    .isTrue trivial

theorem not_matches_symm {a b : Octets} (h : tcpv4NodeIdMatches a b = false) :
    tcpv4NodeIdMatches b a = false := by
  by_contra h_match
  have h_back := matches_symm (Bool.not_eq_false _ ▸ h_match)
  rw [h] at h_back
  cases h_back

/-- A session or an attempt for each node. -/
structure OnceOk (cfg : ClaConfig) (e : Tcpv4Engine) : Prop where
  engine : EngineOk cfg e.toEngine
  conns : e.conns.Pairwise fun c c' => c.coming = true → c'.coming = true →
    tcpv4NodeIdMatches c.dialNodeId c'.dialNodeId = false
  opening : e.opening.Pairwise fun o o' => tcpv4NodeIdMatches o.nodeId o'.nodeId = false
  between : ∀ o ∈ e.opening, ∀ c ∈ e.conns, c.coming = true →
    tcpv4NodeIdMatches c.dialNodeId o.nodeId = false
  fits : ∀ o ∈ e.opening, o.nodeId.length < tcpv4MaxNodeIdLen

/-- What ages or goes takes no other's place. -/
theorem OnceOk.aged {cfg : ClaConfig} {e e' : Tcpv4Engine} {f : Tcpv4Conn → Tcpv4Conn}
    (h : OnceOk cfg e) (h_aged : ∀ c ∈ e.conns, c.Aged (f c))
    (h_sub : List.Sublist e'.conns (e.conns.map f)) :
    (e'.conns.Pairwise fun c c' => c.coming = true → c'.coming = true →
      tcpv4NodeIdMatches c.dialNodeId c'.dialNodeId = false) ∧
    ∀ o ∈ e.opening, ∀ c ∈ e'.conns, c.coming = true →
      tcpv4NodeIdMatches c.dialNodeId o.nodeId = false := by
  constructor
  · apply List.Pairwise.sublist h_sub
    rw [List.pairwise_map]
    refine h.conns.imp_of_mem fun {c c'} h_c h_c' h_apart h_coming h_coming' => ?_
    rw [(h_aged c h_c).dialNodeId, (h_aged c' h_c').dialNodeId]
    exact h_apart ((h_aged c h_c).coming h_coming) ((h_aged c' h_c').coming h_coming')
  · intro o h_o c h_c h_coming
    obtain ⟨c₀, h_c₀, rfl⟩ := List.mem_map.mp (h_sub.subset h_c)
    rw [(h_aged c₀ h_c₀).dialNodeId]
    exact h.between o h_o c₀ h_c₀ ((h_aged c₀ h_c₀).coming h_coming)

theorem OnceOk.step {cfg : ClaConfig} {e e' : Tcpv4Engine} {a : DialAct} (h : OnceOk cfg e)
    (h_alone : e.Alone a) (h_step : e.Stepped cfg a e') : OnceOk cfg e' := by
  have h_engine := stepped_engineOk h.engine h_step
  obtain ⟨f, h_f, h_sub, -⟩ | ⟨o, h_o, rfl⟩ | ⟨b, h_b, rfl⟩ := h_step.aged h.engine
  · obtain ⟨h_conns, h_between⟩ := h.aged h_f h_sub
    have h_opening : List.Sublist e'.opening e.opening ∨ ∃ o, e'.opening = o :: e.opening ∧
        e'.conns = e.conns ∧ o.nodeId.length < tcpv4MaxNodeIdLen ∧
        (∀ o' ∈ e.opening, tcpv4NodeIdMatches o'.nodeId o.nodeId = false) ∧
        ∀ c ∈ e.conns, keeps o.nodeId c = false := by
      cases h_step with
      | opens h_thread h_none h_find h_wait h_limit =>
        obtain ⟨h_fits, h_others⟩ := h_alone (mayOpen_of_opens h_none h_find h_wait h_limit)
        exact .inr ⟨_, rfl, rfl, h_fits, h_others, h_none⟩
      | notConnected | unreachable | started => exact .inl List.filter_sublist
      | notOpened | tooSoon | refused | admits | dropped | admitted | conn | outcome | find | tick
      | reap => exact .inl (List.Sublist.refl _)
    rcases h_opening with h_fewer | ⟨o, h_eq, h_same, h_fits, h_others, h_none⟩
    · exact ⟨h_engine, h_conns, h.opening.sublist h_fewer,
        fun o h_o => h_between o (h_fewer.subset h_o), fun o h_o => h.fits o (h_fewer.subset h_o)⟩
    · refine ⟨h_engine, h_conns, ?_, ?_, ?_⟩
      · rw [h_eq]
        exact List.Pairwise.cons (fun o' h_o' => not_matches_symm (h_others o' h_o')) h.opening
      · rw [h_eq, h_same]
        refine List.forall_mem_cons.mpr ⟨fun c h_c h_coming => ?_, h.between⟩
        -- The look has passed over the session, which it does for no other reason.
        have h_keeps := h_none c h_c
        simp only [Tcpv4Conn.coming, Tcpv4Conn.live, Bool.and_eq_true, Bool.not_eq_true',
          Bool.or_eq_false_iff, decide_eq_true_eq] at h_coming
        obtain ⟨⟨-, h_failed, h_done⟩, h_state⟩ := h_coming
        rw [keeps, h_failed, h_done] at h_keeps
        simp only [h_state, decide_false, Bool.or_false, Bool.not_false, Bool.true_and,
          Bool.or_eq_false_iff] at h_keeps
        exact h_keeps.1
      · rw [h_eq]
        exact List.forall_mem_cons.mpr ⟨h_fits, h.fits⟩
  · -- The attempt becomes the session.
    have h_field := nodeIdField_of_fits (h.fits o h_o)
    have h_rest : ∀ o' ∈ (e.withoutThread o.thread).opening,
        o' ∈ e.opening ∧ o'.thread ≠ o.thread := by
      intro o' h_o'
      obtain ⟨h_mem, h_ne⟩ := List.mem_filter.mp h_o'
      exact ⟨h_mem, by simpa using h_ne⟩
    have h_others : ∀ o' ∈ e.opening, o'.thread ≠ o.thread →
        tcpv4NodeIdMatches o.nodeId o'.nodeId = false := by
      intro o' h_o' h_ne
      let Apart (o o' : Opening) : Prop := o.thread ≠ o'.thread →
        tcpv4NodeIdMatches o.nodeId o'.nodeId = false
      have h_apart : e.opening.Pairwise Apart := by
        refine h.opening.imp ?_
        intro o o' h_no _
        exact h_no
      have h_flip : e.opening.Pairwise (flip Apart) := by
        refine h.opening.imp ?_
        intro o o' h_no _
        exact not_matches_symm h_no
      have h_self : ∀ o ∈ e.opening, Apart o o := fun o _ h_irrefl => absurd rfl h_irrefl
      exact h_apart.forall_of_forall_of_flip h_self h_flip h_o h_o' h_ne.symm
    refine ⟨h_engine, ?_, h.opening.sublist List.filter_sublist, ?_,
      fun o' h_o' => h.fits o' (h_rest o' h_o').1⟩
    · refine List.Pairwise.cons (fun c h_c _ h_coming => ?_) h.conns
      show tcpv4NodeIdMatches (nodeIdField o.nodeId) c.dialNodeId = false
      rw [h_field]
      exact not_matches_symm (h.between o h_o c h_c h_coming)
    · intro o' h_o' c h_c h_coming
      obtain ⟨h_mem, h_ne⟩ := h_rest o' h_o'
      rcases List.mem_cons.mp h_c with rfl | h_c
      · show tcpv4NodeIdMatches (nodeIdField o.nodeId) o'.nodeId = false
        rw [h_field]
        exact h_others o' h_mem h_ne
      · exact h.between o' h_mem c h_c h_coming
  · have h_new : ∀ {serial busy}, (Tcpv4Conn.start serial none busy).coming = false := rfl
    refine ⟨h_engine, ?_, h.opening, ?_, h.fits⟩
    · refine List.Pairwise.cons (fun c h_c h_coming => ?_) h.conns
      rw [h_new] at h_coming
      cases h_coming
    · intro o h_o c h_c h_coming
      rcases List.mem_cons.mp h_c with rfl | h_c
      · rw [h_new] at h_coming
        cases h_coming
      · exact h.between o h_o c h_c h_coming

/-- Where each node has one sender that dials it, it has one session that was dialled. -/
theorem dialled_once {cfg : ClaConfig} {maxSessions : Nat} {e : Tcpv4Engine} {as : List DialAct}
    (h_meets : Meets (step cfg) Alone (.init maxSessions) as)
    (h_run : Lts.run (step cfg) (.init maxSessions) as = some e) :
    e.conns.Pairwise fun c c' => c.coming = true → c'.coming = true →
      tcpv4NodeIdMatches c.dialNodeId c'.dialNodeId = false := by
  have h_ok : OnceOk cfg e := by
    refine run_invariant_of_meets (fun e a e' h h_a h_step => h.step h_a (stepped h_step))
      ⟨EngineOk.init cfg, .nil, .nil, ?_, ?_⟩ h_meets h_run
    · intro o h_o
      cases h_o
    · intro o h_o
      cases h_o
  exact h_ok.conns

theorem dialled_once_quiet : ∃ e, Lts.run (step requiringConfig) (.init 2) quiet = some e ∧
    e.liveSessions = 2 ∧ e.conns.Pairwise fun c c' => c.coming = true → c'.coming = true →
      tcpv4NodeIdMatches c.dialNodeId c'.dialNodeId = false := by
  have h_some : (Lts.run (step requiringConfig) (.init 2) quiet).map liveSessions = some 2 := by
    decide +kernel
  obtain ⟨e, h_run, h_live⟩ := Option.map_eq_some_iff.mp h_some
  exact ⟨e, h_run, h_live, dialled_once (by decide +kernel) h_run⟩

/-- Two senders for one node: each looks before the other has its session. -/
def race : List DialAct :=
  [.openSession 0 dialledNodeId true, .openSession 1 dialledNodeId true, .connect 0 .started,
    .connect 1 .started]

theorem dialled_twice : ¬ ∀ (cfg : ClaConfig) (maxSessions : Nat) (as : List DialAct)
    (e : Tcpv4Engine), Lts.run (step cfg) (.init maxSessions) as = some e →
      e.conns.Pairwise fun c c' => c.coming = true → c'.coming = true →
        tcpv4NodeIdMatches c.dialNodeId c'.dialNodeId = false := by
  intro h_claim
  have h_some : (Lts.run (step requiringConfig) (.init 2) race).map (fun e =>
      decide (e.conns.Pairwise fun c c' => c.coming = true → c'.coming = true →
        tcpv4NodeIdMatches c.dialNodeId c'.dialNodeId = false)) = some false := by
    decide +kernel
  obtain ⟨e, h_run, h_twice⟩ := Option.map_eq_some_iff.mp h_some
  exact of_decide_eq_false h_twice (h_claim requiringConfig 2 race e h_run)

end Tcpv4Engine

end IonContrib.Tcpv4
