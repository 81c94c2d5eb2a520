/-
  IonContrib.Tcpv4.Route

  Which node a session carries bundles to.  `applySessInit` fixes the route of
  a session once; nothing later writes the fields it rests on.  So the
  invariant of a session (`ConnOk`) says that from SESS_INIT on the route is
  what the policy makes of the claim of the peer, and the invariant of the
  engine adds that the list of sessions runs newest first.

  `findConn` is then an `argmax` over the eligible sessions, oldest first.
-/
import Mathlib.Data.List.MinMax
import IonContrib.Tcpv4.Engine

namespace IonContrib.Tcpv4

/-! ## What SESS_INIT settles -/

/-- `checkSessInit` finds nothing to object to but, perhaps, the node ID. -/
def SessInit.Usable (peer : SessInit) : Prop :=
  peer.segmentMru ≠ 0 ∧ peer.transferMru ≠ 0 ∧ checkSessExt peer.sessExt = .fine ∧
    (peer.nodeId = [] ∨ tcpv4NodeIdIsWellFormed peer.nodeId = true)

instance (peer : SessInit) : Decidable peer.Usable :=
  inferInstanceAs (Decidable (_ ∧ _ ∧ _ ∧ (_ ∨ _)))

/-- The session `applySessInit` makes of a claim and of what the certificate says about it. -/
def Tcpv4Conn.settled (cfg : ClaConfig) (c : Tcpv4Conn) (peer : SessInit)
    (authenticated : Bool) : Tcpv4Conn :=
  { c with
    segmentMtu := peer.segmentMru
    transferMtu := peer.transferMru
    keepalive := if peer.keepalive < cfg.keepalive then peer.keepalive else cfg.keepalive
    peerNodeId := claimedNodeId peer
    nodeIdAuthenticated := authenticated
    routeNodeId := routeNodeIdFor cfg c (claimedNodeId peer) authenticated }

/-- `applySessInit` accepts a usable SESS_INIT that `authenticateNodeId` accepts. -/
theorem applySessInit_eq_ok {cfg : ClaConfig} {c c' : Tcpv4Conn} {peer : SessInit} :
    applySessInit cfg c peer = .ok c' ↔ peer.Usable ∧ ∃ authenticated,
      authenticateNodeId cfg c (claimedNodeId peer) = .ok authenticated ∧
        c' = c.settled cfg peer authenticated := by
  unfold applySessInit SessInit.Usable
  by_cases h_mru : peer.segmentMru = 0 ∨ peer.transferMru = 0
  · rw [if_pos h_mru]
    constructor
    · intro h
      cases h
    · rintro ⟨⟨h_segment, h_transfer, -, -⟩, -⟩
      exact absurd h_mru (not_or.mpr ⟨h_segment, h_transfer⟩)
  rw [if_neg h_mru]
  obtain ⟨h_segment, h_transfer⟩ := not_or.mp h_mru
  cases h_ext : checkSessExt peer.sessExt with
  | critical => simp [contactFailure]
  | malformed => simp [contactFailure]
  | fine =>
    by_cases h_id : peer.nodeId ≠ [] ∧ tcpv4NodeIdIsWellFormed peer.nodeId = false
    · obtain ⟨h_set, h_form⟩ := h_id
      simp [contactFailure, h_set, h_form]
    · have h_form : peer.nodeId = [] ∨ tcpv4NodeIdIsWellFormed peer.nodeId = true := by
        by_cases h_nil : peer.nodeId = []
        · exact .inl h_nil
        · exact .inr (by simpa [h_nil] using h_id)
      simp only [if_neg h_id]
      cases authenticateNodeId cfg c (claimedNodeId peer) with
      | error refusal => simp
      | ok authenticated =>
        constructor
        · intro h
          have h_eq : c' = c.settled cfg peer authenticated := (Except.ok.inj h).symm
          exact ⟨⟨h_segment, h_transfer, trivial, h_form⟩, authenticated, rfl, h_eq⟩
        · rintro ⟨-, _, h_auth, rfl⟩
          rw [← Except.ok.inj h_auth]
          rfl

/-- What the certificate has to say for the claim to count as authenticated. -/
theorem tlsMatchNodeId_of_authenticateNodeId {cfg : ClaConfig} {c : Tcpv4Conn}
    {claimed : Octets} (h : authenticateNodeId cfg c claimed = .ok true) :
    ∃ tls, c.tls = some tls ∧ tls.tlsMatchNodeId claimed = .success := by
  unfold authenticateNodeId at h
  cases h_tls : c.tls with
  | none => simp [h_tls] at h
  | some tls =>
    refine ⟨tls, rfl, ?_⟩
    simp only [h_tls] at h
    split at h
    · cases h_match : tls.tlsMatchNodeId claimed with
      | success => rfl
      | failure => simp [h_match, contactFailure] at h
      | absent =>
        simp only [h_match] at h
        split at h <;> cases h
      | error =>
        simp only [h_match] at h
        split at h <;> cases h
    · cases h

/-! ## The invariant of a session -/

/-- The route of a session is what the policy makes of the claim of its peer, and the claim is
    authenticated as far as the certificate goes. -/
structure Routed (cfg : ClaConfig) (c : Tcpv4Conn) : Prop where
  claim : authenticateNodeId cfg c c.peerNodeId = .ok c.nodeIdAuthenticated
  route : c.routeNodeId = routeNodeIdFor cfg c c.peerNodeId c.nodeIdAuthenticated

/-- The receiver thread is still in `tcpv4Establish`. -/
def EstablishPc.inEstablish : EstablishPc → Bool
  | .beginning | .contact | .handshake | .sessInit | .establishing => true
  | .running | .failing | .finishing | .done => false

/-- The SESS_INIT of the peer has been accepted. -/
def Tcpv4Conn.PastSessInit (c : Tcpv4Conn) : Prop :=
  c.state ≠ .negotiating ∨ c.pc = .establishing

structure ConnOk (cfg : ClaConfig) (c : Tcpv4Conn) : Prop where
  early : c.pc.inEstablish = true → c.state = .negotiating
  routed : c.PastSessInit → Routed cfg c

theorem start_not_pastSessInit (serial : Nat) (nodeId : Option Octets) (busy : Bool) :
    ¬(Tcpv4Conn.start serial nodeId busy).PastSessInit := by
  rintro (h_state | h_pc)
  · exact h_state rfl
  · cases h_pc

theorem ConnOk.start (cfg : ClaConfig) (serial : Nat) (nodeId : Option Octets) (busy : Bool) :
    ConnOk cfg (Tcpv4Conn.start serial nodeId busy) where
  early _ := rfl
  routed h := absurd h (start_not_pastSessInit serial nodeId busy)

/-- What a step can do to the route of a session: nothing (`frame`), change what a route that
    is still to come will rest on (`secured`), or settle it (`settle`). -/
inductive RouteStep (cfg : ClaConfig) (c : Tcpv4Conn) : ConnAct → Tcpv4Conn → Prop
  | frame {a : ConnAct} (state : ConnState) (failed receiverDone : Bool) (pc : EstablishPc)
      (txSenders : Nat) (h_early : pc.inEstablish = true → state = .negotiating)
      (h_past : state ≠ .negotiating ∨ pc = .establishing → c.PastSessInit) :
      RouteStep cfg c a
        { c with
          state := state, failed := failed, receiverDone := receiverDone, pc := pc,
          txSenders := txSenders }
  | secured {a : ConnAct} (tls : Option TlsConn) (peerAuthenticated : Bool) (pc : EstablishPc)
      (h_state : c.state = .negotiating) (h_pc : pc ≠ .establishing) :
      RouteStep cfg c a { c with tls := tls, peerAuthenticated := peerAuthenticated, pc := pc }
  | settle {s : Octets} {io : Bool} {peer : SessInit} {rest : Octets} {authenticated : Bool}
      (h_recv : recvSessInit s = .got peer rest) (h_usable : peer.Usable)
      (h_auth : authenticateNodeId cfg c (claimedNodeId peer) = .ok authenticated)
      (h_state : c.state = .negotiating) :
      RouteStep cfg c (.sessInit s io)
        { c.settled cfg peer authenticated with pc := .establishing }

/-- The receiver thread moves on, within `tcpv4Establish` but not past SESS_INIT, or out. -/
theorem RouteStep.toward {cfg : ClaConfig} {c : Tcpv4Conn} {a : ConnAct}
    (h_state : c.state = .negotiating) {pc : EstablishPc} (h_pc : pc ≠ .establishing) :
    RouteStep cfg c a { c with pc := pc } := by
  apply RouteStep.frame
  · intro _
    exact h_state
  · rintro (h_at | h_at)
    · exact absurd h_state h_at
    · exact absurd h_at h_pc

/-- The receiver thread leaves `tcpv4Establish`, or the message loop. -/
theorem RouteStep.leaving {cfg : ClaConfig} {c : Tcpv4Conn} {a : ConnAct} {pc : EstablishPc}
    {failed receiverDone : Bool} (h_pc : pc.inEstablish = false) :
    RouteStep cfg c a { c with failed := failed, receiverDone := receiverDone, pc := pc } := by
  apply RouteStep.frame
  · intro h_in
    rw [h_pc] at h_in
    cases h_in
  · rintro (h_state | h_at)
    · exact .inl h_state
    · rw [h_at] at h_pc
      cases h_pc

theorem RouteStep.failing {cfg : ClaConfig} {c : Tcpv4Conn} {a : ConnAct} :
    RouteStep cfg c a c.failing := .leaving rfl

theorem routeStep_exchangeContact {cfg : ClaConfig} {c c' : Tcpv4Conn} {a : ConnAct}
    {s : Octets} {io : Bool} (h_state : c.state = .negotiating)
    (h_step : c.exchangeContact cfg s io = some c') : RouteStep cfg c a c' := by
  unfold Tcpv4Conn.exchangeContact at h_step
  split at h_step
  · obtain rfl := Option.some.inj h_step
    exact .failing
  · split at h_step
    · cases h_step
    · obtain rfl := Option.some.inj h_step
      exact .failing
    · split at h_step
      · obtain rfl := Option.some.inj h_step
        exact .failing
      · obtain rfl := Option.some.inj h_step
        apply RouteStep.toward h_state
        split <;> simp

theorem routeStep_handshake {cfg : ClaConfig} {c : Tcpv4Conn} {a : ConnAct}
    (h_state : c.state = .negotiating) (tls : Option TlsConn) :
    RouteStep cfg c a (c.handshake cfg tls) := by
  cases tls with
  | none => exact .failing
  | some t =>
    unfold Tcpv4Conn.handshake
    show RouteStep cfg c a (if _ then _ else _)
    split
    · exact .secured _ _ _ h_state (by simp)
    · split
      · exact .secured _ _ _ h_state (by simp)
      · exact .secured _ _ _ h_state (by simp)

theorem routeStep_exchangeSessInit {cfg : ClaConfig} {c c' : Tcpv4Conn} {s : Octets}
    {io : Bool} (h_state : c.state = .negotiating)
    (h_step : c.exchangeSessInit cfg s io = some c') :
    RouteStep cfg c (.sessInit s io) c' := by
  unfold Tcpv4Conn.exchangeSessInit at h_step
  split at h_step
  · obtain rfl := Option.some.inj h_step
    exact .failing
  · split at h_step
    · cases h_step
    · obtain rfl := Option.some.inj h_step
      exact .failing
    · next peer rest h_recv =>
      split at h_step
      · obtain rfl := Option.some.inj h_step
        exact .failing
      · next h_apply =>
        obtain rfl := Option.some.inj h_step
        obtain ⟨h_usable, authenticated, h_auth, rfl⟩ := applySessInit_eq_ok.mp h_apply
        exact .settle h_recv h_usable h_auth h_state

theorem ConnOk.routeStep {cfg : ClaConfig} {c c' : Tcpv4Conn} {a : ConnAct} (h : ConnOk cfg c)
    (h_step : c.step cfg a = some c') : RouteStep cfg c a c' := by
  have h_at {pc : EstablishPc} (h_pc : c.pc = pc) (h_in : pc.inEstablish = true) :
      c.state = .negotiating := h.early (by rw [h_pc]; exact h_in)
  unfold Tcpv4Conn.step at h_step
  split at h_step
  · next ok h_pc =>
    obtain rfl := Option.some.inj h_step
    split
    · exact .toward (h_at h_pc rfl) (by simp)
    · exact .leaving rfl
  · next h_pc => exact routeStep_exchangeContact (h_at h_pc rfl) h_step
  · next h_pc =>
    obtain rfl := Option.some.inj h_step
    exact routeStep_handshake (h_at h_pc rfl) _
  · next h_pc => exact routeStep_exchangeSessInit (h_at h_pc rfl) h_step
  · next h_pc =>
    -- The one step that takes the session into service: SESS_INIT is behind it.
    obtain rfl := Option.some.inj h_step
    apply RouteStep.frame
    · intro h_running
      cases h_running
    · intro _
      exact .inr h_pc
  · obtain rfl := Option.some.inj h_step
    exact .failing
  · obtain rfl := Option.some.inj h_step
    exact .leaving rfl
  · obtain rfl := Option.some.inj h_step
    exact .leaving rfl
  · split at h_step
    · cases h_step
    · next h_state =>
      obtain rfl := Option.some.inj h_step
      apply RouteStep.frame
      · intro h_in
        exact absurd (h.early h_in) h_state
      · intro _
        exact .inl h_state
  · obtain rfl := Option.some.inj h_step
    exact .frame _ _ _ _ _ h.early id
  · split at h_step
    · cases h_step
    · obtain rfl := Option.some.inj h_step
      exact .frame _ _ _ _ _ h.early id
  · cases h_step

/-- Every step of a session keeps its invariant. -/
theorem ConnOk.of_routeStep {cfg : ClaConfig} {c c' : Tcpv4Conn} {a : ConnAct}
    (h : ConnOk cfg c) (h_step : RouteStep cfg c a c') : ConnOk cfg c' := by
  cases h_step with
  | frame state failed receiverDone pc txSenders h_early h_past =>
    refine ⟨h_early, fun h_at => ?_⟩
    have h_routed := h.routed (h_past h_at)
    exact ⟨h_routed.claim, h_routed.route⟩
  | secured tls peerAuthenticated pc h_state h_pc =>
    refine ⟨fun _ => h_state, ?_⟩
    -- The route is not settled yet, so nothing rests on the certificate.
    rintro (h_at | h_at)
    · exact absurd h_state h_at
    · exact absurd h_at h_pc
  | settle h_recv h_usable h_auth h_state =>
    exact ⟨fun _ => h_state, fun _ => ⟨h_auth, rfl⟩⟩

/-- No step changes which session it is. -/
theorem RouteStep.serial {cfg : ClaConfig} {c c' : Tcpv4Conn} {a : ConnAct}
    (h : RouteStep cfg c a c') : c'.serial = c.serial := by
  cases h <;> rfl

/-! ## The invariant of the engine -/

/-- The sessions after a step of one of them. -/
theorem Engine.eq_of_onConn {e e' : Engine} {serial : Nat} {f : Tcpv4Conn → Option Tcpv4Conn}
    (h_on : e.onConn serial f = some e') :
    ∃ c c', e.conns.find? (fun c => c.serial = serial) = some c ∧ f c = some c' ∧
      e' = { e with conns := e.conns.map fun d => if d.serial = serial then c' else d } := by
  unfold Engine.onConn at h_on
  split at h_on
  · cases h_on
  · next c h_find =>
    obtain ⟨c', h_f, h_eq⟩ := Option.map_eq_some_iff.mp h_on
    exact ⟨c, c', h_find, h_f, h_eq.symm⟩

/-- A property that a session starts with, that its own steps keep and that its senders do not
    matter to, is kept by every step of the engine. -/
theorem Engine.forall_conns_step {cfg : ClaConfig} {e e' : Engine} {act : EngineAct}
    {P : Tcpv4Conn → Prop} (h : ∀ c ∈ e.conns, P c)
    (h_start : ∀ nodeId busy, P (Tcpv4Conn.start e.next nodeId busy))
    (h_hold : ∀ c n, P c → P { c with txSenders := n })
    (h_conn : ∀ serial a c c', act = .conn serial a →
      e.conns.find? (fun c => c.serial = serial) = some c → P c → c.step cfg a = some c' → P c')
    (h_step : e.step cfg act = some e') : ∀ c ∈ e'.conns, P c := by
  have h_on {serial : Nat} {f : Tcpv4Conn → Option Tcpv4Conn}
      (h_f : ∀ c c', e.conns.find? (fun c => c.serial = serial) = some c → P c →
        f c = some c' → P c')
      (h_on : e.onConn serial f = some e') : ∀ c ∈ e'.conns, P c := by
    obtain ⟨c, c', h_find, h_fc, rfl⟩ := Engine.eq_of_onConn h_on
    intro d h_d
    obtain ⟨d₀, h_d₀, rfl⟩ := List.mem_map.mp h_d
    split
    · exact h_f c c' h_find (h c (List.mem_of_find?_eq_some h_find)) h_fc
    · exact h d₀ h_d₀
  have h_new (nodeId : Option Octets) (busy : Bool) :
      ∀ c ∈ (e.startConn nodeId busy).conns, P c := by
    intro c h_mem
    rcases List.mem_cons.mp h_mem with rfl | h_mem
    · exact h_start nodeId busy
    · exact h c h_mem
  cases act with
  | dial nodeId =>
    obtain rfl := Option.some.inj h_step
    exact h_new _ _
  | accept busy =>
    obtain rfl := Option.some.inj h_step
    exact h_new _ _
  | conn serial a =>
    apply h_on _ h_step
    intro c c' h_find h_c h_act
    exact h_conn serial a c c' rfl h_find h_c h_act
  | find nodeId =>
    simp only [Engine.step] at h_step
    split at h_step
    · obtain rfl := Option.some.inj h_step
      exact h
    · apply h_on _ h_step
      intro c c' _ h_c h_held
      obtain rfl := Option.some.inj h_held
      exact h_hold c _ h_c
  | reap =>
    obtain rfl := Option.some.inj h_step
    intro c h_mem
    exact h c (List.mem_filter.mp h_mem).1

structure EngineOk (cfg : ClaConfig) (e : Engine) : Prop where
  conns : ∀ c ∈ e.conns, ConnOk cfg c
  fresh : ∀ c ∈ e.conns, c.serial < e.next
  /-- The newest session comes first. -/
  newestFirst : e.conns.Pairwise fun c d => d.serial < c.serial

theorem EngineOk.init (cfg : ClaConfig) : EngineOk cfg Engine.init where
  conns := by simp [Engine.init]
  fresh := by simp [Engine.init]
  newestFirst := List.Pairwise.nil

/-- A new session goes to the front, the others keep their places. -/
theorem EngineOk.startConn {cfg : ClaConfig} {e : Engine} (h : EngineOk cfg e)
    (nodeId : Option Octets) (busy : Bool) :
    (∀ c ∈ (e.startConn nodeId busy).conns, c.serial < (e.startConn nodeId busy).next) ∧
      (e.startConn nodeId busy).conns.Pairwise fun c d => d.serial < c.serial := by
  refine ⟨?_, List.Pairwise.cons h.fresh h.newestFirst⟩
  intro c h_mem
  show c.serial < e.next + 1
  rcases List.mem_cons.mp h_mem with rfl | h_mem
  · exact Nat.lt_succ_self _
  · have := h.fresh c h_mem
    omega

theorem EngineOk.onConn {cfg : ClaConfig} {e e' : Engine} {serial : Nat}
    {f : Tcpv4Conn → Option Tcpv4Conn} (h : EngineOk cfg e)
    (h_f : ∀ c c', ConnOk cfg c → f c = some c' → c'.serial = c.serial)
    (h_on : e.onConn serial f = some e') :
    (∀ c ∈ e'.conns, c.serial < e'.next) ∧
      e'.conns.Pairwise fun c d => d.serial < c.serial := by
  obtain ⟨c, c', h_find, h_fc, rfl⟩ := Engine.eq_of_onConn h_on
  have h_serial : c.serial = serial := by simpa using List.find?_some h_find
  have h_same := h_f c c' (h.conns c (List.mem_of_find?_eq_some h_find)) h_fc
  have h_keeps : ∀ d : Tcpv4Conn, (if d.serial = serial then c' else d).serial = d.serial := by
    intro d
    split
    · omega
    · rfl
  constructor
  · intro d h_d
    obtain ⟨d₀, h_d₀, rfl⟩ := List.mem_map.mp h_d
    rw [h_keeps]
    exact h.fresh d₀ h_d₀
  · apply List.Pairwise.map _ _ h.newestFirst
    intro x y h_xy
    rw [h_keeps, h_keeps]
    exact h_xy

/-- The list runs newest first, whatever step is taken. -/
theorem EngineOk.order {cfg : ClaConfig} {e e' : Engine} {a : EngineAct} (h : EngineOk cfg e)
    (h_step : e.step cfg a = some e') :
    (∀ c ∈ e'.conns, c.serial < e'.next) ∧
      e'.conns.Pairwise fun c d => d.serial < c.serial := by
  cases a with
  | dial nodeId =>
    obtain rfl := Option.some.inj h_step
    exact h.startConn _ _
  | accept busy =>
    obtain rfl := Option.some.inj h_step
    exact h.startConn _ _
  | conn serial a =>
    apply h.onConn _ h_step
    intro c c' h_c h_act
    exact (h_c.routeStep h_act).serial
  | find nodeId =>
    simp only [Engine.step] at h_step
    split at h_step
    · obtain rfl := Option.some.inj h_step
      exact ⟨h.fresh, h.newestFirst⟩
    · apply h.onConn _ h_step
      intro c c' _ h_held
      obtain rfl := Option.some.inj h_held
      rfl
  | reap =>
    obtain rfl := Option.some.inj h_step
    exact ⟨fun c h_mem => h.fresh c (List.mem_filter.mp h_mem).1, h.newestFirst.filter _⟩

theorem EngineOk.step {cfg : ClaConfig} {e e' : Engine} {a : EngineAct} (h : EngineOk cfg e)
    (h_step : e.step cfg a = some e') : EngineOk cfg e' := by
  obtain ⟨h_fresh, h_newest⟩ := h.order h_step
  refine ⟨?_, h_fresh, h_newest⟩
  apply Engine.forall_conns_step h.conns _ _ _ h_step
  · intro nodeId busy
    exact ConnOk.start cfg e.next nodeId busy
  · intro c n h_c
    exact ⟨h_c.early, fun h_at => ⟨(h_c.routed h_at).claim, (h_c.routed h_at).route⟩⟩
  · intro serial a c c' _ _ h_c h_act
    exact h_c.of_routeStep (h_c.routeStep h_act)

theorem EngineOk.run {cfg : ClaConfig} {e : Engine} {as : List EngineAct}
    (h_run : Lts.run (Engine.step cfg) Engine.init as = some e) : EngineOk cfg e :=
  Lts.run_invariant (fun _ _ _ h h_step => EngineOk.step h h_step) (EngineOk.init cfg) h_run

/-! ## The choice of a session -/

/-- A session `findConn` takes into account for a bundle to `nodeId`. -/
def Tcpv4Conn.eligible (nodeId : Octets) (c : Tcpv4Conn) : Bool :=
  !c.failed && !c.receiverDone && c.state = .established &&
    tcpv4NodeIdMatches c.routeNodeId nodeId

theorem findConnTurn_of_eligible {nodeId : Octets} {c : Tcpv4Conn}
    (h : c.eligible nodeId = true) (found : Option Tcpv4Conn × Bool) :
    (findConnTurn nodeId found c).1 = match found.1 with
      | none => some c
      | some best =>
        if c.nodeIdAuthenticated < best.nodeIdAuthenticated then some best else some c := by
  simp only [Tcpv4Conn.eligible, Bool.and_eq_true, Bool.not_eq_true', decide_eq_true_eq] at h
  obtain ⟨⟨⟨h_failed, h_done⟩, h_state⟩, h_match⟩ := h
  simp only [findConnTurn, h_failed, h_done, h_state, h_match]
  cases found.1 with
  | none => rfl
  | some best =>
    cases h_best : best.nodeIdAuthenticated <;> cases h_c : c.nodeIdAuthenticated <;>
      simp [h_best]

theorem findConnTurn_of_not_eligible {nodeId : Octets} {c : Tcpv4Conn}
    (h : c.eligible nodeId = false) (found : Option Tcpv4Conn × Bool) :
    (findConnTurn nodeId found c).1 = found.1 := by
  unfold findConnTurn
  split
  · rfl
  · next h_up =>
    split
    · rfl
    · split <;> rfl
    · next h_state =>
      obtain ⟨h_failed, h_done⟩ : c.failed = false ∧ c.receiverDone = false := by
        simpa using h_up
      have h_match : tcpv4NodeIdMatches c.routeNodeId nodeId = false := by
        simpa [Tcpv4Conn.eligible, h_state, h_failed, h_done] using h
      simp [h_match]

/-- The best of the eligible sessions, the oldest of the best. -/
theorem findConn_eq_argmax (conns : List Tcpv4Conn) (nodeId : Octets) :
    (findConn conns nodeId).1 =
      (conns.reverse.filter fun c => c.eligible nodeId).argmax Tcpv4Conn.nodeIdAuthenticated := by
  have h_fold : (conns.foldl (findConnTurn nodeId) (none, false)).1 =
      (conns.reverse.filter fun c => c.eligible nodeId).argmax
        Tcpv4Conn.nodeIdAuthenticated := by
    -- From the end of the list: the last turn decides over what the others found.
    induction conns using List.reverseRecOn with
    | nil => rfl
    | append_singleton conns c ih =>
      rw [List.foldl_append, List.reverse_append]
      show (findConnTurn nodeId _ c).1 = List.argmax _ (List.filter _ (c :: conns.reverse))
      cases h_el : c.eligible nodeId with
      | false =>
        rw [findConnTurn_of_not_eligible h_el, List.filter_cons_of_neg (by simp [h_el]), ih]
      | true =>
        rw [findConnTurn_of_eligible h_el, List.filter_cons_of_pos h_el, List.argmax_cons, ih]
        generalize List.argmax Tcpv4Conn.nodeIdAuthenticated _ = best
        cases best <;> rfl
  unfold findConn
  split
  · next h_unset =>
    -- A node ID that is not set matches no route.
    have h_none : ∀ c : Tcpv4Conn, c.eligible nodeId = false := by
      intro c
      have h_nil : nodeId = [] := by simpa [tcpv4NodeIdIsSet] using h_unset
      by_contra h_el
      simp only [Bool.not_eq_false, Tcpv4Conn.eligible, Bool.and_eq_true] at h_el
      exact (set_of_matches h_el.2).2 h_nil
    rw [List.filter_eq_nil_iff.mpr (by simp [h_none])]
    rfl
  · exact h_fold

/-- Of two places in a list that runs oldest first, the earlier one is the older session. -/
theorem serial_le_of_idxOf_le [DecidableEq Tcpv4Conn] {conns : List Tcpv4Conn}
    {c d : Tcpv4Conn} (h_sorted : conns.Pairwise fun c d => c.serial < d.serial)
    (h_c : c ∈ conns) (h_d : d ∈ conns) (h_le : conns.idxOf c ≤ conns.idxOf d) :
    c.serial ≤ d.serial := by
  rcases Nat.eq_or_lt_of_le h_le with h_eq | h_lt
  · rw [(List.idxOf_inj h_c).mp h_eq]
  · have h_at := List.pairwise_iff_getElem.mp h_sorted _ _ (List.idxOf_lt_length_of_mem h_c)
      (List.idxOf_lt_length_of_mem h_d) h_lt
    simp only [List.getElem_idxOf] at h_at
    exact Nat.le_of_lt h_at

open Classical in
/-- What `findConn` finds is eligible, and no eligible session is better: none is authenticated
    where this one is not, and none that is as good is older. -/
theorem findConn_best {conns : List Tcpv4Conn} {nodeId : Octets} {c : Tcpv4Conn}
    (h_sorted : conns.Pairwise fun c d => d.serial < c.serial)
    (h_find : (findConn conns nodeId).1 = some c) :
    (c ∈ conns ∧ c.eligible nodeId = true) ∧ ∀ d ∈ conns, d.eligible nodeId = true →
      (d.nodeIdAuthenticated = true → c.nodeIdAuthenticated = true) ∧
      (d.nodeIdAuthenticated = c.nodeIdAuthenticated → c.serial ≤ d.serial) := by
  rw [findConn_eq_argmax] at h_find
  have h_mem := List.argmax_mem h_find
  obtain ⟨h_conns, h_el⟩ := List.mem_filter.mp h_mem
  refine ⟨⟨List.mem_reverse.mp h_conns, h_el⟩, ?_⟩
  intro d h_d h_d_el
  have h_d_mem : d ∈ conns.reverse.filter fun c => c.eligible nodeId :=
    List.mem_filter.mpr ⟨List.mem_reverse.mpr h_d, h_d_el⟩
  constructor
  · intro h_auth
    have h_le := List.le_of_mem_argmax h_d_mem h_find
    rw [h_auth] at h_le
    exact Bool.eq_true_of_true_le h_le
  · intro h_auth
    have h_oldest := (List.pairwise_reverse.mpr h_sorted).filter fun c => c.eligible nodeId
    apply serial_le_of_idxOf_le h_oldest h_mem h_d_mem
    exact List.index_of_argmax h_find h_d_mem (le_of_eq h_auth.symm)

/-! ## Egress routing -/

/-- Why a session may carry bundles to `nodeId`. -/
inductive MayCarry (cfg : ClaConfig) (nodeId : Octets) (c : Tcpv4Conn) : Prop where
  | authenticated (tls : TlsConn) (h_auth : c.nodeIdAuthenticated = true)
      (h_tls : c.tls = some tls) (h_cert : tls.tlsMatchNodeId c.peerNodeId = .success)
      (h_match : tcpv4NodeIdMatches c.peerNodeId nodeId = true)
  | dialled (h_auth : c.nodeIdAuthenticated = false) (h_role : c.activeRole = true)
      (h_match : tcpv4NodeIdMatches c.dialNodeId nodeId = true)
      (h_claim : c.peerNodeId = [] ∨ tcpv4NodeIdMatches c.peerNodeId c.dialNodeId = true)
  | unverified (h_auth : c.nodeIdAuthenticated = false) (h_role : c.activeRole = false)
      (h_policy : cfg.eidPolicy = .none)
      (h_match : tcpv4NodeIdMatches c.peerNodeId nodeId = true)

/-- A session that is up, and may carry bundles to `nodeId`. -/
structure Carries (cfg : ClaConfig) (nodeId : Octets) (c : Tcpv4Conn) : Prop where
  notFailed : c.failed = false
  notFinished : c.receiverDone = false
  established : c.state = .established
  mayCarry : MayCarry cfg nodeId c

theorem not_matches_nil (nodeId : Octets) : ¬tcpv4NodeIdMatches [] nodeId = true := by
  intro h
  exact (set_of_matches h).1 rfl

theorem Routed.matches_iff {cfg : ClaConfig} {c : Tcpv4Conn} (h : Routed cfg c)
    (nodeId : Octets) :
    tcpv4NodeIdMatches c.routeNodeId nodeId = true ↔ MayCarry cfg nodeId c := by
  rw [h.route]
  unfold routeNodeIdFor
  cases h_auth : c.nodeIdAuthenticated with
  | true =>
    constructor
    · intro h_match
      obtain ⟨tls, h_tls, h_cert⟩ :=
        tlsMatchNodeId_of_authenticateNodeId (h_auth ▸ h.claim)
      exact .authenticated tls h_auth h_tls h_cert h_match
    · rintro (⟨_, -, -, -, h_match⟩ | ⟨h_not, -, -, -⟩ | ⟨h_not, -, -, -⟩)
      · exact h_match
      · rw [h_auth] at h_not
        cases h_not
      · rw [h_auth] at h_not
        cases h_not
  | false =>
    rw [if_neg Bool.false_ne_true]
    cases h_role : c.activeRole with
    | true =>
      rw [if_pos rfl]
      -- The claim may be missing, but it may not be another node's.
      have h_claim : (tcpv4NodeIdIsSet c.peerNodeId &&
            !tcpv4NodeIdMatches c.peerNodeId c.dialNodeId) = false ↔
          (c.peerNodeId = [] ∨ tcpv4NodeIdMatches c.peerNodeId c.dialNodeId = true) := by
        simp [tcpv4NodeIdIsSet, or_iff_not_imp_left]
      constructor
      · intro h_match
        split at h_match
        · exact absurd h_match (not_matches_nil nodeId)
        · next h_other =>
          exact .dialled h_auth h_role h_match (h_claim.mp (Bool.eq_false_iff.mpr h_other))
      · rintro (⟨_, h_is, -, -, -⟩ | ⟨-, -, h_match, h_own⟩ | ⟨-, h_not, -, -⟩)
        · rw [h_auth] at h_is
          cases h_is
        · rw [if_neg (Bool.eq_false_iff.mp (h_claim.mpr h_own))]
          exact h_match
        · rw [h_role] at h_not
          cases h_not
    | false =>
      rw [if_neg Bool.false_ne_true]
      constructor
      · intro h_match
        split at h_match
        · next h_none =>
          have h_policy : cfg.eidPolicy = .none := by
            simpa using (Bool.and_eq_true_iff.mp h_none).1
          exact .unverified h_auth h_role h_policy h_match
        · exact absurd h_match (not_matches_nil nodeId)
      · rintro (⟨_, h_is, -, -, -⟩ | ⟨-, h_is, -, -⟩ | ⟨-, -, h_policy, h_match⟩)
        · rw [h_auth] at h_is
          cases h_is
        · rw [h_role] at h_is
          cases h_is
        · have h_set : tcpv4NodeIdIsSet c.peerNodeId = true := by
            simpa [tcpv4NodeIdIsSet] using (set_of_matches h_match).1
          rw [if_pos (by simp [h_policy, h_set])]
          exact h_match

/-- What makes a session eligible is that it is up and may carry the bundle. -/
theorem ConnOk.eligible_iff {cfg : ClaConfig} {c : Tcpv4Conn} (h : ConnOk cfg c)
    (nodeId : Octets) : c.eligible nodeId = true ↔ Carries cfg nodeId c := by
  simp only [Tcpv4Conn.eligible, Bool.and_eq_true, Bool.not_eq_true', decide_eq_true_eq]
  constructor
  · rintro ⟨⟨⟨h_failed, h_done⟩, h_state⟩, h_match⟩
    have h_routed := h.routed (.inl (by rw [h_state]; simp))
    exact ⟨h_failed, h_done, h_state, (h_routed.matches_iff nodeId).mp h_match⟩
  · rintro ⟨h_failed, h_done, h_state, h_may⟩
    have h_routed := h.routed (.inl (by rw [h_state]; simp))
    exact ⟨⟨⟨h_failed, h_done⟩, h_state⟩, (h_routed.matches_iff nodeId).mpr h_may⟩

/-- In every state the engine can reach, the session `findConn` finds for a node is up and may
    carry bundles to it, and it is the oldest of the best such sessions; it finds none only if
    there is none. -/
theorem run_findConn {cfg : ClaConfig} {as : List EngineAct} {e : Engine}
    (h_run : Lts.run (Engine.step cfg) Engine.init as = some e) (nodeId : Octets) :
    match (findConn e.conns nodeId).1 with
    | none => ∀ d ∈ e.conns, ¬Carries cfg nodeId d
    | some c => (c ∈ e.conns ∧ Carries cfg nodeId c) ∧
      (c.activeRole = false → c.nodeIdAuthenticated = false → cfg.eidPolicy = .none) ∧
      ∀ d ∈ e.conns, Carries cfg nodeId d →
        (d.nodeIdAuthenticated = true → c.nodeIdAuthenticated = true) ∧
        (d.nodeIdAuthenticated = c.nodeIdAuthenticated → c.serial ≤ d.serial) := by
  have h := EngineOk.run h_run
  cases h_find : (findConn e.conns nodeId).1 with
  | none =>
    intro d h_d h_carries
    rw [findConn_eq_argmax, List.argmax_eq_none, List.filter_eq_nil_iff] at h_find
    apply h_find d (List.mem_reverse.mpr h_d)
    exact ((h.conns d h_d).eligible_iff nodeId).mpr h_carries
  | some c =>
    obtain ⟨⟨h_mem, h_el⟩, h_best⟩ := findConn_best h.newestFirst h_find
    have h_carries := ((h.conns c h_mem).eligible_iff nodeId).mp h_el
    refine ⟨⟨h_mem, h_carries⟩, ?_, ?_⟩
    · intro h_role h_auth
      rcases h_carries.mayCarry with
        ⟨_, h_is, -, -, -⟩ | ⟨-, h_is, -, -⟩ | ⟨-, -, h_policy, -⟩
      · rw [h_auth] at h_is
        cases h_is
      · rw [h_role] at h_is
        cases h_is
      · exact h_policy
    · intro d h_d h_d_carries
      exact h_best d h_d (((h.conns d h_d).eligible_iff nodeId).mpr h_d_carries)

/-! ## Policy REQUIRE -/

/-- The peer names a node, in a node ID no longer than `recvSessInit` lets through. -/
def SessInit.Named (peer : SessInit) : Prop :=
  0 < peer.nodeId.length ∧ peer.nodeId.length < tcpv4MaxNodeIdLen

instance (peer : SessInit) : Decidable peer.Named :=
  inferInstanceAs (Decidable (_ ∧ _))

theorem SessInit.Named.claimedNodeId_ne_nil {peer : SessInit} (h : peer.Named) :
    claimedNodeId peer ≠ [] := by
  have h_claim : claimedNodeId peer = peer.nodeId := if_pos h
  rw [h_claim]
  exact List.ne_nil_of_length_pos h.1

/-- A claim under REQUIRE is authenticated, or the session is not accepted. -/
theorem authenticated_of_claim {cfg : ClaConfig} (h_verify : cfg.noVerify = false)
    (h_require : cfg.eidPolicy = .require) {c : Tcpv4Conn} {tls : TlsConn}
    (h_tls : c.tls = some tls) {claimed : Octets} (h_claim : claimed ≠ []) {authenticated : Bool}
    (h : authenticateNodeId cfg c claimed = .ok authenticated) : authenticated = true := by
  unfold authenticateNodeId at h
  rw [h_tls] at h
  have h_asked : (!cfg.noVerify && cfg.eidPolicy ≠ .none && claimed ≠ []) = true := by
    simp [h_verify, h_require, h_claim]
  simp only [h_asked, if_true] at h
  cases h_match : tls.tlsMatchNodeId claimed with
  | success =>
    rw [h_match] at h
    exact (Except.ok.inj h).symm
  | failure => simp [h_match, contactFailure] at h
  | absent => simp [h_match, h_require, contactFailure] at h
  | error => simp [h_match, h_require, contactFailure] at h

/-- The certificate is not asked about a claim that is not there. -/
theorem authenticateNodeId_nil (cfg : ClaConfig) (c : Tcpv4Conn) :
    authenticateNodeId cfg c [] = .ok false := by
  unfold authenticateNodeId
  cases c.tls <;> simp

/-- When `applySessInit` accepts only what it has authenticated. -/
theorem applySessInit_authenticates_iff {cfg : ClaConfig} (h_verify : cfg.noVerify = false)
    (h_require : cfg.eidPolicy = .require) {c : Tcpv4Conn} {tls : TlsConn}
    (h_tls : c.tls = some tls) (peer : SessInit) :
    (∀ c', applySessInit cfg c peer = .ok c' → c'.nodeIdAuthenticated = true) ↔
      peer.Named ∨ ¬peer.Usable := by
  constructor
  · intro h_all
    by_contra h_not
    obtain ⟨h_nameless, h_usable⟩ := not_or.mp h_not
    have h_claim : claimedNodeId peer = [] := if_neg h_nameless
    have h_auth := authenticateNodeId_nil cfg c
    rw [← h_claim] at h_auth
    have h_ok := applySessInit_eq_ok.mpr ⟨not_not.mp h_usable, false, h_auth, rfl⟩
    exact Bool.false_ne_true (h_all _ h_ok)
  · intro h_peer c' h_ok
    obtain ⟨h_usable, authenticated, h_auth, rfl⟩ := applySessInit_eq_ok.mp h_ok
    have h_named : peer.Named := h_peer.resolve_right (not_not.mpr h_usable)
    exact authenticated_of_claim h_verify h_require h_tls h_named.claimedNodeId_ne_nil h_auth

/-- The peer of a TLS session names a node in the SESS_INIT it sends, or sends one that is not
    acceptable anyway. -/
def Engine.namesNode (e : Engine) : EngineAct → Bool
  | .conn serial (.sessInit s _) =>
    match e.conns.find? fun c => c.serial = serial, recvSessInit s with
    | some c, .got peer _ => c.tls.isNone || decide (peer.Named ∨ ¬peer.Usable)
    | _, _ => true
  | _ => true

/-- A session that is over TLS and past SESS_INIT has a peer that named a node. -/
def Tcpv4Conn.KnowsPeer (c : Tcpv4Conn) : Prop :=
  c.PastSessInit → c.tls.isSome = true → c.peerNodeId ≠ []

theorem Tcpv4Conn.KnowsPeer.of_routeStep {cfg : ClaConfig} {c c' : Tcpv4Conn} {a : ConnAct}
    (h : c.KnowsPeer) (h_step : RouteStep cfg c a c')
    (h_named : ∀ s io peer rest, a = .sessInit s io → recvSessInit s = .got peer rest →
      c.tls.isNone = true ∨ peer.Named ∨ ¬peer.Usable) : c'.KnowsPeer := by
  cases h_step with
  | frame state failed receiverDone pc txSenders h_early h_past =>
    intro h_at h_tls
    exact h (h_past h_at) h_tls
  | secured tls peerAuthenticated pc h_state h_pc =>
    rintro (h_at | h_at)
    · exact absurd h_state h_at
    · exact absurd h_at h_pc
  | @settle s io peer rest authenticated h_recv h_usable h_auth h_state =>
    intro _ (h_tls : c.tls.isSome = true)
    show claimedNodeId peer ≠ []
    rcases h_named s io peer rest rfl h_recv with h_none | h_named | h_unusable
    · simp [Option.isNone_iff_eq_none.mp h_none] at h_tls
    · exact h_named.claimedNodeId_ne_nil
    · exact absurd h_usable h_unusable

theorem knowsPeer_run {cfg : ClaConfig} {as : List EngineAct} {e : Engine}
    (h_meets : Lts.Meets (Engine.step cfg) (fun e a => e.namesNode a = true) Engine.init as)
    (h_run : Lts.run (Engine.step cfg) Engine.init as = some e) :
    ∀ c ∈ e.conns, ConnOk cfg c ∧ c.KnowsPeer := by
  let KnowAll (e : Engine) : Prop := ∀ c ∈ e.conns, ConnOk cfg c ∧ c.KnowsPeer
  refine Lts.run_invariant_of_meets (?_ : ∀ e act e', KnowAll e → _ → _ → KnowAll e')
    (by simp [KnowAll, Engine.init]) h_meets h_run
  intro e act e' h_inv h_names h_step
  apply Engine.forall_conns_step h_inv _ _ _ h_step
  · intro nodeId busy
    exact ⟨ConnOk.start cfg e.next nodeId busy,
      fun h_past => absurd h_past (start_not_pastSessInit e.next nodeId busy)⟩
  · rintro c n ⟨h_c, h_knows⟩
    exact ⟨⟨h_c.early, fun h_at => ⟨(h_c.routed h_at).claim, (h_c.routed h_at).route⟩⟩, h_knows⟩
  · rintro serial a c c' rfl h_find ⟨h_c, h_knows⟩ h_act
    have h_route := h_c.routeStep h_act
    refine ⟨h_c.of_routeStep h_route, h_knows.of_routeStep h_route ?_⟩
    rintro s io peer rest rfl h_recv
    simpa [Engine.namesNode, h_find, h_recv] using h_names

/-- Under REQUIRE `applySessInit` accepts only what it has authenticated exactly if the peer
    names a node; and if all peers do, then the certificate of the peer of every established
    TLS session carries the node ID under which bundles are routed to it. -/
theorem required_authenticated {cfg : ClaConfig} (h_verify : cfg.noVerify = false)
    (h_require : cfg.eidPolicy = .require) :
    (∀ c tls peer, c.tls = some tls →
      ((∀ c', applySessInit cfg c peer = .ok c' → c'.nodeIdAuthenticated = true) ↔
        peer.Named ∨ ¬peer.Usable)) ∧
    ∀ as e, Lts.Meets (Engine.step cfg) (fun e a => e.namesNode a = true) Engine.init as →
      Lts.run (Engine.step cfg) Engine.init as = some e →
      ∀ c ∈ e.conns, c.state = .established → ∀ tls, c.tls = some tls →
        c.nodeIdAuthenticated = true ∧ tls.tlsMatchNodeId c.routeNodeId = .success := by
  constructor
  · intro c tls peer h_tls
    exact applySessInit_authenticates_iff h_verify h_require h_tls peer
  · intro as e h_meets h_run c h_mem h_state tls h_tls
    obtain ⟨h_c, h_knows⟩ := knowsPeer_run h_meets h_run c h_mem
    have h_past : c.PastSessInit := .inl (by rw [h_state]; simp)
    have h_routed := h_c.routed h_past
    have h_auth : c.nodeIdAuthenticated = true :=
      authenticated_of_claim h_verify h_require h_tls
        (h_knows h_past (Option.isSome_iff_exists.mpr ⟨tls, h_tls⟩)) h_routed.claim
    obtain ⟨t, h_t, h_cert⟩ := tlsMatchNodeId_of_authenticateNodeId (h_auth ▸ h_routed.claim)
    obtain rfl : tls = t := Option.some.inj (h_tls.symm.trans h_t)
    refine ⟨h_auth, ?_⟩
    rw [h_routed.route, h_auth]
    exact h_cert

/-! ## A nameless peer -/

/-- An engine that requires TLS and a NODE-ID. -/
def requiringConfig : ClaConfig where
  noVerify := false
  tlsPolicy := .require
  eidPolicy := .require
  ekuPolicy := .prefer
  keepalive := 15
  segmentMru := 65536
  transferMru := 1048576
  nodeId := "ipn:1.0".toUTF8.data.toList

def dialledNodeId : Octets := "ipn:2.0".toUTF8.data.toList

/-- A certificate of the right kind, with the answers it gives about node IDs. -/
def certWith (answer : Octets → NodeIdMatch) : TlsConn where
  tlsMatchNodeId := answer
  tlsCheckKeyUsage := .ok
  tlsCheckKeyPurpose := .absent
  tlsPeerAuthenticated := true

def sessInitNaming (nodeId : Octets) : SessInit := ⟨15, 65536, 1048576, nodeId, []⟩

/-- A session is dialled, secured and established; the peer names `nodeId` in its SESS_INIT. -/
def dialRun (tls : TlsConn) (nodeId : Octets) : List EngineAct :=
  [.dial dialledNodeId, .conn 0 (.beginThread true),
    .conn 0 (.contact (tmsgMagic ++ [tmsgVersion, tmsgContactCanTls]) true),
    .conn 0 (.handshake (some tls)),
    .conn 0 (.sessInit ((tcpv4MsgEncodeSessInit 64 (sessInitNaming nodeId)).getD []) true),
    .conn 0 .establish]

/-- The session that is found for the dialled node after such a run. -/
def foundAfter (tls : TlsConn) (nodeId : Octets) : Option Tcpv4Conn :=
  (Lts.run (Engine.step requiringConfig) Engine.init (dialRun tls nodeId)).bind fun e =>
    (findConn e.conns dialledNodeId).1

/-- The session dialled, when its SESS_INIT is about to be read. -/
def securedConn (tls : TlsConn) : Tcpv4Conn :=
  { Tcpv4Conn.start 0 (some dialledNodeId) false with tls := some tls, pc := .sessInit }

/-- The certificate carries no NODE-ID and the peer names no node: the session is accepted, is
    not authenticated, and is the one that bundles to the dialled node go over. -/
theorem nameless_peer_accepted :
    (∃ c', applySessInit requiringConfig (securedConn (certWith fun _ => .absent))
      (sessInitNaming []) = .ok c' ∧ c'.nodeIdAuthenticated = false) ∧
    (foundAfter (certWith fun _ => .absent) []).map
      (fun c => (c.state, c.tls.isSome, c.nodeIdAuthenticated)) =
        some (.established, true, false) := by
  constructor
  · have h_usable : (sessInitNaming []).Usable := by decide +kernel
    exact ⟨_, applySessInit_eq_ok.mpr ⟨h_usable, false, authenticateNodeId_nil _ _, rfl⟩, rfl⟩
  · decide +kernel

/-- The certificate of a peer that is the dialled node, and no other. -/
def dialledCert : TlsConn :=
  certWith fun n => if n = dialledNodeId then .success else .failure

theorem required_authenticated_named :
    (foundAfter dialledCert dialledNodeId).map (fun c => c.state) = some .established ∧
    ∀ e, Lts.run (Engine.step requiringConfig) Engine.init (dialRun dialledCert dialledNodeId) =
        some e → ∀ c ∈ e.conns, c.state = .established → ∀ tls, c.tls = some tls →
      c.nodeIdAuthenticated = true ∧ tls.tlsMatchNodeId c.routeNodeId = .success := by
  refine ⟨by decide +kernel, ?_⟩
  intro e h_run
  exact (required_authenticated rfl rfl).2 _ e (by decide +kernel) h_run

/-- The run that dials a node and finds the session for it. -/
theorem run_findConn_dialled :
    ∃ e c, Lts.run (Engine.step requiringConfig) Engine.init
        (dialRun dialledCert dialledNodeId) = some e ∧
      (findConn e.conns dialledNodeId).1 = some c ∧ Carries requiringConfig dialledNodeId c := by
  have h_some : ((Lts.run (Engine.step requiringConfig) Engine.init
      (dialRun dialledCert dialledNodeId)).bind fun e =>
        (findConn e.conns dialledNodeId).1).isSome = true := by decide +kernel
  obtain ⟨c, h_c⟩ := Option.isSome_iff_exists.mp h_some
  obtain ⟨e, h_run, h_find⟩ := Option.bind_eq_some_iff.mp h_c
  have h_safe := run_findConn h_run dialledNodeId
  rw [h_find] at h_safe
  exact ⟨e, c, h_run, h_find, h_safe.1.2⟩

end IonContrib.Tcpv4
