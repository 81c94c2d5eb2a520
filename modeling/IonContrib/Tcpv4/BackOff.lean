/-
  IonContrib.Tcpv4.BackOff

  The record of a node's attempts over any run: one entry for each node, and an
  interval and a wait that move only as RFC 9174 4.1 has them move.

  Everything is read off `DialsMoved`, which says what a step can do to the list
  of entries: count down, look up (and so perhaps add) an entry, and write the
  one that was looked up.  No entry is ever taken off the list, so a pointer that
  a sender keeps over a connect still points at the entry it was given.
-/
import IonContrib.Tcpv4.Dial
import IonContrib.Tcpv4.Route
import Mathlib.Data.List.Nodup
import IonContrib.Tcpv4.Spelling

namespace IonContrib.Tcpv4

open Lts

/-! ## The list of entries -/

theorem findDial_eq_some {dials dials' : List Tcpv4Dial} {nodeId : Octets} {mem : Bool}
    {dial : Tcpv4Dial} (h : findDial dials nodeId mem = some (dial, dials')) :
    (dial ∈ dials ∧ tcpv4NodeIdMatches dial.nodeId nodeId = true ∧ dials' = dials) ∨
      ((∀ d ∈ dials, tcpv4NodeIdMatches d.nodeId nodeId = false) ∧
        dial = .start dials.length nodeId ∧ dials' = dial :: dials) := by
  unfold findDial at h
  split at h
  · rename_i dial' h_find
    obtain ⟨rfl, rfl⟩ := Prod.mk.inj (Option.some.inj h)
    exact .inl ⟨List.mem_of_find?_eq_some h_find, by simpa using List.find?_some h_find, rfl⟩
  · rename_i h_find
    split at h
    · cases h
    · obtain ⟨rfl, rfl⟩ := Prod.mk.inj (Option.some.inj h)
      exact .inr ⟨fun d h_d => by simpa using List.find?_eq_none.mp h_find d h_d, rfl, rfl⟩

theorem mem_of_findDial {dials dials' : List Tcpv4Dial} {nodeId : Octets} {mem : Bool}
    {dial : Tcpv4Dial} (h : findDial dials nodeId mem = some (dial, dials')) : dial ∈ dials' := by
  obtain ⟨h_mem, -, rfl⟩ | ⟨-, -, rfl⟩ := findDial_eq_some h
  · exact h_mem
  · exact List.mem_cons_self

/-- An entry that is there before a look-up is there after it. -/
theorem subset_of_findDial {dials dials' : List Tcpv4Dial} {nodeId : Octets} {mem : Bool}
    {dial : Tcpv4Dial} (h : findDial dials nodeId mem = some (dial, dials')) : dials ⊆ dials' := by
  obtain ⟨-, -, rfl⟩ | ⟨-, -, rfl⟩ := findDial_eq_some h
  · exact fun d h_d => h_d
  · exact List.subset_cons_self dial dials

/-- A write that leaves it an entry of the same node, at the same address. -/
def Keeps (f : Tcpv4Dial → Tcpv4Dial) : Prop :=
  ∀ d, (f d).addr = d.addr ∧ (f d).nodeId = d.nodeId

theorem keeps_backOff (rand : Nat) : Keeps (backOff rand) := fun _ => ⟨rfl, rfl⟩

theorem keeps_reset : Keeps Tcpv4Dial.reset := fun _ => ⟨rfl, rfl⟩

theorem keeps_tick : Keeps Tcpv4Dial.tick := by
  intro d
  unfold Tcpv4Dial.tick
  split
  · exact ⟨rfl, rfl⟩
  · exact ⟨rfl, rfl⟩

theorem Keeps.ite {f : Tcpv4Dial → Tcpv4Dial} (h : Keeps f) (p : Tcpv4Dial → Prop)
    [DecidablePred p] : Keeps fun d => if p d then f d else d := by
  intro d
  dsimp only
  split
  · exact h d
  · exact ⟨rfl, rfl⟩

/-- Addresses and intervals of the entries. -/
structure DialsOk (dials : List Tcpv4Dial) : Prop where
  addr : dials.Pairwise fun d d' => d'.addr < d.addr
  fresh : ∀ d ∈ dials, d.addr < dials.length
  interval : ∀ d ∈ dials, 1 ≤ d.interval ∧ d.interval ≤ tcpv4MaxReconnect

theorem DialsOk.nil : DialsOk [] := ⟨.nil, by simp, by simp⟩

theorem DialsOk.map {dials : List Tcpv4Dial} (h : DialsOk dials) {f : Tcpv4Dial → Tcpv4Dial}
    (h_keeps : Keeps f) (h_interval : ∀ d, 1 ≤ d.interval ∧ d.interval ≤ tcpv4MaxReconnect →
      1 ≤ (f d).interval ∧ (f d).interval ≤ tcpv4MaxReconnect) : DialsOk (dials.map f) where
  addr := by
    refine List.Pairwise.map _ (fun d d' h_lt => ?_) h.addr
    rw [(h_keeps d).1, (h_keeps d').1]
    exact h_lt
  fresh := by
    intro d h_d
    obtain ⟨d₀, h_d₀, rfl⟩ := List.mem_map.mp h_d
    rw [(h_keeps d₀).1, List.length_map]
    exact h.fresh d₀ h_d₀
  interval := by
    intro d h_d
    obtain ⟨d₀, h_d₀, rfl⟩ := List.mem_map.mp h_d
    exact h_interval d₀ (h.interval d₀ h_d₀)

theorem DialsOk.findDial {dials dials' : List Tcpv4Dial} (h : DialsOk dials) {nodeId : Octets}
    {mem : Bool} {dial : Tcpv4Dial} (h_find : findDial dials nodeId mem = some (dial, dials')) :
    DialsOk dials' := by
  obtain ⟨-, -, rfl⟩ | ⟨-, rfl, rfl⟩ := findDial_eq_some h_find
  · exact h
  · refine ⟨List.Pairwise.cons h.fresh h.addr, ?_, ?_⟩
    · intro d h_d
      rw [List.length_cons]
      rcases List.mem_cons.mp h_d with rfl | h_d
      · exact Nat.lt_succ_self _
      · have h_old := h.fresh d h_d
        omega
    · intro d h_d
      rcases List.mem_cons.mp h_d with rfl | h_d
      · show (1 : Nat) ≤ 1 ∧ (1 : Nat) ≤ 60
        omega
      · exact h.interval d h_d

/-- An entry is known by its address. -/
theorem DialsOk.unique {dials : List Tcpv4Dial} (h : DialsOk dials) {d d' : Tcpv4Dial}
    (h_d : d ∈ dials) (h_d' : d' ∈ dials) (h_addr : d.addr = d'.addr) : d = d' := by
  have h_nodup : (dials.map (·.addr)).Nodup := by
    refine List.pairwise_map.mpr (h.addr.imp fun h_lt => ?_)
    omega
  exact List.inj_on_of_nodup_map h_nodup h_d h_d' h_addr

/-- What a step can do to the entries. -/
inductive DialsMoved (e : Tcpv4Engine) : DialAct → List Tcpv4Dial → Prop
  | kept {a : DialAct} : DialsMoved e a e.dials
  | tick : DialsMoved e .tick (e.dials.map Tcpv4Dial.tick)
  | found {thread : Nat} {nodeId : Octets} {mem : Bool} {dial : Tcpv4Dial}
      {dials : List Tcpv4Dial} (h_find : findDial e.dials nodeId mem = some (dial, dials)) :
      DialsMoved e (.openSession thread nodeId mem) dials
  | unreachable {thread rand : Nat} {o : Opening} (h_o : o ∈ e.opening)
      (h_thread : o.thread = thread) : DialsMoved e (.connect thread (.unreachable rand))
        (updateDial e.dials o.dial (backOff rand))
  | outcome {serial rand : Nat} {mem : Bool} {c : Tcpv4Conn} {dial : Tcpv4Dial}
      {dials : List Tcpv4Dial} (h_c : c ∈ e.conns) (h_serial : c.serial = serial)
      (h_dialled : c.dialled = true) (h_pc : c.pc = .running ∨ c.pc = .failing)
      (h_find : findDial e.dials c.dialNodeId mem = some (dial, dials)) :
      DialsMoved e (.outcome serial mem rand) (updateDial dials dial.addr
        (if c.pc = .running then Tcpv4Dial.reset else backOff rand))

theorem Tcpv4Engine.Stepped.dials {cfg : ClaConfig} {e e' : Tcpv4Engine} {a : DialAct}
    (h : e.Stepped cfg a e') : DialsMoved e a e'.dials := by
  cases h with
  | tooSoon h_find => exact .found h_find
  | opens h_thread h_none h_find h_wait h_room => exact .found h_find
  | unreachable h_o h_thread => exact .unreachable h_o h_thread
  | @outcome serial rand mem c h_find h_report h_pc =>
    show DialsMoved e _ (tcpv4DialOutcome e.dials c (c.pc = .running) mem rand)
    unfold tcpv4DialOutcome
    cases h_dialled : c.dialled with
    | false => exact .kept
    | true =>
      rw [if_neg (by simp)]
      cases h_dial : findDial e.dials c.dialNodeId mem with
      | none => exact .kept
      | some p =>
        obtain ⟨dial, dials⟩ := p
        have h_serial : c.serial = serial := by simpa using List.find?_some h_find
        have h_moved : DialsMoved e (.outcome serial mem rand) _ :=
          .outcome (List.mem_of_find?_eq_some h_find) h_serial h_dialled h_pc h_dial
        simpa using h_moved
  | tick => exact .tick
  | notOpened | notConnected | started | refused | admits | dropped | admitted | conn | find | reap =>
    exact .kept

theorem interval_backOff (rand : Nat) {d : Tcpv4Dial}
    (h : 1 ≤ d.interval ∧ d.interval ≤ tcpv4MaxReconnect) :
    1 ≤ (backOff rand d).interval ∧ (backOff rand d).interval ≤ tcpv4MaxReconnect := by
  unfold backOff
  dsimp only
  split
  · exact ⟨by decide, Nat.le_refl _⟩
  · omega

theorem DialsOk.updateDial {dials : List Tcpv4Dial} (h : DialsOk dials) (addr : Nat)
    {f : Tcpv4Dial → Tcpv4Dial} (h_keeps : Keeps f)
    (h_interval : ∀ d, 1 ≤ d.interval ∧ d.interval ≤ tcpv4MaxReconnect →
      1 ≤ (f d).interval ∧ (f d).interval ≤ tcpv4MaxReconnect) :
    DialsOk (updateDial dials addr f) := by
  refine h.map (h_keeps.ite fun d => d.addr = addr) fun d h_d => ?_
  split
  · exact h_interval d h_d
  · exact h_d

theorem DialsOk.moved {e : Tcpv4Engine} {a : DialAct} {dials : List Tcpv4Dial}
    (h : DialsOk e.dials) (h_moved : DialsMoved e a dials) : DialsOk dials := by
  cases h_moved with
  | kept => exact h
  | tick =>
    refine h.map keeps_tick fun d h_d => ?_
    unfold Tcpv4Dial.tick
    split
    · exact h_d
    · exact h_d
  | found h_find => exact h.findDial h_find
  | unreachable h_o h_thread =>
    exact h.updateDial _ (keeps_backOff _) fun d => interval_backOff _
  | @outcome serial rand mem c dial dials h_c h_serial h_dialled h_pc h_find =>
    have h_found := h.findDial h_find
    by_cases h_running : c.pc = .running
    · rw [if_pos h_running]
      refine h_found.updateDial _ keeps_reset fun d _ => ?_
      show (1 : Nat) ≤ 1 ∧ (1 : Nat) ≤ 60
      omega
    · rw [if_neg h_running]
      exact h_found.updateDial _ (keeps_backOff rand) fun d => interval_backOff rand

/-- Entries stay on the list, where they are. -/
theorem DialsMoved.keeps {e : Tcpv4Engine} {a : DialAct} {dials : List Tcpv4Dial}
    (h_moved : DialsMoved e a dials) {d : Tcpv4Dial} (h_d : d ∈ e.dials) :
    ∃ d' ∈ dials, d'.addr = d.addr ∧ d'.nodeId = d.nodeId := by
  have h_write : ∀ {dials : List Tcpv4Dial} {f : Tcpv4Dial → Tcpv4Dial}, d ∈ dials → Keeps f →
      ∃ d' ∈ dials.map f, d'.addr = d.addr ∧ d'.nodeId = d.nodeId :=
    fun h_d h_keeps => ⟨_, List.mem_map_of_mem h_d, h_keeps d⟩
  cases h_moved with
  | kept => exact ⟨d, h_d, rfl, rfl⟩
  | tick => exact h_write h_d keeps_tick
  | found h_find => exact ⟨d, subset_of_findDial h_find h_d, rfl, rfl⟩
  | @unreachable thread rand o h_o h_thread =>
    exact h_write h_d ((keeps_backOff rand).ite fun d => d.addr = o.dial)
  | @outcome serial rand mem c dial dials h_c h_serial h_dialled h_pc h_find =>
    refine h_write (subset_of_findDial h_find h_d) (Keeps.ite ?_ fun d => d.addr = dial.addr)
    by_cases h_running : c.pc = .running
    · rw [if_pos h_running]
      exact keeps_reset
    · rw [if_neg h_running]
      exact keeps_backOff rand

/-! ## Sessions and attempts -/

/-- The entry is the one of that node. -/
def Tcpv4Dial.IsFor (d : Tcpv4Dial) (nodeId : Octets) : Prop :=
  tcpv4NodeIdMatches d.nodeId nodeId = true ∨ d.nodeId = nodeIdField nodeId

theorem isFor_of_findDial {dials dials' : List Tcpv4Dial} {nodeId : Octets} {mem : Bool}
    {dial : Tcpv4Dial} (h : findDial dials nodeId mem = some (dial, dials')) :
    dial.IsFor nodeId := by
  obtain ⟨-, h_match, -⟩ | ⟨-, rfl, -⟩ := findDial_eq_some h
  · exact .inl h_match
  · exact .inr rfl

/-- A session of `Engine` takes a step, begins or ends, or none does. -/
theorem Tcpv4Engine.Stepped.engine {cfg : ClaConfig} {e e' : Tcpv4Engine} {a : DialAct}
    (h : e.Stepped cfg a e') : e'.toEngine = e.toEngine ∨ ∃ act,
      e.toEngine.step cfg act = some e'.toEngine ∧
        ∀ serial b, act = .conn serial b → a = .conn serial b := by
  cases h with
  | @started thread o h_o h_thread =>
    exact .inr ⟨.dial o.nodeId, rfl, fun serial b h => by cases h⟩
  | @admitted a h_some => exact .inr ⟨.accept a.busy, rfl, fun serial b h => by cases h⟩
  | @conn serial a e₁ h_report h_step =>
    refine .inr ⟨.conn serial a, h_step, fun serial' b h => ?_⟩
    obtain ⟨rfl, rfl⟩ := EngineAct.conn.inj h
    rfl
  | find h_step => exact .inr ⟨_, h_step, fun serial b h => by cases h⟩
  | reap h_step => exact .inr ⟨_, h_step, fun serial b h => by cases h⟩
  | notOpened | tooSoon | opens | notConnected | unreachable | refused | admits | dropped
  | outcome | tick => exact .inl rfl

theorem Tcpv4Engine.stepped_engineOk {cfg : ClaConfig} {e e' : Tcpv4Engine} {a : DialAct}
    (h_ok : EngineOk cfg e.toEngine) (h : e.Stepped cfg a e') : EngineOk cfg e'.toEngine := by
  obtain h_eq | ⟨act, h_step, -⟩ := h.engine
  · rw [h_eq]
    exact h_ok
  · exact h_ok.step h_step

/-- A session is known by its serial number. -/
theorem EngineOk.serial_unique {cfg : ClaConfig} {e : Engine} (h : EngineOk cfg e)
    {c d : Tcpv4Conn} (h_c : c ∈ e.conns) (h_d : d ∈ e.conns) (h_serial : c.serial = d.serial) :
    c = d := by
  have h_nodup : (e.conns.map (·.serial)).Nodup := by
    refine List.pairwise_map.mpr (h.newestFirst.imp fun h_lt => ?_)
    omega
  exact List.inj_on_of_nodup_map h_nodup h_c h_d h_serial

/-- A step on the way through `tcpv4Establish`, or out of it: the session is the same to others. -/
structure Tcpv4Conn.Negotiates (c c' : Tcpv4Conn) : Prop where
  serial : c'.serial = c.serial
  dialled : c'.dialled = c.dialled
  dialNodeId : c'.dialNodeId = c.dialNodeId
  failed : c'.failed = c.failed
  done : c'.receiverDone = c.receiverDone
  state : c'.state = c.state
  pc : c'.pc.inEstablish = true ∨ c'.pc = .failing

namespace Tcpv4Conn

theorem negotiates_failing (c : Tcpv4Conn) : c.Negotiates c.failing :=
  ⟨rfl, rfl, rfl, rfl, rfl, rfl, .inr rfl⟩

theorem negotiates_exchangeContact {cfg : ClaConfig} {c c' : Tcpv4Conn} {s : Octets} {io : Bool}
    (h_step : c.exchangeContact cfg s io = some c') : c.Negotiates c' := by
  unfold exchangeContact at h_step
  split at h_step
  · obtain rfl := Option.some.inj h_step
    exact negotiates_failing c
  · split at h_step
    · cases h_step
    · obtain rfl := Option.some.inj h_step
      exact negotiates_failing c
    · split at h_step
      · obtain rfl := Option.some.inj h_step
        exact negotiates_failing c
      · obtain rfl := Option.some.inj h_step
        refine ⟨rfl, rfl, rfl, rfl, rfl, rfl, .inl ?_⟩
        dsimp only
        split
        · rfl
        · rfl

theorem negotiates_handshake (cfg : ClaConfig) (c : Tcpv4Conn) (tls : Option TlsConn) :
    c.Negotiates (c.handshake cfg tls) := by
  unfold handshake
  split
  · exact negotiates_failing c
  · dsimp only
    split
    · exact ⟨rfl, rfl, rfl, rfl, rfl, rfl, .inl rfl⟩
    · split
      · exact ⟨rfl, rfl, rfl, rfl, rfl, rfl, .inr rfl⟩
      · exact ⟨rfl, rfl, rfl, rfl, rfl, rfl, .inl rfl⟩

theorem negotiates_exchangeSessInit {cfg : ClaConfig} {c c' : Tcpv4Conn} {s : Octets} {io : Bool}
    (h_step : c.exchangeSessInit cfg s io = some c') : c.Negotiates c' := by
  unfold exchangeSessInit at h_step
  split at h_step
  · obtain rfl := Option.some.inj h_step
    exact negotiates_failing c
  · split at h_step
    · cases h_step
    · obtain rfl := Option.some.inj h_step
      exact negotiates_failing c
    · split at h_step
      · obtain rfl := Option.some.inj h_step
        exact negotiates_failing c
      · rename_i h_apply
        obtain rfl := Option.some.inj h_step
        obtain ⟨-, _, -, rfl⟩ := applySessInit_eq_ok.mp h_apply
        exact ⟨rfl, rfl, rfl, rfl, rfl, rfl, .inl rfl⟩

theorem Negotiates.not_running {c c' : Tcpv4Conn} (h : c.Negotiates c') : c'.pc ≠ .running := by
  intro h_pc
  rcases h.pc with h_in | h_failing
  · rw [h_pc] at h_in
    cases h_in
  · rw [h_pc] at h_failing
    cases h_failing

/-- A session runs once it has been established, and only then. -/
theorem step_running {cfg : ClaConfig} {c c' : Tcpv4Conn} {a : ConnAct}
    (h_step : c.step cfg a = some c') (h_pc : c'.pc = .running) :
    c.pc = .running ∨ a = .establish := by
  unfold step at h_step
  split at h_step
  · obtain rfl := Option.some.inj h_step
    split at h_pc
    · cases h_pc
    · cases h_pc
  · exact absurd h_pc (negotiates_exchangeContact h_step).not_running
  · obtain rfl := Option.some.inj h_step
    exact absurd h_pc (negotiates_handshake cfg c _).not_running
  · exact absurd h_pc (negotiates_exchangeSessInit h_step).not_running
  · exact .inr rfl
  · obtain rfl := Option.some.inj h_step
    cases h_pc
  · obtain rfl := Option.some.inj h_step
    cases h_pc
  · obtain rfl := Option.some.inj h_step
    cases h_pc
  · split at h_step
    · cases h_step
    · obtain rfl := Option.some.inj h_step
      exact .inl h_pc
  · obtain rfl := Option.some.inj h_step
    exact .inl h_pc
  · split at h_step
    · cases h_step
    · obtain rfl := Option.some.inj h_step
      exact .inl h_pc
  · cases h_step

end Tcpv4Conn

/-- Where a session of the next state comes from: it was there, dialled for the same node, or it
    is the one just inserted. -/
theorem Engine.conn_origin {cfg : ClaConfig} {e e' : Engine} {act : EngineAct}
    (h_ok : EngineOk cfg e) (h_step : e.step cfg act = some e') {c' : Tcpv4Conn}
    (h_c' : c' ∈ e'.conns) :
    (∃ c ∈ e.conns, c'.serial = c.serial ∧ c'.dialled = c.dialled ∧
      c'.dialNodeId = c.dialNodeId) ∨
    (∃ nodeId, act = .dial nodeId ∧ c' = .start e.next (some nodeId) false) ∨
    ∃ busy, act = .accept busy ∧ c' = .start e.next none busy := by
  have h_old : c' ∈ e.conns → ∃ c ∈ e.conns, c'.serial = c.serial ∧ c'.dialled = c.dialled ∧
      c'.dialNodeId = c.dialNodeId := fun h => ⟨c', h, rfl, rfl, rfl⟩
  have h_on {serial : Nat} {f : Tcpv4Conn → Option Tcpv4Conn}
      (h_f : ∀ c d, c ∈ e.conns → f c = some d → d.serial = c.serial ∧ d.dialled = c.dialled ∧
        d.dialNodeId = c.dialNodeId)
      (h_on : e.onConn serial f = some e') : ∃ c ∈ e.conns, c'.serial = c.serial ∧
        c'.dialled = c.dialled ∧ c'.dialNodeId = c.dialNodeId := by
    obtain ⟨c, d, h_find, h_fc, rfl⟩ := Engine.eq_of_onConn h_on
    obtain ⟨d₀, h_d₀, rfl⟩ := List.mem_map.mp h_c'
    have h_c := List.mem_of_find?_eq_some h_find
    split
    · exact ⟨c, h_c, h_f c d h_c h_fc⟩
    · exact ⟨d₀, h_d₀, rfl, rfl, rfl⟩
  cases act with
  | dial nodeId =>
    obtain rfl := Option.some.inj h_step
    rcases List.mem_cons.mp h_c' with rfl | h_c'
    · exact .inr (.inl ⟨nodeId, rfl, rfl⟩)
    · exact .inl (h_old h_c')
  | accept busy =>
    obtain rfl := Option.some.inj h_step
    rcases List.mem_cons.mp h_c' with rfl | h_c'
    · exact .inr (.inr ⟨busy, rfl, rfl⟩)
    · exact .inl (h_old h_c')
  | conn serial a =>
    refine .inl (h_on (fun c d h_c h_a => ?_) h_step)
    have h_route := (h_ok.conns c h_c).routeStep h_a
    refine ⟨h_route.serial, ?_, ?_⟩
    · cases h_route <;> rfl
    · cases h_route <;> rfl
  | find nodeId =>
    simp only [Engine.step] at h_step
    split at h_step
    · obtain rfl := Option.some.inj h_step
      exact .inl (h_old h_c')
    · refine .inl (h_on (fun c d h_c h_a => ?_) h_step)
      obtain rfl := Option.some.inj h_a
      exact ⟨rfl, rfl, rfl⟩
  | reap =>
    obtain rfl := Option.some.inj h_step
    exact .inl (h_old (List.mem_filter.mp h_c').1)

/-- What holds of an engine after the steps `as`. -/
structure DialOk (cfg : ClaConfig) (as : List DialAct) (e : Tcpv4Engine) : Prop where
  engine : EngineOk cfg e.toEngine
  dials : DialsOk e.dials
  /-- A thread is in one call at a time. -/
  threads : e.opening.Pairwise fun o o' => o.thread ≠ o'.thread
  pointer : ∀ o ∈ e.opening, ∃ d ∈ e.dials, d.addr = o.dial ∧ d.IsFor o.nodeId
  established : ∀ c ∈ e.conns, c.pc = .running → .conn c.serial .establish ∈ as
  field : ∀ c ∈ e.conns, c.dialNodeId.length < tcpv4MaxNodeIdLen

theorem DialOk.init (cfg : ClaConfig) (maxSessions : Nat) :
    DialOk cfg [] (.init maxSessions) where
  engine := EngineOk.init cfg
  dials := DialsOk.nil
  threads := .nil
  pointer o h_o := by cases h_o
  established c h_c := by cases h_c
  field c h_c := by cases h_c

theorem length_nodeIdField (nodeId : Octets) : (nodeIdField nodeId).length < tcpv4MaxNodeIdLen := by
  rw [nodeIdField, List.length_take, tcpv4MaxNodeIdLen]
  omega

/-- No step of a session changes the node it was dialled for. -/
theorem RouteStep.dialNodeId {cfg : ClaConfig} {c c' : Tcpv4Conn} {a : ConnAct}
    (h : RouteStep cfg c a c') : c'.dialNodeId = c.dialNodeId := by
  cases h <;> rfl

theorem DialOk.step {cfg : ClaConfig} {as : List DialAct} {e e' : Tcpv4Engine} {a : DialAct}
    (h : DialOk cfg as e) (h_step : e.Stepped cfg a e') : DialOk cfg (as ++ [a]) e' := by
  have h_later : ∀ {b : DialAct}, b ∈ as → b ∈ as ++ [a] := List.mem_append_left [a]
  have h_conns : ∀ c ∈ e'.conns, (c.pc = .running → .conn c.serial .establish ∈ as ++ [a]) ∧
      c.dialNodeId.length < tcpv4MaxNodeIdLen := by
    obtain h_eq | ⟨act, h_act, h_kind⟩ := h_step.engine
    · rw [h_eq]
      exact fun c h_c => ⟨fun h_pc => h_later (h.established c h_c h_pc), h.field c h_c⟩
    · have h_old : ∀ c ∈ e.conns, ConnOk cfg c ∧
          (c.pc = .running → .conn c.serial .establish ∈ as ++ [a]) ∧
          c.dialNodeId.length < tcpv4MaxNodeIdLen := fun c h_c =>
        ⟨h.engine.conns c h_c, fun h_pc => h_later (h.established c h_c h_pc), h.field c h_c⟩
      refine fun c h_c => (Engine.forall_conns_step h_old ?_ ?_ ?_ h_act c h_c).2
      · intro nodeId busy
        refine ⟨ConnOk.start cfg _ nodeId busy, fun h_pc => ?_, length_nodeIdField _⟩
        cases h_pc
      · rintro c n ⟨h_c, h_running, h_field⟩
        exact ⟨⟨h_c.early, fun h_at => ⟨(h_c.routed h_at).claim, (h_c.routed h_at).route⟩⟩,
          h_running, h_field⟩
      · rintro serial b c c' rfl h_find ⟨h_c, h_running, h_field⟩ h_b
        have h_route := h_c.routeStep h_b
        obtain rfl : c.serial = serial := by simpa using List.find?_some h_find
        refine ⟨h_c.of_routeStep h_route, fun h_pc => ?_, by rw [h_route.dialNodeId]; exact h_field⟩
        rw [h_route.serial]
        rcases Tcpv4Conn.step_running h_b h_pc with h_pc | rfl
        · exact h_running h_pc
        · rw [h_kind _ _ rfl]
          simp
  have h_dials := h_step.dials
  have h_stays : ∀ o ∈ e.opening, ∃ d ∈ e'.dials, d.addr = o.dial ∧ d.IsFor o.nodeId := by
    intro o h_o
    obtain ⟨d, h_d, h_addr, h_for⟩ := h.pointer o h_o
    obtain ⟨d', h_d', h_addr', h_nodeId⟩ := h_dials.keeps h_d
    refine ⟨d', h_d', h_addr'.trans h_addr, ?_⟩
    unfold Tcpv4Dial.IsFor
    rw [h_nodeId]
    exact h_for
  have h_opening : List.Sublist e'.opening e.opening ∨ ∃ o, e'.opening = o :: e.opening ∧
      (∀ o' ∈ e.opening, o.thread ≠ o'.thread) ∧
      ∃ d ∈ e'.dials, d.addr = o.dial ∧ d.IsFor o.nodeId := by
    cases h_step with
    | opens h_thread h_none h_find h_wait h_room =>
      exact .inr ⟨_, rfl, fun o' h_o' => (h_thread o' h_o').symm, _, mem_of_findDial h_find, rfl,
        isFor_of_findDial h_find⟩
    | notConnected | unreachable | started => exact .inl List.filter_sublist
    | notOpened | tooSoon | refused | admits | dropped | admitted | conn | outcome | find | tick
    | reap => exact .inl (List.Sublist.refl _)
  refine ⟨Tcpv4Engine.stepped_engineOk h.engine h_step, h.dials.moved h_dials, ?_, ?_,
    fun c h_c => (h_conns c h_c).1, fun c h_c => (h_conns c h_c).2⟩
  · rcases h_opening with h_sub | ⟨o, h_eq, h_thread, -⟩
    · exact h.threads.sublist h_sub
    · rw [h_eq]
      exact List.Pairwise.cons h_thread h.threads
  · rcases h_opening with h_sub | ⟨o, h_eq, -, h_o⟩
    · exact fun o h_o => h_stays o (h_sub.subset h_o)
    · rw [h_eq]
      exact List.forall_mem_cons.mpr ⟨h_o, h_stays⟩

theorem DialOk.run {cfg : ClaConfig} {maxSessions : Nat} {e : Tcpv4Engine} {as : List DialAct}
    (h_run : Lts.run (Tcpv4Engine.step cfg) (.init maxSessions) as = some e) :
    DialOk cfg as e :=
  run_invariant_history (fun _ _ _ _ h h_step => DialOk.step h (Tcpv4Engine.stepped h_step))
    (DialOk.init cfg maxSessions) h_run

/-! ## One entry for each node -/

/-- A node ID that an entry can hold. -/
def DialAct.Fits : DialAct → Prop
  | .openSession _ nodeId _ => nodeId.length < tcpv4MaxNodeIdLen
  | _ => True

/-- No two entries are those of one node. -/
def Apart (dials : List Tcpv4Dial) : Prop :=
  dials.Pairwise fun d d' => tcpv4NodeIdMatches d.nodeId d'.nodeId = false

theorem Apart.map {dials : List Tcpv4Dial} (h : Apart dials) {f : Tcpv4Dial → Tcpv4Dial}
    (h_keeps : Keeps f) : Apart (dials.map f) := by
  refine List.Pairwise.map _ (fun d d' h_apart => ?_) h
  rw [(h_keeps d).2, (h_keeps d').2]
  exact h_apart

/-- An entry is added for a node only where no entry is one of it. -/
theorem Apart.findDial {dials dials' : List Tcpv4Dial} (h : Apart dials) {nodeId : Octets}
    (h_fits : nodeId.length < tcpv4MaxNodeIdLen) {mem : Bool} {dial : Tcpv4Dial}
    (h_find : findDial dials nodeId mem = some (dial, dials')) : Apart dials' := by
  obtain ⟨-, -, rfl⟩ | ⟨h_none, rfl, rfl⟩ := findDial_eq_some h_find
  · exact h
  · refine List.Pairwise.cons (fun d h_d => ?_) h
    show tcpv4NodeIdMatches (nodeIdField nodeId) d.nodeId = false
    rw [nodeIdField_of_fits h_fits]
    by_contra h_match
    have h_back := matches_symm (Bool.not_eq_false _ ▸ h_match)
    rw [h_none d h_d] at h_back
    cases h_back

theorem Apart.moved {e : Tcpv4Engine} {a : DialAct} {dials : List Tcpv4Dial}
    (h : Apart e.dials) (h_fits : a.Fits)
    (h_field : ∀ c ∈ e.conns, c.dialNodeId.length < tcpv4MaxNodeIdLen)
    (h_moved : DialsMoved e a dials) : Apart dials := by
  cases h_moved with
  | kept => exact h
  | tick => exact h.map keeps_tick
  | found h_find => exact h.findDial h_fits h_find
  | @unreachable thread rand o h_o h_thread =>
    exact h.map ((keeps_backOff rand).ite fun d => d.addr = o.dial)
  | @outcome serial rand mem c dial dials h_c h_serial h_dialled h_pc h_find =>
    refine (h.findDial (h_field c h_c) h_find).map (Keeps.ite ?_ fun d => d.addr = dial.addr)
    by_cases h_running : c.pc = .running
    · rw [if_pos h_running]
      exact keeps_reset
    · rw [if_neg h_running]
      exact keeps_backOff rand

theorem apart_run {cfg : ClaConfig} {maxSessions : Nat} {e : Tcpv4Engine} {as : List DialAct}
    (h_run : Lts.run (Tcpv4Engine.step cfg) (.init maxSessions) as = some e)
    (h_fits : ∀ a ∈ as, a.Fits) : Apart e.dials := by
  let Inv (as : List DialAct) (e : Tcpv4Engine) : Prop :=
    DialOk cfg as e ∧ ((∀ a ∈ as, a.Fits) → Apart e.dials)
  have h_inv : Inv as e := by
    refine run_invariant_history (?_ : ∀ as e a e', Inv as e → _ → Inv (as ++ [a]) e')
      ⟨DialOk.init cfg maxSessions, fun _ => .nil⟩ h_run
    rintro as e a e' ⟨h_ok, h_apart⟩ h_step
    have h_stepped := Tcpv4Engine.stepped h_step
    refine ⟨h_ok.step h_stepped, fun h_fits => ?_⟩
    have h_before : Apart e.dials := h_apart fun b h_b => h_fits b (List.mem_append_left _ h_b)
    exact h_before.moved (h_fits a (by simp)) h_ok.field h_stepped.dials
  exact h_inv.2 h_fits

/-- What is dialled, or about to be, has its entry. -/
structure Recorded (e : Tcpv4Engine) : Prop where
  fits : ∀ o ∈ e.opening, o.nodeId.length < tcpv4MaxNodeIdLen
  conns : ∀ c ∈ e.conns, c.dialled = true →
    ∃ d ∈ e.dials, tcpv4NodeIdMatches d.nodeId c.dialNodeId = true

theorem Recorded.step {cfg : ClaConfig} {as : List DialAct} {e e' : Tcpv4Engine} {a : DialAct}
    (h : Recorded e) (h_ok : DialOk cfg as e) (h_fits : a.Fits) (h_step : e.Stepped cfg a e') :
    Recorded e' := by
  have h_dials := h_step.dials
  have h_old : ∀ {nodeId}, (∃ d ∈ e.dials, tcpv4NodeIdMatches d.nodeId nodeId = true) →
      ∃ d ∈ e'.dials, tcpv4NodeIdMatches d.nodeId nodeId = true := by
    rintro nodeId ⟨d, h_d, h_match⟩
    obtain ⟨d', h_d', -, h_nodeId⟩ := h_dials.keeps h_d
    exact ⟨d', h_d', by rw [h_nodeId]; exact h_match⟩
  -- A session in the list beforehand, or one that a step of `Engine` makes of it.
  have h_from : ∀ {act}, e.toEngine.step cfg act = some e'.toEngine →
      (∀ nodeId, act ≠ .dial nodeId) → ∀ c ∈ e'.conns, c.dialled = true →
      ∃ d ∈ e'.dials, tcpv4NodeIdMatches d.nodeId c.dialNodeId = true := by
    intro act h_act h_kind c h_c h_dialled
    obtain ⟨c₀, h_c₀, -, h_same, h_nodeId⟩ | ⟨nodeId, h_dial, -⟩ | ⟨busy, -, rfl⟩ :=
      Engine.conn_origin h_ok.engine h_act h_c
    · rw [h_nodeId]
      exact h_old (h.conns c₀ h_c₀ (h_same.symm.trans h_dialled))
    · exact absurd h_dial (h_kind nodeId)
    · cases h_dialled
  cases h_step with
  | opens h_thread h_none h_find h_wait h_room =>
    refine ⟨List.forall_mem_cons.mpr ⟨h_fits, h.fits⟩, ?_⟩
    exact fun c h_c h_dialled => h_old (h.conns c h_c h_dialled)
  | notConnected | unreachable =>
    refine ⟨fun o h_o => h.fits o (List.mem_filter.mp h_o).1, ?_⟩
    exact fun c h_c h_dialled => h_old (h.conns c h_c h_dialled)
  | @started thread o h_o h_thread =>
    refine ⟨fun o h_o => h.fits o (List.mem_filter.mp h_o).1, fun c h_c h_dialled => ?_⟩
    rcases List.mem_cons.mp h_c with rfl | h_c
    · show ∃ d ∈ e.dials, tcpv4NodeIdMatches d.nodeId (nodeIdField o.nodeId) = true
      have h_set : nodeIdField o.nodeId ≠ [] := by
        have h_isSet : tcpv4NodeIdIsSet (nodeIdField o.nodeId) = true := h_dialled
        simpa [tcpv4NodeIdIsSet] using h_isSet
      obtain ⟨d, h_d, -, h_for⟩ := h_ok.pointer o h_o
      have h_field := nodeIdField_of_fits (h.fits o h_o)
      refine ⟨d, h_d, ?_⟩
      rcases h_for with h_match | h_text
      · rw [h_field]
        exact h_match
      · rw [h_text]
        exact matches_refl h_set
    · exact h_old (h.conns c h_c h_dialled)
  | @admitted a h_some =>
    have h_act : e.toEngine.step cfg (.accept a.busy) = some (e.toEngine.startConn none a.busy) :=
      rfl
    exact ⟨h.fits, h_from h_act (by simp)⟩
  | conn h_report h_act => exact ⟨h.fits, h_from h_act (by simp)⟩
  | find h_act => exact ⟨h.fits, h_from h_act (by simp)⟩
  | reap h_act => exact ⟨h.fits, h_from h_act (by simp)⟩
  | notOpened | tooSoon | refused | admits | dropped | outcome | tick =>
    exact ⟨h.fits, fun c h_c h_dialled => h_old (h.conns c h_c h_dialled)⟩

/-- Matching is an equivalence on the node IDs that are set.  It is to denote one node where a
    spelling can be read, and to be one text where it cannot; and so no node has two entries. -/
theorem nodeIds_matched :
    (∀ a b, tcpv4NodeIdMatches a b = true → tcpv4NodeIdMatches b a = true) ∧
    (∀ a b c, tcpv4NodeIdMatches a b = true → tcpv4NodeIdMatches b c = true →
      tcpv4NodeIdMatches a c = true) ∧
    (∀ a, tcpv4NodeIdMatches a a = true ↔ a ≠ []) ∧
    (∀ a node, tcpv4NodeIdIpn a = some node ↔ Denotes a node) ∧
    (∀ a b node node', Denotes a node → Denotes b node' →
      (tcpv4NodeIdMatches a b = true ↔ node = node')) ∧
    (∀ a b parts, Spells a parts → (∃ part ∈ parts, 2 ^ 64 ≤ Octets.decimal part) →
      (tcpv4NodeIdMatches a b = true ↔ b = a)) ∧
    ∀ cfg maxSessions as e, Lts.run (Tcpv4Engine.step cfg) (.init maxSessions) as = some e →
      (∀ a ∈ as, a.Fits) → e.dials.Pairwise fun d d' =>
        tcpv4NodeIdMatches d.nodeId d'.nodeId = false := by
  refine ⟨fun a b => matches_symm, fun a b c => matches_trans, fun a => matches_self,
    fun a node => tcpv4NodeIdIpn_eq_some_iff, fun a b node node' h h' => h.matches_iff h', ?_, ?_⟩
  · rintro a b parts h ⟨part, h_part, h_large⟩
    exact h.matches_large h_part h_large
  · intro cfg maxSessions as e h_run h_fits
    exact apart_run h_run h_fits

/-! ## Waiting longer each time -/

/-- "IPN:0012.7" and "ipn:12" are one node. -/
theorem nodeIds_matched_twelve :
    tcpv4NodeIdMatches "IPN:0012.7".toUTF8.data.toList "ipn:12".toUTF8.data.toList = true := by
  have h_read := nodeIds_matched.2.2.2.1
  have h_match := nodeIds_matched.2.2.2.2.1
  exact (h_match _ _ (0, 12) (0, 12) ((h_read _ _).mp (by decide +kernel))
    ((h_read _ _).mp (by decide +kernel))).mpr rfl

end IonContrib.Tcpv4
