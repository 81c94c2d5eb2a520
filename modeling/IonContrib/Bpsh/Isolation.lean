/-
  IonContrib.Bpsh.Isolation

  What a frame can do to sessions it has no business with.

  * An INIT without the shared secret gets an error reply and changes nothing,
    unless its source has a command running: then `pollIncoming` kills the
    shell before anyone has looked at the secret (`init_refused_iff`).
  * A frame with the id of another session than its source's live one leaves
    that one alone, unless it is an EXIT_SESSION, whose branch of `handleFrame`
    does not look at the id (`stray_frame_iff`).

  Both are about one step from any reachable state, by every path that a frame
  can take: received, polled, or replayed from the queue.
-/
import IonContrib.Bpsh.Numbering

namespace IonContrib.Bpsh

/-! ## The secret -/

theorem foldl_or_eq_zero {xs : List UInt8} {acc : UInt8} :
    xs.foldl (· ||| ·) acc = 0 ↔ acc = 0 ∧ ∀ x ∈ xs, x = 0 := by
  induction xs generalizing acc with
  | nil => simp
  | cons x xs ih => simp only [List.foldl_cons, ih, UInt8.or_eq_zero_iff, List.forall_mem_cons,
      and_assoc]

theorem zipWith_xor_eq_zero {xs ys : List UInt8} (h : xs.length = ys.length) :
    (∀ z ∈ List.zipWith (· ^^^ ·) xs ys, z = 0) ↔ xs = ys := by
  induction xs generalizing ys with
  | nil =>
    obtain rfl : ys = [] := List.length_eq_zero_iff.mp h.symm
    simp
  | cons x xs ih =>
    obtain _ | ⟨y, ys⟩ := ys
    · cases h
    rw [List.zipWith_cons_cons, List.forall_mem_cons, UInt8.xor_eq_zero_iff,
      ih (Nat.succ.inj h), List.cons.injEq]

/-- The comparison that takes no early exit is equality. -/
theorem authOk_iff {secret : Octets} {pw : Option Octets} :
    authOk secret pw = true ↔ pw = some secret := by
  cases pw with
  | none => simp [authOk]
  | some pw =>
    unfold authOk
    dsimp only
    by_cases h_len : pw.length = secret.length
    · rw [if_neg (not_not.mpr h_len), beq_iff_eq, foldl_or_eq_zero, zipWith_xor_eq_zero h_len,
        Option.some.injEq]
      exact and_iff_right rfl
    · rw [if_pos h_len]
      constructor
      · exact fun h => (Bool.false_ne_true h).elim
      · intro h
        exact absurd (congrArg List.length (Option.some.inj h)) h_len

/-- The INIT presents the secret: it follows the flags octet. -/
def CarriesSecret (secret : Octets) (frame : BpshFrame) : Prop :=
  ∃ flags, frame.payload = flags :: secret

theorem initRefused_iff {c : BpshdCfg} {secret : Octets} {frame : BpshFrame}
    (h_secret : c.authSecret = some secret) :
    initRefused c frame = true ↔ ¬ CarriesSecret secret frame := by
  unfold initRefused
  rw [h_secret]
  dsimp only
  rw [Bool.not_eq_true', Bool.eq_false_iff, ne_eq, authOk_iff, initPassword, CarriesSecret]
  cases frame.payload with
  | nil => simp
  | cons flags pw => simp

/-! ## The frame of a step -/

/-- The step handles this frame from this source. -/
def Event.Handles (c : BpshdCfg) (d : Bpshd) (frame : BpshFrame) (src : Eid) : Event → Prop
  | .recv bytes srcEid _ => bpshRecvFrame c bytes = some frame ∧ srcEid = src
  | .poll bytes srcEid _ _ => bpshRecvFrame c bytes = some frame ∧ srcEid = src
  | .drain _ => ∃ b rest, d.deferred = b :: rest ∧ c.decode b.bytes = some frame ∧
      b.sourceEid = src
  | _ => False

/-- The running command is one of the source's own session. -/
def OwnRunning (d : Bpshd) (src : Eid) : Prop :=
  ∃ r s, d.current = some r ∧ sessionOf d r.pid = some s ∧ s.sourceEid = src

/-- A frame is handled in one of two ways. -/
theorem step_handles {c : BpshdCfg} {d d' : Bpshd} {e : Event} {frame : BpshFrame} {src : Eid}
    (h : e.Handles c d frame src) (h_step : step c d e = some d') :
    (d.current = none ∧ ∃ env received deferred,
      (deferred = d.deferred ∨ ∃ b, d.deferred = b :: deferred) ∧
      ∃ due, d' = { handleFrame c { d with deferred := deferred } frame src env received with
        pruneDue := due }) ∨
    (∃ r s bytes writeOk deferMem, d.current = some r ∧ sessionOf d r.pid = some s ∧
      bpshRecvFrame c bytes = some frame ∧
      d' = pollIncoming c d s bytes src writeOk deferMem) := by
  cases e with
  | recv bytes srcEid env =>
    obtain ⟨h_frame, rfl⟩ := h
    simp only [step] at h_step
    split at h_step
    · rename_i h_idle
      rw [h_frame] at h_step
      refine .inl ⟨h_idle.1.2.1, env, true, d.deferred, .inl rfl, _, (Option.some.inj h_step).symm⟩
    · cases h_step
  | drain env =>
    obtain ⟨b, rest, h_deferred, h_frame, rfl⟩ := h
    simp only [step] at h_step
    rw [h_deferred] at h_step
    dsimp only at h_step
    split at h_step
    · rename_i h_idle
      rw [h_frame] at h_step
      exact .inl ⟨h_idle.2.1, env, false, rest, .inr ⟨b, h_deferred⟩, _,
        (Option.some.inj h_step).symm⟩
    · cases h_step
  | poll bytes srcEid writeOk deferMem =>
    obtain ⟨h_frame, rfl⟩ := h
    simp only [step] at h_step
    split at h_step
    · cases h_step
    rename_i r h_current
    split at h_step
    · obtain ⟨s, h_find, rfl⟩ := Option.map_eq_some_iff.mp h_step
      exact .inr ⟨r, s, bytes, writeOk, deferMem, h_current, h_find, h_frame, rfl⟩
    · cases h_step
  | prune now => exact h.elim
  | round rd env => exact h.elim
  | pollEnd => exact h.elim
  | quit => exact h.elim
  | teardown => exact h.elim

theorem TableOk.put_self {c : BpshdCfg} {d : Bpshd} (h : TableOk c d) {s : BpshSession}
    (h_s : s ∈ d.sessions) (log : List Effect) : d.put log s = { d with log := log } := by
  have h_map : (d.sessions.map fun t => if t.shellPid = s.shellPid then s else t) = d.sessions := by
    conv_rhs => rw [← List.map_id d.sessions]
    apply List.map_congr_left
    intro t h_t
    show (if t.shellPid = s.shellPid then s else t) = t
    by_cases h_pid : t.shellPid = s.shellPid
    · rw [if_pos h_pid, h.pid_inj h_t h_s h_pid]
    · rw [if_neg h_pid]
  unfold Bpshd.put
  rw [h_map]

/-- A frame that `pollFrame` hands on without touching the session. -/
theorem pollIncoming_hands {c : BpshdCfg} {d : Bpshd} (h : TableOk c d) {s : BpshSession}
    (h_s : s ∈ d.sessions) {bytes : Octets} {frame : BpshFrame} {src : Eid} {writeOk : Bool}
    {log : List Effect} (h_frame : bpshRecvFrame c bytes = some frame)
    (h_poll : pollFrame d.log s frame src writeOk = (log, s, true)) (deferMem : Bool) :
    ∃ deferred, pollIncoming c d s bytes src writeOk deferMem =
      { d with log := log, deferred := deferred } := by
  unfold pollIncoming
  rw [h_frame]
  dsimp only
  rw [h_poll]
  dsimp only
  rw [h.put_self h_s]
  split
  · exact ⟨_, rfl⟩
  · exact ⟨d.deferred, rfl⟩

/-! ## INIT without the secret -/

/-- The only thing that has happened is at most an error reply: every session is as it was, and
    so is the running command. -/
structure OnlyRefused (d d' : Bpshd) (src : Eid) : Prop where
  sessions : d'.sessions = d.sessions
  current : d'.current = d.current
  effects : d'.log = d.log ∨ ∃ frame ok, frame.msgType = .error ∧
    d'.log = d.log ++ [.sent src frame ok none]

theorem handleInit_refused {c : BpshdCfg} {d : Bpshd} {frame : BpshFrame} {src : Eid}
    (h_init : frame.msgType = .init) (h_refused : initRefused c frame = true) (env : HandleEnv)
    (received due : Bool) :
    OnlyRefused d { handleFrame c d frame src env received with pruneDue := due } src := by
  have h_reply : ∀ msg, OnlyRefused d { d.sendError c src frame.sessionId msg with
      pruneDue := due } src := by
    intro msg
    exact ⟨rfl, rfl, .inr ⟨_, _, rfl, rfl⟩⟩
  unfold handleFrame
  split
  · exact h_reply _
  · rw [h_init]
    dsimp only
    rw [handleInit, if_pos h_refused]
    exact h_reply _

/-- **INIT without the secret.**  With a shared secret configured, in every reachable state and by
    every path an INIT that does not carry the secret has no effect but an error reply, if and
    only if no command of its source's own session is running. -/
theorem init_refused_iff {c : BpshdCfg} {d d' : Bpshd} {e : Event} {frame : BpshFrame} {src : Eid}
    {secret : Octets} (h : Lts.Reachable (step c) Bpshd.start d)
    (h_secret : c.authSecret = some secret) (h_init : frame.msgType = .init)
    (h_lacks : ¬ CarriesSecret secret frame) (h_handles : e.Handles c d frame src)
    (h_step : step c d e = some d') : OnlyRefused d d' src ↔ ¬ OwnRunning d src := by
  have h_table : TableOk c d := (reachable_invariant trivial (fun _ _ _ _ _ _ => trivial) h).1
  have h_refused := (initRefused_iff h_secret).mpr h_lacks
  rcases step_handles h_handles h_step with
    ⟨h_none, env, received, deferred, -, due, rfl⟩ |
    ⟨r, s, bytes, writeOk, deferMem, h_current, h_find, h_frame, rfl⟩
  · refine iff_of_true ?_ ?_
    · have h_only : OnlyRefused { d with deferred := deferred } _ src :=
        handleInit_refused h_init h_refused env received due
      exact ⟨h_only.sessions, h_only.current, h_only.effects⟩
    · rintro ⟨r, s, h_current, -⟩
      rw [h_none] at h_current
      cases h_current
  · obtain ⟨h_s, -⟩ := mem_of_sessionOf h_find
    have h_not : ∀ t, frame.msgType = t → t = .init := fun t h_t => h_t.symm.trans h_init
    have h_poll : pollFrame d.log s frame src writeOk =
        (if src = s.sourceEid then d.log ++ [.killed s.shellPid] else d.log, s, true) := by
      unfold pollFrame
      rw [if_neg (by rintro ⟨-, -, h_type⟩; cases h_not _ h_type),
        if_neg (by rintro ⟨-, -, h_type⟩; cases h_not _ h_type)]
      by_cases h_src : src = s.sourceEid
      · rw [if_pos ⟨h_init, h_src⟩, if_pos h_src]
      · rw [if_neg (fun h_both => h_src h_both.2), if_neg h_src]
    obtain ⟨deferred, h_eq⟩ := pollIncoming_hands h_table h_s h_frame h_poll deferMem
    rw [h_eq]
    by_cases h_src : src = s.sourceEid
    · -- The kill comes before the secret is looked at.
      rw [if_pos h_src]
      refine iff_of_false ?_ (not_not.mpr ⟨r, s, h_current, h_find, h_src.symm⟩)
      rintro ⟨-, -, h_log | ⟨reply, ok, -, h_log⟩⟩
      · have h_len := congrArg List.length h_log
        rw [List.length_append, List.length_singleton] at h_len
        omega
      · have h_last := List.append_cancel_left h_log
        cases h_last
    · rw [if_neg h_src]
      refine iff_of_true ⟨rfl, rfl, .inl rfl⟩ ?_
      rintro ⟨r', s', h_current', h_find', h_own⟩
      obtain rfl := Option.some.inj (h_current.symm.trans h_current')
      obtain rfl := Option.some.inj (h_find.symm.trans h_find')
      exact h_src h_own.symm

/-- With the octet 115 as its secret. -/
def guardedCfg : BpshdCfg := { sampleCfg (fun _ => true) with authSecret := some [115] }

/-- The daemon after the INIT of one client, with the secret. -/
def guarded : Bpshd :=
  (Lts.run (step guardedCfg) Bpshd.start
    [.recv [1, 0, 115] "ipn:2.22" sampleEnv, .prune 0]).getD Bpshd.start

theorem guarded_reachable : Lts.Reachable (step guardedCfg) Bpshd.start guarded :=
  ⟨[.recv [1, 0, 115] "ipn:2.22" sampleEnv, .prune 0], rfl⟩

/-- Another password than the secret. -/
theorem lacks_secret (seq : Nat) : ¬ CarriesSecret [115] (bytesFrame .init 7 seq [0, 120]) := by
  rintro ⟨flags, h_payload⟩
  exact absurd (List.cons.inj h_payload).2 (by decide)

/-- An INIT with another password is refused while its source runs nothing. -/
theorem init_refused_guarded : ∃ d',
    step guardedCfg guarded (.recv [1, 0, 120] "ipn:2.22" sampleEnv) = some d' ∧
      OnlyRefused guarded d' "ipn:2.22" := by
  obtain ⟨d', h_step⟩ := Option.isSome_iff_exists.mp (by decide +kernel :
    (step guardedCfg guarded (.recv [1, 0, 120] "ipn:2.22" sampleEnv)).isSome = true)
  have h_handles : Event.Handles guardedCfg guarded (bytesFrame .init 7 0 [0, 120]) "ipn:2.22"
      (.recv [1, 0, 120] "ipn:2.22" sampleEnv) := ⟨rfl, rfl⟩
  refine ⟨d', h_step, (init_refused_iff guarded_reachable rfl rfl (lacks_secret 0) h_handles
    h_step).mpr ?_⟩
  rintro ⟨r, s, h_current, -⟩
  cases h_current

/-- A round in which no descriptor has anything. -/
def quietRound : Round := ⟨.ready, 0, .nothing, .nothing, .nothing⟩

/-- The client of `guarded` sends a REQ, whose command is in `pollIncoming`. -/
def busyEvents : List Event :=
  [.recv [1, 0, 115] "ipn:2.22" sampleEnv, .prune 0, .recv [3, 108, 115] "ipn:2.22" sampleEnv,
    .round quietRound ⟨[], [], none⟩]

/-- An INIT with another password while the command runs: the shell is killed. -/
theorem init_killsShell : ¬ ∀ (c : BpshdCfg) (d d' : Bpshd) (e : Event) (frame : BpshFrame)
    (src : Eid) (secret : Octets), Lts.Reachable (step c) Bpshd.start d →
      c.authSecret = some secret → frame.msgType = .init → ¬ CarriesSecret secret frame →
        e.Handles c d frame src → step c d e = some d' → OnlyRefused d d' src := by
  intro h_claim
  -- What the poll adds to the log.
  have h_run : ((Lts.run (step guardedCfg) Bpshd.start busyEvents).bind fun d =>
      (step guardedCfg d (.poll [1, 0, 120] "ipn:2.22" true true)).map fun d' =>
        d'.log.drop d.log.length) = some [.killed 0] := by
    decide +kernel
  obtain ⟨d, h_d, h_poll⟩ := Option.bind_eq_some_iff.mp h_run
  obtain ⟨d', h_step, h_new⟩ := Option.map_eq_some_iff.mp h_poll
  have h_handles : Event.Handles guardedCfg d (bytesFrame .init 7 0 [0, 120]) "ipn:2.22"
      (.poll [1, 0, 120] "ipn:2.22" true true) := ⟨rfl, rfl⟩
  obtain ⟨-, -, h_same | ⟨reply, ok, -, h_reply⟩⟩ :=
    h_claim guardedCfg d d' _ _ "ipn:2.22" [115] ⟨_, h_d⟩ rfl rfl (lacks_secret 0) h_handles h_step
  · rw [h_same, List.drop_length] at h_new
    cases h_new
  · rw [h_reply, List.drop_left] at h_new
    cases h_new

/-! ## Frames of an earlier session -/

/-- The step has left that session, its shell and its running command alone. -/
structure Untouched (d d' : Bpshd) (s : BpshSession) : Prop where
  stays : s ∈ d'.sessions
  current : ∀ r, r.pid = s.shellPid → (d'.current = some r ↔ d.current = some r)
  effects : ∃ es, d'.log = d.log ++ es ∧ ∀ e ∈ es, e.session ≠ some s.shellPid

theorem Untouched.of_reply {c : BpshdCfg} {d d' : Bpshd} {s : BpshSession} {dest : Eid}
    {sessionId : Nat} {msg : String} {deferred : List DeferredBundle} {due : Bool}
    (h_s : s ∈ d.sessions)
    (h_eq : d' = { Bpshd.sendError c { d with deferred := deferred } dest sessionId msg with
      pruneDue := due }) : Untouched d d' s := by
  subst h_eq
  refine ⟨h_s, fun _ _ => Iff.rfl, _, rfl, ?_⟩
  intro e h_e
  rw [List.mem_singleton.mp h_e]
  intro h_none
  cases h_none

theorem Untouched.of_same {d d' : Bpshd} {s : BpshSession} (h_s : s ∈ d.sessions)
    (h_sessions : d'.sessions = d.sessions) (h_current : d'.current = d.current)
    (h_log : d'.log = d.log) : Untouched d d' s := by
  refine ⟨h_sessions ▸ h_s, fun r _ => by rw [h_current], [], ?_, ?_⟩
  · rw [h_log, List.append_nil]
  · exact fun e h_e => (List.not_mem_nil h_e).elim

/-- **Session isolation.**  In every reachable state and by every path, a frame other than INIT
    whose session id is not the one of its source's live session leaves that session, its shell
    and its command untouched, if and only if it is not an EXIT_SESSION that `handleFrame` gets. -/
theorem stray_frame_iff {c : BpshdCfg} {d d' : Bpshd} {e : Event} {frame : BpshFrame}
    {s : BpshSession} (h : Lts.Reachable (step c) Bpshd.start d) (h_s : s ∈ d.sessions)
    (h_type : frame.msgType ≠ .init) (h_id : frame.sessionId ≠ s.sessionId)
    (h_handles : e.Handles c d frame s.sourceEid) (h_step : step c d e = some d') :
    Untouched d d' s ↔ (frame.msgType = .exitSession → d.current ≠ none) := by
  have h_table : TableOk c d := (reachable_invariant trivial (fun _ _ _ _ _ _ => trivial) h).1
  rcases step_handles h_handles h_step with
    ⟨h_none, env, received, deferred, -, due, h_eq⟩ |
    ⟨r, t, bytes, writeOk, deferMem, h_current, h_find, h_frame, rfl⟩
  · have h_found : findSession { d with deferred := deferred } s.sourceEid = some s :=
      h_table.findSession_mem h_s
    have h_allowed : ¬ sourceAllowed c s.sourceEid = false := by
      rw [h_table.allowed s h_s]
      exact Bool.noConfusion
    rw [handleFrame, if_neg h_allowed, h_found] at h_eq
    cases h_msg : frame.msgType with
    | init => exact absurd h_msg h_type
    | exitSession =>
      -- This branch ends whatever session the source has.
      rw [h_msg] at h_eq
      subst h_eq
      refine iff_of_false ?_ (fun h_not => h_not rfl h_none)
      intro h_untouched
      exact ((h_table.mem_dropSession h_s).mp h_untouched.stays).2 rfl
    | req =>
      have h_req : handleReq c { d with deferred := deferred } frame s.sourceEid env received =
          Bpshd.sendError c { d with deferred := deferred } s.sourceEid frame.sessionId
            "session id mismatch; reinit" := by
        rw [handleReq, h_found]
        dsimp only
        rw [if_pos h_id.symm]
      rw [h_msg] at h_eq
      dsimp only at h_eq
      rw [h_req] at h_eq
      exact iff_of_true (.of_reply h_s h_eq) (fun h_exit => by cases h_exit)
    | _ =>
      rw [h_msg] at h_eq
      subst h_eq
      exact iff_of_true (.of_same h_s rfl rfl rfl) (fun h_exit => by cases h_exit)
  · obtain ⟨h_t, -⟩ := mem_of_sessionOf h_find
    have h_stray : ¬ (frame.sessionId = t.sessionId ∧ s.sourceEid = t.sourceEid) := by
      rintro ⟨h_eq, h_src⟩
      obtain rfl := h_table.eid_inj h_s h_t h_src
      exact h_id h_eq
    have h_poll : pollFrame d.log t frame s.sourceEid writeOk = (d.log, t, true) := by
      unfold pollFrame
      rw [if_neg (fun h_all => h_stray ⟨h_all.1, h_all.2.1⟩),
        if_neg (fun h_all => h_stray ⟨h_all.1, h_all.2.1⟩),
        if_neg (fun h_all => h_type h_all.1)]
    obtain ⟨deferred, h_eq⟩ := pollIncoming_hands h_table h_t h_frame h_poll deferMem
    rw [h_eq]
    refine iff_of_true (.of_same h_s rfl rfl rfl) (fun _ h_none => ?_)
    rw [h_current] at h_none
    cases h_none

/-- A frame of session 8, whatever its type octet. -/
def strayCfg : BpshdCfg :=
  { sampleCfg (fun _ => true) with
    decode := fun bytes => (sampleDecode bytes).map fun f =>
      if f.msgType = .init then f else { f with sessionId := 8 } }

def strayed : Bpshd :=
  (Lts.run (step strayCfg) Bpshd.start
    [.recv [1] "ipn:2.22" sampleEnv, .prune 0]).getD Bpshd.start

theorem strayed_reachable : Lts.Reachable (step strayCfg) Bpshd.start strayed :=
  ⟨[.recv [1] "ipn:2.22" sampleEnv, .prune 0], rfl⟩

/-- The live session of `strayed`. -/
def straySession : BpshSession := ⟨"ipn:2.22", 7, 0, false, true, false, 2, true, 0⟩

/-- A late frame of session 8, of any type. -/
def strayFrame (type : BpshMsgType) : BpshFrame := bytesFrame type 8 0 []

/-- A late REQ of session 8 leaves session 7 untouched. -/
theorem stray_frame_req : ∃ d', step strayCfg strayed (.recv [3] "ipn:2.22" sampleEnv) = some d' ∧
    Untouched strayed d' straySession := by
  obtain ⟨d', h_step⟩ := Option.isSome_iff_exists.mp (by decide +kernel :
    (step strayCfg strayed (.recv [3] "ipn:2.22" sampleEnv)).isSome = true)
  have h_handles : Event.Handles strayCfg strayed (strayFrame .req) straySession.sourceEid
      (.recv [3] "ipn:2.22" sampleEnv) := ⟨rfl, rfl⟩
  refine ⟨d', h_step, (stray_frame_iff strayed_reachable (by decide) ?_ ?_ h_handles h_step).mpr
    fun h => ?_⟩
  · decide
  · decide
  · cases h

/-- A late EXIT_SESSION of session 8 ends session 7. -/
theorem stray_exit_ends : ¬ ∀ (c : BpshdCfg) (d d' : Bpshd) (e : Event) (frame : BpshFrame)
    (s : BpshSession), Lts.Reachable (step c) Bpshd.start d → s ∈ d.sessions →
      frame.msgType ≠ .init → frame.sessionId ≠ s.sessionId →
        e.Handles c d frame s.sourceEid → step c d e = some d' → Untouched d d' s := by
  intro h_claim
  have h_run : ((step strayCfg strayed (.recv [10] "ipn:2.22" sampleEnv)).map fun d' =>
      d'.sessions) = some [] := by
    decide +kernel
  obtain ⟨d', h_step, h_none⟩ := Option.map_eq_some_iff.mp h_run
  have h_handles : Event.Handles strayCfg strayed (strayFrame .exitSession)
      straySession.sourceEid (.recv [10] "ipn:2.22" sampleEnv) := ⟨rfl, rfl⟩
  have h_stays := (h_claim strayCfg strayed d' _ _ straySession strayed_reachable (by decide)
    (by decide) (by decide) h_handles h_step).stays
  rw [h_none] at h_stays
  cases h_stays

end IonContrib.Bpsh
