/-
  IonContrib.Bpsh.Moves

  What a step of bpshd can do to its session table and to the world, in a few
  kinds of moves:

    reply   a frame outside of every session's numbering is sent
    serve   a call works on one session: `Serves` says what it may do
    close   a session leaves the table
    open    a session with a new shell enters it, its endpoint having none
    spare   a shell is started and closed again

  `step_moves` cuts every step into moves, so an invariant of the table and the
  log has one case for each kind and looks at no branch of the daemon.
-/
import Mathlib.Logic.Relation
import Mathlib.Data.List.Nodup
import Mathlib.Data.List.Perm.Basic
import IonContrib.Bpsh.Daemon

namespace IonContrib.Bpsh

/-! ## The frames a session has numbered -/

/-- A frame that took its number from a session, and the session's next number after it. -/
structure Attempt where
  frame : BpshFrame
  ok : Bool
  next : Nat
  deriving DecidableEq, Repr

def Effect.attempt (pid : Nat) : Effect → Option Attempt
  | .sent _ frame ok (some (p, next)) => if p = pid then some ⟨frame, ok, next⟩ else none
  | _ => none

def attempts (pid : Nat) (log : List Effect) : List Attempt := log.filterMap (Effect.attempt pid)

@[simp] theorem attempts_append (pid : Nat) (log es : List Effect) :
    attempts pid (log ++ es) = attempts pid log ++ attempts pid es :=
  List.filterMap_append

@[simp] theorem attempts_nil (pid : Nat) : attempts pid [] = [] := rfl

theorem attempt_of_session_ne {pid : Nat} {e : Effect} (h : e.session ≠ some pid) :
    e.attempt pid = none := by
  unfold Effect.attempt
  split
  · rename_i p next
    have h_ne : p ≠ pid := by
      intro h_eq
      exact h (congrArg some h_eq)
    exact if_neg h_ne
  · rfl

theorem attempts_of_session_ne {pid : Nat} {es : List Effect}
    (h : ∀ e ∈ es, e.session ≠ some pid) : attempts pid es = [] :=
  List.filterMap_eq_nil_iff.mpr fun e h_e => attempt_of_session_ne (h e h_e)

/-- The numbering rule: a frame has the next number, and takes it when it is sent or when it
    is not a piece of output. -/
def Follows : Nat → List Attempt → Prop
  | _, [] => True
  | n, a :: as =>
    a.frame.seqNum = n ∧ a.next = (if a.ok || !a.frame.isOutput then nextSeq n else n) ∧
      Follows a.next as

/-- The number after those frames. -/
def nextAfter : Nat → List Attempt → Nat
  | n, [] => n
  | _, a :: as => nextAfter a.next as

theorem follows_append {n : Nat} {as bs : List Attempt} :
    Follows n (as ++ bs) ↔ Follows n as ∧ Follows (nextAfter n as) bs := by
  induction as generalizing n with
  | nil => simp [Follows, nextAfter]
  | cons a as ih => simp only [List.cons_append, Follows, nextAfter, ih, and_assoc]

theorem nextAfter_append {n : Nat} {as bs : List Attempt} :
    nextAfter n (as ++ bs) = nextAfter (nextAfter n as) bs := by
  induction as generalizing n with
  | nil => rfl
  | cons a as ih => exact ih

/-! ## What commands get as standard input -/

inductive StdinItem
  | chunk (octets : Octets)
  | eof
  deriving DecidableEq, Repr

/-- What an effect is to the standard input of a client's commands. -/
def Effect.item : Effect → Option ((Eid × Nat) × StdinItem)
  | .stdin _ client data => some (client, .chunk data)
  | .stdinClosed _ client => some (client, .eof)
  | _ => none

/-! ## Serving a session -/

/-- What a call may do with the session it is given: it keeps the session's identity, all its
    effects are that session's, and its frames are numbered by the rule.  Only a call of
    `pollFrame` (`poll`) does anything to standard input. -/
structure Serves (poll : Bool) (s : BpshSession) (es : List Effect) (s' : BpshSession) :
    Prop where
  pid : s'.shellPid = s.shellPid
  eid : s'.sourceEid = s.sourceEid
  id : s'.sessionId = s.sessionId
  own : ∀ e ∈ es, e.session = some s.shellPid
  follows : Follows s.replySeq (attempts s.shellPid es)
  next : s'.replySeq = nextAfter s.replySeq (attempts s.shellPid es)
  quiet : poll = false → ∀ e ∈ es, e.item = none

/-- The call left the log and the session like this. -/
def Served (poll : Bool) (log : List Effect) (s : BpshSession) (log' : List Effect)
    (s' : BpshSession) : Prop :=
  ∃ es, log' = log ++ es ∧ Serves poll s es s'

variable {poll : Bool}

theorem Serves.trans {s t u : BpshSession} {es fs : List Effect} (h : Serves poll s es t)
    (h' : Serves poll t fs u) : Serves poll s (es ++ fs) u where
  pid := h'.pid.trans h.pid
  eid := h'.eid.trans h.eid
  id := h'.id.trans h.id
  own := by
    intro e h_e
    rcases List.mem_append.mp h_e with h_e | h_e
    · exact h.own e h_e
    · rw [h'.own e h_e, h.pid]
  follows := by
    rw [attempts_append, follows_append]
    refine ⟨h.follows, ?_⟩
    rw [← h.next, ← h.pid]
    exact h'.follows
  next := by
    rw [attempts_append, nextAfter_append, ← h.next, ← h.pid]
    exact h'.next
  quiet := by
    intro h_poll e h_e
    rcases List.mem_append.mp h_e with h_e | h_e
    · exact h.quiet h_poll e h_e
    · exact h'.quiet h_poll e h_e

theorem Served.trans {log log' log'' : List Effect} {s s' s'' : BpshSession}
    (h : Served poll log s log' s') (h' : Served poll log' s' log'' s'') :
    Served poll log s log'' s'' := by
  obtain ⟨es, rfl, h⟩ := h
  obtain ⟨fs, rfl, h'⟩ := h'
  exact ⟨es ++ fs, List.append_assoc _ _ _, h.trans h'⟩

/-- Fields other than the session's identity and number may change freely. -/
theorem Served.quiet {log : List Effect} {s s' : BpshSession} (h_pid : s'.shellPid = s.shellPid)
    (h_eid : s'.sourceEid = s.sourceEid) (h_id : s'.sessionId = s.sessionId)
    (h_seq : s'.replySeq = s.replySeq) : Served poll log s log s' :=
  ⟨[], (List.append_nil log).symm, h_pid, h_eid, h_id, fun _ h => (List.not_mem_nil h).elim,
    trivial, h_seq, fun _ _ h => (List.not_mem_nil h).elim⟩

theorem Served.refl (log : List Effect) (s : BpshSession) : Served poll log s log s :=
  .quiet rfl rfl rfl rfl

/-- An effect on the session that sends nothing. -/
theorem Served.effect {log : List Effect} {s s' : BpshSession} {e : Effect}
    (h_own : e.session = some s.shellPid) (h_not : e.attempt s.shellPid = none)
    (h_quiet : poll = false → e.item = none)
    (h_pid : s'.shellPid = s.shellPid) (h_eid : s'.sourceEid = s.sourceEid)
    (h_id : s'.sessionId = s.sessionId) (h_seq : s'.replySeq = s.replySeq) :
    Served poll log s (log ++ [e]) s' := by
  have h_none : attempts s.shellPid [e] = [] := by
    simp [attempts, h_not]
  refine ⟨[e], rfl, h_pid, h_eid, h_id, ?_, ?_, ?_, ?_⟩
  · intro e' h_e
    rwa [List.mem_singleton.mp h_e]
  · rw [h_none]
    trivial
  · rw [h_none, h_seq]
    rfl
  · intro h_poll e' h_e
    rw [List.mem_singleton.mp h_e]
    exact h_quiet h_poll

/-- One frame that the session numbers. -/
theorem Served.send {c : BpshdCfg} {log : List Effect} {s : BpshSession} {frame : BpshFrame}
    {next : Nat} (h_seq : frame.seqNum = s.replySeq)
    (h_next : next = if c.sendOk log.length || !frame.isOutput then nextSeq s.replySeq
      else s.replySeq) :
    Served poll log s (bpshSendFrame c log s.sourceEid frame (some (s.shellPid, next)))
      { s with replySeq := next } := by
  have h_one : attempts s.shellPid
      [.sent s.sourceEid frame (c.sendOk log.length) (some (s.shellPid, next))] =
        [⟨frame, c.sendOk log.length, next⟩] := by
    simp [attempts, Effect.attempt]
  refine ⟨_, rfl, rfl, rfl, rfl, ?_, ?_, ?_, ?_⟩
  · intro e h_e
    rw [List.mem_singleton.mp h_e]
    rfl
  · rw [h_one]
    exact ⟨h_seq, h_next, trivial⟩
  · rw [h_one]
    rfl
  · intro _ e h_e
    rw [List.mem_singleton.mp h_e]
    rfl

theorem sendNumbered_served {c : BpshdCfg} {log : List Effect} {s : BpshSession}
    {frame : Nat → BpshFrame} (h_seq : ∀ n, (frame n).seqNum = n)
    (h_type : ∀ n, (frame n).isOutput = false) :
    Served poll log s (sendNumbered c log s frame).1 (sendNumbered c log s frame).2 := by
  refine Served.send (h_seq _) ?_
  rw [h_type, Bool.not_false, Bool.or_true, if_pos rfl]

section

variable (poll)

theorem sendExit_served (c : BpshdCfg) (log : List Effect) (s : BpshSession) (code : Int)
    (cause : BpshExitCause) :
    Served poll log s (sendExit c log s code cause).1 (sendExit c log s code cause).2 :=
  sendNumbered_served (fun _ => rfl) fun _ => rfl

theorem bpshSessionSendCwd_served (c : BpshdCfg) (log : List Effect) (s : BpshSession)
    (cwd : Option Octets) :
    Served poll log s (bpshSessionSendCwd c log s cwd).1 (bpshSessionSendCwd c log s cwd).2 := by
  cases cwd with
  | none => exact .refl log s
  | some path => exact sendNumbered_served (fun _ => rfl) fun _ => rfl

theorem sendStream_served (c : BpshdCfg) (log : List Effect) (s : BpshSession)
    {type : BpshMsgType} (h_type : type = .stdout ∨ type = .stderr) (buf : Octets) :
    Served poll log s (sendStream c log s type buf).1 (sendStream c log s type buf).2.1 := by
  have h_output : ∀ n bytes, (bytesFrame type s.sessionId n bytes).isOutput = true := by
    intro n bytes
    rcases h_type with rfl | rfl <;> rfl
  induction h_n : buf.length using Nat.strong_induction_on generalizing log s buf with
  | _ n ih =>
    rw [sendStream]
    by_cases h_buf : buf = []
    · rw [if_pos h_buf]
      exact .refl log s
    · rw [if_neg h_buf]
      have h_pos : 0 < buf.length := List.length_pos_iff.mpr h_buf
      by_cases h_ok : c.sendOk log.length = true
      · rw [if_pos h_ok]
        have h_one : Served poll log s (bpshSendFrame c log s.sourceEid
            (bytesFrame type s.sessionId s.replySeq (buf.take bpshdMaxPayload))
            (some (s.shellPid, nextSeq s.replySeq))) { s with replySeq := nextSeq s.replySeq } := by
          refine Served.send rfl ?_
          rw [h_ok, Bool.true_or, if_pos rfl]
        refine h_one.trans (ih _ ?_ _ _ _ h_output rfl)
        rw [List.length_drop, bpshdMaxPayload]
        omega
      · rw [if_neg h_ok]
        -- A piece that is not sent leaves its number to the next frame.
        refine Served.send rfl ?_
        rw [h_output, Bool.eq_false_iff.mpr h_ok]
        rfl

theorem drainStream_served (c : BpshdCfg) (log : List Effect) (s : BpshSession)
    {type : BpshMsgType} (h_type : type = .stdout ∨ type = .stderr) (chunks : List Octets) :
    Served poll log s (drainStream c log s type chunks).1 (drainStream c log s type chunks).2 := by
  induction chunks generalizing log s with
  | nil => exact .refl log s
  | cons chunk chunks ih =>
    have h_one := sendStream_served poll c log s h_type chunk
    rw [drainStream]
    split
    · rename_i log' s' h_eq
      rw [h_eq] at h_one
      exact h_one.trans (ih log' s')
    · rename_i log' s' h_eq
      rw [h_eq] at h_one
      exact h_one

theorem readStream_served (c : BpshdCfg) (log : List Effect) (s : BpshSession)
    {type : BpshMsgType} (h_type : type = .stdout ∨ type = .stderr) (rd : Read) :
    Served poll log s (readStream c log s type rd).1 (readStream c log s type rd).2.1 := by
  cases rd with
  | nothing => exact .refl log s
  | data octets => exact sendStream_served poll c log s h_type octets
  | closed => exact .refl log s

theorem readCtl_served (log : List Effect) (s : BpshSession) (r : Running) (rd : Read) :
    Served poll log s log (readCtl s r rd).1 := by
  unfold readCtl
  split
  · exact .refl log s
  split
  · exact .refl log s
  · exact .quiet rfl rfl rfl rfl
  · dsimp only
    split
    · exact .quiet rfl rfl rfl rfl
    · exact .refl log s

theorem killSession_served (log : List Effect) (s : BpshSession) :
    Served poll log s (killSession log s).1 (killSession log s).2 :=
  .effect rfl rfl (fun _ => rfl) rfl rfl rfl rfl

theorem bpshSessionStart_served (c : BpshdCfg) (log : List Effect) (s : BpshSession)
    (cmdline : Octets) (env : StartEnv) :
    Served poll log s (bpshSessionStart c log s cmdline env).1
      (bpshSessionStart c log s cmdline env).2.1 := by
  have h_active : Served poll log s log { s with lastActivity := env.now } := .quiet rfl rfl rfl rfl
  unfold bpshSessionStart
  dsimp only
  split
  · exact h_active.trans (sendExit_served poll c log _ (-1) .killed)
  split
  · refine .trans ?_ (sendExit_served poll c log _ (-1) .killed)
    exact .quiet rfl rfl rfl rfl
  · exact .effect rfl rfl (fun _ => rfl) rfl rfl rfl rfl

theorem loopRound_served (c : BpshdCfg) (log : List Effect) (s : BpshSession) (r : Running)
    (rd : Round) :
    Served poll log s (loopRound c log s r rd).1 (loopRound c log s r rd).2.1 := by
  unfold loopRound
  split
  · exact .refl log s
  · exact .quiet rfl rfl rfl rfl
  split
  · exact killSession_served poll log s
  have h_out := readStream_served poll c log s (.inl rfl) rd.out
  have h_err := readStream_served poll c (readStream c log s .stdout rd.out).1
    (readStream c log s .stdout rd.out).2.1 (.inr rfl) rd.err
  have h_both := h_out.trans h_err
  dsimp only
  split
  · exact h_both.trans (killSession_served poll _ _)
  · have h_ctl := fun r => h_both.trans (readCtl_served poll _ _ r rd.ctl)
    split
    · rename_i s' r' code h_eq
      obtain rfl := congrArg Prod.fst h_eq
      exact h_ctl _
    · rename_i s' r' h_eq
      obtain rfl := congrArg Prod.fst h_eq
      split
      · exact (h_ctl _).trans (.quiet rfl rfl rfl rfl)
      · exact h_ctl _

theorem bpshSessionEnd_served (c : BpshdCfg) (log : List Effect) (s : BpshSession)
    (exitCode : Int) (cause : BpshExitCause) (env : EndEnv) :
    Served poll log s (bpshSessionEnd c log s exitCode cause env).1
      (bpshSessionEnd c log s exitCode cause env).2 := by
  have h_out := drainStream_served poll c log s (.inl rfl) env.outs
  have h_err := drainStream_served poll c (drainStream c log s .stdout env.outs).1
    (drainStream c log s .stdout env.outs).2 (.inr rfl) env.errs
  have h_both := h_out.trans h_err
  unfold bpshSessionEnd
  dsimp only
  split
  · exact h_both.trans ((bpshSessionSendCwd_served poll c _ _ env.cwd).trans
      (sendExit_served poll c _ _ exitCode cause))
  · exact h_both.trans (sendExit_served poll c _ _ exitCode cause)

end

theorem pollFrame_served (log : List Effect) (s : BpshSession) (frame : BpshFrame)
    (srcEid : Eid) (writeOk : Bool) :
    Served true log s (pollFrame log s frame srcEid writeOk).1
      (pollFrame log s frame srcEid writeOk).2.1 := by
  unfold pollFrame
  split
  · split
    · split
      · exact .effect rfl rfl Bool.noConfusion rfl rfl rfl rfl
      · exact .effect rfl rfl Bool.noConfusion rfl rfl rfl rfl
    · exact .refl log s
  split
  · split
    · exact .effect rfl rfl Bool.noConfusion rfl rfl rfl rfl
    · exact .refl log s
  split
  · exact .effect rfl rfl Bool.noConfusion rfl rfl rfl rfl
  · exact .refl log s

/-! ## Moves -/

/-- One move of the daemon, with what it needs to be one. -/
inductive Move (c : BpshdCfg) (poll : Bool) : Bpshd → Bpshd → Prop
  | reply (d : Bpshd) (dest : Eid) (frame : BpshFrame) :
    Move c poll d { d with log := bpshSendFrame c d.log dest frame none }
  | serve {d : Bpshd} {s s' : BpshSession} {log : List Effect} (h_mem : s ∈ d.sessions)
      (h : Served poll d.log s log s') : Move c poll d (d.put log s')
  | close {d : Bpshd} {s : BpshSession} (h_mem : s ∈ d.sessions) : Move c poll d (removeSession d s)
  | open {d : Bpshd} {s : BpshSession} (cap : Nat) (h_pid : s.shellPid = d.forks)
      (h_seq : s.replySeq = 0) (h_allowed : sourceAllowed c s.sourceEid = true)
      (h_none : findSession d s.sourceEid = none) :
    Move c poll d { d with
      sessions := d.sessions ++ [s]
      sessionCap := cap
      forks := d.forks + 1
      log := d.log ++ [.forked s.shellPid] }
  | spare (d : Bpshd) :
    Move c poll d { d with
      forks := d.forks + 1
      log := d.log ++ [.forked d.forks, .closed d.forks] }
  | closeAll (d : Bpshd) : Move c poll d (teardownAllSessions d)
  /-- Nothing happens to the table or the world. -/
  | rest {d d' : Bpshd} (h_sessions : d'.sessions = d.sessions) (h_forks : d'.forks = d.forks)
      (h_log : d'.log = d.log) : Move c poll d d'

def Moves (c : BpshdCfg) (poll : Bool) : Bpshd → Bpshd → Prop :=
  Relation.ReflTransGen (Move c poll)

theorem Move.moves {c : BpshdCfg} {d d' : Bpshd} (h : Move c poll d d') : Moves c poll d d' :=
  Relation.ReflTransGen.single h

theorem Moves.then {c : BpshdCfg} {d d' d'' : Bpshd} (h : Moves c poll d d') (h' : Move c poll d' d'') :
    Moves c poll d d'' :=
  Relation.ReflTransGen.tail h h'

theorem Moves.trans {c : BpshdCfg} {d d' d'' : Bpshd} (h : Moves c poll d d') (h' : Moves c poll d' d'') :
    Moves c poll d d'' :=
  Relation.ReflTransGen.trans h h'

/-- What every move keeps, moves keep. -/
theorem Moves.invariant {c : BpshdCfg} {Inv : Bpshd → Prop}
    (h_move : ∀ d d', Inv d → Move c poll d d' → Inv d') {d d' : Bpshd} (h_inv : Inv d)
    (h : Moves c poll d d') : Inv d' := by
  induction h with
  | refl => exact h_inv
  | tail _ h_last ih => exact h_move _ _ ih h_last

/-! ## The table in order -/

/-- What holds of the session table in every reachable state: the shells are different ones,
    and so are the endpoints, which are all permitted. -/
structure TableOk (c : BpshdCfg) (d : Bpshd) : Prop where
  pids : (d.sessions.map (·.shellPid)).Nodup
  forked : ∀ s ∈ d.sessions, s.shellPid < d.forks
  eids : (d.sessions.map (·.sourceEid)).Nodup
  allowed : ∀ s ∈ d.sessions, sourceAllowed c s.sourceEid = true

theorem mem_of_findSession {d : Bpshd} {e : Eid} {s : BpshSession}
    (h : findSession d e = some s) : s ∈ d.sessions ∧ s.sourceEid = e :=
  ⟨List.mem_of_find?_eq_some h, by simpa using List.find?_some h⟩

theorem mem_of_sessionOf {d : Bpshd} {pid : Nat} {s : BpshSession}
    (h : sessionOf d pid = some s) : s ∈ d.sessions ∧ s.shellPid = pid :=
  ⟨List.mem_of_find?_eq_some h, by simpa using List.find?_some h⟩

theorem findSession_none_iff {d : Bpshd} {e : Eid} :
    findSession d e = none ↔ ∀ s ∈ d.sessions, s.sourceEid ≠ e := by
  simp [findSession]

/-- In a table in order, the session a shell or an endpoint has is the one that is found. -/
theorem TableOk.pid_inj {c : BpshdCfg} {d : Bpshd} (h : TableOk c d) {s t : BpshSession}
    (h_s : s ∈ d.sessions) (h_t : t ∈ d.sessions) (h_pid : s.shellPid = t.shellPid) : s = t :=
  List.inj_on_of_nodup_map h.pids h_s h_t h_pid

theorem TableOk.eid_inj {c : BpshdCfg} {d : Bpshd} (h : TableOk c d) {s t : BpshSession}
    (h_s : s ∈ d.sessions) (h_t : t ∈ d.sessions) (h_eid : s.sourceEid = t.sourceEid) : s = t :=
  List.inj_on_of_nodup_map h.eids h_s h_t h_eid

theorem TableOk.findSession_mem {c : BpshdCfg} {d : Bpshd} (h : TableOk c d) {s : BpshSession}
    (h_s : s ∈ d.sessions) : findSession d s.sourceEid = some s := by
  cases h_find : findSession d s.sourceEid with
  | none => exact absurd rfl (findSession_none_iff.mp h_find s h_s)
  | some t =>
    obtain ⟨h_t, h_eid⟩ := mem_of_findSession h_find
    rw [h.eid_inj h_t h_s h_eid]

/-- Moving the last entry to slot `i` takes exactly that slot's entry out. -/
theorem perm_set_dropLast {α : Type*} {l : List α} {last : α} {i : Nat} (h_i : i < l.length)
    (h_last : l.getLast? = some last) : l.Perm (l[i] :: (l.set i last).dropLast) := by
  obtain ⟨pre, rfl⟩ := List.getLast?_eq_some_iff.mp h_last
  rw [List.length_append, List.length_singleton] at h_i
  by_cases h_pre : i < pre.length
  · rw [List.set_append_left i last h_pre, List.dropLast_concat, List.getElem_append_left h_pre]
    calc (pre ++ [last]).Perm (last :: pre) := List.perm_append_singleton last pre
      _ |>.Perm (last :: pre[i] :: pre.eraseIdx i) :=
        (List.getElem_cons_eraseIdx_perm h_pre).symm.cons last
      _ |>.Perm (pre[i] :: last :: pre.eraseIdx i) := List.Perm.swap _ _ _
      _ |>.Perm (pre[i] :: pre.set i last) := (List.set_perm_cons_eraseIdx h_pre last).symm.cons _
  · obtain rfl : i = pre.length := by omega
    simp

theorem TableOk.dropSession_perm {c : BpshdCfg} {d : Bpshd} (h : TableOk c d)
    {s : BpshSession} (h_s : s ∈ d.sessions) :
    d.sessions.Perm (s :: dropSession d.sessions s.shellPid) := by
  obtain ⟨i, h_find⟩ : ∃ i, d.sessions.findIdx? (fun t => t.shellPid = s.shellPid) = some i := by
    rw [← Option.isSome_iff_exists, List.findIdx?_isSome]
    exact List.any_eq_true.mpr ⟨s, h_s, decide_eq_true rfl⟩
  obtain ⟨last, h_last⟩ : ∃ last, d.sessions.getLast? = some last :=
    ⟨_, List.getLast?_eq_some_getLast (List.ne_nil_of_mem h_s)⟩
  obtain ⟨h_i, h_pid, -⟩ := List.findIdx?_eq_some_iff_getElem.mp h_find
  have h_eq : d.sessions[i] = s :=
    h.pid_inj (List.getElem_mem h_i) h_s (of_decide_eq_true h_pid)
  unfold dropSession
  rw [h_find, h_last]
  dsimp only
  have h_perm := perm_set_dropLast h_i h_last
  rwa [h_eq] at h_perm

theorem TableOk.mem_dropSession {c : BpshdCfg} {d : Bpshd} (h : TableOk c d)
    {s t : BpshSession} (h_s : s ∈ d.sessions) :
    t ∈ dropSession d.sessions s.shellPid ↔ t ∈ d.sessions ∧ t ≠ s := by
  have h_perm := h.dropSession_perm h_s
  have h_nodup : (s :: dropSession d.sessions s.shellPid).Nodup :=
    h_perm.nodup_iff.mp (List.Nodup.of_map _ h.pids)
  rw [h_perm.mem_iff, List.mem_cons]
  constructor
  · intro h_t
    refine ⟨.inr h_t, ?_⟩
    rintro rfl
    exact (List.nodup_cons.mp h_nodup).1 h_t
  · rintro ⟨rfl | h_t, h_ne⟩
    · exact absurd rfl h_ne
    · exact h_t

/-- Who a session is. -/
def BpshSession.identity (s : BpshSession) : Nat × Eid × Nat :=
  (s.shellPid, s.sourceEid, s.sessionId)

/-- Serving a session of the table keeps everyone's identity. -/
theorem TableOk.put_identity {c : BpshdCfg} {d : Bpshd} (h : TableOk c d) {s s' : BpshSession}
    {log : List Effect} (h_s : s ∈ d.sessions) (h_served : Served poll d.log s log s') :
    (d.put log s').sessions.map (·.identity) = d.sessions.map (·.identity) := by
  obtain ⟨es, -, h_serves⟩ := h_served
  show (d.sessions.map fun t => if t.shellPid = s'.shellPid then s' else t).map (·.identity) = _
  rw [List.map_map]
  apply List.map_congr_left
  intro t h_t
  show (if t.shellPid = s'.shellPid then s' else t).identity = t.identity
  by_cases h_pid : t.shellPid = s'.shellPid
  · rw [if_pos h_pid, h.pid_inj h_t h_s (h_pid.trans h_serves.pid)]
    unfold BpshSession.identity
    rw [h_serves.pid, h_serves.eid, h_serves.id]
  · rw [if_neg h_pid]

/-- What is read off the identities does not change when those do not. -/
theorem TableOk.of_identity {c : BpshdCfg} {d d' : Bpshd} (h : TableOk c d)
    (h_same : d'.sessions.map (·.identity) = d.sessions.map (·.identity))
    (h_forks : d'.forks = d.forks) : TableOk c d' := by
  have h_pids : d'.sessions.map (·.shellPid) = d.sessions.map (·.shellPid) := by
    have h_fst := congrArg (List.map Prod.fst) h_same
    rwa [List.map_map, List.map_map] at h_fst
  have h_eids : d'.sessions.map (·.sourceEid) = d.sessions.map (·.sourceEid) := by
    have h_snd := congrArg (List.map (·.2.1)) h_same
    rwa [List.map_map, List.map_map] at h_snd
  refine ⟨h_pids ▸ h.pids, ?_, h_eids ▸ h.eids, ?_⟩
  · intro s h_s
    have h_pid := List.mem_map_of_mem (f := (·.shellPid)) h_s
    rw [h_pids] at h_pid
    obtain ⟨t, h_t, h_eq⟩ := List.mem_map.mp h_pid
    rw [h_forks, ← h_eq]
    exact h.forked t h_t
  · intro s h_s
    have h_eid := List.mem_map_of_mem (f := (·.sourceEid)) h_s
    rw [h_eids] at h_eid
    obtain ⟨t, h_t, h_eq⟩ := List.mem_map.mp h_eid
    rw [← h_eq]
    exact h.allowed t h_t

theorem TableOk.close {c : BpshdCfg} {d : Bpshd} (h : TableOk c d) {s : BpshSession}
    (h_s : s ∈ d.sessions) : TableOk c (removeSession d s) := by
  have h_perm := h.dropSession_perm h_s
  have h_pids : (s.shellPid :: (dropSession d.sessions s.shellPid).map (·.shellPid)).Nodup :=
    (h_perm.map BpshSession.shellPid).nodup_iff.mp h.pids
  have h_eids : (s.sourceEid :: (dropSession d.sessions s.shellPid).map (·.sourceEid)).Nodup :=
    (h_perm.map BpshSession.sourceEid).nodup_iff.mp h.eids
  exact ⟨(List.nodup_cons.mp h_pids).2,
    fun t h_t => h.forked t ((h.mem_dropSession h_s).mp h_t).1,
    (List.nodup_cons.mp h_eids).2,
    fun t h_t => h.allowed t ((h.mem_dropSession h_s).mp h_t).1⟩

/-- Once a session is removed its endpoint has none. -/
theorem TableOk.findSession_removed {c : BpshdCfg} {d : Bpshd} (h : TableOk c d)
    {s : BpshSession} (h_s : s ∈ d.sessions) :
    findSession (removeSession d s) s.sourceEid = none := by
  rw [findSession_none_iff]
  intro t h_t h_eid
  obtain ⟨h_mem, h_ne⟩ := (h.mem_dropSession h_s).mp h_t
  exact h_ne (h.eid_inj h_mem h_s h_eid)

theorem Move.tableOk {c : BpshdCfg} (d d' : Bpshd) (h : TableOk c d) (h_move : Move c poll d d') :
    TableOk c d' := by
  cases h_move with
  | reply dest frame => exact ⟨h.pids, h.forked, h.eids, h.allowed⟩
  | serve h_mem h_served => exact h.of_identity (h.put_identity h_mem h_served) rfl
  | close h_mem => exact h.close h_mem
  | «open» cap h_pid h_seq h_allowed h_none =>
    rename_i s
    refine ⟨?_, ?_, ?_, ?_⟩
    · show ((d.sessions ++ [s]).map (·.shellPid)).Nodup
      rw [List.map_append, List.map_singleton, List.nodup_append]
      refine ⟨h.pids, List.nodup_singleton _, ?_⟩
      intro p h_p q h_q
      obtain ⟨t, h_t, rfl⟩ := List.mem_map.mp h_p
      have h_lt := h.forked t h_t
      rw [List.mem_singleton.mp h_q, h_pid]
      omega
    · intro t h_t
      show t.shellPid < d.forks + 1
      rcases List.mem_append.mp h_t with h_t | h_t
      · exact (h.forked t h_t).trans (Nat.lt_succ_self _)
      · rw [List.mem_singleton.mp h_t, h_pid]
        exact Nat.lt_succ_self _
    · show ((d.sessions ++ [s]).map (·.sourceEid)).Nodup
      rw [List.map_append, List.map_singleton, List.nodup_append]
      refine ⟨h.eids, List.nodup_singleton _, ?_⟩
      intro e h_e f h_f
      obtain ⟨t, h_t, rfl⟩ := List.mem_map.mp h_e
      rw [List.mem_singleton.mp h_f]
      exact findSession_none_iff.mp h_none t h_t
    · intro t h_t
      rcases List.mem_append.mp h_t with h_t | h_t
      · exact h.allowed t h_t
      · rwa [List.mem_singleton.mp h_t]
  | spare =>
    exact ⟨h.pids, fun s h_s => (h.forked s h_s).trans (Nat.lt_succ_self _), h.eids, h.allowed⟩
  | closeAll =>
    exact ⟨List.nodup_nil, fun s h_s => (List.not_mem_nil h_s).elim, List.nodup_nil,
      fun s h_s => (List.not_mem_nil h_s).elim⟩
  | rest h_sessions h_forks h_log =>
    exact h.of_identity (by rw [h_sessions]) h_forks

theorem Moves.tableOk {c : BpshdCfg} {d d' : Bpshd} (h : TableOk c d) (h_moves : Moves c poll d d') :
    TableOk c d' :=
  h_moves.invariant Move.tableOk h

/-! ## Every step is made of moves -/

theorem sendError_moves (c : BpshdCfg) (d : Bpshd) (dest : Eid) (sessionId : Nat) (msg : String) :
    Moves c poll d (d.sendError c dest sessionId msg) :=
  (Move.reply d dest _).moves

theorem greet_moves {c : BpshdCfg} {d : Bpshd} {s : BpshSession} (h_s : s ∈ d.sessions)
    (cwd : Option Octets) : Moves c poll d (greet c d s cwd) := by
  have h_cwd := bpshSessionSendCwd_served poll c d.log s cwd
  unfold greet
  generalize bpshSessionSendCwd c d.log s cwd = told at h_cwd ⊢
  obtain ⟨log, t⟩ := told
  have h_ack : Served poll log t
      (sendNumbered c log t fun seq => bytesFrame .initAck t.sessionId seq []).1
      (sendNumbered c log t fun seq => bytesFrame .initAck t.sessionId seq []).2 :=
    sendNumbered_served (fun _ => rfl) fun _ => rfl
  exact (Move.serve h_s (h_cwd.trans h_ack)).moves

/-- The prior session leaves, so the endpoint has none when the new one enters. -/
theorem removePrior_moves {c : BpshdCfg} {d : Bpshd} (h : TableOk c d) (sourceEid : Eid) :
    Moves c poll d (removePrior d sourceEid) ∧ findSession (removePrior d sourceEid) sourceEid = none := by
  unfold removePrior
  cases h_find : findSession d sourceEid with
  | none => exact ⟨.refl, h_find⟩
  | some prior =>
    obtain ⟨h_mem, rfl⟩ := mem_of_findSession h_find
    exact ⟨(Move.close h_mem).moves, h.findSession_removed h_mem⟩

theorem openSession_moves {c : BpshdCfg} {d : Bpshd} {sourceEid : Eid}
    (h_allowed : sourceAllowed c sourceEid = true) (h_none : findSession d sourceEid = none)
    (frame : BpshFrame) (env : HandleEnv) :
    Moves c poll d (openSession c d frame sourceEid env) := by
  have h_enters : ∀ cap, Moves c poll d (greet c { d with
      sessions := d.sessions ++
        [bpshSessionOpen d.forks sourceEid frame.sessionId (initWantStdin frame) env.now]
      sessionCap := cap
      forks := d.forks + 1
      log := d.log ++ [.forked d.forks] }
      (bpshSessionOpen d.forks sourceEid frame.sessionId (initWantStdin frame) env.now)
      env.cwd) := by
    intro cap
    have h_open : Move c poll d { d with
        sessions := d.sessions ++
          [bpshSessionOpen d.forks sourceEid frame.sessionId (initWantStdin frame) env.now]
        sessionCap := cap
        forks := d.forks + 1
        log := d.log ++ [.forked d.forks] } := .open cap rfl rfl h_allowed h_none
    refine h_open.moves.trans ?_
    exact greet_moves (List.mem_append_right _ (List.mem_singleton_self _)) env.cwd
  unfold openSession
  split
  · unfold addSession
    dsimp only
    split
    · rename_i d' h_add
      split at h_add
      · split at h_add
        · obtain rfl := Option.some.inj h_add
          exact h_enters _
        · cases h_add
      · obtain rfl := Option.some.inj h_add
        exact h_enters _
    · have h_spare : Moves c poll d { d with
          forks := d.forks + 1
          log := d.log ++ [.forked d.forks] ++ [.closed d.forks] } := by
        rw [List.append_assoc]
        exact (Move.spare d).moves
      exact h_spare.trans (sendError_moves c _ _ _ _)
  · exact sendError_moves c d _ _ _

theorem handleInit_moves {c : BpshdCfg} {d : Bpshd} (h : TableOk c d) {sourceEid : Eid}
    (h_allowed : sourceAllowed c sourceEid = true) (frame : BpshFrame) (env : HandleEnv) :
    Moves c poll d (handleInit c d frame sourceEid env) := by
  unfold handleInit
  split
  · exact sendError_moves c d _ _ _
  · obtain ⟨h_moves, h_none⟩ := removePrior_moves h sourceEid
    exact h_moves.trans (openSession_moves h_allowed h_none frame env)

/-- The session that a call was given is in the table it leaves. -/
theorem mem_put {d : Bpshd} {s s' : BpshSession} {log log' : List Effect}
    (h_s : s ∈ d.sessions) (h_served : Served poll log s log' s') : s' ∈ (d.put log' s').sessions := by
  obtain ⟨es, -, h_serves⟩ := h_served
  exact List.mem_map.mpr ⟨s, h_s, if_pos h_serves.pid.symm⟩

theorem reap_moves {c : BpshdCfg} {d : Bpshd} {s s' : BpshSession} {log : List Effect}
    (h_s : s ∈ d.sessions) (h_served : Served poll d.log s log s') :
    Moves c poll d (reap (d.put log s') s') := by
  have h_put : Moves c poll d (d.put log s') := (Move.serve h_s h_served).moves
  unfold reap
  split
  · exact h_put
  · exact h_put.then (.close (mem_put h_s h_served))

theorem handleReq_moves {c : BpshdCfg} {d : Bpshd} {frame : BpshFrame} {sourceEid : Eid}
    (env : HandleEnv) (received : Bool) :
    Moves c poll d (handleReq c d frame sourceEid env received) := by
  unfold handleReq
  split
  · exact sendError_moves c d _ _ _
  rename_i s h_find
  obtain ⟨h_s, -⟩ := mem_of_findSession h_find
  split
  · exact sendError_moves c d _ _ _
  split
  · have h_dead : Served poll d.log s
        (sendNumbered c d.log s fun seq => bytesFrame .error frame.sessionId seq
          (text "shell exited; reinitialize session")).1
        (sendNumbered c d.log s fun seq => bytesFrame .error frame.sessionId seq
          (text "shell exited; reinitialize session")).2 :=
      sendNumbered_served (fun _ => rfl) fun _ => rfl
    exact (Move.serve h_s h_dead).moves
  split
  · exact (Move.serve h_s (sendExit_served poll c d.log s (-1) .killed)).moves
  have h_start := bpshSessionStart_served poll c d.log s (cString frame.payload) env.start
  split
  · rename_i log s' h_eq
    rw [h_eq] at h_start
    exact (Move.serve h_s h_start).moves.then (.rest rfl rfl rfl)
  · rename_i log s' h_eq
    rw [h_eq] at h_start
    exact reap_moves h_s h_start

theorem handleFrame_moves {c : BpshdCfg} {d : Bpshd} (h : TableOk c d) (frame : BpshFrame)
    (sourceEid : Eid) (env : HandleEnv) (received : Bool) :
    Moves c poll d (handleFrame c d frame sourceEid env received) := by
  unfold handleFrame
  split
  · exact sendError_moves c d _ _ _
  rename_i h_allowed
  split
  · exact handleInit_moves h (Bool.of_not_eq_false h_allowed) frame env
  · exact handleReq_moves env received
  · split
    · rename_i s h_find
      exact (Move.close (mem_of_findSession h_find).1).moves
    · exact .refl
  · exact .refl

theorem pruneFrom_moves {c : BpshdCfg} {now : Int} (fuel : Nat) (i : Nat) (d : Bpshd) :
    Moves c poll d (pruneFrom c now i d fuel) := by
  induction fuel generalizing i d with
  | zero => exact .refl
  | succ fuel ih =>
    unfold pruneFrom
    split
    · exact .refl
    rename_i s h_s
    split
    · exact (Move.close (List.mem_of_getElem? h_s)).moves.trans (ih i _)
    · exact ih (i + 1) d

theorem pollIncoming_moves {c : BpshdCfg} {d : Bpshd} {s : BpshSession} (h_s : s ∈ d.sessions)
    (bytes : Octets) (srcEid : Eid) (writeOk deferMem : Bool) :
    Moves c true d (pollIncoming c d s bytes srcEid writeOk deferMem) := by
  unfold pollIncoming
  split
  · exact .refl
  rename_i frame h_frame
  have h_poll := pollFrame_served d.log s frame srcEid writeOk
  split
  · rename_i log s' h_eq
    rw [h_eq] at h_poll
    exact (Move.serve h_s h_poll).moves
  · rename_i log s' h_eq
    rw [h_eq] at h_poll
    split
    · exact (Move.serve h_s h_poll).moves.then (.rest rfl rfl rfl)
    · exact (Move.serve h_s h_poll).moves

theorem runRound_moves {c : BpshdCfg} {d : Bpshd} {s : BpshSession} (h_s : s ∈ d.sessions)
    (r : Running) (rd : Round) (env : EndEnv) : Moves c poll d (runRound c d r s rd env) := by
  have h_round := loopRound_served poll c d.log s r rd
  unfold runRound
  split
  · rename_i log s' r' h_eq
    rw [h_eq] at h_round
    exact (Move.serve h_s h_round).moves.then (.rest rfl rfl rfl)
  · rename_i log s' r' exitCode cause h_eq
    rw [h_eq] at h_round
    have h_end := h_round.trans (bpshSessionEnd_served poll c log s' exitCode cause env)
    exact (reap_moves h_s h_end).then (.rest rfl rfl rfl)

/-- Whether the step is a frame that the running command polls. -/
def Event.isPoll : Event → Bool
  | .poll _ _ _ _ => true
  | _ => false

/-- **Every step of the daemon is made of moves.** -/
theorem step_moves {c : BpshdCfg} {d d' : Bpshd} {e : Event} (h : TableOk c d)
    (h_step : step c d e = some d') : Moves c e.isPoll d d' := by
  cases e with
  | drain env =>
    simp only [step] at h_step
    split at h_step
    · cases h_step
    rename_i b rest h_deferred
    split at h_step
    · have h_rest : Move c false d { d with deferred := rest } := .rest rfl rfl rfl
      split at h_step
      · obtain rfl := Option.some.inj h_step
        exact h_rest.moves
      · obtain rfl := Option.some.inj h_step
        refine h_rest.moves.trans (handleFrame_moves ?_ _ _ _ _)
        exact h.of_identity rfl rfl
    · cases h_step
  | recv bytes srcEid env =>
    simp only [step] at h_step
    split at h_step
    · split at h_step
      · obtain rfl := Option.some.inj h_step
        exact .refl
      · obtain rfl := Option.some.inj h_step
        exact (handleFrame_moves h _ _ _ _).then (.rest rfl rfl rfl)
    · cases h_step
  | prune now =>
    simp only [step] at h_step
    split at h_step
    · obtain rfl := Option.some.inj h_step
      exact (pruneFrom_moves d.sessions.length 0 d).then (.rest rfl rfl rfl)
    · cases h_step
  | round rd env =>
    simp only [step] at h_step
    split at h_step
    · cases h_step
    split at h_step
    · cases h_step
    obtain ⟨s, h_find, rfl⟩ := Option.map_eq_some_iff.mp h_step
    exact runRound_moves (mem_of_sessionOf h_find).1 _ rd env
  | poll bytes srcEid writeOk deferMem =>
    simp only [step] at h_step
    split at h_step
    · cases h_step
    split at h_step
    · obtain ⟨s, h_find, rfl⟩ := Option.map_eq_some_iff.mp h_step
      exact pollIncoming_moves (mem_of_sessionOf h_find).1 bytes srcEid writeOk deferMem
    · cases h_step
  | pollEnd =>
    simp only [step] at h_step
    split at h_step
    · cases h_step
    split at h_step
    · obtain rfl := Option.some.inj h_step
      exact .single (.rest rfl rfl rfl)
    · cases h_step
  | quit =>
    obtain rfl := Option.some.inj h_step
    exact .single (.rest rfl rfl rfl)
  | teardown =>
    simp only [step] at h_step
    split at h_step
    · obtain rfl := Option.some.inj h_step
      exact (Move.closeAll d).moves.then (.rest rfl rfl rfl)
    · cases h_step

theorem tableOk_start (c : BpshdCfg) : TableOk c Bpshd.start where
  pids := List.nodup_nil
  forked := fun _ h => (List.not_mem_nil h).elim
  eids := List.nodup_nil
  allowed := fun _ h => (List.not_mem_nil h).elim

/-- An invariant of the moves holds in every state that the daemon reaches. -/
theorem reachable_invariant {c : BpshdCfg} {Inv : Bpshd → Prop} (h_start : Inv Bpshd.start)
    (h_move : ∀ poll d d', TableOk c d → Inv d → Move c poll d d' → Inv d') {d : Bpshd}
    (h : Lts.Reachable (step c) Bpshd.start d) : TableOk c d ∧ Inv d := by
  have h_both : ∀ poll d d', TableOk c d ∧ Inv d → Move c poll d d' → TableOk c d' ∧ Inv d' :=
    fun poll d d' h_inv h_one => ⟨h_one.tableOk d d' h_inv.1, h_move poll d d' h_inv.1 h_inv.2 h_one⟩
  obtain ⟨es, h_run⟩ := h
  exact Lts.run_invariant (fun d e d' h_inv h_step => (step_moves h_inv.1 h_step).invariant (h_both _) h_inv)
    ⟨tableOk_start c, h_start⟩ h_run

end IonContrib.Bpsh
