/-
  IonContrib.Bpsh.Replay

  Every REQ has its turn.

  A REQ that arrives while a command runs is deferred, and a frame is received
  only when nothing is deferred.  So at any time the REQs that have arrived are
  those that have had their turn and, behind them, those that are queued, in
  order of arrival.  At its turn a REQ is executed exactly if the session of
  its source is then there, under its id and with its shell alive; nothing else
  is ever executed (`requests_in_order`).
-/
import IonContrib.Bpsh.Stdin

namespace IonContrib.Bpsh

/-! ## Turns -/

/-- A command that was written to a shell: whose, and what. -/
def Effect.execution : Effect → Option ((Eid × Nat) × Octets)
  | .command _ client script => some (client, script)
  | _ => none

def executions (log : List Effect) : List ((Eid × Nat) × Octets) :=
  log.filterMap Effect.execution

/-- A REQ frame, with its source. -/
def reqFrame (src : Eid) (frame : BpshFrame) : Option (Eid × BpshFrame) :=
  if frame.msgType = .req then some (src, frame) else none

/-- The REQ that a step takes from the endpoint. -/
def Event.req (c : BpshdCfg) (e : Event) : Option (Eid × BpshFrame) :=
  e.arrival.bind fun a => (bpshRecvFrame c a.1).bind (reqFrame a.2)

def queuedReq (c : BpshdCfg) (b : DeferredBundle) : Option (Eid × BpshFrame) :=
  (c.decode b.bytes).bind (reqFrame b.sourceEid)

/-- The session that a REQ finds alive. -/
def liveSession (d : Bpshd) (src : Eid) (frame : BpshFrame) : Option BpshSession :=
  (findSession d src).filter fun s => s.sessionId = frame.sessionId && s.shellAlive

/-- The turn of a REQ: the state that it is handled in, and whether the shell takes a command. -/
structure Turn where
  req : Eid × BpshFrame
  before : Bpshd
  writeOk : Bool

/-- What is executed at the turn. -/
def Turn.execution (t : Turn) : Option ((Eid × Nat) × Octets) :=
  (liveSession t.before t.req.1 t.req.2).bind fun s =>
    if t.writeOk then some (s.client, postscript s.userStdinReq (cString t.req.2.payload)) else none

/-- The REQ whose turn a step is. -/
def turn (c : BpshdCfg) (d : Bpshd) : Event → Option Turn
  | .recv bytes src env =>
    ((bpshRecvFrame c bytes).bind (reqFrame src)).map fun req => ⟨req, d, env.start.writeOk⟩
  | .drain env => (d.deferred.head?.bind (queuedReq c)).map fun req => ⟨req, d, env.start.writeOk⟩
  | _ => none

/-- All turns of a run. -/
def turnsIn (c : BpshdCfg) : Bpshd → List Event → List Turn
  | _, [] => []
  | d, e :: es => (turn c d e).toList ++
    match step c d e with
    | none => []
    | some d' => turnsIn c d' es

/-- All allocations that the step makes succeed. -/
def Event.memOk : Event → Bool
  | .recv _ _ env => env.tableMem && env.cmdMem && env.start.postMem
  | .drain env => env.tableMem && env.cmdMem && env.start.postMem
  | .poll _ _ _ deferMem => deferMem
  | _ => true

/-! ## What executes nothing -/

@[simp] theorem executions_append (log es : List Effect) :
    executions (log ++ es) = executions log ++ executions es := List.filterMap_append

theorem executions_snoc {e : Effect} (h : e.execution = none) (log : List Effect) :
    executions (log ++ [e]) = executions log := by
  rw [executions_append]
  show executions log ++ [e].filterMap Effect.execution = _
  rw [List.filterMap_cons_none h, List.filterMap_nil, List.append_nil]

theorem sendNumbered_executions (c : BpshdCfg) (log : List Effect) (s : BpshSession)
    (frame : Nat → BpshFrame) : executions (sendNumbered c log s frame).1 = executions log :=
  executions_snoc rfl log

theorem sendExit_executions (c : BpshdCfg) (log : List Effect) (s : BpshSession) (code : Int)
    (cause : BpshExitCause) : executions (sendExit c log s code cause).1 = executions log :=
  sendNumbered_executions c log s _

theorem bpshSessionSendCwd_executions (c : BpshdCfg) (log : List Effect) (s : BpshSession)
    (cwd : Option Octets) : executions (bpshSessionSendCwd c log s cwd).1 = executions log := by
  cases cwd with
  | none => rfl
  | some path => exact sendNumbered_executions c log s _

theorem sendStream_executions (c : BpshdCfg) (log : List Effect) (s : BpshSession)
    (type : BpshMsgType) (buf : Octets) :
    executions (sendStream c log s type buf).1 = executions log := by
  induction h_n : buf.length using Nat.strong_induction_on generalizing log s buf with
  | _ n ih =>
    rw [sendStream]
    by_cases h_buf : buf = []
    · rw [if_pos h_buf]
    · rw [if_neg h_buf]
      have h_pos : 0 < buf.length := List.length_pos_iff.mpr h_buf
      by_cases h_ok : c.sendOk log.length = true
      · rw [if_pos h_ok]
        refine (ih _ ?_ _ _ _ rfl).trans (executions_snoc rfl log)
        rw [List.length_drop, bpshdMaxPayload]
        omega
      · rw [if_neg h_ok]
        exact executions_snoc rfl log

theorem drainStream_executions (c : BpshdCfg) (type : BpshMsgType) (chunks : List Octets)
    (log : List Effect) (s : BpshSession) :
    executions (drainStream c log s type chunks).1 = executions log := by
  induction chunks generalizing log s with
  | nil => rfl
  | cons chunk chunks ih =>
    have h_first := sendStream_executions c log s type chunk
    rw [drainStream]
    split
    · rename_i log' s' h_send
      rw [h_send] at h_first
      exact (ih log' s').trans h_first
    · rename_i log' s' h_send
      rw [h_send] at h_first
      exact h_first

theorem readStream_executions (c : BpshdCfg) (log : List Effect) (s : BpshSession)
    (type : BpshMsgType) (rd : Read) :
    executions (readStream c log s type rd).1 = executions log := by
  cases rd with
  | nothing => rfl
  | closed => rfl
  | data octets => exact sendStream_executions c log s type octets

theorem loopRound_executions (c : BpshdCfg) (log : List Effect) (s : BpshSession) (r : Running)
    (rd : Round) : executions (loopRound c log s r rd).1 = executions log := by
  have h_out := readStream_executions c log s .stdout rd.out
  have h_err := readStream_executions c (readStream c log s .stdout rd.out).1
    (readStream c log s .stdout rd.out).2.1 .stderr rd.err
  rw [loopRound]
  split
  · rfl
  · rfl
  split
  · exact executions_snoc rfl log
  simp only
  split
  · exact (executions_snoc rfl _).trans (h_err.trans h_out)
  · split
    · exact h_err.trans h_out
    · split <;> exact h_err.trans h_out

theorem bpshSessionEnd_executions (c : BpshdCfg) (log : List Effect) (s : BpshSession)
    (exitCode : Int) (cause : BpshExitCause) (env : EndEnv) :
    executions (bpshSessionEnd c log s exitCode cause env).1 = executions log := by
  have h_out := drainStream_executions c .stdout env.outs log s
  have h_err := drainStream_executions c .stderr env.errs (drainStream c log s .stdout env.outs).1
    (drainStream c log s .stdout env.outs).2
  rw [bpshSessionEnd]
  simp only
  split
  · exact (sendExit_executions c _ _ _ _).trans
      ((bpshSessionSendCwd_executions c _ _ _).trans (h_err.trans h_out))
  · exact (sendExit_executions c _ _ _ _).trans (h_err.trans h_out)

theorem pollFrame_executions (log : List Effect) (s : BpshSession) (frame : BpshFrame)
    (srcEid : Eid) (writeOk : Bool) :
    executions (pollFrame log s frame srcEid writeOk).1 = executions log := by
  rw [pollFrame]
  split
  · split
    · split <;> exact executions_snoc rfl log
    · rfl
  split
  · split
    · exact executions_snoc rfl log
    · rfl
  split
  · exact executions_snoc rfl log
  · rfl

/-! ## What leaves the queue alone -/

/-- Nothing was executed and nothing was queued. -/
structure Idles (d d' : Bpshd) : Prop where
  executions : executions d'.log = executions d.log
  deferred : d'.deferred = d.deferred

theorem Idles.refl (d : Bpshd) : Idles d d := ⟨rfl, rfl⟩

theorem Idles.trans {d d' d'' : Bpshd} (h : Idles d d') (h' : Idles d' d'') : Idles d d'' :=
  ⟨h'.executions.trans h.executions, h'.deferred.trans h.deferred⟩

theorem Idles.put {d : Bpshd} {log : List Effect} (h : Bpsh.executions log = Bpsh.executions d.log)
    (s : BpshSession) : Idles d (d.put log s) := ⟨h, rfl⟩

theorem sendError_idles (c : BpshdCfg) (d : Bpshd) (dest : Eid) (sessionId : Nat) (msg : String) :
    Idles d (d.sendError c dest sessionId msg) := ⟨executions_snoc rfl d.log, rfl⟩

theorem removeSession_idles (d : Bpshd) (s : BpshSession) : Idles d (removeSession d s) :=
  ⟨executions_snoc rfl d.log, rfl⟩

theorem reap_idles (d : Bpshd) (s : BpshSession) : Idles d (reap d s) := by
  rw [reap]
  split
  · exact .refl d
  · exact removeSession_idles d s

theorem addSession_idles {d d' : Bpshd} {s : BpshSession} {mem : Bool}
    (h : addSession d s mem = some d') : Idles d d' := by
  rw [addSession] at h
  split at h
  · split at h
    · cases h
      exact ⟨rfl, rfl⟩
    · cases h
  · cases h
    exact ⟨rfl, rfl⟩

theorem greet_idles (c : BpshdCfg) (d : Bpshd) (s : BpshSession) (cwd : Option Octets) :
    Idles d (greet c d s cwd) := by
  have h_cwd := bpshSessionSendCwd_executions c d.log s cwd
  have h_ack := sendNumbered_executions c (bpshSessionSendCwd c d.log s cwd).1
    (bpshSessionSendCwd c d.log s cwd).2 fun seq =>
      bytesFrame .initAck (bpshSessionSendCwd c d.log s cwd).2.sessionId seq []
  exact Idles.put (h_ack.trans h_cwd) _

theorem openSession_idles (c : BpshdCfg) (d : Bpshd) (frame : BpshFrame) (src : Eid)
    (env : HandleEnv) : Idles d (openSession c d frame src env) := by
  rw [openSession]
  split
  · simp only
    have h_fork : Idles d { d with forks := d.forks + 1, log := d.log ++ [.forked d.forks] } :=
      ⟨executions_snoc rfl d.log, rfl⟩
    split
    · rename_i d' h_add
      exact (h_fork.trans (addSession_idles h_add)).trans (greet_idles c d' _ env.cwd)
    · refine (h_fork.trans ?_).trans (sendError_idles c _ _ _ _)
      exact ⟨executions_snoc rfl _, rfl⟩
  · exact sendError_idles c d _ _ _

theorem handleInit_idles (c : BpshdCfg) (d : Bpshd) (frame : BpshFrame) (src : Eid)
    (env : HandleEnv) : Idles d (handleInit c d frame src env) := by
  rw [handleInit]
  split
  · exact sendError_idles c d _ _ _
  · refine Idles.trans ?_ (openSession_idles c _ frame src env)
    rw [removePrior]
    split
    · exact removeSession_idles d _
    · exact .refl d

theorem pruneFrom_idles (c : BpshdCfg) (now : Int) (fuel i : Nat) (d : Bpshd) :
    Idles d (pruneFrom c now i d fuel) := by
  induction fuel generalizing i d with
  | zero => exact .refl d
  | succ fuel ih =>
    rw [pruneFrom]
    split
    · exact .refl d
    · split
      · exact (removeSession_idles d _).trans (ih i _)
      · exact ih (i + 1) d

theorem runRound_idles (c : BpshdCfg) (d : Bpshd) (r : Running) (s : BpshSession) (rd : Round)
    (env : EndEnv) : Idles d (runRound c d r s rd env) := by
  have h_round := loopRound_executions c d.log s r rd
  rw [runRound]
  split
  · rename_i log s' r' h_eq
    rw [h_eq] at h_round
    exact ⟨h_round, rfl⟩
  · rename_i log s' r' exitCode cause h_eq
    rw [h_eq] at h_round
    have h_end := (bpshSessionEnd_executions c log s' exitCode cause env).trans h_round
    have h_reap := reap_idles (d.put (bpshSessionEnd c log s' exitCode cause env).1
      (bpshSessionEnd c log s' exitCode cause env).2) (bpshSessionEnd c log s' exitCode cause env).2
    exact ⟨h_reap.executions.trans h_end, h_reap.deferred⟩

/-! ## The turn of a REQ -/

/-- The text fits the buffer that is allocated for it. -/
theorem postscript_fits (userStdinReq : Bool) (cmdline : Octets) :
    ¬ ((postscript userStdinReq cmdline).length = 0 ∨
      (postscript userStdinReq cmdline).length ≥ cmdline.length + 256) := by
  have h_parts : 0 < (postscript userStdinReq []).length ∧
      (postscript userStdinReq []).length < 256 := by
    cases userStdinReq <;> decide +kernel
  have h_len : (postscript userStdinReq cmdline).length =
      cmdline.length + (postscript userStdinReq []).length := by
    simp only [postscript, List.length_append, List.length_nil]
    omega
  omega

/-- **At its turn** a REQ is executed if it finds its session alive and the shell takes it, and
    else nothing is. -/
theorem handleReq_executions {c : BpshdCfg} {d : Bpshd} {frame : BpshFrame} {src : Eid}
    {env : HandleEnv} (received : Bool) (h_cmd : env.cmdMem = true)
    (h_post : env.start.postMem = true) :
    executions (handleReq c d frame src env received).log =
        executions d.log ++ (Turn.execution ⟨(src, frame), d, env.start.writeOk⟩).toList ∧
      (handleReq c d frame src env received).deferred = d.deferred := by
  rw [handleReq, Turn.execution, liveSession]
  cases h_find : findSession d src with
  | none =>
    have h_error := sendError_idles c d src frame.sessionId
      "session not initialized; send INIT first"
    exact ⟨h_error.executions.trans (List.append_nil _).symm, h_error.deferred⟩
  | some s =>
    simp only
    by_cases h_id : s.sessionId = frame.sessionId
    · rw [if_neg (not_not.mpr h_id)]
      by_cases h_alive : s.shellAlive = true
      · have h_live : (some s).filter (fun s => s.sessionId = frame.sessionId && s.shellAlive) =
            some s := by
          rw [Option.filter_some, if_pos (by simp [h_id, h_alive])]
        rw [if_neg (by rw [h_alive]; decide), if_neg (by rw [h_cmd]; decide), h_live,
          Option.bind_some, bpshSessionStart]
        simp only
        rw [if_neg (by rw [h_post]; decide)]
        have h_fits := postscript_fits s.userStdinReq (cString frame.payload)
        cases h_write : env.start.writeOk with
        | false =>
          -- The shell does not take the command, and is dead.
          rw [if_pos (.inr (.inr rfl))]
          simp only
          have h_reap := reap_idles (d.put
            (sendExit c d.log { s with lastActivity := env.start.now, shellAlive := false } (-1)
              .killed).1
            (sendExit c d.log { s with lastActivity := env.start.now, shellAlive := false } (-1)
              .killed).2)
            (sendExit c d.log { s with lastActivity := env.start.now, shellAlive := false } (-1)
              .killed).2
          refine ⟨?_, h_reap.deferred⟩
          refine h_reap.executions.trans ((sendExit_executions c d.log _ _ _).trans ?_)
          exact (List.append_nil _).symm
        | true =>
          rw [if_neg (by rintro (h | h | h)
                         · exact h_fits (.inl h)
                         · exact h_fits (.inr h)
                         · cases h)]
          refine ⟨?_, rfl⟩
          show executions (d.log ++ [_]) = _
          rw [executions_append]
          rfl
      · have h_dead := Bool.eq_false_iff.mpr h_alive
        have h_live : (some s).filter (fun s => s.sessionId = frame.sessionId && s.shellAlive) =
            none := by
          rw [Option.filter_some, if_neg (by simp [h_dead])]
        rw [if_pos h_dead, h_live]
        have h_error := sendNumbered_executions c d.log s fun seq =>
          bytesFrame .error frame.sessionId seq (text "shell exited; reinitialize session")
        exact ⟨h_error.trans (List.append_nil _).symm, rfl⟩
    · have h_live : (some s).filter (fun s => s.sessionId = frame.sessionId && s.shellAlive) =
          none := by
        rw [Option.filter_some, if_neg (by simp [h_id])]
      rw [if_pos h_id, h_live]
      have h_error := sendError_idles c d src frame.sessionId "session id mismatch; reinit"
      exact ⟨h_error.executions.trans (List.append_nil _).symm, h_error.deferred⟩

/-- A frame's turn, and if it is no REQ nothing is executed. -/
theorem handleFrame_turn {c : BpshdCfg} {d : Bpshd} (h_table : TableOk c d) (frame : BpshFrame)
    (src : Eid) {env : HandleEnv} (received : Bool) (h_cmd : env.cmdMem = true)
    (h_post : env.start.postMem = true) :
    executions (handleFrame c d frame src env received).log =
        executions d.log ++ ((reqFrame src frame).bind fun req =>
          Turn.execution ⟨req, d, env.start.writeOk⟩).toList ∧
      (handleFrame c d frame src env received).deferred = d.deferred := by
  have h_idles : ∀ {d' : Bpshd}, frame.msgType ≠ .req → Idles d d' →
      executions d'.log = executions d.log ++ ((reqFrame src frame).bind fun req =>
        Turn.execution ⟨req, d, env.start.writeOk⟩).toList ∧ d'.deferred = d.deferred := by
    intro d' h_type h
    rw [reqFrame, if_neg h_type]
    exact ⟨h.executions.trans (List.append_nil _).symm, h.deferred⟩
  rw [handleFrame]
  by_cases h_denied : sourceAllowed c src = false
  · -- A source that is not permitted has no session.
    rw [if_pos h_denied]
    have h_error := sendError_idles c d src frame.sessionId "source not permitted"
    have h_none : findSession d src = none := by
      refine findSession_none_iff.mpr fun s h_s h_eid => ?_
      have h_allowed := h_table.allowed s h_s
      rw [h_eid, h_denied] at h_allowed
      cases h_allowed
    have h_quiet : ((reqFrame src frame).bind fun req =>
        Turn.execution ⟨req, d, env.start.writeOk⟩) = none := by
      rw [reqFrame]
      split
      · rw [Option.bind_some, Turn.execution, liveSession, h_none]
        rfl
      · rfl
    rw [h_quiet]
    exact ⟨h_error.executions.trans (List.append_nil _).symm, h_error.deferred⟩
  rw [if_neg h_denied]
  cases h_type : frame.msgType with
  | req =>
    rw [reqFrame, if_pos h_type, Option.bind_some]
    exact handleReq_executions received h_cmd h_post
  | init =>
    exact h_idles (by rw [h_type]; decide) (handleInit_idles c d frame src env)
  | exitSession =>
    refine h_idles (by rw [h_type]; decide) ?_
    simp only
    split
    · exact removeSession_idles d _
    · exact .refl d
  | initAck => exact h_idles (by rw [h_type]; decide) (.refl d)
  | stdinChunk => exact h_idles (by rw [h_type]; decide) (.refl d)
  | stdinEof => exact h_idles (by rw [h_type]; decide) (.refl d)
  | stdout => exact h_idles (by rw [h_type]; decide) (.refl d)
  | stderr => exact h_idles (by rw [h_type]; decide) (.refl d)
  | exit => exact h_idles (by rw [h_type]; decide) (.refl d)
  | error => exact h_idles (by rw [h_type]; decide) (.refl d)
  | cwd => exact h_idles (by rw [h_type]; decide) (.refl d)

/-- A bundle that is polled is executed by nobody, and its REQ is queued. -/
theorem pollIncoming_queues (c : BpshdCfg) (d : Bpshd) (s : BpshSession) (bytes : Octets)
    (src : Eid) (writeOk : Bool) :
    executions (pollIncoming c d s bytes src writeOk true).log = executions d.log ∧
      (pollIncoming c d s bytes src writeOk true).deferred.filterMap (queuedReq c) =
        d.deferred.filterMap (queuedReq c) ++
          ((bpshRecvFrame c bytes).bind (reqFrame src)).toList := by
  rw [pollIncoming]
  cases h_frame : bpshRecvFrame c bytes with
  | none => exact ⟨rfl, (List.append_nil _).symm⟩
  | some frame =>
    have h_decode : c.decode bytes = some frame := by
      rw [bpshRecvFrame] at h_frame
      split at h_frame
      · cases h_frame
      · exact h_frame
    have h_log := pollFrame_executions d.log s frame src writeOk
    rw [Option.bind_some]
    simp only
    split
    · rename_i log s' h_poll
      rw [h_poll] at h_log
      refine ⟨h_log, ?_⟩
      -- Only frames for standard input are not handed on.
      have h_type : frame.msgType ≠ .req := by
        intro h_req
        rw [pollFrame, if_neg (by rw [h_req]; simp), if_neg (by rw [h_req]; simp),
          if_neg (by rw [h_req]; simp)] at h_poll
        cases h_poll
      rw [reqFrame, if_neg h_type]
      exact (List.append_nil _).symm
    · rename_i log s' h_poll
      rw [h_poll] at h_log
      refine ⟨h_log, ?_⟩
      have h_queued : queuedReq c ⟨bytes, src⟩ = reqFrame src frame := by
        rw [queuedReq, h_decode]
        rfl
      show (d.deferred ++ [(⟨bytes, src⟩ : DeferredBundle)]).filterMap (queuedReq c) = _
      rw [List.filterMap_append, List.filterMap_cons, h_queued]
      cases reqFrame src frame <;> rfl

/-! ## Runs -/

/-- **One step** moves the queue of REQs by one arrival or one turn, and executes only what the
    turn does. -/
theorem step_turn {c : BpshdCfg} {d d' : Bpshd} {e : Event} (h_table : TableOk c d)
    (h_mem : e.memOk = true) (h_step : step c d e = some d') :
    ((turn c d e).toList.map Turn.req) ++ d'.deferred.filterMap (queuedReq c) =
        d.deferred.filterMap (queuedReq c) ++ (e.req c).toList ∧
      executions d'.log =
        executions d.log ++ (turn c d e).toList.filterMap Turn.execution := by
  -- Most steps neither queue nor execute anything.
  have h_idles : turn c d e = none → e.req c = none → Idles d d' →
      ((turn c d e).toList.map Turn.req) ++ d'.deferred.filterMap (queuedReq c) =
          d.deferred.filterMap (queuedReq c) ++ (e.req c).toList ∧
        executions d'.log =
          executions d.log ++ (turn c d e).toList.filterMap Turn.execution := by
    intro h_turn h_req h
    rw [h_turn, h_req, h.deferred, h.executions]
    exact ⟨(List.append_nil _).symm, (List.append_nil _).symm⟩
  cases e with
  | drain env =>
    simp only [Event.memOk, Bool.and_eq_true] at h_mem
    simp only [step] at h_step
    split at h_step
    · cases h_step
    rename_i b rest h_queue
    split at h_step
    · rw [turn, h_queue, List.head?_cons, Option.bind_some, List.filterMap_cons, queuedReq]
      cases h_decode : c.decode b.bytes with
      | none =>
        rw [h_decode] at h_step
        obtain rfl := Option.some.inj h_step
        exact ⟨(List.append_nil _).symm, (List.append_nil _).symm⟩
      | some frame =>
        rw [h_decode] at h_step
        obtain rfl := Option.some.inj h_step
        have h_rest : TableOk c { d with deferred := rest } := ⟨h_table.pids, h_table.forked,
          h_table.eids, h_table.allowed⟩
        obtain ⟨h_log, h_deferred⟩ := handleFrame_turn h_rest frame b.sourceEid false h_mem.1.2
          h_mem.2
        rw [h_log, h_deferred, Option.bind_some]
        cases reqFrame b.sourceEid frame with
        | none => exact ⟨(List.append_nil _).symm, rfl⟩
        | some req => exact ⟨(List.append_nil _).symm, rfl⟩
    · cases h_step
  | recv bytes src env =>
    simp only [Event.memOk, Bool.and_eq_true] at h_mem
    simp only [step] at h_step
    split at h_step
    · rename_i h_idle
      cases h_frame : bpshRecvFrame c bytes with
      | none =>
        rw [h_frame] at h_step
        obtain rfl := Option.some.inj h_step
        refine h_idles ?_ ?_ (.refl d)
        · rw [turn, h_frame]
          rfl
        · rw [Event.req, Event.arrival, Option.bind_some, h_frame]
          rfl
      | some frame =>
        rw [h_frame] at h_step
        obtain rfl := Option.some.inj h_step
        obtain ⟨h_log, h_deferred⟩ := handleFrame_turn h_table frame src true h_mem.1.2 h_mem.2
        rw [turn, Event.req, Event.arrival, Option.bind_some, h_frame, Option.bind_some]
        simp only
        rw [h_log, h_deferred, h_idle.2]
        cases reqFrame src frame with
        | none => exact ⟨rfl, rfl⟩
        | some req => exact ⟨rfl, rfl⟩
    · cases h_step
  | poll bytes src writeOk deferMem =>
    simp only [step] at h_step
    split at h_step
    · cases h_step
    split at h_step
    · obtain ⟨s, -, rfl⟩ := Option.map_eq_some_iff.mp h_step
      obtain rfl : deferMem = true := h_mem
      obtain ⟨h_log, h_deferred⟩ := pollIncoming_queues c d s bytes src writeOk
      exact ⟨h_deferred, h_log.trans (List.append_nil _).symm⟩
    · cases h_step
  | prune now =>
    simp only [step] at h_step
    split at h_step
    · obtain rfl := Option.some.inj h_step
      have h := pruneFrom_idles c now d.sessions.length 0 d
      exact h_idles rfl rfl ⟨h.executions, h.deferred⟩
    · cases h_step
  | round rd env =>
    simp only [step] at h_step
    split at h_step
    · cases h_step
    split at h_step
    · cases h_step
    obtain ⟨s, -, rfl⟩ := Option.map_eq_some_iff.mp h_step
    exact h_idles rfl rfl (runRound_idles c d _ s rd env)
  | pollEnd =>
    simp only [step] at h_step
    split at h_step
    · cases h_step
    split at h_step
    · obtain rfl := Option.some.inj h_step
      exact h_idles rfl rfl ⟨rfl, rfl⟩
    · cases h_step
  | quit =>
    obtain rfl := Option.some.inj h_step
    exact h_idles rfl rfl ⟨rfl, rfl⟩
  | teardown =>
    simp only [step] at h_step
    split at h_step
    · obtain rfl := Option.some.inj h_step
      refine h_idles rfl rfl ⟨?_, rfl⟩
      show executions (d.log ++ d.sessions.map fun s => .closed s.shellPid) = _
      have h_closed : executions (d.sessions.map fun s => .closed s.shellPid) = [] := by
        rw [executions, List.filterMap_map]
        exact List.filterMap_eq_nil_iff.mpr fun _ _ => rfl
      rw [executions_append, h_closed, List.append_nil]
    · cases h_step

theorem run_turns {c : BpshdCfg} {d t : Bpshd} {es : List Event} (h_table : TableOk c d)
    (h_mem : ∀ e ∈ es, e.memOk = true) (h_run : Lts.run (step c) d es = some t) :
    (turnsIn c d es).map Turn.req ++ t.deferred.filterMap (queuedReq c) =
        d.deferred.filterMap (queuedReq c) ++ es.filterMap (Event.req c) ∧
      executions t.log = executions d.log ++ (turnsIn c d es).filterMap Turn.execution ∧
      TableOk c t := by
  induction es generalizing d with
  | nil =>
    obtain rfl : d = t := by simpa using h_run
    exact ⟨(List.append_nil _).symm, (List.append_nil _).symm, h_table⟩
  | cons e es ih =>
    obtain ⟨h_e, h_es⟩ := List.forall_mem_cons.mp h_mem
    obtain ⟨d', h_step, h_rest⟩ := Lts.run_cons_eq_some.mp h_run
    obtain ⟨h_queue, h_log⟩ := step_turn h_table h_e h_step
    obtain ⟨h_queues, h_logs, h_end⟩ := ih ((step_moves h_table h_step).tableOk h_table) h_es h_rest
    have h_turns : turnsIn c d (e :: es) = (turn c d e).toList ++ turnsIn c d' es := by
      rw [turnsIn, h_step]
    have h_reqs : (e :: es).filterMap (Event.req c) =
        (e.req c).toList ++ es.filterMap (Event.req c) := by
      rw [List.filterMap_cons]
      cases e.req c <;> rfl
    refine ⟨?_, ?_, h_end⟩
    · rw [h_turns, h_reqs, List.map_append, List.append_assoc, h_queues, ← List.append_assoc,
        h_queue, List.append_assoc]
    · rw [h_turns, h_logs, h_log, List.filterMap_append, List.append_assoc]

/-- **REQs in order.**  In every run in which the allocations succeed, the REQs that have arrived
    are, in order of arrival, those that have had their turn and those that are still queued; what
    was executed is, in that order, what the turns executed; and no endpoint has two sessions. -/
theorem requests_in_order {c : BpshdCfg} {d : Bpshd} {es : List Event}
    (h_mem : ∀ e ∈ es, e.memOk = true) (h_run : Lts.run (step c) Bpshd.start es = some d) :
    (turnsIn c Bpshd.start es).map Turn.req ++ d.deferred.filterMap (queuedReq c) =
        es.filterMap (Event.req c) ∧
      executions d.log = (turnsIn c Bpshd.start es).filterMap Turn.execution ∧
      (d.sessions.map (·.sourceEid)).Nodup := by
  obtain ⟨h_queue, h_log, h_table⟩ := run_turns (tableOk_start c) h_mem h_run
  exact ⟨h_queue, h_log, h_table.eids⟩

/-- The second client's REQ arrives while the first one's command runs, and both are executed. -/
theorem requests_in_order_deferred : ∃ d,
    Lts.run (step (sampleCfg fun _ => true)) Bpshd.start deferredEvents = some d ∧
      (executions d.log).map Prod.fst = [("ipn:2.22", 7), ("ipn:3.22", 7)] ∧
        (turnsIn (sampleCfg fun _ => true) Bpshd.start deferredEvents).map Turn.req ++
            d.deferred.filterMap (queuedReq (sampleCfg fun _ => true)) =
          deferredEvents.filterMap (Event.req (sampleCfg fun _ => true)) := by
  have h_run : (Lts.run (step (sampleCfg fun _ => true)) Bpshd.start deferredEvents).map
      (fun d => (executions d.log).map Prod.fst) = some [("ipn:2.22", 7), ("ipn:3.22", 7)] := by
    decide +kernel
  obtain ⟨d, h_d, h_executions⟩ := Option.map_eq_some_iff.mp h_run
  have h_mem : ∀ e ∈ deferredEvents, e.memOk = true := by
    decide +kernel
  exact ⟨d, h_d, h_executions, (requests_in_order h_mem h_d).1⟩

/-- The sessions of the REQs that find their session alive on arrival. -/
def liveReqs (c : BpshdCfg) : Bpshd → List Event → List (Eid × Nat)
  | _, [] => []
  | d, e :: es => ((e.req c).bind fun req => (liveSession d req.1 req.2).map (·.client)).toList ++
    match step c d e with
    | none => []
    | some d' => liveReqs c d' es

/-- A client's second REQ arrives while its first command runs, which ends the shell. -/
def exitEvents : List Event :=
  forwardingInit "ipn:2.22" ++ [.recv [3, 108, 115] "ipn:2.22" sampleEnv,
    .round quietRound ⟨[], [], none⟩, .poll [3, 99] "ipn:2.22" true true, .pollEnd,
    .round ⟨.ready, 0, .closed, .closed, .nothing⟩ ⟨[], [], none⟩, .prune 0, .drain sampleEnv]

/-- The second one is refused, though its session was alive when it arrived. -/
theorem queuedReq_refused : ¬ ∀ (c : BpshdCfg) (es : List Event) (d : Bpshd),
    (∀ e ∈ es, e.memOk = true) → Lts.run (step c) Bpshd.start es = some d → d.idle →
      d.deferred = [] → (executions d.log).map Prod.fst = liveReqs c Bpshd.start es := by
  intro h_claim
  have h_run : (Lts.run (step (sampleCfg fun _ => true)) Bpshd.start exitEvents).map
      (fun d => (decide d.idle, d.deferred, (executions d.log).map Prod.fst)) =
        some (true, [], [("ipn:2.22", 7)]) := by
    decide +kernel
  have h_live : liveReqs (sampleCfg fun _ => true) Bpshd.start exitEvents =
      [("ipn:2.22", 7), ("ipn:2.22", 7)] := by
    decide +kernel
  have h_mem : ∀ e ∈ exitEvents, e.memOk = true := by
    decide +kernel
  obtain ⟨d, h_d, h_fields⟩ := Option.map_eq_some_iff.mp h_run
  simp only [Prod.mk.injEq, decide_eq_true_eq] at h_fields
  obtain ⟨h_idle, h_deferred, h_executions⟩ := h_fields
  have h_all := h_claim _ _ d h_mem h_d h_idle h_deferred
  rw [h_executions, h_live] at h_all
  cases h_all

end IonContrib.Bpsh
