/-
  IonContrib.Bpsh.Stdin

  What becomes of forwarded standard input.

  A stdin frame is for the command of the last REQ of its client that is running
  or queued.  `owed` says which one that is when the frame arrives, `written`
  reads off the log which command got what.  Only a frame that is polled while
  its own session's command is running is ever written: from the queue a stdin
  frame goes to the default branch of `handleFrame`, which drops it.  So what is
  written is what is owed exactly when every frame is `OnTime` (`run_stdin_iff`).
-/
import IonContrib.Bpsh.Isolation

namespace IonContrib.Bpsh

/-! ## What was written -/

/-- An item of the standard input of one command: the `command`-th of the client's session. -/
structure Given where
  client : Eid × Nat
  command : Nat
  item : StdinItem
  deriving DecidableEq, Repr

def Effect.isCommandOf (client : Eid × Nat) : Effect → Bool
  | .command _ owner _ => owner = client
  | _ => false

/-- How many commands of that session have been started. -/
def commandsOf (client : Eid × Nat) (log : List Effect) : Nat :=
  log.countP (Effect.isCommandOf client)

/-- What an effect gives to a command, after the effects `before`. -/
def Effect.gives (before : List Effect) (e : Effect) : Option Given :=
  e.item.map fun given => ⟨given.1, commandsOf given.1 before, given.2⟩

def writtenFrom (before : List Effect) : List Effect → List Given
  | [] => []
  | e :: es => (e.gives before).toList ++ writtenFrom (before ++ [e]) es

/-- Everything that was written to standard inputs, in order. -/
def written (log : List Effect) : List Given := writtenFrom [] log

theorem writtenFrom_append (before log es : List Effect) :
    writtenFrom before (log ++ es) = writtenFrom before log ++ writtenFrom (before ++ log) es := by
  induction log generalizing before with
  | nil => simp [writtenFrom]
  | cons e log ih =>
    rw [List.cons_append, writtenFrom, writtenFrom, ih, List.append_assoc, List.append_assoc]
    rfl

theorem written_snoc (log : List Effect) (e : Effect) :
    written (log ++ [e]) = written log ++ (e.gives log).toList := by
  unfold written
  rw [writtenFrom_append, List.nil_append, writtenFrom, writtenFrom, List.append_nil]

theorem written_quiet {log es : List Effect} (h : ∀ e ∈ es, e.item = none) :
    written (log ++ es) = written log := by
  induction es generalizing log with
  | nil => rw [List.append_nil]
  | cons e es ih =>
    obtain ⟨h_e, h_es⟩ := List.forall_mem_cons.mp h
    have h_none : e.gives log = none := by
      rw [Effect.gives, h_e, Option.map_none]
    have h_cons : log ++ e :: es = log ++ [e] ++ es := by
      rw [List.append_assoc, List.singleton_append]
    rw [h_cons, ih h_es, written_snoc, h_none, Option.toList_none, List.append_nil]

/-! ## What is owed -/

/-- What a frame is to standard input; an empty chunk is nothing. -/
def frameItem (frame : BpshFrame) : Option StdinItem :=
  match frame.msgType with
  | .stdinChunk => if frame.payload = [] then none else some (.chunk frame.payload)
  | .stdinEof => some .eof
  | _ => none

def isReqOf (c : BpshdCfg) (client : Eid × Nat) (b : DeferredBundle) : Bool :=
  match c.decode b.bytes with
  | none => false
  | some frame => frame.msgType = .req ∧ (b.sourceEid, frame.sessionId) = client

def queuedReqs (c : BpshdCfg) (d : Bpshd) (client : Eid × Nat) : Nat :=
  d.deferred.countP (isReqOf c client)

/-- Whose command is running. -/
def runningClient (d : Bpshd) : Option (Eid × Nat) :=
  match d.current with
  | none => none
  | some r => (sessionOf d r.pid).map (·.client)

/-- The number of the client's last command that is running or queued. -/
def commandFor (c : BpshdCfg) (d : Bpshd) (client : Eid × Nat) : Option Nat :=
  if queuedReqs c d client ≠ 0 then some (commandsOf client d.log + queuedReqs c d client)
  else if runningClient d = some client then some (commandsOf client d.log)
  else none

/-- The bundle that a step takes from the endpoint. -/
def Event.arrival : Event → Option (Octets × Eid)
  | .recv bytes srcEid _ => some (bytes, srcEid)
  | .poll bytes srcEid _ _ => some (bytes, srcEid)
  | _ => none

/-- What a frame from there is owed as. -/
def owedFrame (c : BpshdCfg) (d : Bpshd) (frame : BpshFrame) (src : Eid) : Option Given :=
  match frameItem frame, commandFor c d (src, frame.sessionId) with
  | some item, some k => some ⟨(src, frame.sessionId), k, item⟩
  | _, _ => none

/-- What a step takes in for the standard input of a command that is running or queued. -/
def owed (c : BpshdCfg) (d : Bpshd) (e : Event) : Option Given :=
  match e.arrival with
  | none => none
  | some (bytes, src) =>
    match bpshRecvFrame c bytes with
    | none => none
    | some frame => owedFrame c d frame src

/-- All that a run has taken in. -/
def owedIn (c : BpshdCfg) : Bpshd → List Event → List Given
  | _, [] => []
  | d, e :: es => (owed c d e).toList ++
    match step c d e with
    | none => []
    | some d' => owedIn c d' es

def Event.writeOk : Event → Bool
  | .poll _ _ writeOk _ => writeOk
  | _ => true

/-- The session of the running command has its standard input still open. -/
def stdinOpen (d : Bpshd) : Prop :=
  ∃ r s, d.current = some r ∧ sessionOf d r.pid = some s ∧ s.userStdinFd = true

/-- A stdin frame for a command arrives while that very command is running, with no other REQ of
    its client queued and its standard input open, and a write to it succeeds. -/
def OnTime (c : BpshdCfg) (d : Bpshd) (e : Event) : Prop :=
  ∀ g, owed c d e = some g → runningClient d = some g.client ∧ queuedReqs c d g.client = 0 ∧
    stdinOpen d ∧ (g.item = .eof ∨ e.writeOk = true)

theorem OnTime.of_none {c : BpshdCfg} {d : Bpshd} {e : Event} (h : owed c d e = none) :
    OnTime c d e := by
  intro g h_g
  rw [h] at h_g
  cases h_g

/-! ## One step -/

/-- A step writes what it owes when it is on time, and else does not write it. -/
structure Settles (c : BpshdCfg) (d d' : Bpshd) (e : Event) (new : List Given) : Prop where
  written : written d'.log = written d.log ++ new
  onTime : OnTime c d e → new = (owed c d e).toList
  late : ¬ OnTime c d e → ∃ g, owed c d e = some g ∧ g ∉ new ∧ new.length ≤ 1

theorem Settles.of_none {c : BpshdCfg} {d d' : Bpshd} {e : Event} (h_owed : owed c d e = none)
    (h_log : Bpsh.written d'.log = Bpsh.written d.log) : Settles c d d' e [] where
  written := by rw [h_log, List.append_nil]
  onTime := fun _ => by rw [h_owed, Option.toList_none]
  late := fun h => absurd (OnTime.of_none h_owed) h

theorem Settles.of_late {c : BpshdCfg} {d d' : Bpshd} {e : Event} {g : Given} {new : List Given}
    (h_log : Bpsh.written d'.log = Bpsh.written d.log ++ new) (h_owed : owed c d e = some g)
    (h_late : ¬ OnTime c d e) (h_not : g ∉ new) (h_len : new.length ≤ 1) :
    Settles c d d' e new where
  written := h_log
  onTime := fun h => absurd h h_late
  late := fun _ => ⟨g, h_owed, h_not, h_len⟩

theorem Move.written {c : BpshdCfg} {d d' : Bpshd} (h : Move c false d d') :
    written d'.log = written d.log := by
  cases h with
  | reply dest frame =>
    apply written_quiet
    intro e h_e
    rw [List.mem_singleton.mp h_e]
    rfl
  | serve h_mem h_served =>
    obtain ⟨es, rfl, h_serves⟩ := h_served
    exact written_quiet (h_serves.quiet rfl)
  | close h_mem =>
    apply written_quiet
    intro e h_e
    rw [List.mem_singleton.mp h_e]
    rfl
  | «open» cap h_pid h_seq h_allowed h_none =>
    apply written_quiet
    intro e h_e
    rw [List.mem_singleton.mp h_e]
    rfl
  | spare =>
    apply written_quiet
    exact List.forall_mem_cons.mpr ⟨rfl, List.forall_mem_singleton.mpr rfl⟩
  | closeAll =>
    apply written_quiet
    intro e h_e
    obtain ⟨s, -, rfl⟩ := List.mem_map.mp h_e
    rfl
  | rest h_sessions h_forks h_log => rw [h_log]

theorem Moves.written {c : BpshdCfg} {d d' : Bpshd} (h : Moves c false d d') :
    written d'.log = written d.log := by
  exact Moves.invariant (fun t t' h_t h_move => h_move.written.trans h_t) rfl h

/-! ## A polled frame -/

/-- A stdin frame of the running session: the one thing that writes to a standard input. -/
theorem pollFrame_own {log : List Effect} {s : BpshSession} {frame : BpshFrame} {src : Eid}
    {item : StdinItem} (h_own : (src, frame.sessionId) = s.client)
    (h_item : frameItem frame = some item) (writeOk : Bool) :
    (pollFrame log s frame src writeOk).1 =
      if s.userStdinFd then
        log ++ [if item = .eof ∨ writeOk = false then .stdinClosed s.shellPid s.client
          else .stdin s.shellPid s.client frame.payload]
      else log := by
  obtain ⟨rfl, h_id⟩ := Prod.mk.inj h_own
  unfold pollFrame
  unfold frameItem at h_item
  split at h_item
  · rename_i h_type
    split at h_item
    · cases h_item
    rename_i h_some
    obtain rfl := Option.some.inj h_item
    rw [if_pos ⟨h_id, rfl, h_type⟩]
    by_cases h_open : s.userStdinFd = true
    · rw [if_pos ⟨h_open, h_some⟩, if_pos h_open]
      cases writeOk with
      | false => rfl
      | true => rfl
    · rw [if_neg fun h => h_open h.1, if_neg h_open]
  · rename_i h_type
    obtain rfl := Option.some.inj h_item
    rw [if_neg (by rw [h_type]; exact fun h => by cases h.2.2), if_pos ⟨h_id, rfl, h_type⟩]
    by_cases h_open : s.userStdinFd = true
    · rw [if_pos h_open, if_pos h_open]
      rfl
    · rw [if_neg h_open, if_neg h_open]
  · cases h_item

/-- Any other frame writes to none. -/
theorem pollFrame_other {log : List Effect} {s : BpshSession} {frame : BpshFrame} {src : Eid}
    (h : (src, frame.sessionId) = s.client → frameItem frame = none) (writeOk : Bool) :
    written (pollFrame log s frame src writeOk).1 = written log := by
  unfold pollFrame
  split
  · rename_i h_chunk
    have h_none := h (by rw [h_chunk.1, h_chunk.2.1]; rfl)
    unfold frameItem at h_none
    rw [h_chunk.2.2] at h_none
    split
    · rename_i h_both
      rw [if_neg h_both.2] at h_none
      cases h_none
    · rfl
  split
  · rename_i h_eof
    have h_none := h (by rw [h_eof.1, h_eof.2.1]; rfl)
    unfold frameItem at h_none
    rw [h_eof.2.2] at h_none
    cases h_none
  split
  · apply written_quiet
    intro e h_e
    rw [List.mem_singleton.mp h_e]
    rfl
  · rfl

theorem pollIncoming_log {c : BpshdCfg} {d : Bpshd} {s : BpshSession} {bytes : Octets}
    {frame : BpshFrame} (h_frame : bpshRecvFrame c bytes = some frame) (src : Eid)
    (writeOk deferMem : Bool) :
    (pollIncoming c d s bytes src writeOk deferMem).log =
      (pollFrame d.log s frame src writeOk).1 := by
  unfold pollIncoming
  rw [h_frame]
  dsimp only
  split
  · rename_i log s' h_eq
    rw [h_eq]
    rfl
  · rename_i log s' h_eq
    rw [h_eq]
    split <;> rfl

theorem poll_settles {c : BpshdCfg} {d : Bpshd} {r : Running} {s : BpshSession} {bytes : Octets}
    {src : Eid} {writeOk deferMem : Bool} (h_current : d.current = some r)
    (h_find : sessionOf d r.pid = some s) :
    ∃ new, Settles c d (pollIncoming c d s bytes src writeOk deferMem)
      (.poll bytes src writeOk deferMem) new := by
  have h_running : runningClient d = some s.client := by
    rw [runningClient, h_current]
    dsimp only
    rw [h_find, Option.map_some]
  cases h_frame : bpshRecvFrame c bytes with
  | none =>
    have h_owed : owed c d (.poll bytes src writeOk deferMem) = none := by
      simp only [owed, Event.arrival, h_frame]
    refine ⟨[], .of_none h_owed ?_⟩
    rw [pollIncoming, h_frame]
  | some frame =>
    have h_owed : owed c d (.poll bytes src writeOk deferMem) = owedFrame c d frame src := by
      simp only [owed, Event.arrival, h_frame]
    have h_log := pollIncoming_log (d := d) (s := s) h_frame src writeOk deferMem
    by_cases h_own : (src, frame.sessionId) = s.client
    · cases h_item : frameItem frame with
      | none =>
        have h_none : owedFrame c d frame src = none := by rw [owedFrame, h_item]
        refine ⟨[], .of_none (h_owed.trans h_none) ?_⟩
        rw [h_log, pollFrame_other fun _ => h_item]
      | some item =>
        rw [pollFrame_own h_own h_item] at h_log
        by_cases h_queued : queuedReqs c d s.client = 0
        · -- The running command is the one that the frame is for.
          have h_some : owed c d (.poll bytes src writeOk deferMem) =
              some ⟨s.client, commandsOf s.client d.log, item⟩ := by
            rw [h_owed, owedFrame, h_item, h_own, commandFor, if_neg (not_not.mpr h_queued),
              if_pos h_running]
          by_cases h_open : s.userStdinFd = true
          · rw [if_pos h_open] at h_log
            by_cases h_write : item = .eof ∨ writeOk = true
            · refine ⟨[⟨s.client, commandsOf s.client d.log, item⟩], ?_, ?_, ?_⟩
              · rw [h_log, written_snoc]
                congr 1
                rcases item with data | _
                · have h_ok : writeOk = true := h_write.resolve_left (by simp)
                  have h_data : frame.payload = data := by
                    unfold frameItem at h_item
                    split at h_item
                    · split at h_item
                      · cases h_item
                      · exact StdinItem.chunk.inj (Option.some.inj h_item)
                    · cases h_item
                    · cases h_item
                  rw [if_neg (by simp [h_ok]), h_data]
                  rfl
                · rw [if_pos (.inl rfl)]
                  rfl
              · intro _
                rw [h_some, Option.toList_some]
              · intro h_late
                refine absurd ?_ h_late
                intro g h_g
                obtain rfl := Option.some.inj (h_some.symm.trans h_g)
                exact ⟨h_running, h_queued, ⟨r, s, h_current, h_find, h_open⟩, h_write⟩
            · -- The failed write closes the pipe instead.
              obtain ⟨h_chunk, h_fails⟩ := not_or.mp h_write
              refine ⟨[⟨s.client, commandsOf s.client d.log, .eof⟩], .of_late ?_ h_some ?_ ?_ ?_⟩
              · rw [h_log, written_snoc, if_pos (.inr (Bool.eq_false_iff.mpr h_fails))]
                rfl
              · exact fun h => h_write (h _ h_some).2.2.2
              · rw [List.mem_singleton]
                exact fun h => h_chunk (congrArg Given.item h)
              · rfl
          · rw [if_neg h_open] at h_log
            refine ⟨[], .of_late ?_ h_some ?_ (List.not_mem_nil) (Nat.zero_le 1)⟩
            · rw [h_log, List.append_nil]
            · intro h
              obtain ⟨-, -, ⟨r', s', h_r', h_s', h_open'⟩, -⟩ := h _ h_some
              obtain rfl := Option.some.inj (h_current.symm.trans h_r')
              obtain rfl := Option.some.inj (h_find.symm.trans h_s')
              exact h_open h_open'
        · -- It is for a later command of the same client.
          have h_some : owed c d (.poll bytes src writeOk deferMem) =
              some ⟨s.client, commandsOf s.client d.log + queuedReqs c d s.client, item⟩ := by
            rw [h_owed, owedFrame, h_item, h_own, commandFor, if_pos h_queued]
          have h_late : ¬ OnTime c d (.poll bytes src writeOk deferMem) :=
            fun h => h_queued (h _ h_some).2.1
          by_cases h_open : s.userStdinFd = true
          · rw [if_pos h_open] at h_log
            refine ⟨_, .of_late ((congrArg written h_log).trans (written_snoc _ _)) h_some h_late
              ?_ ?_⟩
            · have h_ne : commandsOf s.client d.log + queuedReqs c d s.client ≠
                  commandsOf s.client d.log := by omega
              split
              · rw [Effect.gives, Effect.item, Option.map_some, Option.toList_some,
                  List.mem_singleton]
                exact fun h => h_ne (congrArg Given.command h)
              · rw [Effect.gives, Effect.item, Option.map_some, Option.toList_some,
                  List.mem_singleton]
                exact fun h => h_ne (congrArg Given.command h)
            · split <;> exact Nat.le_refl 1
          · rw [if_neg h_open] at h_log
            refine ⟨[], .of_late ?_ h_some h_late (List.not_mem_nil) (Nat.zero_le 1)⟩
            rw [h_log, List.append_nil]
    · have h_same : written (pollIncoming c d s bytes src writeOk deferMem).log = written d.log := by
        rw [h_log, pollFrame_other fun h => absurd h h_own]
      cases h_some : owedFrame c d frame src with
      | none => exact ⟨[], .of_none (h_owed.trans h_some) h_same⟩
      | some g =>
        -- Another client's frame is deferred, and is for a command that is queued.
        refine ⟨[], .of_late (by rw [h_same, List.append_nil]) (h_owed.trans h_some) ?_
          (List.not_mem_nil) (Nat.zero_le 1)⟩
        intro h
        have h_client := (h g (h_owed.trans h_some)).1
        unfold owedFrame at h_some
        split at h_some
        · obtain rfl := Option.some.inj h_some
          exact h_own (Option.some.inj (h_client.symm.trans h_running))
        · cases h_some

/-! ## Runs -/

theorem step_settles {c : BpshdCfg} {d d' : Bpshd} {e : Event} (h : TableOk c d)
    (h_step : step c d e = some d') : ∃ new, Settles c d d' e new := by
  have h_quiet : e.isPoll = false → written d'.log = written d.log := by
    intro h_poll
    have h_moves := step_moves h h_step
    rw [h_poll] at h_moves
    exact h_moves.written
  cases e with
  | poll bytes src writeOk deferMem =>
    simp only [step] at h_step
    split at h_step
    · cases h_step
    rename_i r h_current
    split at h_step
    · obtain ⟨s, h_find, rfl⟩ := Option.map_eq_some_iff.mp h_step
      exact poll_settles h_current h_find
    · cases h_step
  | recv bytes src env =>
    -- Nothing is queued or running when the receive loop takes a bundle.
    refine ⟨[], .of_none ?_ (h_quiet rfl)⟩
    simp only [step] at h_step
    split at h_step
    · rename_i h_idle
      have h_for : ∀ client, commandFor c d client = none := by
        intro client
        have h_queued : queuedReqs c d client = 0 := by
          rw [queuedReqs, h_idle.2, List.countP_nil]
        have h_running : runningClient d = none := by
          rw [runningClient, h_idle.1.2.1]
        rw [commandFor, if_neg (not_not.mpr h_queued), h_running]
        exact if_neg (fun h => by cases h)
      simp only [owed, Event.arrival]
      split
      · rfl
      · rename_i frame h_frame
        rw [owedFrame, h_for]
        cases frameItem frame <;> rfl
    · cases h_step
  | drain env => exact ⟨[], .of_none rfl (h_quiet rfl)⟩
  | prune now => exact ⟨[], .of_none rfl (h_quiet rfl)⟩
  | round rd env => exact ⟨[], .of_none rfl (h_quiet rfl)⟩
  | pollEnd => exact ⟨[], .of_none rfl (h_quiet rfl)⟩
  | quit => exact ⟨[], .of_none rfl (h_quiet rfl)⟩
  | teardown => exact ⟨[], .of_none rfl (h_quiet rfl)⟩

/-- What a run has written never exceeds what it owes, and is it when all is on time. -/
theorem run_settles {c : BpshdCfg} {d t : Bpshd} {es : List Event} (h : TableOk c d)
    (h_run : Lts.run (step c) d es = some t) :
    ∃ news, written t.log = written d.log ++ news ∧ news.length ≤ (owedIn c d es).length ∧
      (news = owedIn c d es ↔ Lts.Meets (step c) (OnTime c) d es) := by
  induction es generalizing d with
  | nil =>
    obtain rfl : d = t := by simpa using h_run
    exact ⟨[], (List.append_nil _).symm, Nat.le_refl _, iff_of_true rfl trivial⟩
  | cons e es ih =>
    obtain ⟨d', h_step, h_rest⟩ := Lts.run_cons_eq_some.mp h_run
    obtain ⟨new, h_new⟩ := step_settles h h_step
    obtain ⟨news, h_written, h_len, h_iff⟩ := ih ((step_moves h h_step).tableOk h) h_rest
    have h_owed : owedIn c d (e :: es) = (owed c d e).toList ++ owedIn c d' es := by
      rw [owedIn, h_step]
    have h_meets : Lts.Meets (step c) (OnTime c) d (e :: es) ↔
        OnTime c d e ∧ Lts.Meets (step c) (OnTime c) d' es := by
      show (OnTime c d e ∧ ∀ s', step c d e = some s' → Lts.Meets _ _ s' es) ↔ _
      rw [h_step]
      simp
    refine ⟨new ++ news, ?_, ?_, ?_⟩
    · rw [h_written, h_new.written, List.append_assoc]
    · rw [h_owed, List.length_append, List.length_append]
      by_cases h_time : OnTime c d e
      · rw [h_new.onTime h_time]
        omega
      · obtain ⟨g, h_g, -, h_one⟩ := h_new.late h_time
        rw [h_g, Option.toList_some, List.length_singleton]
        omega
    · rw [h_meets, h_owed]
      by_cases h_time : OnTime c d e
      · rw [h_new.onTime h_time, List.append_cancel_left_eq, h_iff]
        exact (and_iff_right h_time).symm
      · refine iff_of_false ?_ (fun h_both => h_time h_both.1)
        -- What is late is missing at its place for good.
        obtain ⟨g, h_g, h_not, h_one⟩ := h_new.late h_time
        rw [h_g, Option.toList_some]
        intro h_eq
        cases new with
        | nil =>
          have h_length := congrArg List.length h_eq
          rw [List.nil_append, List.length_append, List.length_singleton] at h_length
          omega
        | cons x xs =>
          have h_head := (List.cons.inj h_eq).1
          exact h_not (h_head ▸ List.mem_cons_self)

/-- **Forwarded standard input.**  After every run, what was written to the standard inputs of
    commands is what the clients' frames owed them, each item once, in order and to the very
    command, if and only if every stdin frame for a running or queued command arrived on time. -/
theorem run_stdin_iff {c : BpshdCfg} {d : Bpshd} {es : List Event}
    (h_run : Lts.run (step c) Bpshd.start es = some d) :
    written d.log = owedIn c Bpshd.start es ↔
      Lts.Meets (step c) (OnTime c) Bpshd.start es := by
  obtain ⟨news, h_written, -, h_iff⟩ := run_settles (tableOk_start c) h_run
  rw [h_written]
  exact h_iff

/-- The events in which a client opens a session that forwards standard input. -/
def forwardingInit (client : Eid) : List Event := [.recv [1, 1] client sampleEnv, .prune 0]

/-- A round in which the command's exit code 0 arrives. -/
def lastRound : Event := .round ⟨.ready, 0, .nothing, .nothing, .data [48, 10]⟩ ⟨[], [], none⟩

/-- A chunk and the end of standard input, both polled by the client's own running command. -/
def promptEvents : List Event :=
  forwardingInit "ipn:2.22" ++ [.recv [3, 108, 115] "ipn:2.22" sampleEnv,
    .round quietRound ⟨[], [], none⟩, .poll [4, 65] "ipn:2.22" true true,
    .poll [5] "ipn:2.22" true true]

theorem run_stdin_prompt : ∃ d,
    Lts.run (step (sampleCfg fun _ => true)) Bpshd.start promptEvents = some d ∧
      written d.log = [⟨("ipn:2.22", 7), 1, .chunk [65]⟩, ⟨("ipn:2.22", 7), 1, .eof⟩] ∧
        Lts.Meets (step (sampleCfg fun _ => true)) (OnTime (sampleCfg fun _ => true))
          Bpshd.start promptEvents := by
  have h_run : (Lts.run (step (sampleCfg fun _ => true)) Bpshd.start promptEvents).map
      (fun d => written d.log) =
        some [⟨("ipn:2.22", 7), 1, .chunk [65]⟩, ⟨("ipn:2.22", 7), 1, .eof⟩] := by
    decide +kernel
  have h_owed : owedIn (sampleCfg fun _ => true) Bpshd.start promptEvents =
      [⟨("ipn:2.22", 7), 1, .chunk [65]⟩, ⟨("ipn:2.22", 7), 1, .eof⟩] := by
    decide +kernel
  obtain ⟨d, h_d, h_written⟩ := Option.map_eq_some_iff.mp h_run
  exact ⟨d, h_d, h_written, (run_stdin_iff h_d).mp (h_written.trans h_owed.symm)⟩

/-- The REQ, a chunk and the end of standard input of the second client are polled while the
    first one's command runs; then everything that was deferred is replayed. -/
def deferredEvents : List Event :=
  forwardingInit "ipn:2.22" ++ forwardingInit "ipn:3.22" ++
    [.recv [3, 108, 115] "ipn:2.22" sampleEnv, .round quietRound ⟨[], [], none⟩,
      .poll [3, 99] "ipn:3.22" true true, .poll [4, 65] "ipn:3.22" true true,
      .poll [5] "ipn:3.22" true true, .pollEnd, lastRound, .prune 0,
      .drain sampleEnv, lastRound, .drain sampleEnv, .drain sampleEnv]

/-- In the end the second client's command has run and got nothing of it. -/
theorem deferred_stdin_lost : ¬ ∀ (c : BpshdCfg) (es : List Event) (d : Bpshd),
    Lts.run (step c) Bpshd.start es = some d → d.current = none → d.deferred = [] →
      written d.log = owedIn c Bpshd.start es := by
  intro h_claim
  have h_run : (Lts.run (step (sampleCfg fun _ => true)) Bpshd.start deferredEvents).map
      (fun d => (d.current, d.deferred, written d.log)) = some (none, [], []) := by
    decide +kernel
  have h_owed : owedIn (sampleCfg fun _ => true) Bpshd.start deferredEvents =
      [⟨("ipn:3.22", 7), 1, .chunk [65]⟩, ⟨("ipn:3.22", 7), 1, .eof⟩] := by
    decide +kernel
  obtain ⟨d, h_d, h_fields⟩ := Option.map_eq_some_iff.mp h_run
  simp only [Prod.mk.injEq] at h_fields
  obtain ⟨h_current, h_deferred, h_written⟩ := h_fields
  have h_all := h_claim _ _ d h_d h_current h_deferred
  rw [h_written, h_owed] at h_all
  cases h_all

end IonContrib.Bpsh
