/-
  IonContrib.Bpsh.Numbering

  The sequence numbers of a session's frames when sends fail.

  In every reachable state the frames of a session follow the rule `Follows`:
  `sendStream` takes a number only for a piece that is sent, every other call
  takes it in the argument list of the send.  So the numbers of the frames that
  were sent are contiguous, with none lost, exactly when no frame but a piece
  of output has failed to be sent (`frames_contiguous_iff`).
-/
import IonContrib.Bpsh.Moves

namespace IonContrib.Bpsh

/-- The invariant: the frames of every session are numbered by the rule, and a session goes on
    where its frames left off. -/
structure Numbered (d : Bpshd) : Prop where
  follows : ∀ pid, Follows 0 (attempts pid d.log)
  next : ∀ s ∈ d.sessions, s.replySeq = nextAfter 0 (attempts s.shellPid d.log)
  fresh : ∀ pid, d.forks ≤ pid → attempts pid d.log = []

/-- Effects that are no session's frames leave the numbering alone. -/
theorem Numbered.of_attempts {d d' : Bpshd} (h : Numbered d)
    (h_sessions : ∀ s ∈ d'.sessions, s ∈ d.sessions) (h_forks : d.forks ≤ d'.forks)
    (h_log : ∀ pid, attempts pid d'.log = attempts pid d.log) : Numbered d' where
  follows pid := by
    rw [h_log]
    exact h.follows pid
  next s h_s := by
    rw [h_log]
    exact h.next s (h_sessions s h_s)
  fresh pid h_pid := by
    rw [h_log]
    exact h.fresh pid (h_forks.trans h_pid)

/-- An effect that is no numbered frame of any session. -/
theorem attempts_snoc {log : List Effect} {e : Effect} (h : ∀ pid, e.attempt pid = none)
    (pid : Nat) : attempts pid (log ++ [e]) = attempts pid log := by
  rw [attempts_append]
  show attempts pid log ++ [e].filterMap (Effect.attempt pid) = attempts pid log
  rw [List.filterMap_cons_none (h pid), List.filterMap_nil, List.append_nil]

theorem Numbered.serve {c : BpshdCfg} {poll : Bool} {d : Bpshd} {s s' : BpshSession}
    {log : List Effect} (h : Numbered d) (h_table : TableOk c d) (h_s : s ∈ d.sessions)
    (h_served : Served poll d.log s log s') : Numbered (d.put log s') := by
  obtain ⟨es, rfl, h_serves⟩ := h_served
  have h_other : ∀ pid, pid ≠ s.shellPid → attempts pid (d.log ++ es) = attempts pid d.log := by
    intro pid h_ne
    have h_none : attempts pid es = [] := by
      apply attempts_of_session_ne
      intro e h_e h_eq
      rw [h_serves.own e h_e] at h_eq
      exact h_ne (Option.some.inj h_eq).symm
    rw [attempts_append, h_none, List.append_nil]
  refine ⟨?_, ?_, ?_⟩
  · intro pid
    show Follows 0 (attempts pid (d.log ++ es))
    by_cases h_pid : pid = s.shellPid
    · rw [h_pid, attempts_append, follows_append, ← h.next s h_s]
      exact ⟨h.follows s.shellPid, h_serves.follows⟩
    · rw [h_other pid h_pid]
      exact h.follows pid
  · intro t h_t
    show t.replySeq = nextAfter 0 (attempts t.shellPid (d.log ++ es))
    obtain ⟨u, h_u, rfl⟩ := List.mem_map.mp h_t
    by_cases h_pid : u.shellPid = s'.shellPid
    · rw [if_pos h_pid, h_serves.pid, attempts_append, nextAfter_append, ← h.next s h_s]
      exact h_serves.next
    · rw [if_neg h_pid, h_other u.shellPid (h_serves.pid ▸ h_pid)]
      exact h.next u h_u
  · intro pid h_pid
    show attempts pid (d.log ++ es) = []
    have h_lt := h_table.forked s h_s
    have h_pid' : d.forks ≤ pid := h_pid
    rw [h_other pid (by omega)]
    exact h.fresh pid h_pid'

theorem Move.numbered {c : BpshdCfg} (poll : Bool) (d d' : Bpshd) (h_table : TableOk c d)
    (h : Numbered d) (h_move : Move c poll d d') : Numbered d' := by
  cases h_move with
  | reply dest frame =>
    exact h.of_attempts (fun _ h_s => h_s) le_rfl (attempts_snoc fun _ => rfl)
  | serve h_mem h_served => exact h.serve h_table h_mem h_served
  | close h_mem =>
    exact h.of_attempts (fun t h_t => ((h_table.mem_dropSession h_mem).mp h_t).1) le_rfl
      (attempts_snoc fun _ => rfl)
  | «open» cap h_pid h_seq h_allowed h_none =>
    rename_i s
    have h_log : ∀ pid, attempts pid (d.log ++ [.forked s.shellPid]) = attempts pid d.log :=
      attempts_snoc fun _ => rfl
    refine ⟨?_, ?_, ?_⟩
    · intro pid
      show Follows 0 (attempts pid (d.log ++ [.forked s.shellPid]))
      rw [h_log]
      exact h.follows pid
    · intro t h_t
      show t.replySeq = nextAfter 0 (attempts t.shellPid (d.log ++ [.forked s.shellPid]))
      rw [h_log]
      rcases List.mem_append.mp h_t with h_t | h_t
      · exact h.next t h_t
      · -- The new shell has sent nothing yet.
        rw [List.mem_singleton.mp h_t, h_seq, h.fresh s.shellPid h_pid.ge]
        rfl
    · intro pid h_le
      show attempts pid (d.log ++ [.forked s.shellPid]) = []
      have h_le' : d.forks + 1 ≤ pid := h_le
      rw [h_log]
      exact h.fresh pid (by omega)
  | spare =>
    refine h.of_attempts (fun _ h_s => h_s) (Nat.le_succ _) fun pid => ?_
    show attempts pid (d.log ++ ([.forked d.forks] ++ [.closed d.forks])) = _
    rw [← List.append_assoc, attempts_snoc (fun _ => rfl), attempts_snoc fun _ => rfl]
  | closeAll =>
    refine h.of_attempts (fun s h_s => (List.not_mem_nil h_s).elim) le_rfl fun pid => ?_
    show attempts pid (d.log ++ d.sessions.map fun s => .closed s.shellPid) = _
    have h_none : attempts pid (d.sessions.map fun s => .closed s.shellPid) = [] := by
      apply List.filterMap_eq_nil_iff.mpr
      intro e h_e
      obtain ⟨s, -, rfl⟩ := List.mem_map.mp h_e
      rfl
    rw [attempts_append, h_none, List.append_nil]
  | rest h_sessions h_forks h_log =>
    refine h.of_attempts (fun s h_s => h_sessions ▸ h_s) h_forks.ge fun pid => ?_
    rw [h_log]

theorem reachable_numbered {c : BpshdCfg} {d : Bpshd}
    (h : Lts.Reachable (step c) Bpshd.start d) : Numbered d := by
  refine (reachable_invariant ?_ Move.numbered h).2
  exact ⟨fun _ => trivial, fun s h_s => (List.not_mem_nil h_s).elim, fun _ _ => rfl⟩

/-! ## Contiguous numbers -/

/-- The frames of those attempts that were sent. -/
def sentFrames (as : List Attempt) : List BpshFrame := (as.filter (·.ok)).map (·.frame)

/-- What the client's in-order receiver needs: from `n` on, the numbers of the frames sent are
    contiguous, and none is taken by a frame that was not sent. -/
structure ContiguousFrom (n : Nat) (as : List Attempt) : Prop where
  numbers : (sentFrames as).map (·.seqNum) = List.range' n (sentFrames as).length
  taken : ∀ a ∈ as, a.next = if a.ok then a.frame.seqNum + 1 else a.frame.seqNum

/-- When every frame but a piece of output is sent, and the counter does not wrap. -/
def AllSent (n : Nat) (as : List Attempt) : Prop :=
  (∀ a ∈ as, a.ok = false → a.frame.isOutput = true) ∧ n + (sentFrames as).length < 2 ^ 64

theorem contiguousFrom_iff {n : Nat} {as : List Attempt} (h_n : n < 2 ^ 64)
    (h : Follows n as) : ContiguousFrom n as ↔ AllSent n as := by
  induction as generalizing n with
  | nil =>
    refine ⟨fun _ => ⟨fun a h_a => (List.not_mem_nil h_a).elim, h_n⟩, fun _ => ⟨rfl, ?_⟩⟩
    exact fun a h_a => (List.not_mem_nil h_a).elim
  | cons a as ih =>
    obtain ⟨h_seq, h_next, h_rest⟩ := h
    have h_lt : a.next < 2 ^ 64 := by
      rw [h_next]
      split
      · exact Nat.mod_lt _ (by decide)
      · exact h_n
    have h_ih := ih h_lt h_rest
    cases h_ok : a.ok with
    | false =>
      have h_sent : sentFrames (a :: as) = sentFrames as := by
        simp [sentFrames, h_ok]
      rw [h_ok, Bool.false_or] at h_next
      constructor
      · intro h_cont
        have h_taken := h_cont.taken a List.mem_cons_self
        rw [h_ok, if_neg Bool.false_ne_true, h_seq] at h_taken
        -- The number is still free, so the frame was a piece of output.
        have h_output : a.frame.isOutput = true := by
          by_contra h_not
          rw [Bool.eq_false_iff.mpr h_not, Bool.not_false, if_pos rfl, nextSeq] at h_next
          omega
        rw [h_taken] at h_ih
        obtain ⟨h_all, h_few⟩ := h_ih.mp ⟨h_sent ▸ h_cont.numbers,
          fun b h_b => h_cont.taken b (List.mem_cons_of_mem a h_b)⟩
        refine ⟨?_, h_sent ▸ h_few⟩
        exact List.forall_mem_cons.mpr ⟨fun _ => h_output, h_all⟩
      · rintro ⟨h_all, h_few⟩
        obtain ⟨h_output, h_all⟩ := List.forall_mem_cons.mp h_all
        rw [h_output h_ok, Bool.not_true, if_neg Bool.false_ne_true] at h_next
        rw [h_next] at h_ih
        obtain ⟨h_numbers, h_taken⟩ := h_ih.mpr ⟨h_all, h_sent ▸ h_few⟩
        refine ⟨h_sent ▸ h_numbers, List.forall_mem_cons.mpr ⟨?_, h_taken⟩⟩
        rw [h_ok, if_neg Bool.false_ne_true, h_next, h_seq]
    | true =>
      have h_sent : sentFrames (a :: as) = a.frame :: sentFrames as := by
        simp [sentFrames, h_ok]
      rw [h_ok, Bool.true_or, if_pos rfl, nextSeq] at h_next
      constructor
      · intro h_cont
        have h_taken := h_cont.taken a List.mem_cons_self
        have h_numbers := h_cont.numbers
        rw [h_ok, if_pos rfl, h_seq] at h_taken
        rw [h_sent, List.map_cons, List.length_cons, List.range'_succ] at h_numbers
        rw [h_taken] at h_ih
        obtain ⟨h_all, h_few⟩ := h_ih.mp ⟨(List.cons.inj h_numbers).2,
          fun b h_b => h_cont.taken b (List.mem_cons_of_mem a h_b)⟩
        refine ⟨List.forall_mem_cons.mpr ⟨fun h_not => ?_, h_all⟩, ?_⟩
        · rw [h_ok] at h_not
          cases h_not
        · rw [h_sent, List.length_cons]
          omega
      · rintro ⟨h_all, h_few⟩
        rw [h_sent, List.length_cons] at h_few
        rw [Nat.mod_eq_of_lt (by omega)] at h_next
        rw [h_next] at h_ih
        obtain ⟨h_numbers, h_taken⟩ := h_ih.mpr ⟨(List.forall_mem_cons.mp h_all).2, by omega⟩
        refine ⟨?_, List.forall_mem_cons.mpr ⟨?_, h_taken⟩⟩
        · rw [h_sent, List.map_cons, List.length_cons, List.range'_succ, h_seq, h_numbers]
        · rw [h_ok, if_pos rfl, h_next, h_seq]

/-- **Frame numbers under send failures.**  Whatever the daemon has done, with any pattern of
    sends that succeed and fail: the numbers of the frames that a session has sent are contiguous
    from 0, and none was taken by a frame that was not sent, if and only if every frame but a
    piece of output was sent. -/
theorem frames_contiguous_iff {c : BpshdCfg} {d : Bpshd}
    (h : Lts.Reachable (step c) Bpshd.start d) (pid : Nat) :
    ContiguousFrom 0 (attempts pid d.log) ↔ AllSent 0 (attempts pid d.log) :=
  contiguousFrom_iff (by decide) ((reachable_numbered h).follows pid)

/-! ## A failed send -/

/-- Frames of one octet for the type, and the payload; every one of session 7. -/
def sampleDecode : Octets → Option BpshFrame
  | 1 :: payload => some (bytesFrame .init 7 0 payload)
  | 3 :: payload => some (bytesFrame .req 7 0 payload)
  | 4 :: payload => some (bytesFrame .stdinChunk 7 0 payload)
  | 5 :: _ => some (bytesFrame .stdinEof 7 0 [])
  | 10 :: _ => some (bytesFrame .exitSession 7 0 [])
  | _ => none

/-- A daemon without a password gate or an allowlist. -/
def sampleCfg (sendOk : Nat → Bool) : BpshdCfg where
  decode := sampleDecode
  fnmatch := fun p e => p == e
  authSecret := none
  allowedEids := none
  cmdTimeoutMs := 300000
  idleTimeoutSecs := 86400
  sendOk := sendOk

/-- Nothing that `handleFrame` asks for is refused. -/
def sampleEnv : HandleEnv where
  openOk := true
  tableMem := true
  now := 0
  cwd := some [47]
  cmdMem := true
  start := ⟨0, 0, true, true⟩

/-- The daemon after one client's INIT. -/
def greeted (sendOk : Nat → Bool) : Bpshd :=
  ((step (sampleCfg sendOk) Bpshd.start (.recv [1] "ipn:2.22" sampleEnv)).getD Bpshd.start)

theorem greeted_reachable (sendOk : Nat → Bool) :
    Lts.Reachable (step (sampleCfg sendOk)) Bpshd.start (greeted sendOk) :=
  ⟨[.recv [1] "ipn:2.22" sampleEnv], rfl⟩

/-- With all sends succeeding, the working directory is frame 0 and the INIT_ACK frame 1. -/
theorem frames_contiguous_greeted : ContiguousFrom 0 (attempts 0 (greeted fun _ => true).log) :=
  (frames_contiguous_iff (greeted_reachable fun _ => true) 0).mpr
    ⟨by decide, by decide⟩

/-- The first send, of the working directory, fails: the INIT_ACK is sent as frame 1, and there
    is no frame 0. -/
theorem frames_cwdLost : ¬ ∀ (c : BpshdCfg) (d : Bpshd), Lts.Reachable (step c) Bpshd.start d →
    ∀ pid, ContiguousFrom 0 (attempts pid d.log) := by
  intro h_claim
  have h_cont := h_claim _ _ (greeted_reachable fun n => n != 1) 0
  exact absurd h_cont.numbers (by decide)

end IonContrib.Bpsh
