/-
  IonContrib.Zcl.Settle

  Why `settle` ends.  A round of `drain` that goes on makes `drainRank`
  smaller, a round of `settle` that goes on makes `settleRank` smaller, and a
  buffer within its limits is worth less than the guard of a million rounds
  (`settleRounds_calm`).  So the stream of every carrier put into the buffer,
  and every stream after a tick, is within its limits with a head that has not
  waited too long (`run_calm`).

  * A carrier that is old, there already or found no memory does not lead to
    `settle`, so the wait of the head is not looked at (`duplicate_waits`).
  * Chunk 2^64-1 has no successor: nothing below it is dropped when it ends,
    and the rounds go on until the guard ends them (`maxChunk_waits`).
-/
import IonContrib.Zcl.RxInv

namespace IonContrib.Zcl

open SortedBuf

variable {c : ZclCfg}

/-! ## Rounds of drain -/

/-- Whether `drain` has something to do. -/
def goesOn (s : c.Stream) : Bool :=
  match s.buf with
  | [] => false
  | p :: _ =>
    if !s.synced then
      match firstStart s.buf with
      | none => false
      | some start => decide (start.chunk = (if s.haveDone then nextChunk s.done else 0))
    else decide (p.chunk = s.cur ∧ p.seq = s.next)

theorem drainRound_none {w : ZclWork} {s : c.Stream} (h : goesOn s = false) :
    drainRound c w s = none := by
  unfold goesOn at h
  unfold drainRound
  cases h_buf : s.buf with
  | nil => rfl
  | cons p rest =>
    rw [h_buf] at h
    dsimp only at h ⊢
    cases h_synced : s.synced with
    | false =>
      rw [h_synced, Bool.not_false, if_pos rfl] at h
      rw [Bool.not_false, if_pos rfl]
      cases h_start : firstStart (p :: rest) with
      | none => rfl
      | some start =>
        rw [h_start] at h
        dsimp only at h ⊢
        rw [if_pos (of_decide_eq_false h)]
    | true =>
      rw [h_synced, Bool.not_true, if_neg Bool.false_ne_true] at h
      rw [Bool.not_true, if_neg Bool.false_ne_true]
      have h_line : p.chunk ≠ s.cur ∨ p.seq ≠ s.next := by
        have h_not := of_decide_eq_false h
        omega
      rw [if_pos h_line]

theorem drainRound_some {w : ZclWork} {s : c.Stream} (h : goesOn s = true) :
    ∃ w' s', drainRound c w s = some (w', s') := by
  unfold goesOn at h
  unfold drainRound
  cases h_buf : s.buf with
  | nil =>
    rw [h_buf] at h
    cases h
  | cons p rest =>
    rw [h_buf] at h
    dsimp only at h ⊢
    cases h_synced : s.synced with
    | false =>
      rw [h_synced, Bool.not_false, if_pos rfl] at h
      rw [Bool.not_false, if_pos rfl]
      cases h_start : firstStart (p :: rest) with
      | none =>
        rw [h_start] at h
        cases h
      | some start =>
        rw [h_start] at h
        dsimp only at h ⊢
        rw [if_neg (not_not_intro (of_decide_eq_true h))]
        exact ⟨_, _, rfl⟩
    | true =>
      rw [h_synced, Bool.not_true, if_neg Bool.false_ne_true] at h
      rw [Bool.not_true, if_neg Bool.false_ne_true]
      have h_line : ¬ (p.chunk ≠ s.cur ∨ p.seq ≠ s.next) := by
        have h_eq := of_decide_eq_true h
        omega
      rw [if_neg h_line]
      rcases decodeCarrier c w (unbuffer c s p rest) p with ⟨w₁, s₁, ok⟩
      cases ok with
      | false => exact ⟨_, _, rfl⟩
      | true =>
        dsimp only
        split
        · exact ⟨_, _, rfl⟩
        · exact ⟨_, _, rfl⟩

theorem length_dropBelow_le (w : ZclWork) (s : c.Stream) (chunk : Nat) :
    (dropBelow c w s chunk).2.buf.length ≤ s.buf.length :=
  (List.dropWhile_suffix _).sublist.length_le

theorem length_endChunk_le (w : ZclWork) (s : c.Stream) :
    (endChunk c w s).2.buf.length ≤ s.buf.length :=
  length_dropBelow_le w { s with synced := false, haveDone := true, done := s.cur } _

theorem length_syncTo_le (w : ZclWork) (s : c.Stream) (chunk : Nat) :
    (syncTo c w s chunk).2.buf.length ≤ s.buf.length := length_dropBelow_le w s chunk

/-- A round of `drain` goes to a chunk, or takes a carrier off the buffer. -/
theorem drainRound_progress {w w' : ZclWork} {s s' : c.Stream}
    (h : drainRound c w s = some (w', s')) :
    (s.synced = false ∧ s'.synced = true ∧ s'.buf.length ≤ s.buf.length) ∨
      s'.buf.length < s.buf.length := by
  have h_pair : ∀ {x : ZclWork × c.Stream} {n : Nat}, (w', s') = x → x.2.buf.length ≤ n →
      s'.buf.length ≤ n := by
    rintro x n rfl h_x
    exact h_x
  rcases drainRound_cases h with ⟨h_synced, start, -, -, h_eq⟩ |
    ⟨-, p, rest, w₁, s₁, ok, h_buf, -, -, h_dec, h_out⟩
  · have h_s : s' = (syncTo c w s start.chunk).2 := congrArg Prod.snd h_eq
    refine Or.inl ⟨h_synced, by rw [h_s]; rfl, ?_⟩
    rw [h_s]
    exact length_syncTo_le w s start.chunk
  · obtain ⟨-, dctx, frameDone, records, h_keeps⟩ :=
      decodeCarrier_keeps w (unbuffer c s p rest) p
    rw [h_dec] at h_keeps
    simp only at h_keeps
    have h_rest : s₁.buf.length = rest.length := by
      rw [h_keeps]
      rfl
    have h_le : s'.buf.length ≤ rest.length := by
      rw [← h_rest]
      rcases h_out with ⟨-, h_eq⟩ | ⟨-, -, h_eq⟩ | ⟨-, -, h_eq⟩
      · exact h_pair h_eq (length_endChunk_le _ s₁)
      · exact h_pair h_eq (length_endChunk_le _ s₁)
      · exact h_pair h_eq (Nat.le_refl _)
    rw [h_buf, List.length_cons]
    exact Or.inr (Nat.lt_succ_of_le h_le)

/-- How many rounds of `drain` there can be. -/
def drainRank (s : c.Stream) : Nat := 2 * s.buf.length + if s.synced then 0 else 1

theorem drainRound_rank {w w' : ZclWork} {s s' : c.Stream}
    (h : drainRound c w s = some (w', s')) : drainRank s' < drainRank s := by
  unfold drainRank
  rcases drainRound_progress h with ⟨h_before, h_after, h_len⟩ | h_len
  · rw [h_before, h_after]
    simp only [if_true, Bool.false_eq_true, if_false]
    omega
  · split <;> split <;> omega

/-- With enough rounds `drain` ends because there is nothing more to do. -/
theorem drainRounds_stuck {rounds : Nat} {w : ZclWork} {s : c.Stream}
    (h : drainRank s ≤ rounds) : goesOn (drainRounds c rounds w s).2 = false := by
  induction rounds generalizing w s with
  | zero =>
    have h_empty : s.buf = [] := by
      unfold drainRank at h
      exact List.length_eq_zero_iff.mp (by omega)
    rw [drainRounds, goesOn, h_empty]
  | succ rounds ih =>
    rw [drainRounds]
    cases h_goes : goesOn s with
    | false =>
      rw [drainRound_none h_goes]
      exact h_goes
    | true =>
      obtain ⟨w', s', h_eq⟩ := drainRound_some (w := w) h_goes
      have h_rank := drainRound_rank h_eq
      rw [h_eq]
      exact ih (by omega)

theorem drain_stuck (w : ZclWork) (s : c.Stream) : goesOn (drain c w s).2 = false := by
  refine drainRounds_stuck ?_
  unfold drainRank
  split <;> omega

theorem length_drainRounds_le (rounds : Nat) (w : ZclWork) (s : c.Stream) :
    (drainRounds c rounds w s).2.buf.length ≤ s.buf.length := by
  refine drainRounds_keeps (P := fun _ s' => s'.buf.length ≤ s.buf.length) ?_ rounds (Nat.le_refl _)
  intro w₁ s₁ w₂ s₂ h_le h_eq
  rcases drainRound_progress h_eq with ⟨-, -, h_len⟩ | h_len
  · exact Nat.le_trans h_len h_le
  · omega

theorem drain_of_stuck {w : ZclWork} {s : c.Stream} (h : goesOn s = false) :
    drain c w s = (w, s) := by
  rw [drain, drainRounds, drainRound_none h]

/-- The chunk gone to is taken next. -/
theorem syncTo_goesOn {w : ZclWork} {s : c.Stream} (h : BufOk s) {start : Pending}
    (h_start : start ∈ s.buf) (h_seq : start.seq = 0) :
    goesOn (syncTo c w s start.chunk).2 = true := by
  have h_mem := (mem_dropBelow (w := w) h).mpr ⟨h_start, Nat.le_refl start.chunk⟩
  have h_sorted := (h.dropBelow (w := w) start.chunk).sorted
  have h_ge : ∀ p ∈ (dropBelow c w s start.chunk).2.buf, start.chunk ≤ p.chunk :=
    fun p h_p => ((mem_dropBelow (w := w) h).mp h_p).2
  show (match (dropBelow c w s start.chunk).2.buf with
    | [] => false
    | p :: _ => decide (p.chunk = start.chunk ∧ p.seq = 0)) = true
  cases h_buf : (dropBelow c w s start.chunk).2.buf with
  | nil =>
    rw [h_buf] at h_mem
    cases h_mem
  | cons p rest =>
    rw [h_buf] at h_mem h_sorted h_ge
    rcases List.mem_cons.mp h_mem with rfl | h_rest
    · simp [h_seq]
    · have h_first := h_ge p List.mem_cons_self
      rcases (List.pairwise_cons.mp h_sorted).1 start h_rest with h_lt | ⟨-, h_lt⟩
      · omega
      · omega

/-- A `drain` that has something to do takes a carrier off the buffer. -/
theorem drain_shrinks {w : ZclWork} {s : c.Stream} (h_ok : StreamOk s) (h : goesOn s = true) :
    (drain c w s).2.buf.length < s.buf.length := by
  obtain ⟨w₁, s₁, h_eq⟩ := drainRound_some (w := w) h
  have h_rest := length_drainRounds_le (c := c) (2 * s.buf.length) w₁ s₁
  have h_drain : drain c w s = drainRounds c (2 * s.buf.length) w₁ s₁ := by
    rw [drain, drainRounds, h_eq]
  rcases drainRound_progress h_eq with ⟨h_before, -, -⟩ | h_len
  · -- The round goes to a chunk, the next one takes its start.
    rcases drainRound_cases h_eq with ⟨-, start, h_start, -, h_sync⟩ | ⟨h_synced, -⟩
    swap
    · rw [h_before] at h_synced
      cases h_synced
    have h_s₁ : s₁ = (syncTo c w s start.chunk).2 := congrArg Prod.snd h_sync
    obtain ⟨h_mem, h_seq⟩ := mem_of_firstStart h_start
    have h_goes : goesOn s₁ = true := by
      rw [h_s₁]
      exact syncTo_goesOn h_ok.toBufOk h_mem h_seq
    have h_le : s₁.buf.length ≤ s.buf.length := by
      rw [h_s₁]
      exact length_syncTo_le w s start.chunk
    obtain ⟨w₂, s₂, h_eq₂⟩ := drainRound_some (w := w₁) h_goes
    have h_pos : 0 < s.buf.length := List.length_pos_of_mem h_mem
    have h_len₂ : s₂.buf.length < s₁.buf.length := by
      rcases drainRound_progress h_eq₂ with ⟨h_before₂, -, -⟩ | h_len
      · have h_after : s₁.synced = true := by
          rw [h_s₁]
          rfl
        rw [h_before₂] at h_after
        cases h_after
      · exact h_len
    have h_rest₂ := length_drainRounds_le (c := c) (2 * s.buf.length - 1) w₂ s₂
    have h_drain₂ : drainRounds c (2 * s.buf.length) w₁ s₁ =
        drainRounds c (2 * s.buf.length - 1) w₂ s₂ := by
      obtain ⟨n, h_n⟩ : ∃ n, 2 * s.buf.length = n + 1 := ⟨2 * s.buf.length - 1, by omega⟩
      rw [h_n, drainRounds, h_eq₂, Nat.add_sub_cancel]
    rw [h_drain, h_drain₂]
    omega
  · rw [h_drain]
    omega

/-! ## Rounds of settle -/

/-- How many rounds of `settle` there can be. -/
def settleRank (s : c.Stream) : Nat :=
  2 * s.buf.length + if !s.synced then 1 else if goesOn s then 0 else 2

/-- What giving up a gap does to a stream that cannot go on. -/
theorem resolveGap_cases {w : ZclWork} {s : c.Stream} (h_ok : StreamOk s) (h_some : s.buf ≠ []) :
    (s.synced = true ∧ ∃ w', resolveGap c w s = endChunk c w' s) ∨
      (s.synced = false ∧ (resolveGap c w s).2.synced = true ∧
        goesOn (resolveGap c w s).2 = true ∧
          (resolveGap c w s).2.buf.length ≤ s.buf.length) ∨
      (s.synced = false ∧ (resolveGap c w s).2.synced = false ∧
        (resolveGap c w s).2.buf.length < s.buf.length) := by
  unfold resolveGap
  cases h_synced : s.synced with
  | true =>
    rw [if_pos rfl]
    exact Or.inl ⟨rfl, _, rfl⟩
  | false =>
    rw [if_neg Bool.false_ne_true]
    cases h_start : firstStart s.buf with
    | some start =>
      obtain ⟨h_mem, h_seq⟩ := mem_of_firstStart h_start
      exact Or.inr (Or.inl ⟨rfl, rfl, syncTo_goesOn h_ok.toBufOk h_mem h_seq,
        length_syncTo_le w s start.chunk⟩)
    | none =>
      dsimp only
      cases h_buf : s.buf with
      | nil => exact absurd h_buf h_some
      | cons head rest =>
        refine Or.inr (Or.inr ⟨rfl, rfl, ?_⟩)
        have h_head : head.chunk + 1 < 2 ^ 64 := h_ok.chunk_lt head (by simp [h_buf])
        have h_next : nextChunk head.chunk = head.chunk + 1 := Nat.mod_eq_of_lt h_head
        show ((head :: rest).dropWhile fun p => decide (p.chunk < nextChunk head.chunk)).length < _
        rw [h_next, List.dropWhile_cons_of_pos (by simp), List.length_cons]
        exact Nat.lt_succ_of_le (List.dropWhile_suffix _).sublist.length_le

/-- A round of `settle` that goes on makes the rank smaller. -/
theorem settle_round_rank {w : ZclWork} {s : c.Stream} (h_ok : StreamOk s)
    (h_some : (drain c w s).2.buf ≠ []) :
    settleRank (resolveGap c (drain c w s).1 (drain c w s).2).2 < settleRank s := by
  have h_ok₁ : StreamOk (drain c w s).2 :=
    drainRounds_keeps (P := fun _ s => StreamOk s) (fun _ _ _ _ h_s h_eq => h_s.drainRound h_eq)
      _ h_ok
  have h_len : (drain c w s).2.buf.length < s.buf.length ∨
      goesOn s = false ∧ drain c w s = (w, s) := by
    cases h_goes : goesOn s with
    | true => exact Or.inl (drain_shrinks h_ok h_goes)
    | false => exact Or.inr ⟨rfl, drain_of_stuck h_goes⟩
  have h_le : settleRank (resolveGap c (drain c w s).1 (drain c w s).2).2 ≤
      2 * (drain c w s).2.buf.length + if (drain c w s).2.synced then 1 else 0 := by
    unfold settleRank
    rcases resolveGap_cases (w := (drain c w s).1) h_ok₁ h_some with
      ⟨h_synced, w', h_eq⟩ | ⟨h_synced, h_synced', h_goes, h_len⟩ | ⟨h_synced, h_synced', h_len⟩
    · have h_le := length_endChunk_le w' (drain c w s).2
      have h_off : (endChunk c w' (drain c w s).2).2.synced = false := rfl
      rw [h_eq, h_synced, h_off]
      simp only [Bool.not_false, if_true]
      omega
    · rw [h_synced, h_synced', h_goes]
      simp only [Bool.not_true, Bool.false_eq_true, if_false, if_true]
      omega
    · rw [h_synced, h_synced']
      simp only [Bool.not_false, Bool.false_eq_true, if_false, if_true]
      omega
  refine Nat.lt_of_le_of_lt h_le ?_
  unfold settleRank
  rcases h_len with h_lt | ⟨h_stuck, h_same⟩
  · split <;> omega
  · rw [h_same, h_stuck]
    cases s.synced with
    | true => simp
    | false => simp

theorem StreamOk.drain {w : ZclWork} {s : c.Stream} (h : StreamOk s) : StreamOk (drain c w s).2 :=
  drainRounds_keeps (P := fun _ s => StreamOk s) (fun _ _ _ _ h_s h_eq => h_s.drainRound h_eq) _ h

/-- With enough rounds, `settle` ends with a buffer that is empty or not overdue, and more
    rounds change nothing. -/
theorem settleRounds_enough {rounds nowMs : Nat} {w : ZclWork} {s : c.Stream} (h_ok : StreamOk s)
    (h : settleRank s < rounds) :
    ((settleRounds c rounds w s nowMs).2.buf = [] ∨
        overdue c (settleRounds c rounds w s nowMs).2 nowMs = false) ∧
      ∀ more, rounds ≤ more → settleRounds c more w s nowMs = settleRounds c rounds w s nowMs := by
  induction rounds generalizing w s with
  | zero => omega
  | succ rounds ih =>
    have h_more : ∀ {P : Nat → Prop}, (∀ more, rounds ≤ more → P (more + 1)) →
        ∀ more, rounds + 1 ≤ more → P more := by
      intro P h_p more h_le
      obtain ⟨n, rfl⟩ : ∃ n, more = n + 1 := ⟨more - 1, by omega⟩
      exact h_p n (by omega)
    by_cases h_empty : s.buf = []
    · rw [settleRounds, if_pos h_empty]
      refine ⟨Or.inl h_empty, h_more fun more _ => ?_⟩
      rw [settleRounds, if_pos h_empty]
    by_cases h_drained : (drain c w s).2.buf = []
    · simp only [settleRounds, if_neg h_empty, if_pos h_drained]
      refine ⟨Or.inl h_drained, h_more fun more _ => ?_⟩
      simp only [settleRounds, if_neg h_empty, if_pos h_drained]
    cases h_over : overdue c (drain c w s).2 nowMs with
    | false =>
      simp only [settleRounds, if_neg h_empty, if_neg h_drained, h_over, Bool.false_eq_true,
        if_false]
      refine ⟨Or.inr trivial, h_more fun more _ => ?_⟩
      simp only [settleRounds, if_neg h_empty, if_neg h_drained, h_over, Bool.false_eq_true,
        if_false]
    | true =>
      have h_rank := settle_round_rank (w := w) h_ok h_drained
      obtain ⟨h_calm, h_same⟩ := ih (w := (resolveGap c (drain c w s).1 (drain c w s).2).1)
        (s := (resolveGap c (drain c w s).1 (drain c w s).2).2) h_ok.drain.resolveGap (by omega)
      simp only [settleRounds, if_neg h_empty, if_neg h_drained, h_over, if_true]
      refine ⟨h_calm, h_more fun more h_le => ?_⟩
      simp only [settleRounds, if_neg h_empty, if_neg h_drained, h_over, if_true]
      exact h_same more h_le

/-- The states in which the loop of `settle` begins a round. -/
inductive Visits (c : ZclCfg) (nowMs : Nat) (s₀ : c.Stream) : ZclWork → c.Stream → Prop
  | start (w : ZclWork) : Visits c nowMs s₀ w s₀
  | round {w : ZclWork} {s : c.Stream} : Visits c nowMs s₀ w s → (drain c w s).2.buf ≠ [] →
    overdue c (drain c w s).2 nowMs = true →
    Visits c nowMs s₀ (resolveGap c (drain c w s).1 (drain c w s).2).1
      (resolveGap c (drain c w s).1 (drain c w s).2).2

theorem Visits.ok {nowMs : Nat} {s₀ s : c.Stream} {w : ZclWork} (h_ok : StreamOk s₀)
    (h : Visits c nowMs s₀ w s) : StreamOk s := by
  induction h with
  | start => exact h_ok
  | round _ _ _ ih => exact ih.drain.resolveGap

/-- The stream is on a chunk of which nothing is buffered. -/
def Stalled (s : c.Stream) : Prop := s.synced = true ∧ ∀ p ∈ s.buf, p.chunk ≠ s.cur

/-- A round that does not begin so takes something off the buffer or goes to a chunk whose
    start comes next. -/
theorem round_progress {w : ZclWork} {s : c.Stream} (h_ok : StreamOk s)
    (h_some : (drain c w s).2.buf ≠ []) (h_not : ¬ Stalled s) :
    (resolveGap c (drain c w s).1 (drain c w s).2).2.buf.length < s.buf.length ∨
      goesOn (resolveGap c (drain c w s).1 (drain c w s).2).2 = true := by
  have h_gap := resolveGap_cases (w := (drain c w s).1) h_ok.drain h_some
  cases h_goes : goesOn s with
  | true =>
    have h_lt := drain_shrinks (w := w) h_ok h_goes
    rcases h_gap with ⟨-, w', h_eq⟩ | ⟨-, -, h_next, -⟩ | ⟨-, -, h_len⟩
    · have h_le := length_endChunk_le w' (drain c w s).2
      rw [h_eq]
      exact Or.inl (by omega)
    · exact Or.inr h_next
    · exact Or.inl (by omega)
  | false =>
    rw [drain_of_stuck h_goes] at h_gap ⊢
    rcases h_gap with ⟨h_synced, w', h_eq⟩ | ⟨-, -, h_next, -⟩ | ⟨-, -, h_len⟩
    · -- A carrier of the chunk that is given up goes with it.
      obtain ⟨p, h_p, h_chunk⟩ : ∃ p ∈ s.buf, p.chunk = s.cur := by
        by_contra h_none
        exact h_not ⟨h_synced, fun p h_p h_eq => h_none ⟨p, h_p, h_eq⟩⟩
      have h_buf : BufOk { s with synced := false, haveDone := true, done := s.cur } :=
        ⟨h_ok.sorted, h_ok.count, h_ok.bytes, h_ok.chunk_lt⟩
      have h_next : nextChunk s.cur = s.cur + 1 := Nat.mod_eq_of_lt (h_ok.cur_lt h_synced)
      have h_gone : p ∉ (endChunk c w' s).2.buf := by
        intro h_mem
        have h_ge := ((mem_dropBelow (w := w') h_buf).mp h_mem).2
        rw [h_next] at h_ge
        omega
      have h_sub : (endChunk c w' s).2.buf.Sublist s.buf := (List.dropWhile_suffix _).sublist
      rw [h_eq]
      refine Or.inl (Nat.lt_of_le_of_ne h_sub.length_le fun h_len => h_gone ?_)
      rw [h_sub.eq_of_length h_len]
      exact h_p
    · exact Or.inr h_next
    · exact Or.inl h_len

/-! ## Streams within their limits -/

structure Bounded (s : c.Stream) : Prop where
  carriers : s.buf.length ≤ c.limits.maxCarriers
  octets : (s.buf.map (·.data.length)).sum ≤ c.limits.maxBufBytes

/-- Within the limits, with a head that has waited less than the timeout. -/
structure Calm (s : c.Stream) (nowMs : Nat) : Prop extends Bounded s where
  head : ∀ p ∈ s.buf.head?, nowMs < p.atMs + c.limits.reorderMs

/-- The guard is beyond what the buffer can hold, as it is with 4096 carriers. -/
def GuardSuffices (limits : ZclRxLimits) : Prop := 2 * limits.maxCarriers + 4 < settleGuard

theorem guardSuffices_defaults : GuardSuffices zclRxDefaults := by
  unfold GuardSuffices
  decide

theorem Bounded.of_empty {s : c.Stream} (h : s.buf = []) : Bounded s := by
  refine ⟨?_, ?_⟩ <;> simp [h]

theorem calm_of_not_overdue {s : c.Stream} {nowMs : Nat} (h_ok : BufOk s)
    (h : s.buf = [] ∨ overdue c s nowMs = false) : Calm s nowMs := by
  rcases h with h_empty | h_over
  · refine ⟨Bounded.of_empty h_empty, fun p h_p => ?_⟩
    rw [h_empty] at h_p
    cases h_p
  · simp only [overdue, Bool.or_eq_false_iff, decide_eq_false_iff_not, Nat.not_lt, gt_iff_lt]
      at h_over
    obtain ⟨⟨h_carriers, h_octets⟩, h_head⟩ := h_over
    refine ⟨⟨by rwa [← h_ok.count], by rwa [← h_ok.bytes]⟩, fun p h_p => ?_⟩
    cases h_buf : s.buf with
    | nil =>
      rw [h_buf] at h_p
      cases h_p
    | cons q rest =>
      rw [h_buf] at h_p h_head
      obtain rfl : q = p := by simpa using h_p
      have h_wait := of_decide_eq_false h_head
      omega

theorem settleRank_le (s : c.Stream) : settleRank s ≤ 2 * s.buf.length + 2 := by
  unfold settleRank
  split
  · omega
  · split <;> omega

theorem settle_calm {w : ZclWork} {s : c.Stream} {nowMs : Nat} (h_guard : GuardSuffices c.limits)
    (h_ok : StreamOk s) (h_len : s.buf.length ≤ c.limits.maxCarriers + 1) :
    Calm (settle c w s nowMs).2 nowMs := by
  have h_rank := settleRank_le s
  unfold GuardSuffices at h_guard
  exact calm_of_not_overdue (h_ok.settle nowMs).toBufOk
    (settleRounds_enough (w := w) h_ok (by omega)).1

/-- What finding a stream leaves in the buffers. -/
theorem findStream_buf (rx : ZclRx c) (id : Nat) :
    ∀ s ∈ (findStream rx id).1.streams, s.buf = [] ∨ ∃ t : c.Stream, t ∈ rx.streams ∧
      s.buf = t.buf := by
  have h_old : ∀ s ∈ rx.streams, s.buf = [] ∨ ∃ t : c.Stream, t ∈ rx.streams ∧ s.buf = t.buf :=
    fun s h_s => Or.inr ⟨s, h_s, rfl⟩
  intro s h_s
  unfold findStream at h_s
  cases h_find : lookupStream c id rx.streams 0 with
  | some found =>
    obtain ⟨i, t⟩ := found
    obtain ⟨j, -, h_j, -, -⟩ := lookupStream_some h_find
    rw [h_find] at h_s
    rcases List.mem_or_eq_of_mem_set h_s with h_mem | rfl
    · exact h_old s h_mem
    · exact Or.inr ⟨t, List.mem_of_getElem? h_j, rfl⟩
  | none =>
    rw [h_find] at h_s
    dsimp only at h_s
    cases h_victim : findVictim c rx.streams 0 none with
    | none =>
      rw [h_victim] at h_s
      exact h_old s h_s
    | some found =>
      obtain ⟨i, victim⟩ := found
      obtain ⟨j, -, h_j⟩ := (findVictim_spec h_victim).resolve_left (by simp)
      have h_free : ∀ t : c.Stream, t.buf = (if victim.used = true then freeStream c
          else victim).buf → t.buf = [] ∨ ∃ t' : c.Stream, t' ∈ rx.streams ∧ t.buf = t'.buf := by
        intro t h_t
        by_cases h_used : victim.used = true
        · rw [if_pos h_used] at h_t
          exact Or.inl h_t
        · rw [if_neg h_used] at h_t
          exact Or.inr ⟨victim, List.mem_of_getElem? h_j, h_t⟩
      rw [h_victim] at h_s
      dsimp only at h_s
      split at h_s
      · rcases List.mem_or_eq_of_mem_set h_s with h_mem | rfl
        · exact h_old s h_mem
        · exact h_free _ rfl
      · rcases List.mem_or_eq_of_mem_set h_s with h_mem | rfl
        · exact h_old s h_mem
        · exact h_free _ rfl

/-! ## Carriers and ticks -/

/-- The place and the stream with the carrier put into its buffer; `none` for a carrier that
    is refused, old or there already, or that there is no memory for. -/
def bufferedBy (rx : ZclRx c) (octets : Octets) (nowMs : Nat) : Option (Nat × c.Stream) :=
  (zclHeaderGet octets).bind fun h =>
    let found := findStream { rx with work := { rx.work with stats := { rx.work.stats with
      carriersIn := rx.work.stats.carriersIn + 1 } } } h.streamId
    found.2.bind fun i =>
      found.1.streams[i]?.bind fun s =>
        if staleCarrier s h then none
        else
          let data := (octets.drop zclHdrLen).take h.length
          (insertPending ⟨h.chunkId, h.seq, h.flags &&& zclFlagEnd != 0, nowMs, data⟩ s.buf).bind
            fun buf =>
              if c.mem found.1.work.allocs then
                some (i, { s with
                  buf := buf, bufCount := s.bufCount + 1, bufBytes := s.bufBytes + data.length })
              else none

/-- The streams `settle` is called with. -/
def settledBy (rx : ZclRx c) : RxEvent → List c.Stream
  | .carrier octets nowMs => (bufferedBy rx octets nowMs).toList.map Prod.snd
  | .tick _ => rx.streams.filter (·.used)

/-- Buffers of streams that were there before. -/
def SameBufs (old new : List c.Stream) : Prop :=
  ∀ s ∈ new, s.buf = [] ∨ ∃ t : c.Stream, t ∈ old ∧ s.buf = t.buf

theorem SameBufs.bounded {old new : List c.Stream} (h : SameBufs old new)
    (h_old : ∀ s ∈ old, Bounded s) : ∀ s ∈ new, Bounded s := by
  intro s h_s
  rcases h s h_s with h_empty | ⟨t, h_t, h_buf⟩
  · exact Bounded.of_empty h_empty
  · have h_bounded := h_old t h_t
    exact ⟨by rw [h_buf]; exact h_bounded.carriers, by rw [h_buf]; exact h_bounded.octets⟩

/-- All that a carrier can do to the streams. -/
theorem zclRxCarrier_cases {rx : ZclRx c} (h_ok : RxOk rx) {octets : Octets} (nowMs : Nat)
    (h_max : BelowMax octets) :
    (bufferedBy rx octets nowMs = none ∧
        SameBufs rx.streams (zclRxCarrier rx octets nowMs).1.streams) ∨
      ∃ i s w streams hd, bufferedBy rx octets nowMs = some (i, s) ∧ StreamOk s ∧
        s.used = true ∧ zclHeaderGet octets = some hd ∧ s.id = hd.streamId ∧
        i < streams.length ∧ SameBufs rx.streams streams ∧
        (∃ t ∈ streams, s.buf.length = t.buf.length + 1) ∧
        (zclRxCarrier rx octets nowMs).1.streams = streams.set i (settle c w s nowMs).2 := by
  have h_refl : SameBufs rx.streams rx.streams := fun s h_s => Or.inr ⟨s, h_s, rfl⟩
  unfold bufferedBy zclRxCarrier
  dsimp only
  cases h_get : zclHeaderGet octets with
  | none => exact Or.inl ⟨rfl, h_refl⟩
  | some hd =>
    rw [Option.bind_some]
    dsimp only
    generalize h_rx : ({ rx with work := { rx.work with stats := { rx.work.stats with
      carriersIn := rx.work.stats.carriersIn + 1 } } } : ZclRx c) = rx₁
    have h_streams₁ : rx₁.streams = rx.streams := by rw [← h_rx]
    have h_ok₁ : StreamsOk rx₁.streams := by
      rw [h_streams₁]
      exact h_ok.toStreamsOk
    have h_acc₁ : Accounted rx₁.work rx₁.streams rx.work.stats.carriersIn := by
      rw [← h_rx]
      exact h_ok.accounted
    have h_bufs := findStream_buf rx₁ hd.streamId
    rw [h_streams₁] at h_bufs
    obtain ⟨h_streams₂, -, -, h_found⟩ := findStream_ok h_ok₁ h_acc₁ hd.streamId
    rcases h_find : findStream rx₁ hd.streamId with ⟨rx₂, found⟩
    rw [h_find] at h_bufs h_streams₂ h_found
    dsimp only at h_bufs h_streams₂ h_found ⊢
    cases found with
    | none => exact Or.inl ⟨rfl, h_bufs⟩
    | some i =>
      obtain ⟨s, h_s, h_used, h_id⟩ := h_found i rfl
      have h_mem := List.mem_of_getElem? h_s
      rw [Option.bind_some]
      dsimp only
      rw [h_s, Option.bind_some]
      dsimp only
      unfold takeCarrier
      cases h_stale : staleCarrier s hd with
      | true => exact Or.inl ⟨rfl, h_bufs⟩
      | false =>
        rw [if_neg Bool.false_ne_true, if_neg Bool.false_ne_true]
        dsimp only
        cases h_ins : insertPending ⟨hd.chunkId, hd.seq, hd.flags &&& zclFlagEnd != 0, nowMs,
            (octets.drop zclHdrLen).take hd.length⟩ s.buf with
        | none => exact Or.inl ⟨rfl, h_bufs⟩
        | some buf =>
          rw [Option.bind_some]
          dsimp only
          by_cases h_memory : c.mem rx₂.work.allocs = true
          · rw [if_pos h_memory, h_memory, Bool.not_true, if_neg Bool.false_ne_true]
            have h_len : buf.length = s.buf.length + 1 :=
              (insertPending_some h_ins (h_streams₂.each s h_mem).sorted).1.length_eq
            exact Or.inr ⟨i, _, _, rx₂.streams, hd, rfl, (h_streams₂.each s h_mem).insert h_stale
              rfl rfl (h_max hd h_get) h_ins, h_used, rfl, h_id,
              (List.getElem?_eq_some_iff.mp h_s).1, h_bufs, ⟨s, h_mem, h_len⟩, rfl⟩
          · rw [if_neg h_memory, Bool.eq_false_iff.mpr h_memory, Bool.not_false, if_pos rfl]
            exact Or.inl ⟨rfl, h_bufs⟩

/-- What holds of a stream that `settle` is called with, and of the call. -/
structure Settles (s : c.Stream) (nowMs : Nat) : Prop where
  calm : ∀ w, Calm (settle c w s nowMs).2 nowMs
  /-- The guard is not what ends the loop. -/
  guard : ∀ w rounds, settleGuard ≤ rounds → settleRounds c rounds w s nowMs = settle c w s nowMs
  /-- A round that does not begin with a stalled stream makes progress. -/
  progress : ∀ w t, Visits c nowMs s w t → (drain c w t).2.buf ≠ [] → ¬ Stalled t →
    (resolveGap c (drain c w t).1 (drain c w t).2).2.buf.length < t.buf.length ∨
      goesOn (resolveGap c (drain c w t).1 (drain c w t).2).2 = true

theorem settles_of_ok (h_guard : GuardSuffices c.limits) {s : c.Stream} (h_ok : StreamOk s)
    (h_len : s.buf.length ≤ c.limits.maxCarriers + 1) (nowMs : Nat) : Settles s nowMs := by
  have h_rank := settleRank_le s
  refine ⟨fun w => settle_calm h_guard h_ok h_len, fun w rounds h_le => ?_,
    fun w t h_visits h_some h_not => round_progress (h_visits.ok h_ok) h_some h_not⟩
  unfold GuardSuffices at h_guard
  exact (settleRounds_enough (w := w) h_ok (by omega)).2 rounds h_le

/-- Every stream after a tick is calm. -/
theorem tickStreams_calm (h_guard : GuardSuffices c.limits) (nowMs : Nat) (w : ZclWork)
    {streams : List c.Stream} (h_ok : ∀ s ∈ streams, StreamOk s)
    (h_bounded : ∀ s ∈ streams, Bounded s) (h_unused : ∀ s ∈ streams, s.used = false → s.buf = []) :
    ∀ s ∈ (tickStreams nowMs w streams).2, Calm s nowMs := by
  induction streams generalizing w with
  | nil =>
    intro s h_s
    cases h_s
  | cons s rest ih =>
    obtain ⟨h_ok, h_oks⟩ := List.forall_mem_cons.mp h_ok
    obtain ⟨h_bound, h_bounds⟩ := List.forall_mem_cons.mp h_bounded
    obtain ⟨h_free, h_frees⟩ := List.forall_mem_cons.mp h_unused
    simp only [tickStreams]
    refine List.forall_mem_cons.mpr ⟨?_, ih _ h_oks h_bounds h_frees⟩
    by_cases h_used : s.used = true
    · rw [if_pos h_used]
      exact settle_calm h_guard h_ok (Nat.le_succ_of_le h_bound.carriers)
    · rw [if_neg h_used]
      exact calm_of_not_overdue h_ok.toBufOk (Or.inl (h_free (Bool.eq_false_iff.mpr h_used)))

/-- The step lemma: buffers stay within their limits, and what `settle` is called with is
    fit for it. -/
theorem after_bounded (h_guard : GuardSuffices c.limits) {rx : ZclRx c} (h_ok : RxOk rx)
    (h_bounded : ∀ s ∈ rx.streams, Bounded s) {e : RxEvent} (h_max : e.BelowMax) :
    (∀ s ∈ (rx.after e).streams, Bounded s) ∧ ∀ s ∈ settledBy rx e, Settles s e.nowMs := by
  cases e with
  | tick nowMs =>
    refine ⟨fun s h_s => ?_, fun s h_s => ?_⟩
    · exact (tickStreams_calm h_guard nowMs rx.work h_ok.each h_bounded h_ok.unused s h_s).toBounded
    · have h_mem := (List.mem_filter.mp h_s).1
      exact settles_of_ok h_guard (h_ok.each s h_mem)
        (Nat.le_succ_of_le (h_bounded s h_mem).carriers) nowMs
  | carrier octets nowMs =>
    rcases zclRxCarrier_cases h_ok nowMs h_max with ⟨h_none, h_same⟩ |
      ⟨i, s, w, streams, hd, h_some, h_s, -, -, -, -, h_same, ⟨t, h_t, h_len⟩, h_eq⟩
    · refine ⟨h_same.bounded h_bounded, fun s h_s => ?_⟩
      simp [settledBy, h_none] at h_s
    · have h_le : s.buf.length ≤ c.limits.maxCarriers + 1 := by
        have h_t := (h_same.bounded h_bounded t h_t).carriers
        omega
      have h_settles := settles_of_ok h_guard h_s h_le nowMs
      refine ⟨fun s' h_s' => ?_, fun s' h_s' => ?_⟩
      · have h_s' : s' ∈ streams.set i (settle c w s nowMs).2 := h_eq ▸ h_s'
        rcases List.mem_or_eq_of_mem_set h_s' with h_old | rfl
        · exact h_same.bounded h_bounded s' h_old
        · exact (h_settles.calm w).toBounded
      · obtain rfl : s' = s := by simpa [settledBy, h_some] using h_s'
        exact h_settles

theorem run_bounded (h_guard : GuardSuffices c.limits) {rx : ZclRx c} (h_ok : RxOk rx)
    (h_bounded : ∀ s ∈ rx.streams, Bounded s) (es : List RxEvent) (h_max : ∀ e ∈ es, e.BelowMax) :
    RxOk (rx.run es) ∧ ∀ s ∈ (rx.run es).streams, Bounded s := by
  induction es generalizing rx with
  | nil => exact ⟨h_ok, h_bounded⟩
  | cons e es ih =>
    obtain ⟨h_e, h_es⟩ := List.forall_mem_cons.mp h_max
    exact ih (after_ok h_ok h_e) (after_bounded h_guard h_ok h_bounded h_e).1 h_es

theorem zclRxNew_bounded {rx : ZclRx c} (h_new : zclRxNew c = some rx) :
    ∀ s ∈ rx.streams, Bounded s := by
  unfold zclRxNew at h_new
  split at h_new
  · cases h_new
  obtain rfl := Option.some.inj h_new
  intro s h_s
  rw [List.eq_of_mem_replicate h_s]
  exact Bounded.of_empty rfl

/-- **After every run of carriers below the highest chunk number**, the next carrier that is
    put into a buffer leaves its stream within its limits and its head waiting for less than
    the timeout, the next tick leaves every stream so, and the rounds of `settle` that lead
    there make progress and are not cut off by the guard. -/
theorem run_calm (h_guard : GuardSuffices c.limits) {rx : ZclRx c} (h_new : zclRxNew c = some rx)
    (es : List RxEvent) (h_max : ∀ e ∈ es, e.BelowMax) {e : RxEvent} (h_e : e.BelowMax) :
    (∀ s ∈ ((rx.run es).after e).streams, Bounded s) ∧
      (∀ nowMs, e = .tick nowMs → ∀ s ∈ ((rx.run es).after e).streams, Calm s nowMs) ∧
      (∀ octets nowMs hd, e = .carrier octets nowMs → zclHeaderGet octets = some hd →
        (bufferedBy (rx.run es) octets nowMs).isSome = true →
          ∃ s ∈ ((rx.run es).after e).streams, s.used = true ∧ s.id = hd.streamId ∧
            Calm s nowMs) ∧
      ∀ s ∈ settledBy (rx.run es) e, Settles s e.nowMs := by
  obtain ⟨h_ok, h_bounded⟩ :=
    run_bounded h_guard (zclRxNew_ok h_new) (zclRxNew_bounded h_new) es h_max
  obtain ⟨h_next, h_settles⟩ := after_bounded h_guard h_ok h_bounded h_e
  refine ⟨h_next, ?_, ?_, h_settles⟩
  · rintro nowMs rfl
    exact tickStreams_calm h_guard nowMs _ h_ok.each h_bounded h_ok.unused
  · rintro octets nowMs hd rfl h_get h_some
    rcases zclRxCarrier_cases h_ok nowMs h_e with ⟨h_none, -⟩ |
      ⟨i, s, w, streams, hd', h_place, h_s, h_used, h_get', h_id, h_i, h_same, ⟨t, h_t, h_len⟩, h_eq⟩
    · rw [h_none] at h_some
      cases h_some
    · obtain rfl : hd' = hd := Option.some.inj (h_get'.symm.trans h_get)
      obtain ⟨-, -, -, -, h_used', h_id'⟩ := ledger_eq (settle_ledger w s nowMs)
      have h_bound := (h_same.bounded h_bounded t h_t).carriers
      refine ⟨(settle c w s nowMs).2, ?_, h_used'.trans h_used, h_id'.trans h_id,
        settle_calm h_guard h_s (by omega)⟩
      show _ ∈ (zclRxCarrier (rx.run es) octets nowMs).1.streams
      rw [h_eq]
      exact List.mem_set h_i _

/-! ## Receivers to look at -/

/-- A carrier with one octet of payload, of stream 9. -/
def sampleCarrier (chunk seq : Nat) : Octets := zclHeaderPut ⟨0, 9, chunk, seq, 1⟩ [7] ++ [7]

theorem zclHeaderGet_sample {chunk seq : Nat} (h_chunk : chunk < 2 ^ 64) (h_seq : seq < 2 ^ 32) :
    zclHeaderGet (sampleCarrier chunk seq) = some ⟨0, 9, chunk, seq, 1⟩ :=
  zclHeaderGet_put ⟨UInt8.zero_and, Nat.lt_trans (by decide : 9 < 10) (by decide), h_chunk, h_seq, rfl,
    by decide⟩

/-- A carrier that has no chunk start is given up by the tick that finds it has waited. -/
theorem run_calm_sample : ∃ rx, zclRxNew storedCfg = some rx ∧
    ∀ s ∈ ((rx.run [.carrier (sampleCarrier 3 1) 0]).after (.tick 10000)).streams,
      Calm s 10000 := by
  refine ⟨_, rfl, (run_calm (e := .tick 10000) guardSuffices_defaults rfl
    [.carrier (sampleCarrier 3 1) 0] ?_ trivial).2.1 10000 rfl⟩
  intro e h_e
  rw [List.mem_singleton.mp h_e]
  intro h h_get
  rw [zclHeaderGet_sample (by decide) (by decide)] at h_get
  obtain rfl := Option.some.inj h_get
  decide

/-- A carrier of the last chunk that is no start and has waited: nothing is dropped when its
    chunk is given up, in no matter how many rounds. -/
theorem settleRounds_last {rounds nowMs : Nat} {w : ZclWork} {s : c.Stream} {p : Pending}
    (h_synced : s.synced = false) (h_buf : s.buf = [p]) (h_chunk : p.chunk = 2 ^ 64 - 1)
    (h_seq : p.seq ≠ 0) (h_over : nowMs ≥ p.atMs ∧ nowMs - p.atMs ≥ c.limits.reorderMs) :
    (settleRounds c rounds w s nowMs).2.buf = [p] := by
  induction rounds generalizing w s with
  | zero => exact h_buf
  | succ rounds ih =>
    have h_start : firstStart [p] = none := by simp [firstStart, h_seq]
    have h_stuck : goesOn s = false := by
      rw [goesOn, h_buf]
      dsimp only
      rw [h_synced, Bool.not_false, if_pos rfl, h_start]
    have h_overdue : overdue c s nowMs = true := by
      rw [overdue, h_buf]
      simp [h_over]
    have h_next : nextChunk p.chunk = 0 := by
      rw [h_chunk]
      rfl
    rw [settleRounds, if_neg (by simp [h_buf]), drain_of_stuck h_stuck]
    dsimp only
    rw [if_neg (by simp [h_buf]), if_pos h_overdue]
    have h_gap : resolveGap c w s =
        dropBelow c w { s with haveDone := true, done := p.chunk } 0 := by
      rw [resolveGap, h_synced, if_neg Bool.false_ne_true, h_buf, h_start]
      dsimp only
      rw [h_next, ← h_buf]
    rw [h_gap]
    refine ih h_synced ?_
    show s.buf.dropWhile (fun q => decide (q.chunk < 0)) = [p]
    rw [h_buf]
    rfl

theorem settle_last {nowMs : Nat} {w : ZclWork} {s : c.Stream} {p : Pending}
    (h_synced : s.synced = false) (h_buf : s.buf = [p]) (h_chunk : p.chunk = 2 ^ 64 - 1)
    (h_seq : p.seq ≠ 0) (h_over : nowMs ≥ p.atMs ∧ nowMs - p.atMs ≥ c.limits.reorderMs) :
    (settle c w s nowMs).2.buf = [p] := by
  unfold settle
  exact settleRounds_last h_synced h_buf h_chunk h_seq h_over

theorem mem_tickStreams (nowMs : Nat) (w : ZclWork) {streams : List c.Stream} {s : c.Stream}
    (h : s ∈ streams) (h_used : s.used = true) :
    ∃ w', (settle c w' s nowMs).2 ∈ (tickStreams nowMs w streams).2 := by
  induction streams generalizing w with
  | nil => cases h
  | cons t rest ih =>
    simp only [tickStreams]
    rcases List.mem_cons.mp h with rfl | h_rest
    · rw [if_pos h_used]
      exact ⟨w, List.mem_cons_self⟩
    · obtain ⟨w', h_mem⟩ := ih _ h_rest
      exact ⟨w', List.mem_cons_of_mem _ h_mem⟩

/-- A new receiver buffers a carrier that has no chunk start, of chunk 2^64-1. -/
theorem lastChunk_buffered : ∃ rx es, zclRxNew storedCfg = some rx ∧
    (∀ e ∈ es, e.nowMs ≤ 10000) ∧ ∃ s ∈ (rx.run es).streams,
      s.buf = [⟨2 ^ 64 - 1, 5, false, 0, [7]⟩] ∧ s.synced = false ∧ s.used = true := by
  refine ⟨_, [.carrier (sampleCarrier (2 ^ 64 - 1) 5) 0], rfl, ?_, ?_⟩
  · intro e h_e
    rw [List.mem_singleton.mp h_e]
    exact Nat.zero_le _
  generalize h_run : ZclRx.run _ _ = rx
  have h_view : (rx.streams[15]?.map fun s : storedCfg.Stream => (s.buf, s.synced, s.used)) =
      some ([⟨2 ^ 64 - 1, 5, false, 0, [7]⟩], false, true) := by
    rw [← h_run]
    decide +kernel
  obtain ⟨s, h_s, h_fields⟩ := Option.map_eq_some_iff.mp h_view
  simp only [Prod.mk.injEq] at h_fields
  exact ⟨s, List.mem_of_getElem? h_s, h_fields⟩

/-- A carrier of chunk 2^64-1 stays at the head of the buffer however long it waits. -/
theorem maxChunk_waits :
    ¬ ∀ (c : ZclCfg) (rx : ZclRx c) (es : List RxEvent) (nowMs : Nat), GuardSuffices c.limits →
      zclRxNew c = some rx → (∀ e ∈ es, e.nowMs ≤ nowMs) →
        ∀ s ∈ ((rx.run es).after (.tick nowMs)).streams, Calm s nowMs := by
  intro h_claim
  obtain ⟨rx, es, h_new, h_times, s, h_s, h_buf, h_synced, h_used⟩ := lastChunk_buffered
  obtain ⟨w, h_mem⟩ := mem_tickStreams 10000 (rx.run es).work h_s h_used
  have h_calm := h_claim storedCfg rx es 10000 guardSuffices_defaults h_new h_times _ h_mem
  have h_left : (settle storedCfg w s 10000).2.buf = [⟨2 ^ 64 - 1, 5, false, 0, [7]⟩] := by
    refine settle_last h_synced h_buf ?_ ?_ ?_
    · simp only
    · simp only
      decide
    · simp only
      decide
  have h_head := h_calm.head
  rw [h_left] at h_head
  exact absurd (h_head _ rfl) (by decide)

/-- A carrier that is there already does not make `settle` look at the head, which has
    waited. -/
theorem duplicate_waits : ∃ rx, zclRxNew storedCfg = some rx ∧
    ∃ s ∈ ((rx.run [.carrier (sampleCarrier 3 1) 0]).after
      (.carrier (sampleCarrier 3 1) 20000)).streams, ¬ Calm s 20000 := by
  obtain ⟨rx, h_new⟩ : ∃ rx, zclRxNew storedCfg = some rx := ⟨_, rfl⟩
  refine ⟨rx, h_new, ?_⟩
  obtain rfl := Option.some.inj h_new
  generalize h_run : ZclRx.after _ _ = rx
  have h_view : (rx.streams[15]?.map fun s : storedCfg.Stream => s.buf) =
      some [⟨3, 1, false, 0, [7]⟩] := by
    rw [← h_run]
    decide +kernel
  obtain ⟨s, h_s, h_buf⟩ := Option.map_eq_some_iff.mp h_view
  refine ⟨s, List.mem_of_getElem? h_s, fun h_calm => ?_⟩
  have h_head := h_calm.head
  rw [h_buf] at h_head
  exact absurd (h_head _ rfl) (by decide)

end IonContrib.Zcl
