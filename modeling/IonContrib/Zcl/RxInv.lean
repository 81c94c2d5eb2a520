/-
  IonContrib.Zcl.RxInv

  What the streams of a receiver look like in every state: the buffer is
  sorted and counted, no carrier in it is behind what has been decoded
  (`StreamOk`), and every carrier that came in is accounted for (`RxOk`).

  A chunk with the highest number of 64 bits has no successor, so carriers of
  such a chunk are excluded here (`BelowMax`).
-/
import IonContrib.Lib.SortedBuf
import IonContrib.Zcl.Stored
import Mathlib.Data.List.Forall2

namespace IonContrib.Zcl

open SortedBuf

/-- The order of the buffer. -/
def Pending.Before (p q : Pending) : Prop := p.chunk < q.chunk ∨ p.chunk = q.chunk ∧ p.seq < q.seq

/-- The buffer is sorted without duplicates and counted. -/
structure BufOk {δ : Type} (s : ZclStream δ) : Prop where
  sorted : s.buf.Pairwise Pending.Before
  count : s.bufCount = s.buf.length
  bytes : s.bufBytes = (s.buf.map (·.data.length)).sum
  chunk_lt : ∀ p ∈ s.buf, p.chunk + 1 < 2 ^ 64

structure StreamOk {δ : Type} (s : ZclStream δ) : Prop extends BufOk s where
  /-- Above the last chunk finished. -/
  above : s.haveDone = true → ∀ p ∈ s.buf, s.done < p.chunk
  /-- Not before the cursor. -/
  ahead : s.synced = true → ∀ p ∈ s.buf, s.cur < p.chunk ∨ s.cur = p.chunk ∧ s.next ≤ p.seq
  cur_lt : s.synced = true → s.cur + 1 < 2 ^ 64
  cur_above : s.synced = true → s.haveDone = true → s.done < s.cur

/-! ## What the decoder leaves alone -/

/-- The counts of carriers, those handed to the decoder last. -/
def ZclWork.counts (w : ZclWork) : Nat × Nat × Nat × Nat × Nat :=
  (w.stats.carriersIn, w.stats.carriersBad, w.stats.carriersStale, w.stats.carriersDropped,
    w.handed)

variable {c : ZclCfg}

theorem emitRecord_counts (w : ZclWork) (record : Octets) :
    (emitRecord c w record).counts = w.counts := by
  unfold emitRecord ZclWork.counts
  dsimp only
  split <;> rfl

theorem growRec_counts (w : ZclWork) (r : ZclRecords) (want : Nat) :
    (growRec c w r want).1.counts = w.counts := by
  unfold growRec
  split <;> rfl

theorem takeLen_counts (w : ZclWork) (r : ZclRecords) (b : UInt8) (data : Octets) :
    (takeLen c w r b data).1.counts = w.counts := by
  unfold takeLen
  dsimp only
  split <;> rfl

theorem takeBody_counts (w : ZclWork) (r : ZclRecords) (data : Octets) :
    (takeBody c w r data).1.counts = w.counts := by
  unfold takeBody
  dsimp only
  have h_grow := growRec_counts (c := c) w r (r.record.length + takeSize r data.length)
  split
  · rename_i h_eq
    rwa [h_eq] at h_grow
  · rename_i h_eq
    rw [h_eq] at h_grow
    split
    · exact (emitRecord_counts _ _).trans h_grow
    · exact h_grow

theorem takeRounds_counts (rounds : Nat) (w : ZclWork) (r : ZclRecords) (data : Octets) :
    (takeRounds c rounds w r data).1.counts = w.counts := by
  induction rounds generalizing w r data with
  | zero => rfl
  | succ rounds ih =>
    cases data with
    | nil => rfl
    | cons b data =>
      have h_round : (if r.lenBuf.length < zclRecHdrLen then takeLen c w r b data
          else takeBody c w r (b :: data)).1.counts = w.counts := by
        split
        · exact takeLen_counts w r b data
        · exact takeBody_counts w r (b :: data)
      rw [takeRounds]
      split
      · rename_i h_eq
        rwa [h_eq] at h_round
      · rename_i h_eq
        rw [h_eq] at h_round
        exact (ih _ _ _).trans h_round

theorem takeRecords_counts (w : ZclWork) (r : ZclRecords) (data : Octets) :
    (takeRecords c w r data).1.counts = w.counts := by
  unfold takeRecords
  split
  · rfl
  · exact takeRounds_counts _ _ _ _

theorem decodeLoop_counts (w : ZclWork) (d : c.z.DCtx) (r : ZclRecords) (input : Octets) :
    (decodeLoop c w d r input).work.counts = w.counts := by
  fun_induction decodeLoop c w d r input with
  | case1 => rfl
  | case2 w d r input call h_err w₁ r₁ h_take =>
    have h_counts := takeRecords_counts (c := c) w r call.out
    rwa [h_take] at h_counts
  | case3 w d r input call h_err w₁ r₁ h_take h_end =>
    have h_counts := takeRecords_counts (c := c) w r call.out
    rwa [h_take] at h_counts
  | case4 w d r input call h_err w₁ r₁ h_take h_end h_more ih =>
    have h_counts := takeRecords_counts (c := c) w r call.out
    rw [h_take] at h_counts
    exact ih.trans h_counts
  | case5 w d r input call h_err w₁ r₁ h_take h_end h_more =>
    have h_counts := takeRecords_counts (c := c) w r call.out
    rwa [h_take] at h_counts

/-- A carrier handed to the decoder is counted, and only what belongs to the decoder
    changes in the stream. -/
theorem decodeCarrier_keeps (w : ZclWork) (s : c.Stream) (p : Pending) :
    (decodeCarrier c w s p).1.counts = { w with handed := w.handed + 1 }.counts ∧
      ∃ dctx frameDone records, (decodeCarrier c w s p).2.1 =
        { s with dctx := dctx, frameDone := frameDone, records := records } := by
  unfold decodeCarrier
  dsimp only
  by_cases h_done : s.frameDone = true
  · rw [if_pos h_done]
    exact ⟨rfl, s.dctx, s.frameDone, s.records, rfl⟩
  rw [if_neg h_done]
  have h_loop := decodeLoop_counts
    ({ w with handed := w.handed + 1, stats := { w.stats with
      bytesIn := w.stats.bytesIn + p.data.length } }) s.dctx s.records p.data
  split
  · exact ⟨h_loop, _, _, _, rfl⟩
  · split
    · exact ⟨h_loop, _, _, _, rfl⟩
    · split
      · exact ⟨h_loop, _, _, _, rfl⟩
      · exact ⟨h_loop, _, _, _, rfl⟩

/-! ## Operations on a stream -/

/-- What every operation on a stream keeps: who the stream is for, and that each carrier is
    accounted for. -/
def ledger (w : ZclWork) (s : c.Stream) : Nat × Nat × Nat × Nat × Bool × Nat :=
  (w.stats.carriersIn, w.stats.carriersBad, w.stats.carriersStale,
    w.stats.carriersDropped + w.handed + s.buf.length, s.used, s.id)

theorem front_below {buf : List Pending} (h : buf.Pairwise Pending.Before) (chunk : Nat) :
    Front buf fun p => decide (p.chunk < chunk) := by
  refine h.imp fun {p q} h_before h_q => ?_
  simp only [decide_eq_true_eq] at h_q ⊢
  rcases h_before with h_lt | ⟨h_eq, -⟩ <;> omega

theorem mem_dropBelow {w : ZclWork} {s : c.Stream} (h : BufOk s) {chunk : Nat} {p : Pending} :
    p ∈ (dropBelow c w s chunk).2.buf ↔ p ∈ s.buf ∧ chunk ≤ p.chunk := by
  have h_front := front_below h.sorted chunk
  constructor
  · intro h_p
    obtain ⟨h_mem, h_ge⟩ := h_front.of_mem_dropWhile h_p
    exact ⟨h_mem, by simpa using h_ge⟩
  · rintro ⟨h_mem, h_ge⟩
    exact h_front.mem_dropWhile h_mem (by simpa using h_ge)

theorem BufOk.dropBelow {w : ZclWork} {s : c.Stream} (h : BufOk s) (chunk : Nat) :
    BufOk (dropBelow c w s chunk).2 := by
  have h_suffix := List.dropWhile_suffix (l := s.buf) fun p => decide (p.chunk < chunk)
  have h_len := length_takeWhile_add_dropWhile s.buf fun p => decide (p.chunk < chunk)
  have h_sum := sum_takeWhile_add_dropWhile s.buf (fun p => decide (p.chunk < chunk))
    (·.data.length)
  refine ⟨h.sorted.sublist h_suffix.sublist, ?_, ?_, fun p h_p => ?_⟩
  · show s.bufCount - _ = (s.buf.dropWhile fun p => decide (p.chunk < chunk)).length
    rw [h.count]
    omega
  · show s.bufBytes - _ =
      ((s.buf.dropWhile fun p => decide (p.chunk < chunk)).map (·.data.length)).sum
    rw [h.bytes]
    omega
  · exact h.chunk_lt p (h_suffix.subset h_p)

theorem dropBelow_ledger (w : ZclWork) (s : c.Stream) (chunk : Nat) :
    ledger (dropBelow c w s chunk).1 (dropBelow c w s chunk).2 = ledger w s := by
  have h_len := length_takeWhile_add_dropWhile s.buf fun p => decide (p.chunk < chunk)
  have h_sum : w.stats.carriersDropped + (s.buf.takeWhile fun p => decide (p.chunk < chunk)).length +
      w.handed + (s.buf.dropWhile fun p => decide (p.chunk < chunk)).length =
        w.stats.carriersDropped + w.handed + s.buf.length := by omega
  simp only [ledger, dropBelow, h_sum]

theorem endChunk_ledger (w : ZclWork) (s : c.Stream) :
    ledger (endChunk c w s).1 (endChunk c w s).2 = ledger w s :=
  dropBelow_ledger w { s with synced := false, haveDone := true, done := s.cur } _

/-- Ending the chunk that the stream is on. -/
theorem StreamOk.endChunk {w : ZclWork} {s : c.Stream} (h : BufOk s) (h_cur : s.cur + 1 < 2 ^ 64) :
    StreamOk (endChunk c w s).2 := by
  have h_next : nextChunk s.cur = s.cur + 1 := Nat.mod_eq_of_lt h_cur
  have h_buf : BufOk { s with synced := false, haveDone := true, done := s.cur } :=
    ⟨h.sorted, h.count, h.bytes, h.chunk_lt⟩
  have h_drop := h_buf.dropBelow (w := w) (nextChunk s.cur)
  refine ⟨⟨h_drop.sorted, h_drop.count, h_drop.bytes, h_drop.chunk_lt⟩, fun _ p h_p => ?_, ?_, ?_, ?_⟩
  · have h_ge := ((mem_dropBelow (w := w) h_buf).mp h_p).2
    rw [h_next] at h_ge
    exact h_ge
  · intro h_synced
    cases h_synced
  · intro h_synced
    cases h_synced
  · intro h_synced
    cases h_synced

theorem syncTo_ledger (w : ZclWork) (s : c.Stream) (chunk : Nat) :
    ledger (syncTo c w s chunk).1 (syncTo c w s chunk).2 = ledger w s := dropBelow_ledger w s chunk

/-- Going to the chunk of a carrier in the buffer. -/
theorem StreamOk.syncTo {w : ZclWork} {s : c.Stream} (h : StreamOk s) {p : Pending}
    (h_p : p ∈ s.buf) : StreamOk (syncTo c w s p.chunk).2 := by
  have h_drop := h.toBufOk.dropBelow (w := w) p.chunk
  refine ⟨⟨h_drop.sorted, h_drop.count, h_drop.bytes, h_drop.chunk_lt⟩, ?_, ?_, ?_, ?_⟩
  · intro h_done q h_q
    exact h.above h_done q ((mem_dropBelow (w := w) h.toBufOk).mp h_q).1
  · intro _ q h_q
    have h_ge := ((mem_dropBelow (w := w) h.toBufOk).mp h_q).2
    show p.chunk < q.chunk ∨ p.chunk = q.chunk ∧ 0 ≤ q.seq
    omega
  · exact fun _ => h.chunk_lt p h_p
  · exact fun _ h_done => h.above h_done p h_p

theorem mem_of_firstStart {buf : List Pending} {p : Pending} (h : firstStart buf = some p) :
    p ∈ buf ∧ p.seq = 0 := by
  refine ⟨List.mem_of_find?_eq_some h, ?_⟩
  have h_found := List.find?_some h
  simpa using h_found

/-! ## Draining -/

/-- All that a round of `drain` can do: go to the next chunk, or take the head of the buffer
    and then end the chunk or go on in it. -/
theorem drainRound_cases {w w' : ZclWork} {s s' : c.Stream}
    (h : drainRound c w s = some (w', s')) :
    (s.synced = false ∧ ∃ start, firstStart s.buf = some start ∧
        start.chunk = (if s.haveDone then nextChunk s.done else 0) ∧
          (w', s') = syncTo c w s start.chunk) ∨
      (s.synced = true ∧ ∃ p rest w₁ s₁ ok, s.buf = p :: rest ∧ p.chunk = s.cur ∧ p.seq = s.next ∧
        decodeCarrier c w (unbuffer c s p rest) p = (w₁, s₁, ok) ∧
          ((ok = false ∧ (w', s') = endChunk c
              { w₁ with stats := { w₁.stats with chunksCorrupt := w₁.stats.chunksCorrupt + 1 } } s₁) ∨
            (ok = true ∧ p.isEnd = true ∧ (w', s') = endChunk c
              { w₁ with stats := { w₁.stats with chunksDone := w₁.stats.chunksDone + 1 } } s₁) ∨
            (ok = true ∧ p.isEnd = false ∧
              (w', s') = (w₁, { s₁ with next := (s₁.next + 1) % 2 ^ 32 })))) := by
  unfold drainRound at h
  cases h_buf : s.buf with
  | nil =>
    rw [h_buf] at h
    cases h
  | cons p rest =>
    rw [h_buf] at h
    dsimp only at h
    cases h_synced : s.synced with
    | false =>
      rw [h_synced, Bool.not_false, if_pos rfl] at h
      refine Or.inl ⟨rfl, ?_⟩
      cases h_start : firstStart (p :: rest) with
      | none =>
        rw [h_start] at h
        cases h
      | some start =>
        rw [h_start] at h
        dsimp only at h
        by_cases h_next : start.chunk = (if s.haveDone then nextChunk s.done else 0)
        · rw [if_neg (not_not_intro h_next)] at h
          exact ⟨start, rfl, h_next, (Option.some.inj h).symm⟩
        · rw [if_pos h_next] at h
          cases h
    | true =>
      rw [h_synced, Bool.not_true, if_neg Bool.false_ne_true] at h
      refine Or.inr ⟨rfl, p, rest, ?_⟩
      by_cases h_line : p.chunk ≠ s.cur ∨ p.seq ≠ s.next
      · rw [if_pos h_line] at h
        cases h
      rw [if_neg h_line] at h
      obtain ⟨h_chunk, h_seq⟩ := not_or.mp h_line
      rcases h_dec : decodeCarrier c w (unbuffer c s p rest) p with ⟨w₁, s₁, ok⟩
      rw [h_dec] at h
      refine ⟨w₁, s₁, ok, rfl, not_not.mp h_chunk, not_not.mp h_seq, rfl, ?_⟩
      cases ok with
      | false => exact Or.inl ⟨rfl, (Option.some.inj h).symm⟩
      | true =>
        dsimp only at h
        cases h_end : p.isEnd with
        | true =>
          rw [h_end, if_pos rfl] at h
          exact Or.inr (Or.inl ⟨rfl, rfl, (Option.some.inj h).symm⟩)
        | false =>
          rw [h_end, if_neg Bool.false_ne_true] at h
          exact Or.inr (Or.inr ⟨rfl, rfl, (Option.some.inj h).symm⟩)

theorem BufOk.unbuffer {s : c.Stream} (h : BufOk s) {p : Pending} {rest : List Pending}
    (h_buf : s.buf = p :: rest) : BufOk (unbuffer c s p rest) := by
  have h_sorted := h.sorted
  have h_count := h.count
  have h_bytes := h.bytes
  have h_lt := h.chunk_lt
  rw [h_buf] at h_sorted h_count h_bytes h_lt
  refine ⟨(List.pairwise_cons.mp h_sorted).2, ?_, ?_, fun q h_q =>
    h_lt q (List.mem_cons_of_mem p h_q)⟩
  · show s.bufCount - 1 = rest.length
    rw [h_count, List.length_cons]
    rfl
  · show s.bufBytes - p.data.length = (rest.map (·.data.length)).sum
    rw [h_bytes, List.map_cons, List.sum_cons]
    omega

/-- The ledger after a carrier went to the decoder. -/
theorem decodeCarrier_ledger {w w₁ : ZclWork} {s s₁ : c.Stream} {p : Pending}
    {rest : List Pending} {ok : Bool} (h_buf : s.buf = p :: rest)
    (h : decodeCarrier c w (unbuffer c s p rest) p = (w₁, s₁, ok)) :
    ledger w₁ s₁ = ledger w s := by
  obtain ⟨h_counts, dctx, frameDone, records, h_keeps⟩ :=
    decodeCarrier_keeps w (unbuffer c s p rest) p
  rw [h] at h_counts h_keeps
  simp only [ZclWork.counts, Prod.mk.injEq] at h_counts
  obtain ⟨h_in, h_bad, h_stale, h_dropped, h_handed⟩ := h_counts
  simp only at h_keeps
  simp only [ledger, h_keeps, h_in, h_bad, h_stale, h_dropped, h_handed, unbuffer, h_buf,
    List.length_cons, Prod.mk.injEq, true_and, and_true]
  omega

theorem drainRound_ledger {w w' : ZclWork} {s s' : c.Stream}
    (h : drainRound c w s = some (w', s')) : ledger w' s' = ledger w s := by
  have h_pair : ∀ {x : ZclWork × c.Stream}, (w', s') = x → ledger x.1 x.2 = ledger w s →
      ledger w' s' = ledger w s := by
    rintro x rfl h_x
    exact h_x
  rcases drainRound_cases h with ⟨-, start, -, -, h_eq⟩ |
    ⟨-, p, rest, w₁, s₁, ok, h_buf, -, -, h_dec, h_out⟩
  · exact h_pair h_eq (syncTo_ledger w s start.chunk)
  · have h_ledger := decodeCarrier_ledger h_buf h_dec
    rcases h_out with ⟨-, h_eq⟩ | ⟨-, -, h_eq⟩ | ⟨-, -, h_eq⟩
    · exact h_pair h_eq ((endChunk_ledger _ _).trans h_ledger)
    · exact h_pair h_eq ((endChunk_ledger _ _).trans h_ledger)
    · exact h_pair h_eq h_ledger

theorem StreamOk.drainRound {w w' : ZclWork} {s s' : c.Stream} (h_ok : StreamOk s)
    (h : drainRound c w s = some (w', s')) : StreamOk s' := by
  have h_pair : ∀ {x : ZclWork × c.Stream}, (w', s') = x → StreamOk x.2 → StreamOk s' := by
    rintro x rfl h_x
    exact h_x
  rcases drainRound_cases h with ⟨-, start, h_start, -, h_eq⟩ |
    ⟨h_synced, p, rest, w₁, s₁, ok, h_buf, h_chunk, h_seq, h_dec, h_out⟩
  · exact h_pair h_eq (h_ok.syncTo (mem_of_firstStart h_start).1)
  obtain ⟨-, dctx, frameDone, records, h_keeps⟩ :=
    decodeCarrier_keeps w (unbuffer c s p rest) p
  rw [h_dec] at h_keeps
  simp only at h_keeps
  have h_rest := h_ok.toBufOk.unbuffer h_buf
  have h_s₁ : BufOk s₁ := by
    rw [h_keeps]
    exact ⟨h_rest.sorted, h_rest.count, h_rest.bytes, h_rest.chunk_lt⟩
  have h_cur : s₁.cur + 1 < 2 ^ 64 := by
    rw [h_keeps]
    exact h_ok.cur_lt h_synced
  rcases h_out with ⟨-, h_eq⟩ | ⟨-, -, h_eq⟩ | ⟨-, -, h_eq⟩
  · exact h_pair h_eq (StreamOk.endChunk h_s₁ h_cur)
  · exact h_pair h_eq (StreamOk.endChunk h_s₁ h_cur)
  · refine h_pair h_eq ?_
    subst h_keeps
    refine ⟨⟨h_s₁.sorted, h_s₁.count, h_s₁.bytes, h_s₁.chunk_lt⟩, fun h_done q h_q => ?_,
      fun _ q h_q => ?_, fun _ => h_cur, fun _ h_done => h_ok.cur_above h_synced h_done⟩
    · exact h_ok.above h_done q (by rw [h_buf]; exact List.mem_cons_of_mem p h_q)
    · have h_sorted := h_ok.sorted
      rw [h_buf] at h_sorted
      show s.cur < q.chunk ∨ s.cur = q.chunk ∧ (s.next + 1) % 2 ^ 32 ≤ q.seq
      have h_mod := Nat.mod_le (s.next + 1) (2 ^ 32)
      rcases (List.pairwise_cons.mp h_sorted).1 q h_q with h_lt | ⟨h_same, h_lt⟩
      · omega
      · omega

/-- What a round of `drain` keeps, `drain` keeps. -/
theorem drainRounds_keeps {P : ZclWork → c.Stream → Prop}
    (h_round : ∀ w s w' s', P w s → drainRound c w s = some (w', s') → P w' s')
    (rounds : Nat) {w : ZclWork} {s : c.Stream} (h : P w s) :
    P (drainRounds c rounds w s).1 (drainRounds c rounds w s).2 := by
  induction rounds generalizing w s with
  | zero => exact h
  | succ rounds ih =>
    rw [drainRounds]
    split
    · exact h
    · rename_i w' s' h_eq
      exact ih (h_round w s w' s' h h_eq)

/-! ## Giving up gaps -/

theorem resolveGap_ledger (w : ZclWork) (s : c.Stream) :
    ledger (resolveGap c w s).1 (resolveGap c w s).2 = ledger w s := by
  unfold resolveGap
  split
  · exact endChunk_ledger _ s
  · split
    · exact syncTo_ledger w s _
    · split
      · rfl
      · exact dropBelow_ledger w { s with haveDone := true, done := _ } _

theorem StreamOk.resolveGap {w : ZclWork} {s : c.Stream} (h : StreamOk s) :
    StreamOk (resolveGap c w s).2 := by
  unfold Zcl.resolveGap
  split
  · rename_i h_synced
    exact StreamOk.endChunk h.toBufOk (h.cur_lt h_synced)
  · rename_i h_synced
    split
    · rename_i p h_start
      exact h.syncTo (mem_of_firstStart h_start).1
    · split
      · exact h
      · rename_i head rest h_buf
        have h_head : head.chunk + 1 < 2 ^ 64 := h.chunk_lt head (by simp [h_buf])
        have h_next : nextChunk head.chunk = head.chunk + 1 := Nat.mod_eq_of_lt h_head
        have h_s : BufOk { s with haveDone := true, done := head.chunk } :=
          ⟨h.sorted, h.count, h.bytes, h.chunk_lt⟩
        have h_drop := h_s.dropBelow (w := w) (nextChunk head.chunk)
        refine ⟨h_drop, fun _ p h_p => ?_, fun h_sync => absurd h_sync h_synced,
          fun h_sync => absurd h_sync h_synced, fun h_sync => absurd h_sync h_synced⟩
        have h_ge := ((mem_dropBelow (w := w) h_s).mp h_p).2
        rw [h_next] at h_ge
        exact h_ge

/-- What a round of `drain` and giving up a gap keep, `settle` keeps. -/
theorem settleRounds_keeps {P : ZclWork → c.Stream → Prop}
    (h_round : ∀ w s w' s', P w s → drainRound c w s = some (w', s') → P w' s')
    (h_gap : ∀ w s, P w s → P (resolveGap c w s).1 (resolveGap c w s).2)
    (rounds nowMs : Nat) {w : ZclWork} {s : c.Stream} (h : P w s) :
    P (settleRounds c rounds w s nowMs).1 (settleRounds c rounds w s nowMs).2 := by
  induction rounds generalizing w s with
  | zero => exact h
  | succ rounds ih =>
    have h_drain : P (drain c w s).1 (drain c w s).2 := drainRounds_keeps h_round _ h
    rw [settleRounds]
    split
    · exact h
    · dsimp only
      split
      · exact h_drain
      · split
        · exact ih (h_gap _ _ h_drain)
        · exact h_drain

theorem settle_ledger (w : ZclWork) (s : c.Stream) (nowMs : Nat) :
    ledger (settle c w s nowMs).1 (settle c w s nowMs).2 = ledger w s := by
  refine settleRounds_keeps (P := fun w' s' => ledger w' s' = ledger w s) ?_ ?_ _ _ rfl
  · intro w₁ s₁ w₂ s₂ h_same h_eq
    exact (drainRound_ledger h_eq).trans h_same
  · intro w₁ s₁ h_same
    exact (resolveGap_ledger w₁ s₁).trans h_same

theorem StreamOk.settle {w : ZclWork} {s : c.Stream} (h : StreamOk s) (nowMs : Nat) :
    StreamOk (settle c w s nowMs).2 :=
  settleRounds_keeps (P := fun _ s => StreamOk s) (fun _ _ _ _ h_s h_eq => h_s.drainRound h_eq)
    (fun _ _ h_s => h_s.resolveGap) _ _ h

/-! ## The receiver -/

/-- The buffered carriers of all streams. -/
def buffered (streams : List c.Stream) : Nat := (streams.map (·.buf.length)).sum

/-- No two places hold streams in use with one id. -/
def IdsUnique (streams : List c.Stream) : Prop :=
  ∀ (i j : Nat) (s t : c.Stream), streams[i]? = some s → streams[j]? = some t → s.used = true → t.used = true →
    s.id = t.id → i = j

structure StreamsOk (streams : List c.Stream) : Prop where
  length_eq : streams.length = c.limits.maxStreams
  each : ∀ s ∈ streams, StreamOk s
  unused : ∀ s ∈ streams, s.used = false → s.buf = []
  unique : IdsUnique streams

/-- Every carrier that came in is accounted for. -/
def Accounted (w : ZclWork) (streams : List c.Stream) (carriersIn : Nat) : Prop :=
  carriersIn = w.stats.carriersBad + w.stats.carriersStale + w.stats.carriersDropped + w.handed +
    buffered streams

/-- A receiver in order. -/
structure RxOk (rx : ZclRx c) : Prop extends StreamsOk rx.streams where
  accounted : Accounted rx.work rx.streams rx.work.stats.carriersIn

theorem sum_set {α : Type*} (f : α → Nat) {l : List α} {i : Nat} {x : α} (h : l[i]? = some x)
    (y : α) : ((l.set i y).map f).sum + f x = (l.map f).sum + f y := by
  induction l generalizing i with
  | nil => cases h
  | cons a l ih =>
    cases i with
    | zero =>
      obtain rfl : a = x := by simpa using h
      simp only [List.set_cons_zero, List.map_cons, List.sum_cons]
      omega
    | succ i =>
      have h_tail := ih (i := i) (by simpa using h)
      simp only [List.set_cons_succ, List.map_cons, List.sum_cons]
      omega

theorem buffered_set {streams : List c.Stream} {i : Nat} {s : c.Stream}
    (h : streams[i]? = some s) (t : c.Stream) :
    buffered (streams.set i t) + s.buf.length = buffered streams + t.buf.length :=
  sum_set (fun s : c.Stream => s.buf.length) h t

theorem getElem?_set_cases {α : Type*} {l : List α} {i j : Nat} {x y : α}
    (h : (l.set i y)[j]? = some x) : (i = j ∧ x = y) ∨ (i ≠ j ∧ l[j]? = some x) := by
  rw [List.getElem?_set] at h
  by_cases h_ij : i = j
  · rw [if_pos h_ij] at h
    split at h
    · exact Or.inl ⟨h_ij, (Option.some.inj h).symm⟩
    · cases h
  · rw [if_neg h_ij] at h
    exact Or.inr ⟨h_ij, h⟩

/-- A stream may be put in the place of another that had its id, or with an id that is in
    use nowhere. -/
theorem StreamsOk.set {streams : List c.Stream} (h : StreamsOk streams) {i : Nat} {t : c.Stream}
    (h_ok : StreamOk t) (h_unused : t.used = false → t.buf = [])
    (h_id : t.used = true → ∀ (j : Nat) (s : c.Stream), i ≠ j → streams[j]? = some s → s.used = true → s.id ≠ t.id) :
    StreamsOk (streams.set i t) := by
  refine ⟨by rw [List.length_set, h.length_eq], fun s h_s => ?_, fun s h_s => ?_, ?_⟩
  · rcases List.mem_or_eq_of_mem_set h_s with h_old | rfl
    · exact h.each s h_old
    · exact h_ok
  · rcases List.mem_or_eq_of_mem_set h_s with h_old | rfl
    · exact h.unused s h_old
    · exact h_unused
  · intro j k s₁ s₂ h_j h_k h_used₁ h_used₂ h_same
    rcases getElem?_set_cases h_j with ⟨rfl, rfl⟩ | ⟨h_ij, h_j'⟩
    · rcases getElem?_set_cases h_k with ⟨rfl, -⟩ | ⟨h_ik, h_k'⟩
      · rfl
      · exact absurd h_same.symm (h_id h_used₁ k s₂ h_ik h_k' h_used₂)
    · rcases getElem?_set_cases h_k with ⟨rfl, rfl⟩ | ⟨h_ik, h_k'⟩
      · exact absurd h_same (h_id h_used₂ j s₁ h_ij h_j' h_used₁)
      · exact h.unique j k s₁ s₂ h_j' h_k' h_used₁ h_used₂ h_same

/-- Replacing a stream by what an operation on it left. -/
theorem StreamsOk.set_same {streams : List c.Stream} (h : StreamsOk streams) {i : Nat}
    {s t : c.Stream} (h_i : streams[i]? = some s) (h_ok : StreamOk t)
    (h_used : t.used = s.used) (h_id : t.id = s.id) (h_unused : t.used = false → t.buf = []) :
    StreamsOk (streams.set i t) := by
  refine h.set h_ok h_unused fun h_t j s' h_ij h_j h_s' h_same => h_ij ?_
  rw [h_used] at h_t
  exact h.unique i j s s' h_i h_j h_t h_s' (by rw [h_same, h_id])

/-! ## Finding the stream -/

theorem findVictim_spec {streams : List c.Stream} {k : Nat} {victim : Option (Nat × c.Stream)}
    {i : Nat} {s : c.Stream} (h : findVictim c streams k victim = some (i, s)) :
    victim = some (i, s) ∨ ∃ j, i = k + j ∧ streams[j]? = some s := by
  induction streams generalizing k victim with
  | nil => exact Or.inl h
  | cons t rest ih =>
    cases victim with
    | none =>
      rcases ih h with h_first | ⟨j, h_i, h_j⟩
      · obtain ⟨rfl, rfl⟩ := Prod.mk.inj (Option.some.inj h_first)
        exact Or.inr ⟨0, rfl, rfl⟩
      · exact Or.inr ⟨j + 1, by omega, h_j⟩
    | some v =>
      rcases ih h with h_one | ⟨j, h_i, h_j⟩
      · split at h_one
        · obtain ⟨rfl, rfl⟩ := Prod.mk.inj (Option.some.inj h_one)
          exact Or.inr ⟨0, rfl, rfl⟩
        · exact Or.inl h_one
      · exact Or.inr ⟨j + 1, by omega, h_j⟩

/-- A stream with nothing buffered that is on no chunk. -/
theorem StreamOk.of_empty {s : c.Stream} (h_buf : s.buf = []) (h_count : s.bufCount = 0)
    (h_bytes : s.bufBytes = 0) (h_synced : s.synced = false) : StreamOk s := by
  have h_none : ∀ {P : Pending → Prop}, ∀ p ∈ s.buf, P p := by
    intro P p h_p
    rw [h_buf] at h_p
    cases h_p
  have h_not : ¬ s.synced = true := by simp [h_synced]
  exact ⟨⟨by rw [h_buf]; exact List.Pairwise.nil, by rw [h_buf, h_count]; rfl,
    by rw [h_buf, h_bytes]; rfl, h_none⟩, fun _ => h_none, fun _ => h_none,
    fun h => absurd h h_not, fun h => absurd h h_not⟩

theorem lookupStream_some {id : Nat} {streams : List c.Stream} {k i : Nat} {s : c.Stream}
    (h : lookupStream c id streams k = some (i, s)) :
    ∃ j, i = k + j ∧ streams[j]? = some s ∧ s.used = true ∧ s.id = id := by
  induction streams generalizing k with
  | nil => cases h
  | cons t rest ih =>
    rw [lookupStream] at h
    split at h
    · rename_i h_t
      obtain ⟨rfl, rfl⟩ := Prod.mk.inj (Option.some.inj h)
      exact ⟨0, rfl, rfl, h_t.1, h_t.2⟩
    · obtain ⟨j, h_i, h_j⟩ := ih h
      exact ⟨j + 1, by omega, h_j⟩

theorem lookupStream_none {id : Nat} {streams : List c.Stream} {k : Nat}
    (h : lookupStream c id streams k = none) :
    ∀ (j : Nat) (s : c.Stream), streams[j]? = some s → s.used = true → s.id ≠ id := by
  induction streams generalizing k with
  | nil =>
    intro j s h_j
    cases h_j
  | cons t rest ih =>
    rw [lookupStream] at h
    split at h
    · cases h
    · rename_i h_t
      intro j s h_j h_used h_id
      cases j with
      | zero =>
        obtain rfl : t = s := by simpa using h_j
        exact h_t ⟨h_used, h_id⟩
      | succ j => exact ih h j s (by simpa using h_j) h_used h_id

/-- Putting a stream with nothing buffered in the place of a victim. -/
theorem Accounted.evict {w : ZclWork} {streams : List c.Stream} {carriersIn : Nat}
    (h : Accounted w streams carriersIn) (h_ok : StreamsOk streams) {i : Nat}
    {victim t : c.Stream} (h_i : streams[i]? = some victim) (h_t : t.buf = []) (allocs : Nat) :
    Accounted { w with stats := countEvicted w.stats victim, allocs := allocs }
      (streams.set i t) carriersIn := by
  have h_set := buffered_set h_i t
  have h_mem : victim ∈ streams := List.mem_of_getElem? h_i
  have h_count := (h_ok.each victim h_mem).count
  rw [h_t, List.length_nil] at h_set
  unfold Accounted countEvicted at *
  by_cases h_used : victim.used = true
  · rw [if_pos h_used]
    dsimp only
    omega
  · have h_none := h_ok.unused victim h_mem (by simpa using h_used)
    rw [h_none, List.length_nil] at h_set
    rw [if_neg h_used]
    dsimp only
    omega

/-- Finding a stream leaves the receiver in order, and the stream found is in use. -/
theorem findStream_ok {rx : ZclRx c} {carriersIn : Nat} (h : StreamsOk rx.streams)
    (h_acc : Accounted rx.work rx.streams carriersIn) (id : Nat) :
    StreamsOk (findStream rx id).1.streams ∧
      Accounted (findStream rx id).1.work (findStream rx id).1.streams carriersIn ∧
      (findStream rx id).1.work.stats.carriersIn = rx.work.stats.carriersIn ∧
      ∀ i, (findStream rx id).2 = some i → ∃ s : c.Stream,
        (findStream rx id).1.streams[i]? = some s ∧ s.used = true ∧ s.id = id := by
  have h_lt : ∀ {i : Nat} {s t : c.Stream}, rx.streams[i]? = some s →
      (rx.streams.set i t)[i]? = some t := by
    intro i s t h_i
    have h_i' := (List.getElem?_eq_some_iff.mp h_i).1
    simp [h_i']
  unfold findStream
  cases h_find : lookupStream c id rx.streams 0 with
  | some found =>
    obtain ⟨i, s⟩ := found
    obtain ⟨j, rfl, h_j, h_used, h_id⟩ := lookupStream_some h_find
    rw [Nat.zero_add]
    have h_s := h.each s (List.mem_of_getElem? h_j)
    refine ⟨h.set_same h_j ⟨⟨h_s.sorted, h_s.count, h_s.bytes, h_s.chunk_lt⟩, h_s.above, h_s.ahead,
      h_s.cur_lt, h_s.cur_above⟩ rfl rfl fun h_unused => ?_, ?_, rfl, ?_⟩
    · rw [h_used] at h_unused
      cases h_unused
    · have h_set := buffered_set h_j { s with lastUse := rx.useClock + 1 }
      unfold Accounted at *
      dsimp only at *
      omega
    · intro i h_i
      obtain rfl := Option.some.inj h_i
      exact ⟨_, h_lt h_j, h_used, h_id⟩
  | none =>
    dsimp only
    cases h_victim : findVictim c rx.streams 0 none with
    | none => exact ⟨h, h_acc, rfl, fun i h_i => (by cases h_i)⟩
    | some found =>
      obtain ⟨i, victim⟩ := found
      obtain ⟨j, rfl, h_j⟩ := (findVictim_spec h_victim).resolve_left (by simp)
      rw [Nat.zero_add]
      dsimp only
      -- The victim is set to zeros, or was not in use.
      generalize h_free : (if victim.used = true then freeStream c else victim) = t
      have h_victim_ok := h.each victim (List.mem_of_getElem? h_j)
      have h_t : StreamOk t ∧ t.buf = [] ∧ t.used = false := by
        subst h_free
        by_cases h_used : victim.used = true
        · rw [if_pos h_used]
          exact ⟨StreamOk.of_empty rfl rfl rfl rfl, rfl, rfl⟩
        · rw [if_neg h_used]
          have h_unused : victim.used = false := by simpa using h_used
          exact ⟨h_victim_ok, h.unused victim (List.mem_of_getElem? h_j) h_unused, h_unused⟩
      obtain ⟨h_t_ok, h_t_buf, h_t_used⟩ := h_t
      have h_in : (countEvicted rx.work.stats victim).carriersIn = rx.work.stats.carriersIn := by
        unfold countEvicted
        split <;> rfl
      by_cases h_mem : c.mem rx.work.allocs = true
      · rw [h_mem, Bool.not_true, if_neg Bool.false_ne_true]
        refine ⟨h.set ⟨⟨h_t_ok.sorted, h_t_ok.count, h_t_ok.bytes, h_t_ok.chunk_lt⟩, h_t_ok.above,
          h_t_ok.ahead, h_t_ok.cur_lt, h_t_ok.cur_above⟩ (fun h_unused => (by cases h_unused))
          fun _ k s _ h_k h_used => lookupStream_none h_find k s h_k h_used,
          h_acc.evict h h_j (by exact h_t_buf) _, h_in, fun i h_i => ?_⟩
        obtain rfl := Option.some.inj h_i
        exact ⟨_, h_lt h_j, rfl, rfl⟩
      · rw [Bool.eq_false_iff.mpr h_mem, Bool.not_false, if_pos rfl]
        refine ⟨h.set h_t_ok (fun _ => h_t_buf) fun h_used => ?_, h_acc.evict h h_j h_t_buf _,
          h_in, fun i h_i => (by cases h_i)⟩
        rw [h_t_used] at h_used
        cases h_used

/-! ## Carriers and ticks -/

theorem insertPending_some {p : Pending} {buf buf' : List Pending}
    (h : insertPending p buf = some buf') (h_sorted : buf.Pairwise Pending.Before) :
    buf'.Perm (p :: buf) ∧ buf'.Pairwise Pending.Before := by
  induction buf generalizing buf' with
  | nil =>
    obtain rfl := Option.some.inj h
    exact ⟨List.Perm.refl _, List.pairwise_singleton _ _⟩
  | cons q rest ih =>
    obtain ⟨h_q, h_rest⟩ := List.pairwise_cons.mp h_sorted
    rw [insertPending] at h
    by_cases h_at : q.atOrBehind p.chunk p.seq = true
    · rw [if_pos h_at] at h
      by_cases h_same : q.chunk = p.chunk ∧ q.seq = p.seq
      · rw [if_pos h_same] at h
        cases h
      rw [if_neg h_same] at h
      obtain rfl := Option.some.inj h
      have h_before : p.Before q := by
        simp only [Pending.atOrBehind, Bool.or_eq_true, Bool.and_eq_true, decide_eq_true_eq] at h_at
        unfold Pending.Before
        omega
      refine ⟨List.Perm.refl _, List.pairwise_cons.mpr ⟨fun r h_r => ?_, h_sorted⟩⟩
      rcases List.mem_cons.mp h_r with rfl | h_r
      · exact h_before
      · have h_qr := h_q r h_r
        unfold Pending.Before at *
        omega
    · rw [if_neg h_at] at h
      obtain ⟨rest', h_ins, rfl⟩ := Option.map_eq_some_iff.mp h
      obtain ⟨h_perm, h_sorted'⟩ := ih h_ins h_rest
      have h_before : q.Before p := by
        simp only [Pending.atOrBehind, Bool.or_eq_true, Bool.and_eq_true, decide_eq_true_eq] at h_at
        unfold Pending.Before
        omega
      refine ⟨(h_perm.cons q).trans (List.Perm.swap p q rest), List.pairwise_cons.mpr
        ⟨fun r h_r => ?_, h_sorted'⟩⟩
      rcases List.mem_cons.mp (h_perm.mem_iff.mp h_r) with rfl | h_r
      · exact h_before
      · exact h_q r h_r

/-- A stream with one more carrier, which is neither old nor before the cursor. -/
theorem StreamOk.insert {s : c.Stream} (h : StreamOk s) {hd : ZclHeader} {p : Pending}
    {buf : List Pending} (h_fresh : staleCarrier s hd = false) (h_chunk : p.chunk = hd.chunkId)
    (h_seq : p.seq = hd.seq) (h_max : hd.chunkId + 1 < 2 ^ 64)
    (h_ins : insertPending p s.buf = some buf) :
    StreamOk { s with
      buf := buf, bufCount := s.bufCount + 1, bufBytes := s.bufBytes + p.data.length } := by
  obtain ⟨h_perm, h_sorted⟩ := insertPending_some h_ins h.sorted
  simp only [staleCarrier, Bool.or_eq_false_iff, Bool.and_eq_false_iff, decide_eq_false_iff_not]
    at h_fresh
  obtain ⟨⟨h_above, h_next⟩, h_cur⟩ := h_fresh
  refine ⟨⟨h_sorted, ?_, ?_, fun q h_q => ?_⟩, fun h_done q h_q => ?_, fun h_synced q h_q => ?_,
    h.cur_lt, h.cur_above⟩
  · show s.bufCount + 1 = buf.length
    rw [h_perm.length_eq, List.length_cons, h.count]
  · show s.bufBytes + p.data.length = (buf.map (·.data.length)).sum
    rw [(h_perm.map _).sum_nat, List.map_cons, List.sum_cons, h.bytes, Nat.add_comm]
  · rcases List.mem_cons.mp (h_perm.mem_iff.mp h_q) with rfl | h_old
    · rwa [h_chunk]
    · exact h.chunk_lt q h_old
  · rcases List.mem_cons.mp (h_perm.mem_iff.mp h_q) with rfl | h_old
    · have h_gt := h_above.resolve_left (by simp [show s.haveDone = true from h_done])
      show s.done < q.chunk
      omega
    · exact h.above h_done q h_old
  · rcases List.mem_cons.mp (h_perm.mem_iff.mp h_q) with rfl | h_old
    · have h_synced' : ¬ s.synced = false := by simp [show s.synced = true from h_synced]
      have h_ge := h_cur.resolve_left h_synced'
      show s.cur < q.chunk ∨ s.cur = q.chunk ∧ s.next ≤ q.seq
      rcases h_next with (h_no | h_ne) | h_le
      · exact absurd h_no h_synced'
      · omega
      · omega
    · exact h.ahead h_synced q h_old

theorem ledger_eq {w w' : ZclWork} {s s' : c.Stream} (h : ledger w' s' = ledger w s) :
    w'.stats.carriersIn = w.stats.carriersIn ∧ w'.stats.carriersBad = w.stats.carriersBad ∧
      w'.stats.carriersStale = w.stats.carriersStale ∧
      w'.stats.carriersDropped + w'.handed + s'.buf.length =
        w.stats.carriersDropped + w.handed + s.buf.length ∧ s'.used = s.used ∧ s'.id = s.id := by
  simpa only [ledger, Prod.mk.injEq] using h

/-- Settling the stream at one place. -/
theorem settle_place {w : ZclWork} {streams : List c.Stream} {carriersIn i : Nat}
    {s t : c.Stream} (h : StreamsOk streams) (h_i : streams[i]? = some s) (h_ok : StreamOk t)
    (h_used : s.used = true) (h_used' : t.used = s.used) (h_id : t.id = s.id) (nowMs : Nat)
    (h_acc : carriersIn = w.stats.carriersBad + w.stats.carriersStale + w.stats.carriersDropped +
      w.handed + buffered (streams.set i t)) :
    StreamsOk (streams.set i (settle c w t nowMs).2) ∧
      Accounted (settle c w t nowMs).1 (streams.set i (settle c w t nowMs).2) carriersIn ∧
        (settle c w t nowMs).1.stats.carriersIn = w.stats.carriersIn := by
  obtain ⟨h_in, h_bad, h_stale, h_sum, h_used₁, h_id₁⟩ := ledger_eq (settle_ledger w t nowMs)
  refine ⟨h.set_same h_i (h_ok.settle nowMs) (h_used₁.trans h_used') (h_id₁.trans h_id)
    fun h_unused => ?_, ?_, h_in⟩
  · rw [h_used₁, h_used', h_used] at h_unused
    cases h_unused
  · have h_old := buffered_set h_i t
    have h_new := buffered_set h_i (settle c w t nowMs).2
    unfold Accounted
    omega

/-- A carrier whose chunk has a successor. -/
def BelowMax (carrier : Octets) : Prop :=
  ∀ h, zclHeaderGet carrier = some h → h.chunkId + 1 < 2 ^ 64

theorem takeCarrier_ok {rx : ZclRx c} {i : Nat} {s : c.Stream} (h : StreamsOk rx.streams)
    (h_acc : rx.work.stats.carriersIn = rx.work.stats.carriersBad + rx.work.stats.carriersStale +
      rx.work.stats.carriersDropped + rx.work.handed + buffered rx.streams + 1)
    (h_i : rx.streams[i]? = some s) (h_used : s.used = true) {hd : ZclHeader}
    (h_max : hd.chunkId + 1 < 2 ^ 64) (data : Octets) (nowMs : Nat) :
    RxOk (takeCarrier rx i s hd data nowMs) := by
  have h_stale : RxOk rx.countStale := by
    refine ⟨h, ?_⟩
    show rx.work.stats.carriersIn = rx.work.stats.carriersBad + (rx.work.stats.carriersStale + 1) +
      rx.work.stats.carriersDropped + rx.work.handed + buffered rx.streams
    omega
  unfold takeCarrier
  cases h_fresh : staleCarrier s hd with
  | true => exact h_stale
  | false =>
    rw [if_neg Bool.false_ne_true]
    dsimp only
    cases h_ins : insertPending ⟨hd.chunkId, hd.seq, hd.flags &&& zclFlagEnd != 0, nowMs, data⟩
        s.buf with
    | none => exact h_stale
    | some buf =>
      dsimp only
      by_cases h_mem : c.mem rx.work.allocs = true
      · rw [h_mem, Bool.not_true, if_neg Bool.false_ne_true]
        have h_ok := (h.each s (List.mem_of_getElem? h_i)).insert h_fresh rfl rfl h_max h_ins
        have h_len : buf.length = s.buf.length + 1 :=
          (insertPending_some h_ins (h.each s (List.mem_of_getElem? h_i)).sorted).1.length_eq
        have h_set := buffered_set h_i { s with
          buf := buf, bufCount := s.bufCount + 1, bufBytes := s.bufBytes + data.length }
        have h_sum : rx.work.stats.carriersIn = rx.work.stats.carriersBad +
            rx.work.stats.carriersStale + rx.work.stats.carriersDropped + rx.work.handed +
              buffered (rx.streams.set i { s with
                buf := buf, bufCount := s.bufCount + 1, bufBytes := s.bufBytes + data.length }) := by
          dsimp only at h_set
          omega
        obtain ⟨h_streams, h_acc', h_in⟩ := settle_place
          (w := { rx.work with allocs := rx.work.allocs + 1 }) h h_i h_ok h_used rfl rfl nowMs h_sum
        refine ⟨h_streams, ?_⟩
        rw [← h_in] at h_acc'
        exact h_acc'
      · rw [Bool.eq_false_iff.mpr h_mem, Bool.not_false, if_pos rfl]
        refine ⟨h, ?_⟩
        show rx.work.stats.carriersIn = rx.work.stats.carriersBad + rx.work.stats.carriersStale +
          (rx.work.stats.carriersDropped + 1) + rx.work.handed + buffered rx.streams
        omega

theorem zclRxCarrier_ok {rx : ZclRx c} (h : RxOk rx) {carrier : Octets}
    (h_max : BelowMax carrier) (nowMs : Nat) : RxOk (zclRxCarrier rx carrier nowMs).1 := by
  obtain ⟨h_streams, h_acc⟩ := h
  unfold Accounted at h_acc
  unfold zclRxCarrier
  dsimp only
  cases h_get : zclHeaderGet carrier with
  | none =>
    refine ⟨h_streams, ?_⟩
    show rx.work.stats.carriersIn + 1 = (rx.work.stats.carriersBad + 1) +
      rx.work.stats.carriersStale + rx.work.stats.carriersDropped + rx.work.handed +
        buffered rx.streams
    omega
  | some hd =>
    dsimp only
    -- What `findStream` is given has one carrier more than is accounted for.
    generalize h_rx : ({ rx with work := { rx.work with stats := { rx.work.stats with
      carriersIn := rx.work.stats.carriersIn + 1 } } } : ZclRx c) = rx₁
    have h_in₁ : rx₁.work.stats.carriersIn = rx.work.stats.carriersIn + 1 := by rw [← h_rx]
    have h_streams₁ : StreamsOk rx₁.streams := by
      rw [← h_rx]
      exact h_streams
    have h_acc₁ : Accounted rx₁.work rx₁.streams rx.work.stats.carriersIn := by
      rw [← h_rx]
      exact h_acc
    obtain ⟨h_streams₂, h_acc₂, h_in₂, h_found⟩ := findStream_ok h_streams₁ h_acc₁ hd.streamId
    rcases h_find : findStream rx₁ hd.streamId with ⟨rx₂, found⟩
    rw [h_find] at h_streams₂ h_acc₂ h_in₂ h_found
    unfold Accounted at h_acc₂
    dsimp only at h_streams₂ h_acc₂ h_in₂ h_found ⊢
    cases found with
    | none =>
      refine ⟨h_streams₂, ?_⟩
      show rx₂.work.stats.carriersIn = rx₂.work.stats.carriersBad + rx₂.work.stats.carriersStale +
        (rx₂.work.stats.carriersDropped + 1) + rx₂.work.handed + buffered rx₂.streams
      omega
    | some i =>
      obtain ⟨s, h_s, h_used, -⟩ := h_found i rfl
      dsimp only
      rw [h_s]
      exact takeCarrier_ok h_streams₂ (by omega) h_s h_used (h_max hd h_get) _ nowMs

/-- What a tick leaves of a stream. -/
structure Ticked (s t : c.Stream) : Prop where
  used : t.used = s.used
  id : t.id = s.id
  ok : StreamOk s → StreamOk t
  unused : s.used = false → t = s

theorem tickStreams_spec (nowMs : Nat) (w : ZclWork) (streams : List c.Stream) :
    List.Forall₂ Ticked streams (tickStreams nowMs w streams).2 ∧
      (tickStreams nowMs w streams).1.stats.carriersIn = w.stats.carriersIn ∧
      (tickStreams nowMs w streams).1.stats.carriersBad = w.stats.carriersBad ∧
      (tickStreams nowMs w streams).1.stats.carriersStale = w.stats.carriersStale ∧
      (tickStreams nowMs w streams).1.stats.carriersDropped +
          (tickStreams nowMs w streams).1.handed + buffered (tickStreams nowMs w streams).2 =
        w.stats.carriersDropped + w.handed + buffered streams := by
  induction streams generalizing w with
  | nil => exact ⟨List.Forall₂.nil, rfl, rfl, rfl, rfl⟩
  | cons s rest ih =>
    have h_one : ∃ w₁ t, (if s.used = true then settle c w s nowMs else (w, s)) = (w₁, t) ∧
        Ticked s t ∧ ledger w₁ t = ledger w s := by
      by_cases h_used : s.used = true
      · have h_ledger := settle_ledger w s nowMs
        obtain ⟨-, -, -, -, h_used', h_id⟩ := ledger_eq h_ledger
        rw [if_pos h_used]
        refine ⟨_, _, rfl, ⟨h_used', h_id, fun h => h.settle nowMs, fun h_unused => ?_⟩, h_ledger⟩
        rw [h_used] at h_unused
        cases h_unused
      · rw [if_neg h_used]
        exact ⟨w, s, rfl, ⟨rfl, rfl, id, fun _ => rfl⟩, rfl⟩
    obtain ⟨w₁, t, h_eq, h_ticked, h_ledger⟩ := h_one
    obtain ⟨h_all, h_in, h_bad, h_stale, h_sum⟩ := ih w₁
    obtain ⟨h_in₁, h_bad₁, h_stale₁, h_sum₁, -, -⟩ := ledger_eq h_ledger
    simp only [tickStreams, h_eq]
    refine ⟨List.Forall₂.cons h_ticked h_all, h_in.trans h_in₁, h_bad.trans h_bad₁,
      h_stale.trans h_stale₁, ?_⟩
    simp only [buffered, List.map_cons, List.sum_cons] at h_sum ⊢
    omega

theorem zclRxTick_ok {rx : ZclRx c} (h : RxOk rx) (nowMs : Nat) : RxOk (zclRxTick rx nowMs) := by
  obtain ⟨h_all, h_in, h_bad, h_stale, h_sum⟩ := tickStreams_spec nowMs rx.work rx.streams
  obtain ⟨h_streams, h_acc⟩ := h
  unfold Accounted at h_acc
  have h_at : ∀ {j : Nat} {t : c.Stream}, (tickStreams nowMs rx.work rx.streams).2[j]? = some t →
      ∃ s : c.Stream, rx.streams[j]? = some s ∧ Ticked s t := by
    intro j t h_t
    obtain ⟨h_len, h_get⟩ := List.forall₂_iff_get.mp h_all
    obtain ⟨h_j, rfl⟩ := List.getElem?_eq_some_iff.mp h_t
    have h_j' : j < rx.streams.length := by rwa [h_len]
    exact ⟨rx.streams[j], List.getElem?_eq_getElem h_j', h_get j h_j' h_j⟩
  have h_mem : ∀ t ∈ (tickStreams nowMs rx.work rx.streams).2,
      ∃ s : c.Stream, s ∈ rx.streams ∧ Ticked s t := by
    intro t h_t
    obtain ⟨j, h_j⟩ := List.mem_iff_getElem?.mp h_t
    obtain ⟨s, h_s, h_ticked⟩ := h_at h_j
    exact ⟨s, List.mem_of_getElem? h_s, h_ticked⟩
  refine ⟨⟨?_, fun t h_t => ?_, fun t h_t h_unused => ?_, ?_⟩, ?_⟩
  · exact h_all.length_eq.symm.trans h_streams.length_eq
  · obtain ⟨s, h_s, h_ticked⟩ := h_mem t h_t
    exact h_ticked.ok (h_streams.each s h_s)
  · obtain ⟨s, h_s, h_ticked⟩ := h_mem t h_t
    have h_s_unused : s.used = false := h_ticked.used.symm.trans h_unused
    rw [h_ticked.unused h_s_unused]
    exact h_streams.unused s h_s h_s_unused
  · intro i j t₁ t₂ h_i h_j h_used₁ h_used₂ h_same
    obtain ⟨s₁, h_s₁, h_ticked₁⟩ := h_at h_i
    obtain ⟨s₂, h_s₂, h_ticked₂⟩ := h_at h_j
    exact h_streams.unique i j s₁ s₂ h_s₁ h_s₂ (h_ticked₁.used.symm.trans h_used₁)
      (h_ticked₂.used.symm.trans h_used₂) (h_ticked₁.id.symm.trans (h_same.trans h_ticked₂.id))
  · show (tickStreams nowMs rx.work rx.streams).1.stats.carriersIn = _ + _ + _ + _ +
      buffered (tickStreams nowMs rx.work rx.streams).2
    show _ = (tickStreams nowMs rx.work rx.streams).1.stats.carriersBad +
      (tickStreams nowMs rx.work rx.streams).1.stats.carriersStale +
        (tickStreams nowMs rx.work rx.streams).1.stats.carriersDropped +
          (tickStreams nowMs rx.work rx.streams).1.handed + _
    omega

/-! ## Runs -/

/-- What happens to a receiver. -/
inductive RxEvent
  | carrier (octets : Octets) (nowMs : Nat)
  | tick (nowMs : Nat)

def RxEvent.nowMs : RxEvent → Nat
  | .carrier _ nowMs => nowMs
  | .tick nowMs => nowMs

def RxEvent.BelowMax : RxEvent → Prop
  | .carrier octets _ => Zcl.BelowMax octets
  | .tick _ => True

def ZclRx.after (rx : ZclRx c) : RxEvent → ZclRx c
  | .carrier octets nowMs => (zclRxCarrier rx octets nowMs).1
  | .tick nowMs => zclRxTick rx nowMs

def ZclRx.run (rx : ZclRx c) (es : List RxEvent) : ZclRx c := es.foldl ZclRx.after rx

theorem after_ok {rx : ZclRx c} (h : RxOk rx) {e : RxEvent} (h_max : e.BelowMax) :
    RxOk (rx.after e) := by
  cases e with
  | carrier octets nowMs => exact zclRxCarrier_ok h h_max nowMs
  | tick nowMs => exact zclRxTick_ok h nowMs

theorem zclRxNew_ok {rx : ZclRx c} (h : zclRxNew c = some rx) : RxOk rx := by
  unfold zclRxNew at h
  split at h
  · cases h
  obtain rfl := Option.some.inj h
  have h_free : ∀ s ∈ List.replicate c.limits.maxStreams (freeStream c), s = freeStream c :=
    fun s h_s => List.eq_of_mem_replicate h_s
  refine ⟨⟨List.length_replicate, fun s h_s => ?_, fun s h_s _ => ?_, ?_⟩, ?_⟩
  · rw [h_free s h_s]
    exact StreamOk.of_empty rfl rfl rfl rfl
  · rw [h_free s h_s]
    rfl
  · intro i j s t h_i _ h_used _ _
    rw [h_free s (List.mem_of_getElem? h_i)] at h_used
    cases h_used
  · have h_none : buffered (List.replicate c.limits.maxStreams (freeStream c)) = 0 := by
      simp [buffered, freeStream]
    show 0 = 0 + 0 + 0 + 0 + buffered (List.replicate c.limits.maxStreams (freeStream c))
    rw [h_none]

/-- **A receiver is in order after every run.** -/
theorem run_rxOk {rx : ZclRx c} (h_new : zclRxNew c = some rx) (es : List RxEvent)
    (h_max : ∀ e ∈ es, e.BelowMax) : RxOk (rx.run es) := by
  have h_run : ∀ (rx : ZclRx c) (es : List RxEvent), RxOk rx → (∀ e ∈ es, e.BelowMax) →
      RxOk (rx.run es) := by
    intro rx es
    induction es generalizing rx with
    | nil => exact fun h _ => h
    | cons e es ih =>
      intro h h_es
      exact ih (rx.after e) (after_ok h (h_es e List.mem_cons_self))
        fun e' h_e' => h_es e' (List.mem_cons_of_mem e h_e')
  exact h_run rx es (zclRxNew_ok h_new) h_max

/-- A carrier of the first chunk and a tick. -/
theorem run_rxOk_stored : ∃ rx, zclRxNew storedCfg = some rx ∧
    RxOk (rx.run [.carrier (zclHeaderPut ⟨1, 9, 0, 0, 1⟩ [1] ++ [1]) 5, .tick 7]) := by
  refine ⟨_, rfl, run_rxOk rfl _ fun e h_e => ?_⟩
  rcases List.mem_pair.mp h_e with rfl | rfl
  · intro h h_get
    rw [zclHeaderGet_put ⟨by decide, by decide, by decide, by decide, rfl, by decide⟩] at h_get
    obtain rfl := Option.some.inj h_get
    decide
  · trivial

end IonContrib.Zcl
