/-
  IonContrib.Zcl.Course

  A stream whose buffer holds carriers of an encoder.

  `OnCourse` is what holds of it in every state; `DrainStep` and `GapStep` are
  all that a round of `drain` and giving up a gap can then do to the buffer, to
  the place in line and to what has been emitted.
-/
import IonContrib.Zcl.Decode
import IonContrib.Zcl.OnePeer

namespace IonContrib.Zcl

open Octets

/-- What an encoder has cut, and the octets that arrive. -/
structure Traffic where
  streamId : Nat
  chunks : List ZclChunk
  arrived : List Octets

variable {c : ZclCfg} {zc : ZstdC} {t : Traffic}

/-- A buffered carrier is one of those that arrive. -/
def Pending.Of (t : Traffic) (p : Pending) : Prop :=
  ∃ ch ∈ t.chunks, ∃ lot, ch.id = p.chunk ∧ ch.lots[p.seq]? = some lot ∧ p.data = lot.payload ∧
    p.isEnd = ch.isEnd p.seq ∧ ch.carrier t.streamId p.seq lot ∈ t.arrived

/-- The chunk behind those that are over. -/
def ZclStream.awaited {δ : Type} (s : ZclStream δ) : Nat := if s.haveDone then s.done + 1 else 0

/-- The buffer is not below the chunk that is awaited. -/
theorem StreamOk.awaited_le {s : c.Stream} (h : StreamOk s) {p : Pending} (h_p : p ∈ s.buf) :
    s.awaited ≤ p.chunk := by
  unfold ZclStream.awaited
  cases h_done : s.haveDone with
  | false => exact Nat.zero_le _
  | true => exact h.above h_done p h_p

structure OnCourse (t : Traffic) (s : c.Stream) : Prop extends StreamOk s where
  genuine : ∀ p ∈ s.buf, p.Of t
  decoding : s.synced = true → ∃ ch ∈ t.chunks, ch.id = s.cur ∧ Decoding c ch s.next s

/-- Nothing of the receiver is in the way of a chunk. -/
def Fits (c : ZclCfg) (ch : ZclChunk) : Prop :=
  (∀ n, c.mem n = true) ∧ (zclRecords ch.bundles).length ≤ c.limits.maxChunkOut ∧
    ∀ b ∈ ch.bundles, b.length ≤ c.limits.maxBundle

theorem length_zclRecords_mono (ch : ZclChunk) (k : Nat) :
    (zclRecords (ch.bundlesTo k)).length ≤ (zclRecords ch.bundles).length := by
  have h_split : ch.bundles = ch.bundlesTo k ++ (ch.lots.drop k).flatMap (·.bundles) := by
    unfold ZclChunk.bundles ZclChunk.bundlesTo
    rw [← List.flatMap_append, List.take_append_drop]
  rw [h_split, zclRecords_append, List.length_append]
  exact Nat.le_add_right _ _

theorem Hindered.not_fits {ch : ZclChunk} {k : Nat} {lot : Lot} (h_lot : lot ∈ ch.lots)
    (h : Hindered c lot.bundles (zclRecords (ch.bundlesTo k)).length) : ¬ Fits c ch := by
  rintro ⟨h_mem, h_out, h_bundle⟩
  rcases h with ⟨n, h_none⟩ | h_large | ⟨b, h_b, h_long⟩
  · rw [h_mem n] at h_none
    cases h_none
  · have h_mono := length_zclRecords_mono ch k
    omega
  · have h_le := h_bundle b (List.mem_flatMap.mpr ⟨lot, h_lot, h_b⟩)
    omega

/-- Two chunks with one number are one. -/
theorem Sent.eq_of_id {chunks : List ZclChunk} (h : Sent zc chunks) {ch ch' : ZclChunk} (h_ch : ch ∈ chunks)
    (h_ch' : ch' ∈ chunks) (h_id : ch.id = ch'.id) : ch = ch' := by
  obtain ⟨i, h_i, rfl⟩ := List.mem_iff_getElem.mp h_ch
  obtain ⟨j, h_j, rfl⟩ := List.mem_iff_getElem.mp h_ch'
  have h_pair := List.pairwise_iff_getElem.mp h.increasing
  rcases Nat.lt_trichotomy i j with h_lt | rfl | h_lt
  · have h_less := h_pair i j h_i h_j h_lt
    omega
  · rfl
  · have h_less := h_pair j i h_j h_i h_lt
    omega

/-! ## Rounds of drain -/

/-- The next carrier of the chunk that the stream is on is in the buffer. -/
structure AtLine (t : Traffic) (s : c.Stream) (ch : ZclChunk) (lot : Lot) : Prop where
  mem : ch ∈ t.chunks
  on : s.synced = true
  id : ch.id = s.cur
  at_lot : ch.lots[s.next]? = some lot
  arrived : ch.carrier t.streamId s.next lot ∈ t.arrived
  head : ∃ p ∈ s.buf, p.chunk = s.cur ∧ p.seq = s.next

/-- All that a round of `drain` can do. -/
inductive DrainStep (t : Traffic) (w : ZclWork) (s : c.Stream) :
    ZclWork → c.Stream → Prop
  | sync {w' : ZclWork} {s' : c.Stream} (h_off : s.synced = false)
      (h_emitted : w'.emitted = w.emitted)
      (h_on : s'.synced = true ∧ s'.cur = s.awaited ∧ s'.next = 0)
      (h_buf : ∀ p, p ∈ s'.buf ↔ p ∈ s.buf) : DrainStep t w s w' s'
  | next {w' : ZclWork} {s' : c.Stream} (ch : ZclChunk) (lot : Lot) (h_line : AtLine t s ch lot)
      (h_end : ch.isEnd s.next = false) (h_emitted : w'.emitted = w.emitted ++ lot.bundles)
      (h_on : s'.synced = true ∧ s'.cur = s.cur ∧ s'.next = s.next + 1)
      (h_buf : ∀ p, p ∈ s'.buf ↔ p ∈ s.buf ∧ ¬ (p.chunk = s.cur ∧ p.seq = s.next)) :
      DrainStep t w s w' s'
  | gone {w' : ZclWork} {s' : c.Stream} (ch : ZclChunk) (lot : Lot) (h_line : AtLine t s ch lot)
      (h_out : ch.isEnd s.next = true ∧ w'.emitted = w.emitted ++ lot.bundles ∨
        ¬ Fits c ch ∧ w'.emitted <+: w.emitted ++ lot.bundles)
      (h_off : s'.synced = false ∧ s'.awaited = s.cur + 1)
      (h_buf : ∀ p, p ∈ s'.buf ↔ p ∈ s.buf ∧ s.cur < p.chunk) : DrainStep t w s w' s'

/-- What is left of the buffer when a chunk is over. -/
theorem mem_endChunk {w : ZclWork} {s : c.Stream} (h : BufOk s) (h_cur : s.cur + 1 < 2 ^ 64)
    {p : Pending} : p ∈ (endChunk c w s).2.buf ↔ p ∈ s.buf ∧ s.cur < p.chunk := by
  have h_next : nextChunk s.cur = s.cur + 1 := Nat.mod_eq_of_lt h_cur
  have h_buf : BufOk { s with synced := false, haveDone := true, done := s.cur } :=
    ⟨h.sorted, h.count, h.bytes, h.chunk_lt⟩
  exact (mem_dropBelow (w := w) h_buf).trans (by rw [h_next]; rfl)

/-- Going to the chunk of a start in the buffer. -/
theorem OnCourse.syncTo {w : ZclWork} {s : c.Stream} (h : OnCourse t s) {p : Pending}
    (h_p : p ∈ s.buf) (h_seq : p.seq = 0) : OnCourse t (syncTo c w s p.chunk).2 where
  toStreamOk := h.toStreamOk.syncTo h_p
  genuine := fun q h_q => h.genuine q ((mem_dropBelow (w := w) h.toBufOk).mp h_q).1
  decoding := by
    intro _
    obtain ⟨ch, h_ch, lot, h_id, h_lot, -⟩ := h.genuine p h_p
    rw [h_seq] at h_lot
    refine ⟨ch, h_ch, h_id, ?_⟩
    exact .start (List.getElem?_eq_some_iff.mp h_lot).1 rfl rfl rfl

/-- Ending the chunk that the stream is on. -/
theorem OnCourse.endChunk {w : ZclWork} {s : c.Stream} (h : BufOk s)
    (h_genuine : ∀ p ∈ s.buf, p.Of t) (h_cur : s.cur + 1 < 2 ^ 64) :
    OnCourse t (endChunk c w s).2 where
  toStreamOk := StreamOk.endChunk h h_cur
  genuine := fun q h_q => h_genuine q ((mem_endChunk h h_cur).mp h_q).1
  decoding := by
    intro h_synced
    cases h_synced

theorem drainRound_genuine (h_dec : Decodes zc c.z) (h_room : 0 < c.tmpLen)
    (h_sent : Sent zc t.chunks) {w w' : ZclWork} {s s' : c.Stream} (h : OnCourse t s)
    (h_round : drainRound c w s = some (w', s')) :
    OnCourse t s' ∧ DrainStep t w s w' s' := by
  rcases drainRound_cases h_round with ⟨h_off, start, h_start, h_chunk, h_eq⟩ |
    ⟨h_on, p, rest, w₁, s₁, ok, h_buf, h_chunk, h_seq, h_decode, h_out⟩
  · obtain ⟨h_mem, h_zero⟩ := mem_of_firstStart h_start
    have h_awaited : start.chunk = s.awaited := by
      unfold ZclStream.awaited
      rw [h_chunk]
      cases h_done : s.haveDone with
      | false => rfl
      | true =>
        have h_above := h.above h_done start h_mem
        have h_lt := h.chunk_lt start h_mem
        exact Nat.mod_eq_of_lt (by omega)
    obtain rfl : w' = (syncTo c w s start.chunk).1 := congrArg Prod.fst h_eq
    obtain rfl : s' = (syncTo c w s start.chunk).2 := congrArg Prod.snd h_eq
    refine ⟨h.syncTo h_mem h_zero, .sync h_off rfl ⟨rfl, h_awaited, rfl⟩ fun q => ?_⟩
    refine (mem_dropBelow (w := w) h.toBufOk).trans ⟨And.left, fun h_q => ⟨h_q, ?_⟩⟩
    rw [h_awaited]
    exact h.awaited_le h_q
  · obtain ⟨ch, h_ch, h_id, h_decoding⟩ := h.decoding h_on
    have h_p : p ∈ s.buf := by
      rw [h_buf]
      exact List.mem_cons_self
    obtain ⟨ch', h_ch', lot, h_id', h_lot, h_data, h_end, h_arrived⟩ := h.genuine p h_p
    obtain rfl := h_sent.eq_of_id h_ch h_ch' (by omega)
    rw [h_seq] at h_lot h_end h_arrived
    have h_k := (List.getElem?_eq_some_iff.mp h_lot).1
    have h_line : AtLine t s ch lot := ⟨h_ch, h_on, h_id, h_lot, h_arrived, p,
      h_p, h_chunk, h_seq⟩
    -- The stream that is decoded with.
    obtain ⟨-, dctx, frameDone, records, h_keeps⟩ :=
      decodeCarrier_keeps w (unbuffer c s p rest) p
    have h_unbuf : Decoding c ch s.next (unbuffer c s p rest) :=
      ⟨h_decoding.le, h_decoding.going, h_decoding.notDone, h_decoding.reading,
        h_decoding.between, h_decoding.count, h_decoding.within⟩
    have h_carrier :=
      decodeCarrier_genuine h_dec h_room (h_sent.sound ch h_ch) h_unbuf h_lot h_data h_end w
    rw [h_decode] at h_keeps h_carrier
    dsimp only at h_keeps h_carrier
    have h_rest := h.toBufOk.unbuffer h_buf
    have h_s₁ : BufOk s₁ := by
      rw [h_keeps]
      exact ⟨h_rest.sorted, h_rest.count, h_rest.bytes, h_rest.chunk_lt⟩
    have h_cur : s₁.cur = s.cur := by
      rw [h_keeps]
      rfl
    have h_lt : s₁.cur + 1 < 2 ^ 64 := h_cur ▸ h.cur_lt h_on
    have h_buf₁ : s₁.buf = rest := by
      rw [h_keeps]
      rfl
    have h_genuine : ∀ q ∈ s₁.buf, q.Of t := by
      intro q h_q
      rw [h_buf₁] at h_q
      exact h.genuine q (h_buf ▸ List.mem_cons_of_mem p h_q)
    have h_sorted := h.sorted
    rw [h_buf] at h_sorted
    have h_over : ∀ q, q ∈ s₁.buf ∧ s₁.cur < q.chunk ↔ q ∈ s.buf ∧ s.cur < q.chunk := by
      intro q
      rw [h_cur, h_buf₁, h_buf, List.mem_cons]
      constructor
      · exact fun h_q => ⟨Or.inr h_q.1, h_q.2⟩
      · rintro ⟨rfl | h_q, h_less⟩
        · omega
        · exact ⟨h_q, h_less⟩
    rcases h_out with ⟨rfl, h_eq⟩ | ⟨rfl, h_last, h_eq⟩ | ⟨rfl, h_open, h_eq⟩
    · obtain ⟨w₂, h_eq, h_w₂⟩ : ∃ w₂ : ZclWork, (w', s') = endChunk c w₂ s₁ ∧
          w₂.emitted = w₁.emitted := ⟨_, h_eq, rfl⟩
      obtain rfl : w' = (endChunk c w₂ s₁).1 := congrArg Prod.fst h_eq
      obtain rfl : s' = (endChunk c w₂ s₁).2 := congrArg Prod.snd h_eq
      obtain ⟨h_false, -⟩ | ⟨-, h_front, h_why⟩ := h_carrier
      · cases h_false
      rw [← h_w₂] at h_front
      refine ⟨.endChunk h_s₁ h_genuine h_lt, .gone ch lot h_line (Or.inr ⟨?_, h_front⟩)
        ⟨rfl, congrArg (· + 1) h_cur⟩ fun q => (mem_endChunk h_s₁ h_lt).trans (h_over q)⟩
      exact h_why.not_fits (List.mem_of_getElem? h_lot)
    · obtain ⟨w₂, h_eq, h_w₂⟩ : ∃ w₂ : ZclWork, (w', s') = endChunk c w₂ s₁ ∧
          w₂.emitted = w₁.emitted := ⟨_, h_eq, rfl⟩
      obtain rfl : w' = (endChunk c w₂ s₁).1 := congrArg Prod.fst h_eq
      obtain rfl : s' = (endChunk c w₂ s₁).2 := congrArg Prod.snd h_eq
      obtain ⟨-, h_emitted, -⟩ | ⟨h_false, -⟩ := h_carrier
      · rw [← h_w₂] at h_emitted
        exact ⟨.endChunk h_s₁ h_genuine h_lt, .gone ch lot h_line
          (Or.inl ⟨h_end ▸ h_last, h_emitted⟩) ⟨rfl, congrArg (· + 1) h_cur⟩
          fun q => (mem_endChunk h_s₁ h_lt).trans (h_over q)⟩
      · cases h_false
    · obtain ⟨rfl, rfl⟩ := Prod.mk.inj h_eq
      rw [h_open] at h_end
      have h_ok := h.toStreamOk.drainRound h_round
      have h_next : (s₁.next + 1) % 2 ^ 32 = s.next + 1 := by
        rw [h_keeps]
        exact Nat.mod_eq_of_lt ((h_sent.sound ch h_ch).next_lt h_k h_end.symm)
      obtain ⟨-, h_emitted, h_after⟩ | ⟨h_false, -⟩ := h_carrier
      · have h_dec₁ := h_after h_end.symm
        refine ⟨⟨h_ok, h_genuine, fun _ => ⟨ch, h_ch, h_id.trans h_cur.symm, ?_⟩⟩,
          .next ch lot h_line h_end.symm h_emitted ⟨?_, h_cur, h_next⟩ fun q => ?_⟩
        · show Decoding c ch ((s₁.next + 1) % 2 ^ 32) _
          rw [h_next]
          exact ⟨h_dec₁.le, h_dec₁.going, h_dec₁.notDone, h_dec₁.reading, h_dec₁.between,
            h_dec₁.count, h_dec₁.within⟩
        · show s₁.synced = true
          rw [h_keeps]
          exact h_on
        · show q ∈ s₁.buf ↔ _
          rw [h_buf₁, h_buf, List.mem_cons]
          constructor
          · intro h_q
            refine ⟨Or.inr h_q, fun h_same => ?_⟩
            rcases (List.pairwise_cons.mp h_sorted).1 q h_q with h_less | ⟨-, h_less⟩
            · omega
            · omega
          · rintro ⟨rfl | h_q, h_not⟩
            · exact absurd ⟨h_chunk, h_seq⟩ h_not
            · exact h_q
      · cases h_false

/-! ## Gaps -/

/-- All that giving up a gap can do. -/
inductive GapStep (t : Traffic) (w : ZclWork) (s : c.Stream) :
    ZclWork → c.Stream → Prop
  | lost {w' : ZclWork} {s' : c.Stream} (h_on : s.synced = true) (h_emitted : w'.emitted = w.emitted)
      (h_off : s'.synced = false ∧ s'.awaited = s.cur + 1)
      (h_buf : ∀ p, p ∈ s'.buf ↔ p ∈ s.buf ∧ s.cur < p.chunk) : GapStep t w s w' s'
  | skip {w' : ZclWork} {s' : c.Stream} (start : Pending) (h_start : start ∈ s.buf)
      (h_first : ∀ p ∈ s.buf, p.seq = 0 → start.chunk ≤ p.chunk) (h_off : s.synced = false)
      (h_emitted : w'.emitted = w.emitted)
      (h_on : s'.synced = true ∧ s'.cur = start.chunk ∧ s'.next = 0)
      (h_buf : ∀ p, p ∈ s'.buf ↔ p ∈ s.buf ∧ start.chunk ≤ p.chunk) : GapStep t w s w' s'
  | noStart {w' : ZclWork} {s' : c.Stream} (head : Pending) (h_head : head ∈ s.buf)
      (h_none : ∀ p ∈ s.buf, p.seq ≠ 0) (h_off : s.synced = false)
      (h_emitted : w'.emitted = w.emitted)
      (h_off' : s'.synced = false ∧ s'.awaited = head.chunk + 1)
      (h_buf : ∀ p, p ∈ s'.buf ↔ p ∈ s.buf ∧ head.chunk < p.chunk) : GapStep t w s w' s'

/-- The first start is that of the lowest chunk. -/
theorem firstStart_le {buf : List Pending} (h_sorted : buf.Pairwise Pending.Before) {p : Pending}
    (h : firstStart buf = some p) : ∀ q ∈ buf, q.seq = 0 → p.chunk ≤ q.chunk := by
  obtain ⟨-, before, after, rfl, h_none⟩ := List.find?_eq_some_iff_append.mp h
  intro q h_q h_seq
  rcases List.mem_append.mp h_q with h_q | h_q
  · have h_not := h_none q h_q
    rw [h_seq] at h_not
    cases h_not
  · rcases List.mem_cons.mp h_q with rfl | h_q
    · exact Nat.le_refl _
    · have h_after := (List.pairwise_append.mp h_sorted).2.1
      rcases (List.pairwise_cons.mp h_after).1 q h_q with h_lt | ⟨h_eq, -⟩
      · omega
      · omega

/-- The lowest chunk in the buffer has lost its start. -/
theorem resolveGap_noStart {w : ZclWork} {s : c.Stream} {head : Pending} {rest : List Pending}
    (h_synced : s.synced = false) (h_start : firstStart s.buf = none)
    (h_buf : s.buf = head :: rest) : resolveGap c w s =
      dropBelow c w { s with haveDone := true, done := head.chunk } (nextChunk head.chunk) := by
  have h_not : ¬ s.synced = true := by
    rw [h_synced]
    exact Bool.false_ne_true
  unfold resolveGap
  rw [if_neg h_not, h_start]
  dsimp only
  split
  · rename_i h_nil
    rw [h_buf] at h_nil
    cases h_nil
  · rename_i head' rest' h_cons
    rw [h_buf] at h_cons
    obtain ⟨rfl, -⟩ := List.cons.inj h_cons
    rfl

theorem resolveGap_genuine {w : ZclWork} {s : c.Stream} (h : OnCourse t s)
    (h_some : s.buf ≠ []) :
    OnCourse t (resolveGap c w s).2 ∧
      GapStep t w s (resolveGap c w s).1 (resolveGap c w s).2 := by
  have h_ok := h.toStreamOk.resolveGap (w := w)
  cases h_synced : s.synced with
  | true =>
    have h_cur := h.cur_lt h_synced
    unfold resolveGap
    rw [if_pos h_synced]
    exact ⟨.endChunk h.toBufOk h.genuine h_cur,
      .lost h_synced rfl ⟨rfl, rfl⟩ fun q => mem_endChunk h.toBufOk h_cur⟩
  | false =>
    cases h_start : firstStart s.buf with
    | some start =>
      obtain ⟨h_mem, h_seq⟩ := mem_of_firstStart h_start
      have h_gap : resolveGap c w s = syncTo c w s start.chunk := by
        unfold resolveGap
        rw [h_synced, if_neg Bool.false_ne_true, h_start]
      rw [h_gap]
      exact ⟨h.syncTo h_mem h_seq, .skip start h_mem (firstStart_le h.sorted h_start) h_synced rfl
        ⟨rfl, rfl, rfl⟩ fun q => mem_dropBelow (w := w) h.toBufOk⟩
    | none =>
      obtain ⟨head, rest, h_buf⟩ := List.exists_cons_of_ne_nil h_some
      have h_head : head ∈ s.buf := by
        rw [h_buf]
        exact List.mem_cons_self
      have h_next : nextChunk head.chunk = head.chunk + 1 :=
        Nat.mod_eq_of_lt (h.chunk_lt head h_head)
      have h_bufOk : BufOk { s with haveDone := true, done := head.chunk } :=
        ⟨h.sorted, h.count, h.bytes, h.chunk_lt⟩
      rw [resolveGap_noStart h_synced h_start h_buf] at h_ok ⊢
      have h_left : ∀ q, q ∈ (dropBelow c w { s with haveDone := true, done := head.chunk }
          (nextChunk head.chunk)).2.buf ↔ q ∈ s.buf ∧ head.chunk < q.chunk := by
        intro q
        refine (mem_dropBelow (w := w) h_bufOk).trans ?_
        rw [h_next]
        rfl
      refine ⟨⟨h_ok, fun q h_q => h.genuine q ((h_left q).mp h_q).1, fun h_on => ?_⟩,
        .noStart head h_head (fun q h_q => ?_) h_synced rfl ⟨h_synced, rfl⟩ h_left⟩
      · have h_on : s.synced = true := h_on
        rw [h_synced] at h_on
        cases h_on
      · have h_not := List.find?_eq_none.mp h_start q h_q
        simpa using h_not

/-! ## Settling -/

/-- What a round of `drain` keeps, and giving up the gap that an overdue stream is stuck at, is
    kept by `settle`. -/
theorem settle_keeps {P : ZclWork → c.Stream → Prop} {nowMs : Nat}
    (h_round : ∀ w s w' s', P w s → drainRound c w s = some (w', s') → P w' s')
    (h_gap : ∀ w s, P w s → s.buf ≠ [] → goesOn s = false → overdue c s nowMs = true →
      P (resolveGap c w s).1 (resolveGap c w s).2)
    {w : ZclWork} {s : c.Stream} (h : P w s) :
    P (settle c w s nowMs).1 (settle c w s nowMs).2 := by
  unfold settle
  generalize settleGuard = rounds
  induction rounds generalizing w s with
  | zero => exact h
  | succ rounds ih =>
    have h_drain : P (drain c w s).1 (drain c w s).2 := drainRounds_keeps h_round _ h
    rw [settleRounds]
    by_cases h_empty : s.buf = []
    · rw [if_pos h_empty]
      exact h
    rw [if_neg h_empty]
    dsimp only
    by_cases h_drained : (drain c w s).2.buf = []
    · rw [if_pos h_drained]
      exact h_drain
    rw [if_neg h_drained]
    cases h_over : overdue c (drain c w s).2 nowMs with
    | false => exact h_drain
    | true =>
      rw [if_pos rfl]
      exact ih (h_gap _ _ h_drain h_drained (drain_stuck w s) h_over)

/-! ## Arrivals -/

/-- Of carriers only those of the traffic arrive, and octets that are refused. -/
def RxEvent.Of (t : Traffic) : RxEvent → Prop
  | .carrier octets _ => zclHeaderGet octets = none ∨
    octets ∈ t.arrived ∧ ∃ ch ∈ t.chunks, octets ∈ ch.carriers t.streamId
  | .tick _ => True

/-- Where a carrier belongs. -/
structure Arrives (t : Traffic) (octets : Octets) (ch : ZclChunk) (k : Nat) (lot : Lot) : Prop where
  mem : ch ∈ t.chunks
  at_lot : ch.lots[k]? = some lot
  is_carrier : octets = ch.carrier t.streamId k lot
  arrived : octets ∈ t.arrived

section

variable {k : Nat} {octets : Octets} {ch : ZclChunk} {lot : Lot}

theorem Arrives.header (h : Arrives t octets ch k lot) (h_sent : Sent zc t.chunks)
    (h_stream : t.streamId < 2 ^ 64) :
    zclHeaderGet octets = some (ch.header t.streamId k lot.payload) := by
  rw [h.is_carrier]
  exact ZclChunk.zclHeaderGet_carrier (h_sent.sound ch h.mem) h_stream h.at_lot

theorem Arrives.payload (h : Arrives t octets ch k lot) :
    (octets.drop zclHdrLen).take (ch.header t.streamId k lot.payload).length = lot.payload := by
  rw [h.is_carrier]
  unfold ZclChunk.carrier
  rw [List.drop_left' (length_zclHeaderPut _ _)]
  exact List.take_of_length_le (Nat.le_refl _)

theorem Arrives.genuine (h : Arrives t octets ch k lot) (nowMs : Nat) :
    (pendingOf (ch.header t.streamId k lot.payload) nowMs lot.payload).Of t := by
  refine ⟨ch, h.mem, lot, rfl, h.at_lot, rfl, ?_, h.is_carrier ▸ h.arrived⟩
  show ((if ch.isEnd k then zclFlagEnd else 0) &&& zclFlagEnd != 0) = ch.isEnd k
  cases ch.isEnd k <;> rfl

end

theorem OnCourse.inUse {s : c.Stream} (h : OnCourse t s) (streamId k : Nat) :
    OnCourse t (inUse streamId k s) where
  toStreamOk := h.toStreamOk.inUse streamId k
  genuine := h.genuine
  decoding := by
    intro h_on
    obtain ⟨ch, h_ch, h_id, h_dec⟩ := h.decoding h_on
    exact ⟨ch, h_ch, h_id, h_dec.le, h_dec.going, h_dec.notDone, h_dec.reading, h_dec.between,
      h_dec.count, h_dec.within⟩

theorem OnCourse.buffering {s : c.Stream} (h : OnCourse t s) {hd : ZclHeader} {nowMs : Nat}
    {data : Octets} {buf : List Pending} (h_fresh : staleCarrier s hd = false)
    (h_max : hd.chunkId + 1 < 2 ^ 64)
    (h_ins : insertPending (pendingOf hd nowMs data) s.buf = some buf)
    (h_of : (pendingOf hd nowMs data).Of t) : OnCourse t (buffering s buf data) where
  toStreamOk := h.toStreamOk.insert h_fresh rfl rfl h_max h_ins
  genuine := by
    intro p h_p
    obtain ⟨h_perm, -⟩ := insertPending_some h_ins h.sorted
    rcases List.mem_cons.mp (h_perm.mem_iff.mp h_p) with rfl | h_old
    · exact h_of
    · exact h.genuine p h_old
  decoding := by
    intro h_on
    obtain ⟨ch, h_ch, h_id, h_dec⟩ := h.decoding h_on
    exact ⟨ch, h_ch, h_id, h_dec.le, h_dec.going, h_dec.notDone, h_dec.reading, h_dec.between,
      h_dec.count, h_dec.within⟩

/-- Nothing has arrived for the stream yet. -/
theorem OnCourse.free : OnCourse t (freeStream c) where
  toStreamOk := StreamOk.of_empty rfl rfl rfl rfl
  genuine := by
    intro p h_p
    cases h_p
  decoding := by
    intro h_on
    cases h_on

/-- A new receiver. -/
theorem zclRxNew_onePeer {rx : ZclRx c} (h_new : zclRxNew c = some rx) (streamId : Nat) :
    OnePeer streamId rx.streams ∧ rx.streams ≠ [] ∧ theStream rx.streams = freeStream c ∧
      rx.work.emitted = [] := by
  have h_ok := zclRxNew_ok h_new
  unfold zclRxNew at h_new
  split at h_new
  · cases h_new
  rename_i h_limits
  obtain rfl := Option.some.inj h_new
  have h_free : ∀ s ∈ List.replicate c.limits.maxStreams (freeStream c), s = freeStream c :=
    fun s h_s => List.eq_of_mem_replicate h_s
  have h_unused : ∀ s ∈ List.replicate c.limits.maxStreams (freeStream c), s.used = false := by
    intro s h_s
    rw [h_free s h_s]
    rfl
  refine ⟨⟨h_ok.toStreamsOk, fun s h_s _ => h_free s h_s, fun s h_s h_used => ?_⟩, ?_,
    OnePeer.theStream_of_unused h_unused, rfl⟩
  · rw [h_unused s h_s] at h_used
    cases h_used
  · intro h_nil
    have h_len := congrArg List.length h_nil
    rw [List.length_replicate] at h_len
    exact h_limits (Or.inl h_len)

theorem OnePeer.streams_ne_nil {streamId : Nat} {streams streams' : List c.Stream}
    (h : OnePeer streamId streams) (h_some : streams ≠ []) (h' : OnePeer streamId streams') :
    streams' ≠ [] := by
  rintro rfl
  exact h_some (List.length_eq_zero_iff.mp (h.length_eq.trans h'.length_eq.symm))

end IonContrib.Zcl
