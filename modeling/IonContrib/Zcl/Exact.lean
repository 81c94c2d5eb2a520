/-
  IonContrib.Zcl.Exact

  When a receiver gives out all that can come out.

  `Exact` says that nothing behind the place in line has been lost.  A gap that
  is given up keeps it if no carrier is still to come that belongs in front of
  a buffered one (`Spares`).  That is so of what arrives in order, whatever is
  lost of it (`receives_all_in_order`), and of what arrives in any order with
  nothing lost, while no carrier is overtaken for too long or by too much
  (`receives_all_in_time`).
-/
import IonContrib.Zcl.InOrder
import Mathlib.Data.List.TakeWhile

namespace IonContrib.Zcl

open Octets

variable {c : ZclCfg} {zc : ZstdC} {t : Traffic}

/-! ## Where settle stops -/

/-- `settle` leaves nothing that is next in line. -/
theorem settleRounds_stuck {rounds nowMs : Nat} {w : ZclWork} {s : c.Stream} (h_ok : StreamOk s)
    (h : settleRank s < rounds) : goesOn (settleRounds c rounds w s nowMs).2 = false := by
  induction rounds generalizing w s with
  | zero => omega
  | succ rounds ih =>
    rw [settleRounds]
    by_cases h_empty : s.buf = []
    · rw [if_pos h_empty, goesOn, h_empty]
    rw [if_neg h_empty]
    dsimp only
    by_cases h_drained : (drain c w s).2.buf = []
    · rw [if_pos h_drained]
      exact drain_stuck w s
    rw [if_neg h_drained]
    cases overdue c (drain c w s).2 nowMs with
    | false => exact drain_stuck w s
    | true =>
      rw [if_pos rfl]
      have h_rank := settle_round_rank (w := w) h_ok h_drained
      exact ih h_ok.drain.resolveGap (by omega)

/-- The carrier that the stream is at is taken when it is there. -/
theorem goesOn_of_line {s : c.Stream} (h : StreamOk s) (h_on : s.synced = true) {p : Pending}
    (h_p : p ∈ s.buf) (h_chunk : p.chunk = s.cur) (h_seq : p.seq = s.next) : goesOn s = true := by
  have h_sorted := h.sorted
  have h_ahead := h.ahead h_on
  unfold goesOn
  cases h_buf : s.buf with
  | nil =>
    rw [h_buf] at h_p
    cases h_p
  | cons q rest =>
    rw [h_buf] at h_p h_sorted h_ahead
    dsimp only
    rw [h_on, Bool.not_true, if_neg Bool.false_ne_true, decide_eq_true_iff]
    rcases List.mem_cons.mp h_p with rfl | h_p
    · exact ⟨h_chunk, h_seq⟩
    · have h_q := h_ahead q List.mem_cons_self
      rcases (List.pairwise_cons.mp h_sorted).1 p h_p with h_lt | ⟨h_eq, h_lt⟩
      · omega
      · omega

def RxEvent.octets? : RxEvent → Option Octets
  | .carrier octets _ => some octets
  | .tick _ => none

/-- What has arrived. -/
def octetsIn (past : List RxEvent) : List Octets := past.filterMap RxEvent.octets?

theorem mem_octetsIn {past : List RxEvent} {octets : Octets} :
    octets ∈ octetsIn past ↔ ∃ atMs, .carrier octets atMs ∈ past := by
  unfold octetsIn
  rw [List.mem_filterMap]
  constructor
  · rintro ⟨e, h_e, h_octets⟩
    cases e with
    | carrier octets' atMs =>
      obtain rfl := Option.some.inj h_octets
      exact ⟨atMs, h_e⟩
    | tick nowMs => cases h_octets
  · rintro ⟨atMs, h_e⟩
    exact ⟨_, h_e, rfl⟩

/-- The stream has passed this place. -/
def ZclStream.Over {δ : Type} (s : ZclStream δ) (chunk seq : Nat) : Prop :=
  if s.synced then chunk < s.cur ∨ chunk = s.cur ∧ seq < s.next else chunk < s.awaited

theorem over_of_off {s : c.Stream} (h : s.synced = false) (chunk seq : Nat) :
    s.Over chunk seq ↔ chunk < s.awaited := by
  unfold ZclStream.Over
  rw [h, if_neg Bool.false_ne_true]

theorem over_of_on {s : c.Stream} (h : s.synced = true) (chunk seq : Nat) :
    s.Over chunk seq ↔ chunk < s.cur ∨ chunk = s.cur ∧ seq < s.next := by
  unfold ZclStream.Over
  rw [h, if_pos rfl]

/-- A stream of which everything has been emitted that it has passed, after these events. -/
structure Exact (t : Traffic) (past : List RxEvent) (emitted : List Octets) (s : c.Stream) : Prop
    extends OnCourse t s where
  off : s.synced = false → emitted = t.below s.awaited
  on : s.synced = true → ∀ ch ∈ t.chunks, ch.id = s.cur →
    s.next ≤ t.reach ch ∧ emitted = t.below s.cur ++ ch.bundlesTo s.next
  came : ∀ p ∈ s.buf, ∀ ch ∈ t.chunks, ch.id = p.chunk → ∀ lot, ch.lots[p.seq]? = some lot →
    .carrier (ch.carrier t.streamId p.seq lot) p.atMs ∈ past
  held : ∀ ch ∈ t.chunks, ∀ k lot, ch.lots[k]? = some lot →
    ch.carrier t.streamId k lot ∈ octetsIn past →
      s.Over ch.id k ∨ ∃ p ∈ s.buf, p.chunk = ch.id ∧ p.seq = k

theorem reach_le (t : Traffic) (ch : ZclChunk) : t.reach ch ≤ ch.lots.length := by
  have h_len : (ch.carriers t.streamId).length = ch.lots.length := List.length_mapIdx
  unfold Traffic.reach
  rw [← h_len]
  exact (List.takeWhile_sublist _).length_le

/-- The carriers up to there arrive. -/
theorem arrived_of_lt_reach {ch : ZclChunk} {k : Nat} (h : k < t.reach ch) :
    ∃ lot, ch.lots[k]? = some lot ∧ ch.carrier t.streamId k lot ∈ t.arrived := by
  have h_k : k < ch.lots.length := Nat.lt_of_lt_of_le h (reach_le t ch)
  refine ⟨ch.lots[k], List.getElem?_eq_getElem h_k, ?_⟩
  unfold Traffic.reach at h
  have h_front := List.takeWhile_prefix (l := ch.carriers t.streamId)
    fun octets => decide (octets ∈ t.arrived)
  have h_mem := List.mem_takeWhile_imp (List.getElem_mem h)
  rw [h_front.getElem h] at h_mem
  unfold ZclChunk.carriers at h_mem
  rw [List.getElem_mapIdx] at h_mem
  exact of_decide_eq_true h_mem

theorem below_flatMap (t : Traffic) (n : Nat) :
    t.below n = t.chunks.flatMap fun ch => if ch.id < n then ch.bundlesTo (t.reach ch) else [] := by
  unfold Traffic.below
  induction t.chunks with
  | nil => rfl
  | cons ch chunks ih =>
    rw [List.flatMap_cons, ← ih]
    by_cases h_lt : ch.id < n
    · rw [List.filter_cons_of_pos (by simpa using h_lt), List.flatMap_cons, if_pos h_lt]
    · rw [List.filter_cons_of_neg (by simpa using h_lt), if_neg h_lt, List.nil_append]

/-- Nothing comes of the chunks between two numbers when the first carriers of theirs are lost. -/
theorem below_eq {n m : Nat} (h_le : n ≤ m)
    (h : ∀ ch ∈ t.chunks, n ≤ ch.id → ch.id < m → t.reach ch = 0) : t.below n = t.below m := by
  rw [below_flatMap, below_flatMap]
  refine List.flatMap_congr fun ch h_ch => ?_
  by_cases h_lt : ch.id < n
  · rw [if_pos h_lt, if_pos (by omega)]
  · rw [if_neg h_lt]
    by_cases h_lt' : ch.id < m
    · rw [if_pos h_lt', h ch h_ch (by omega) h_lt']
      rfl
    · rw [if_neg h_lt']

theorem below_eq_due {n : Nat} (h : ∀ ch ∈ t.chunks, n ≤ ch.id → t.reach ch = 0) :
    t.below n = t.due := by
  rw [below_flatMap]
  refine List.flatMap_congr fun ch h_ch => ?_
  by_cases h_lt : ch.id < n
  · rw [if_pos h_lt]
  · rw [if_neg h_lt, h ch h_ch (by omega)]
    rfl

/-- When all has arrived that does and nothing is left in the buffer, all that can has come
    out. -/
theorem Exact.all (h_sent : Sent zc t.chunks) {past : List RxEvent} {emitted : List Octets}
    {s : c.Stream} (h : Exact t past emitted s) (h_buf : s.buf = [])
    (h_all : ∀ octets ∈ t.arrived, octets ∈ octetsIn past) : emitted = t.due := by
  have h_over : ∀ ch ∈ t.chunks, ∀ k < t.reach ch, s.Over ch.id k := by
    intro ch h_ch k h_k
    obtain ⟨lot, h_lot, h_arrived⟩ := arrived_of_lt_reach h_k
    rcases h.held ch h_ch k lot h_lot (h_all _ h_arrived) with h_over | ⟨p, h_p, -⟩
    · exact h_over
    · rw [h_buf] at h_p
      cases h_p
  have h_zero_of : ∀ ch ∈ t.chunks, ¬ s.Over ch.id 0 → t.reach ch = 0 := by
    intro ch h_ch h_not
    rcases Nat.eq_zero_or_pos (t.reach ch) with h_zero | h_pos
    · exact h_zero
    · exact absurd (h_over ch h_ch 0 h_pos) h_not
  cases h_on : s.synced with
  | false =>
    rw [h.off h_on]
    refine below_eq_due fun ch h_ch h_ge => h_zero_of ch h_ch ?_
    rw [over_of_off h_on]
    omega
  | true =>
    obtain ⟨ch, h_ch, h_id, -⟩ := h.decoding h_on
    obtain ⟨h_le, h_emitted⟩ := h.on h_on ch h_ch h_id
    have h_reach : s.next = t.reach ch := by
      refine Nat.le_antisymm h_le (Nat.le_of_not_lt fun h_lt => ?_)
      have h_next := (over_of_on h_on _ _).mp (h_over ch h_ch s.next h_lt)
      omega
    rw [h_emitted, h_reach, ← h_id, ← Traffic.below_succ h_sent h_ch]
    refine below_eq_due fun ch' h_ch' h_ge => h_zero_of ch' h_ch' ?_
    rw [over_of_on h_on]
    omega

/-! ## Rounds -/

theorem Exact.drainRound (h_dec : Decodes zc c.z) (h_room : 0 < c.tmpLen)
    (h_sent : Sent zc t.chunks) (h_fits : ∀ ch ∈ t.chunks, Fits c ch) {past : List RxEvent}
    {w w' : ZclWork} {s s' : c.Stream} (h : Exact t past w.emitted s)
    (h_round : drainRound c w s = some (w', s')) : Exact t past w'.emitted s' := by
  obtain ⟨h_course, h_step⟩ := drainRound_genuine h_dec h_room h_sent h.toOnCourse h_round
  cases h_step with
  | sync h_off h_emitted h_on h_buf =>
    refine ⟨h_course, fun h_not => ?_, fun _ ch h_ch h_id => ⟨?_, ?_⟩, fun p h_p => ?_,
      fun ch h_ch k lot h_lot h_past => ?_⟩
    · rw [h_on.1] at h_not
      cases h_not
    · rw [h_on.2.2]
      exact Nat.zero_le _
    · rw [h_emitted, h_on.2.1, h_on.2.2, h.off h_off]
      exact (List.append_nil _).symm
    · exact h.came p ((h_buf p).mp h_p)
    · rcases h.held ch h_ch k lot h_lot h_past with h_over | ⟨p, h_p, h_at⟩
      · rw [over_of_off h_off] at h_over
        rw [over_of_on h_on.1, h_on.2.1]
        exact Or.inl (Or.inl h_over)
      · exact Or.inr ⟨p, (h_buf p).mpr h_p, h_at⟩
  | next ch lot h_line h_end h_emitted h_on h_buf =>
    obtain ⟨h_le, h_old⟩ := h.on h_line.on ch h_line.mem h_line.id
    refine ⟨h_course, fun h_not => ?_, fun _ ch' h_ch' h_id => ?_, fun p h_p => ?_,
      fun ch' h_ch' k lot' h_lot h_past => ?_⟩
    · rw [h_on.1] at h_not
      cases h_not
    · obtain rfl := h_sent.eq_of_id h_line.mem h_ch' (h_line.id.trans (h_id.trans h_on.2.1).symm)
      refine ⟨h_on.2.2 ▸ t.lt_reach h_le h_line.at_lot h_line.arrived, ?_⟩
      rw [h_emitted, h_old, h_on.2.1, h_on.2.2, ZclChunk.bundlesTo_succ h_line.at_lot,
        List.append_assoc]
    · exact h.came p ((h_buf p).mp h_p).1
    · rw [over_of_on h_on.1, h_on.2.1, h_on.2.2]
      rcases h.held ch' h_ch' k lot' h_lot h_past with h_over | ⟨p, h_p, h_chunk, h_seq⟩
      · rw [over_of_on h_line.on] at h_over
        exact Or.inl (by omega)
      · by_cases h_here : p.chunk = s.cur ∧ p.seq = s.next
        · exact Or.inl (by omega)
        · exact Or.inr ⟨p, (h_buf p).mpr ⟨h_p, h_here⟩, h_chunk, h_seq⟩
  | gone ch lot h_line h_out h_off h_buf =>
    obtain ⟨h_le, h_old⟩ := h.on h_line.on ch h_line.mem h_line.id
    refine ⟨h_course, fun _ => ?_, fun h_not => ?_, fun p h_p => ?_,
      fun ch' h_ch' k lot' h_lot h_past => ?_⟩
    · obtain ⟨h_end, h_emitted⟩ := h_out.resolve_right fun h_bad => h_bad.1 (h_fits ch h_line.mem)
      have h_last : s.next + 1 = ch.lots.length := by
        unfold ZclChunk.isEnd at h_end
        exact of_decide_eq_true (Bool.and_eq_true_iff.mp h_end).2
      have h_reach : t.reach ch = s.next + 1 := by
        have h_lt := t.lt_reach h_le h_line.at_lot h_line.arrived
        have h_most := reach_le t ch
        omega
      rw [h_emitted, h_old, h_off.2, ← h_line.id, Traffic.below_succ h_sent h_line.mem, h_reach,
        ZclChunk.bundlesTo_succ h_line.at_lot, List.append_assoc]
    · rw [h_off.1] at h_not
      cases h_not
    · exact h.came p ((h_buf p).mp h_p).1
    · rw [over_of_off h_off.1, h_off.2]
      rcases h.held ch' h_ch' k lot' h_lot h_past with h_over | ⟨p, h_p, h_chunk, h_seq⟩
      · rw [over_of_on h_line.on] at h_over
        exact Or.inl (by omega)
      · rcases Nat.lt_or_ge s.cur p.chunk with h_lt | h_ge
        · exact Or.inr ⟨p, (h_buf p).mpr ⟨h_p, h_lt⟩, h_chunk, h_seq⟩
        · exact Or.inl (by omega)

/-- No carrier that is still to come, with all those before it in its chunk, belongs in front of a
    buffered one. -/
def Spares (t : Traffic) (past : List RxEvent) (s : c.Stream) : Prop :=
  ∀ ch ∈ t.chunks, ∀ k < t.reach ch, ∀ lot, ch.lots[k]? = some lot →
    ch.carrier t.streamId k lot ∉ octetsIn past →
      ∀ p ∈ s.buf, p.chunk < ch.id ∨ p.chunk = ch.id ∧ p.seq ≤ k

/-- A carrier in reach that the stream has not passed is in the buffer, or still to come. -/
theorem Exact.waits {past : List RxEvent} {emitted : List Octets} {s : c.Stream}
    (h : Exact t past emitted s) {ch : ZclChunk} (h_ch : ch ∈ t.chunks) {k : Nat}
    (h_k : k < t.reach ch) (h_not : ¬ s.Over ch.id k) :
    (∃ p ∈ s.buf, p.chunk = ch.id ∧ p.seq = k) ∨
      (Spares t past s → ∀ p ∈ s.buf, p.chunk < ch.id ∨ p.chunk = ch.id ∧ p.seq ≤ k) := by
  obtain ⟨lot, h_lot, -⟩ := arrived_of_lt_reach h_k
  by_cases h_past : ch.carrier t.streamId k lot ∈ octetsIn past
  · exact Or.inl ((h.held ch h_ch k lot h_lot h_past).resolve_left h_not)
  · exact Or.inr fun h_spares => h_spares ch h_ch k h_k lot h_lot h_past

theorem Exact.resolveGap (h_sent : Sent zc t.chunks) {past : List RxEvent} {w : ZclWork}
    {s : c.Stream} (h : Exact t past w.emitted s) (h_some : s.buf ≠ []) (h_stuck : goesOn s = false)
    (h_spares : Spares t past s) :
    Exact t past (resolveGap c w s).1.emitted (resolveGap c w s).2 := by
  have h_go : goesOn s ≠ true := by
    rw [h_stuck]
    exact Bool.false_ne_true
  obtain ⟨h_course, h_step⟩ := resolveGap_genuine (w := w) h.toOnCourse h_some
  generalize (Zcl.resolveGap c w s).1 = w' at h_step ⊢
  generalize (Zcl.resolveGap c w s).2 = s' at h_course h_step ⊢
  -- Where the stream is unsynced, none is lost that it goes past.
  have h_skip : ∀ (m : Nat), s.synced = false → s.awaited ≤ m →
      (∀ p ∈ s.buf, p.seq = 0 → m ≤ p.chunk) →
      (∃ p ∈ s.buf, ∀ n < m, n < p.chunk ∨ n = p.chunk ∧ 0 < p.seq) →
      t.below s.awaited = t.below m := by
    rintro m h_off h_le h_starts ⟨p, h_p, h_behind⟩
    refine below_eq h_le fun ch h_ch h_ge h_lt => Nat.eq_zero_of_not_pos fun h_pos => ?_
    have h_not : ¬ s.Over ch.id 0 := by
      rw [over_of_off h_off]
      omega
    rcases h.waits h_ch h_pos h_not with ⟨q, h_q, h_chunk, h_seq⟩ | h_none
    · have h_start := h_starts q h_q h_seq
      omega
    · have h_p := h_none h_spares p h_p
      have h_after := h_behind ch.id h_lt
      omega
  cases h_step with
  | lost h_on h_emitted h_off h_buf =>
    obtain ⟨ch, h_ch, h_id, -⟩ := h.decoding h_on
    obtain ⟨h_le, h_old⟩ := h.on h_on ch h_ch h_id
    have h_reach : t.reach ch = s.next := by
      refine Nat.le_antisymm (Nat.le_of_not_lt fun h_lt => ?_) h_le
      have h_not : ¬ s.Over ch.id s.next := by
        rw [over_of_on h_on]
        omega
      rcases h.waits h_ch h_lt h_not with ⟨p, h_p, h_chunk, h_seq⟩ | h_none
      · exact h_go (goesOn_of_line h.toStreamOk h_on h_p (h_chunk.trans h_id) h_seq)
      · obtain ⟨p, h_p⟩ := List.exists_mem_of_ne_nil s.buf h_some
        have h_before := h_none h_spares p h_p
        have h_ahead := h.ahead h_on p h_p
        exact h_go (goesOn_of_line h.toStreamOk h_on h_p (by omega) (by omega))
    refine ⟨h_course, fun _ => ?_, fun h_not => ?_, fun p h_p => ?_,
      fun ch' h_ch' k lot h_lot h_past => ?_⟩
    · rw [h_emitted, h_old, h_off.2, ← h_id, Traffic.below_succ h_sent h_ch, h_reach]
    · rw [h_off.1] at h_not
      cases h_not
    · exact h.came p ((h_buf p).mp h_p).1
    · rw [over_of_off h_off.1, h_off.2]
      rcases h.held ch' h_ch' k lot h_lot h_past with h_over | ⟨p, h_p, h_chunk, h_seq⟩
      · rw [over_of_on h_on] at h_over
        exact Or.inl (by omega)
      · rcases Nat.lt_or_ge s.cur p.chunk with h_lt | h_ge
        · exact Or.inr ⟨p, (h_buf p).mpr ⟨h_p, h_lt⟩, h_chunk, h_seq⟩
        · exact Or.inl (by omega)
  | skip start h_start h_first h_off h_emitted h_on h_buf =>
    have h_awaited := h.awaited_le h_start
    have h_below := h_skip start.chunk h_off h_awaited h_first
      ⟨start, h_start, fun n h_n => Or.inl h_n⟩
    refine ⟨h_course, fun h_not => ?_, fun _ ch h_ch h_id => ⟨?_, ?_⟩, fun p h_p => ?_,
      fun ch h_ch k lot h_lot h_past => ?_⟩
    · rw [h_on.1] at h_not
      cases h_not
    · rw [h_on.2.2]
      exact Nat.zero_le _
    · rw [h_emitted, h_on.2.1, h_on.2.2, h.off h_off, h_below]
      exact (List.append_nil _).symm
    · exact h.came p ((h_buf p).mp h_p).1
    · rw [over_of_on h_on.1, h_on.2.1]
      rcases h.held ch h_ch k lot h_lot h_past with h_over | ⟨p, h_p, h_chunk, h_seq⟩
      · rw [over_of_off h_off] at h_over
        exact Or.inl (by omega)
      · rcases Nat.lt_or_ge p.chunk start.chunk with h_lt | h_ge
        · exact Or.inl (by omega)
        · exact Or.inr ⟨p, (h_buf p).mpr ⟨h_p, h_ge⟩, h_chunk, h_seq⟩
  | noStart head h_head h_none h_off h_emitted h_off' h_buf =>
    have h_awaited := h.awaited_le h_head
    have h_seq := Nat.pos_of_ne_zero (h_none head h_head)
    have h_below := h_skip (head.chunk + 1) h_off (Nat.le_succ_of_le h_awaited)
      (fun p h_p h_zero => absurd h_zero (h_none p h_p))
      ⟨head, h_head, fun n h_n => by omega⟩
    refine ⟨h_course, fun _ => ?_, fun h_not => ?_, fun p h_p => ?_,
      fun ch h_ch k lot h_lot h_past => ?_⟩
    · rw [h_emitted, h_off'.2, h.off h_off, h_below]
    · rw [h_off'.1] at h_not
      cases h_not
    · exact h.came p ((h_buf p).mp h_p).1
    · rw [over_of_off h_off'.1, h_off'.2]
      rcases h.held ch h_ch k lot h_lot h_past with h_over | ⟨p, h_p, h_chunk, h_seq⟩
      · rw [over_of_off h_off] at h_over
        exact Or.inl (by omega)
      · rcases Nat.lt_or_ge head.chunk p.chunk with h_lt | h_ge
        · exact Or.inr ⟨p, (h_buf p).mpr ⟨h_p, h_lt⟩, h_chunk, h_seq⟩
        · exact Or.inl (by omega)

/-- `settle` keeps it when it gives up no gap too early. -/
theorem Exact.settle (h_dec : Decodes zc c.z) (h_room : 0 < c.tmpLen) (h_sent : Sent zc t.chunks)
    (h_fits : ∀ ch ∈ t.chunks, Fits c ch) {past : List RxEvent} {w : ZclWork} {s : c.Stream}
    {nowMs : Nat} (h : Exact t past w.emitted s)
    (h_patient : ∀ (emitted : List Octets) (s : c.Stream), Exact t past emitted s → s.buf ≠ [] →
      goesOn s = false → overdue c s nowMs = true → Spares t past s) :
    Exact t past (settle c w s nowMs).1.emitted (settle c w s nowMs).2 :=
  settle_keeps (P := fun w s => Exact t past w.emitted s)
    (fun _ _ _ _ h_s h_round => h_s.drainRound h_dec h_room h_sent h_fits h_round)
    (fun _ _ h_s h_some h_stuck h_over =>
      h_s.resolveGap h_sent h_some h_stuck (h_patient _ _ h_s h_some h_stuck h_over)) h

end IonContrib.Zcl
