/-
  IonContrib.Zcl.OnePeer

  A receiver whose carriers are all of one stream.

  One place at most is in use then, so what the receiver does is what `settle`
  does to `theStream`: `zclRxCarrier_received` for a carrier, `zclRxTick_onePeer`
  for a tick.
-/
import IonContrib.Zcl.Settle

namespace IonContrib.Zcl

open Octets

variable {c : ZclCfg} {streamId : Nat}

structure OnePeer (streamId : Nat) (streams : List c.Stream) : Prop extends StreamsOk streams where
  fresh : ∀ s ∈ streams, s.used = false → s = freeStream c
  peer : ∀ s ∈ streams, s.used = true → s.id = streamId

/-- The stream in use, or what it would be made from. -/
def theStream (streams : List c.Stream) : c.Stream := (streams.find? (·.used)).getD (freeStream c)

/-- A stream that has been found for a carrier. -/
def inUse (streamId lastUse : Nat) (s : c.Stream) : c.Stream :=
  { s with used := true, id := streamId, lastUse := lastUse }

namespace OnePeer

variable {streams : List c.Stream}

theorem theStream_eq (h : OnePeer streamId streams) {s : c.Stream} (h_s : s ∈ streams)
    (h_used : s.used = true) : theStream streams = s := by
  unfold theStream
  cases h_find : streams.find? (·.used) with
  | none => exact absurd h_used (List.find?_eq_none.mp h_find s h_s)
  | some t =>
    have h_t := List.mem_of_find?_eq_some h_find
    have h_t_used := List.find?_some h_find
    obtain ⟨i, h_i⟩ := List.mem_iff_getElem?.mp h_s
    obtain ⟨j, h_j⟩ := List.mem_iff_getElem?.mp h_t
    have h_same := h.unique i j s t h_i h_j h_used h_t_used
      ((h.peer s h_s h_used).trans (h.peer t h_t h_t_used).symm)
    rw [h_same] at h_i
    exact Option.some.inj (h_j.symm.trans h_i)

theorem theStream_of_unused (h : ∀ s ∈ streams, s.used = false) :
    theStream streams = freeStream c := by
  unfold theStream
  rw [List.find?_eq_none.mpr fun s h_s => by rw [h s h_s]; exact Bool.false_ne_true]
  rfl

theorem theStream_cases (h : OnePeer streamId streams) :
    (theStream streams ∈ streams ∧ (theStream streams).used = true) ∨
      (∀ s ∈ streams, s.used = false) ∧ theStream streams = freeStream c := by
  by_cases h_some : ∃ s ∈ streams, s.used = true
  · obtain ⟨s, h_s, h_used⟩ := h_some
    rw [h.theStream_eq h_s h_used]
    exact Or.inl ⟨h_s, h_used⟩
  · have h_none : ∀ s ∈ streams, s.used = false := fun s h_s =>
      Bool.eq_false_iff.mpr fun h_used => h_some ⟨s, h_s, h_used⟩
    exact Or.inr ⟨h_none, theStream_of_unused h_none⟩

theorem theStream_ok (h : OnePeer streamId streams) : StreamOk (theStream streams) := by
  rcases h.theStream_cases with ⟨h_mem, -⟩ | ⟨-, h_eq⟩
  · exact h.each _ h_mem
  · rw [h_eq]
    exact StreamOk.of_empty rfl rfl rfl rfl

theorem others_unused (h : OnePeer streamId streams) {i j : Nat} {s r : c.Stream}
    (h_i : streams[i]? = some s) (h_s : s.used = true) (h_ij : i ≠ j)
    (h_j : streams[j]? = some r) : r.used = false := by
  refine Bool.eq_false_iff.mpr fun h_r => ?_
  have h_r_id := h.peer r (List.mem_of_getElem? h_j) h_r
  have h_s_id := h.peer s (List.mem_of_getElem? h_i) h_s
  exact h_ij (h.unique i j s r h_i h_j h_s h_r (h_s_id.trans h_r_id.symm))

/-- The stream at one place is replaced by another in use; if it was not in use, none was. -/
theorem set (h : OnePeer streamId streams) {i : Nat} {s t : c.Stream} (h_i : streams[i]? = some s)
    (h_s : s.used = true ∨ ∀ r ∈ streams, r.used = false) (h_ok : StreamOk t)
    (h_used : t.used = true) (h_id : t.id = streamId) :
    OnePeer streamId (streams.set i t) ∧ theStream (streams.set i t) = t := by
  have h_lone : ∀ (j : Nat) (r : c.Stream), i ≠ j → streams[j]? = some r → r.used = false := by
    intro j r h_ij h_j
    rcases h_s with h_s | h_none
    · exact h.others_unused h_i h_s h_ij h_j
    · exact h_none r (List.mem_of_getElem? h_j)
  have h_streams : StreamsOk (streams.set i t) := by
    refine h.toStreamsOk.set h_ok (fun h_unused => ?_) fun _ j r h_ij h_j h_r => ?_
    · rw [h_used] at h_unused
      cases h_unused
    · rw [h_lone j r h_ij h_j] at h_r
      cases h_r
  have h_all : OnePeer streamId (streams.set i t) := by
    refine ⟨h_streams, fun r h_r h_unused => ?_, fun r h_r h_r_used => ?_⟩
    · rcases List.mem_or_eq_of_mem_set h_r with h_old | rfl
      · exact h.fresh r h_old h_unused
      · rw [h_used] at h_unused
        cases h_unused
    · rcases List.mem_or_eq_of_mem_set h_r with h_old | rfl
      · exact h.peer r h_old h_r_used
      · exact h_id
  have h_lt := (List.getElem?_eq_some_iff.mp h_i).1
  exact ⟨h_all, h_all.theStream_eq (List.mem_set h_lt _) h_used⟩

end OnePeer

theorem StreamOk.inUse {s : c.Stream} (h : StreamOk s) (streamId k : Nat) :
    StreamOk (inUse streamId k s) :=
  ⟨⟨h.sorted, h.count, h.bytes, h.chunk_lt⟩, h.above, h.ahead, h.cur_lt, h.cur_above⟩

theorem findVictim_some {streams : List c.Stream} (k : Nat) (v : Nat × c.Stream) :
    ∃ found, findVictim c streams k (some v) = some found := by
  induction streams generalizing k v with
  | nil => exact ⟨v, rfl⟩
  | cons s rest ih =>
    obtain ⟨j, victim⟩ := v
    rw [findVictim]
    split
    · exact ih _ _
    · exact ih _ _

/-! ## Carriers -/

/-- The stream is found, or there is no memory for it. -/
theorem findStream_onePeer (rx : ZclRx c) (h : OnePeer streamId rx.streams)
    (h_some : rx.streams ≠ []) :
    ((findStream rx streamId).1.work.emitted = rx.work.emitted) ∧
      (((findStream rx streamId).2 = none ∧ (findStream rx streamId).1.streams = rx.streams ∧
          ∃ n, c.mem n = false) ∨
        ∃ i k, (findStream rx streamId).2 = some i ∧
          OnePeer streamId (findStream rx streamId).1.streams ∧
          (findStream rx streamId).1.streams[i]? = some (inUse streamId k (theStream rx.streams))) := by
  unfold findStream
  cases h_find : lookupStream c streamId rx.streams 0 with
  | some found =>
    obtain ⟨i, s⟩ := found
    obtain ⟨j, rfl, h_j, h_used, h_id⟩ := lookupStream_some h_find
    rw [Nat.zero_add]
    have h_mem := List.mem_of_getElem? h_j
    have h_lt := (List.getElem?_eq_some_iff.mp h_j).1
    have h_eq : ({ s with lastUse := rx.useClock + 1 } : c.Stream) =
        inUse streamId (rx.useClock + 1) (theStream rx.streams) := by
      rw [h.theStream_eq h_mem h_used, inUse, ← h_used, ← h_id]
    have h_ok := (h.each s h_mem).inUse streamId (rx.useClock + 1)
    rw [← h.theStream_eq h_mem h_used] at h_ok
    refine ⟨rfl, Or.inr ⟨j, rx.useClock + 1, rfl, ?_, ?_⟩⟩
    · dsimp only
      rw [h_eq]
      exact (h.set h_j (Or.inl h_used) h_ok rfl rfl).1
    · dsimp only
      rw [h_eq, List.getElem?_set_self h_lt]
  | none =>
    have h_none : ∀ s ∈ rx.streams, s.used = false := by
      intro s h_s
      obtain ⟨j, h_j⟩ := List.mem_iff_getElem?.mp h_s
      exact Bool.eq_false_iff.mpr fun h_used =>
        lookupStream_none h_find j s h_j h_used (h.peer s h_s h_used)
    obtain ⟨found, h_victim⟩ : ∃ found, findVictim c rx.streams 0 none = some found := by
      obtain ⟨s, rest, h_cons⟩ := List.exists_cons_of_ne_nil h_some
      rw [h_cons, findVictim]
      exact findVictim_some _ _
    obtain ⟨i, victim⟩ := found
    obtain ⟨j, rfl, h_j⟩ := (findVictim_spec h_victim).resolve_left (by simp)
    have h_mem := List.mem_of_getElem? h_j
    have h_lt := (List.getElem?_eq_some_iff.mp h_j).1
    have h_unused := h_none victim h_mem
    have h_fresh := h.fresh victim h_mem h_unused
    dsimp only
    rw [h_victim]
    dsimp only
    rw [h_unused, if_neg Bool.false_ne_true, Nat.zero_add]
    cases h_memory : c.mem rx.work.allocs with
    | false =>
      refine ⟨rfl, Or.inl ⟨rfl, ?_, _, h_memory⟩⟩
      obtain ⟨_, rfl⟩ := List.getElem?_eq_some_iff.mp h_j
      exact List.set_getElem_self h_lt
    | true =>
      rw [Bool.not_true, if_neg Bool.false_ne_true]
      have h_eq : ({ victim with
          dctx := c.z.fresh
          used := true
          id := streamId
          lastUse := rx.useClock + 1 } : c.Stream) =
          inUse streamId (rx.useClock + 1) (theStream rx.streams) := by
        rw [h_fresh, OnePeer.theStream_of_unused h_none]
        rfl
      have h_ok := h.theStream_ok.inUse streamId (rx.useClock + 1)
      refine ⟨rfl, Or.inr ⟨j, rx.useClock + 1, rfl, ?_, ?_⟩⟩
      · dsimp only
        rw [h_eq]
        exact (h.set h_j (Or.inr h_none) h_ok rfl rfl).1
      · dsimp only
        rw [h_eq, List.getElem?_set_self h_lt]

/-- The carrier is in the buffer already. -/
theorem insertPending_none {p : Pending} {buf : List Pending} (h : insertPending p buf = none) :
    ∃ q ∈ buf, q.chunk = p.chunk ∧ q.seq = p.seq := by
  induction buf with
  | nil => cases h
  | cons q rest ih =>
    rw [insertPending] at h
    by_cases h_at : q.atOrBehind p.chunk p.seq = true
    · rw [if_pos h_at] at h
      by_cases h_same : q.chunk = p.chunk ∧ q.seq = p.seq
      · exact ⟨q, List.mem_cons_self, h_same⟩
      · rw [if_neg h_same] at h
        cases h
    · rw [if_neg h_at] at h
      obtain ⟨r, h_r, h_same⟩ := ih (Option.map_eq_none_iff.mp h)
      exact ⟨r, List.mem_cons_of_mem q h_r, h_same⟩

/-- A carrier as it is put into the buffer. -/
def pendingOf (h : ZclHeader) (nowMs : Nat) (data : Octets) : Pending :=
  ⟨h.chunkId, h.seq, h.flags &&& zclFlagEnd != 0, nowMs, data⟩

/-- A stream with a carrier more in its buffer. -/
def buffering (s : c.Stream) (buf : List Pending) (data : Octets) : c.Stream :=
  { s with buf := buf, bufCount := s.bufCount + 1, bufBytes := s.bufBytes + data.length }

/-- What a carrier does to the stream `s`: it is put aside or put into the buffer, and `settle`
    is called. -/
inductive Received (streamId : Nat) (h : ZclHeader) (data : Octets) (nowMs : Nat)
    (emitted : List Octets) (s : c.Stream) : ZclWork → c.Stream → Prop
  | aside {w' : ZclWork} {s' : c.Stream} (h_emitted : w'.emitted = emitted)
      (h_stream : s' = s ∨ ∃ k, s' = inUse streamId k s)
      (h_why : (∃ n, c.mem n = false) ∨ staleCarrier s h = true ∨
        ∃ q ∈ s.buf, q.chunk = h.chunkId ∧ q.seq = h.seq) :
      Received streamId h data nowMs emitted s w' s'
  | taken (w : ZclWork) (k : Nat) (buf : List Pending) (h_emitted : w.emitted = emitted)
      (h_fresh : staleCarrier s h = false)
      (h_ins : insertPending (pendingOf h nowMs data) s.buf = some buf) :
      Received streamId h data nowMs emitted s
        (settle c w (buffering (inUse streamId k s) buf data) nowMs).1
        (settle c w (buffering (inUse streamId k s) buf data) nowMs).2

theorem takeCarrier_received {rx : ZclRx c} {s : c.Stream} {i k : Nat} {hd : ZclHeader}
    (h : OnePeer streamId rx.streams) (h_i : rx.streams[i]? = some (inUse streamId k s))
    (h_max : hd.chunkId + 1 < 2 ^ 64) (data : Octets) (nowMs : Nat) :
    OnePeer streamId (takeCarrier rx i (inUse streamId k s) hd data nowMs).streams ∧
      Received streamId hd data nowMs rx.work.emitted s
        (takeCarrier rx i (inUse streamId k s) hd data nowMs).work
        (theStream (takeCarrier rx i (inUse streamId k s) hd data nowMs).streams) := by
  have h_mem := List.mem_of_getElem? h_i
  have h_same : theStream rx.streams = inUse streamId k s := h.theStream_eq h_mem rfl
  unfold takeCarrier
  cases h_stale : staleCarrier (inUse streamId k s) hd with
  | true => exact ⟨h, .aside rfl (Or.inr ⟨k, h_same⟩) (Or.inr (Or.inl h_stale))⟩
  | false =>
    rw [if_neg Bool.false_ne_true]
    dsimp only
    cases h_ins : insertPending ⟨hd.chunkId, hd.seq, hd.flags &&& zclFlagEnd != 0, nowMs, data⟩
        (inUse streamId k s).buf with
    | none => exact ⟨h, .aside rfl (Or.inr ⟨k, h_same⟩) (Or.inr (Or.inr (insertPending_none h_ins)))⟩
    | some buf =>
      dsimp only
      cases h_memory : c.mem rx.work.allocs with
      | false => exact ⟨h, .aside rfl (Or.inr ⟨k, h_same⟩) (Or.inl ⟨_, h_memory⟩)⟩
      | true =>
        rw [Bool.not_true, if_neg Bool.false_ne_true]
        have h_ok : StreamOk (buffering (inUse streamId k s) buf data) :=
          (h.each _ h_mem).insert h_stale rfl rfl h_max h_ins
        generalize h_w : ({ rx.work with allocs := rx.work.allocs + 1 } : ZclWork) = w
        have h_emitted : w.emitted = rx.work.emitted := by rw [← h_w]
        obtain ⟨-, -, -, -, h_used, h_id⟩ :=
          ledger_eq (settle_ledger w (buffering (inUse streamId k s) buf data) nowMs)
        obtain ⟨h_set, h_the⟩ := h.set h_i (Or.inl rfl) (h_ok.settle (w := w) nowMs) h_used h_id
        refine ⟨h_set, ?_⟩
        show Received streamId hd data nowMs rx.work.emitted s
          (settle c w (buffering (inUse streamId k s) buf data) nowMs).1
          (theStream (rx.streams.set i
            (settle c w (buffering (inUse streamId k s) buf data) nowMs).2))
        rw [h_the]
        exact .taken w k buf h_emitted h_stale h_ins

/-- A carrier of the peer. -/
theorem zclRxCarrier_received {rx : ZclRx c} (h : OnePeer streamId rx.streams)
    (h_some : rx.streams ≠ []) {carrier : Octets} {hd : ZclHeader}
    (h_get : zclHeaderGet carrier = some hd) (h_id : hd.streamId = streamId)
    (h_max : hd.chunkId + 1 < 2 ^ 64) (nowMs : Nat) :
    OnePeer streamId (zclRxCarrier rx carrier nowMs).1.streams ∧
      Received streamId hd ((carrier.drop zclHdrLen).take hd.length) nowMs rx.work.emitted
        (theStream rx.streams) (zclRxCarrier rx carrier nowMs).1.work
        (theStream (zclRxCarrier rx carrier nowMs).1.streams) := by
  unfold zclRxCarrier
  dsimp only
  rw [h_get]
  dsimp only
  generalize h_rx : ({ rx with work := { rx.work with stats := { rx.work.stats with
    carriersIn := rx.work.stats.carriersIn + 1 } } } : ZclRx c) = rx₁
  have h_emitted : rx₁.work.emitted = rx.work.emitted := by rw [← h_rx]
  have h_streams : rx₁.streams = rx.streams := by rw [← h_rx]
  obtain ⟨h_same, h_found⟩ :=
    findStream_onePeer rx₁ (h_streams ▸ h) (h_streams ▸ h_some)
  rw [h_id]
  rcases h_find : findStream rx₁ streamId with ⟨rx₂, found⟩
  rw [h_find] at h_same h_found
  dsimp only at h_same h_found ⊢
  rcases h_found with ⟨rfl, h_old, h_why⟩ | ⟨i, k, rfl, h_new, h_i⟩
  · dsimp only
    refine ⟨?_, .aside (h_same.trans h_emitted) (Or.inl ?_) (Or.inl h_why)⟩
    · show OnePeer streamId rx₂.streams
      rw [h_old, h_streams]
      exact h
    · show theStream rx₂.streams = _
      rw [h_old, h_streams]
  · dsimp only
    rw [h_i]
    dsimp only
    rw [h_streams] at h_i
    have h_taken := takeCarrier_received h_new (h_streams ▸ h_i) h_max
      ((carrier.drop zclHdrLen).take hd.length) nowMs
    rw [h_same, h_emitted, h_streams] at h_taken
    rw [h_streams]
    exact h_taken

/-- Octets that are no carrier. -/
theorem zclRxCarrier_refused (rx : ZclRx c) {carrier : Octets}
    (h_get : zclHeaderGet carrier = none) (nowMs : Nat) :
    (zclRxCarrier rx carrier nowMs).1.streams = rx.streams ∧
      (zclRxCarrier rx carrier nowMs).1.work.emitted = rx.work.emitted := by
  unfold zclRxCarrier
  dsimp only
  rw [h_get]
  exact ⟨rfl, rfl⟩

/-! ## Ticks -/

theorem tickStreams_unused (nowMs : Nat) (w : ZclWork) {streams : List c.Stream}
    (h : ∀ s ∈ streams, s.used = false) : tickStreams nowMs w streams = (w, streams) := by
  induction streams with
  | nil => rfl
  | cons s rest ih =>
    obtain ⟨h_s, h_rest⟩ := List.forall_mem_cons.mp h
    simp only [tickStreams]
    rw [h_s, if_neg Bool.false_ne_true, ih h_rest]

theorem tickStreams_lone (nowMs : Nat) (w : ZclWork) {before after : List c.Stream} {s : c.Stream}
    (h_before : ∀ r ∈ before, r.used = false) (h_after : ∀ r ∈ after, r.used = false)
    (h_used : s.used = true) : tickStreams nowMs w (before ++ s :: after) =
      ((settle c w s nowMs).1, before ++ (settle c w s nowMs).2 :: after) := by
  induction before with
  | nil =>
    simp only [List.nil_append, tickStreams]
    rw [if_pos h_used, tickStreams_unused nowMs _ h_after]
  | cons r before ih =>
    obtain ⟨h_r, h_rest⟩ := List.forall_mem_cons.mp h_before
    simp only [List.cons_append, tickStreams]
    rw [h_r, if_neg Bool.false_ne_true, ih h_rest]

theorem settle_empty (w : ZclWork) {s : c.Stream} (h : s.buf = []) (nowMs : Nat) :
    settle c w s nowMs = (w, s) := by
  obtain ⟨guard, h_guard⟩ : ∃ guard, settleGuard = guard + 1 := ⟨999999, rfl⟩
  unfold settle
  rw [h_guard, settleRounds, if_pos h]

theorem zclRxTick_onePeer {rx : ZclRx c} (h : OnePeer streamId rx.streams) (nowMs : Nat) :
    OnePeer streamId (zclRxTick rx nowMs).streams ∧
      (zclRxTick rx nowMs).work = (settle c rx.work (theStream rx.streams) nowMs).1 ∧
      theStream (zclRxTick rx nowMs).streams =
        (settle c rx.work (theStream rx.streams) nowMs).2 := by
  unfold zclRxTick
  rcases h.theStream_cases with ⟨h_mem, h_used⟩ | ⟨h_none, h_eq⟩
  · generalize theStream rx.streams = s at h_mem h_used ⊢
    obtain ⟨before, after, h_split⟩ := List.append_of_mem h_mem
    have h_i : rx.streams[before.length]? = some s := by
      rw [h_split, List.getElem?_append_right (Nat.le_refl _), Nat.sub_self]
      rfl
    have h_before : ∀ r ∈ before, r.used = false := by
      intro r h_r
      obtain ⟨j, h_j⟩ := List.mem_iff_getElem?.mp h_r
      have h_lt := (List.getElem?_eq_some_iff.mp h_j).1
      refine h.others_unused h_i h_used (Nat.ne_of_gt h_lt) (j := j) ?_
      rw [h_split, List.getElem?_append_left h_lt]
      exact h_j
    have h_after : ∀ r ∈ after, r.used = false := by
      intro r h_r
      obtain ⟨j, h_j⟩ := List.mem_iff_getElem?.mp h_r
      refine h.others_unused h_i h_used (j := before.length + (j + 1)) (by omega) ?_
      rw [h_split, List.getElem?_append_right (Nat.le_add_right _ _), Nat.add_sub_cancel_left]
      exact h_j
    obtain ⟨-, -, -, -, h_used', h_id⟩ := ledger_eq (settle_ledger rx.work s nowMs)
    have h_set := h.set h_i (Or.inl h_used) ((h.each s h_mem).settle (w := rx.work) nowMs)
      (h_used'.trans h_used) (h_id.trans (h.peer s h_mem h_used))
    rw [h_split, List.set_append_right _ _ (Nat.le_refl _), Nat.sub_self, List.set_cons_zero] at h_set
    rw [h_split, tickStreams_lone nowMs rx.work h_before h_after h_used]
    exact ⟨h_set.1, rfl, h_set.2⟩
  · rw [tickStreams_unused nowMs rx.work h_none, h_eq, settle_empty rx.work rfl]
    exact ⟨h, rfl, rfl⟩

end IonContrib.Zcl
