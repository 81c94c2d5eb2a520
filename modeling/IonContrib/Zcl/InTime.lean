/-
  IonContrib.Zcl.InTime

  Runs of a receiver after which all that can come out has come out: those in
  which the carriers arrive in the order in which they were cut, whatever is
  lost (`receives_all_in_order`), and those in which they all arrive, none of
  them overtaken for too long or by too much (`receives_all_in_time`).
-/
import IonContrib.Zcl.Exact
import Mathlib.Algebra.Order.BigOperators.Group.List
import Mathlib.Data.List.Perm.Subperm

namespace IonContrib.Zcl

open Octets

variable {c : ZclCfg} {zc : ZstdC} {t : Traffic} {past : List RxEvent}

/-! ## Arrivals -/

theorem mem_octetsIn_snoc {e : RxEvent} {octets : Octets} :
    octets ∈ octetsIn (past ++ [e]) ↔ octets ∈ octetsIn past ∨ e.octets? = some octets := by
  unfold octetsIn
  rw [List.filterMap_append, List.mem_append]
  refine or_congr_right ?_
  cases h_e : e.octets? with
  | none => simp [h_e]
  | some octets' => simp [h_e, eq_comm]

/-- An event that brings none of the carriers. -/
theorem Exact.other {emitted : List Octets} {s : c.Stream} (h : Exact t past emitted s)
    {e : RxEvent} (h_e : ∀ ch ∈ t.chunks, ∀ k lot, ch.lots[k]? = some lot →
      e.octets? ≠ some (ch.carrier t.streamId k lot)) : Exact t (past ++ [e]) emitted s where
  toOnCourse := h.toOnCourse
  off := h.off
  on := h.on
  came := fun p h_p ch h_ch h_id lot h_lot =>
    List.mem_append_left _ (h.came p h_p ch h_ch h_id lot h_lot)
  held := fun ch h_ch k lot h_lot h_past => h.held ch h_ch k lot h_lot
    ((mem_octetsIn_snoc.mp h_past).resolve_right (h_e ch h_ch k lot h_lot))

/-- A carrier tells its chunk and its place. -/
theorem Arrives.same (h_sent : Sent zc t.chunks) (h_stream : t.streamId < 2 ^ 64)
    {octets : Octets} {ch ch' : ZclChunk} {k k' : Nat} {lot lot' : Lot}
    (h : Arrives t octets ch k lot) (h_ch' : ch' ∈ t.chunks) (h_lot' : ch'.lots[k']? = some lot')
    (h_eq : octets = ch'.carrier t.streamId k' lot') : ch'.id = ch.id ∧ k' = k := by
  have h_get := h.header h_sent h_stream
  rw [h_eq, ZclChunk.zclHeaderGet_carrier (h_sent.sound ch' h_ch') h_stream h_lot'] at h_get
  have h_hdr := Option.some.inj h_get
  exact ⟨congrArg ZclHeader.chunkId h_hdr, congrArg ZclHeader.seq h_hdr⟩

/-- A carrier has arrived that the stream has passed or holds. -/
theorem Exact.aside (h_sent : Sent zc t.chunks) (h_stream : t.streamId < 2 ^ 64)
    {emitted : List Octets} {s : c.Stream} (h : Exact t past emitted s) {octets : Octets}
    {ch : ZclChunk} {k : Nat} {lot : Lot} (h_at : Arrives t octets ch k lot) (nowMs : Nat)
    (h_have : s.Over ch.id k ∨ ∃ p ∈ s.buf, p.chunk = ch.id ∧ p.seq = k) :
    Exact t (past ++ [.carrier octets nowMs]) emitted s where
  toOnCourse := h.toOnCourse
  off := h.off
  on := h.on
  came := fun p h_p ch h_ch h_id lot h_lot =>
    List.mem_append_left _ (h.came p h_p ch h_ch h_id lot h_lot)
  held := by
    intro ch' h_ch' k' lot' h_lot' h_past
    rcases mem_octetsIn_snoc.mp h_past with h_past | h_new
    · exact h.held ch' h_ch' k' lot' h_lot' h_past
    · obtain ⟨h_id, rfl⟩ :=
        h_at.same h_sent h_stream h_ch' h_lot' (Option.some.inj h_new)
      rw [h_id]
      exact h_have

theorem Exact.inUse {emitted : List Octets} {s : c.Stream} (h : Exact t past emitted s)
    (streamId k : Nat) : Exact t past emitted (inUse streamId k s) :=
  ⟨h.toOnCourse.inUse streamId k, h.off, h.on, h.came, h.held⟩

/-- A carrier has been put into the buffer. -/
theorem Exact.buffering (h_sent : Sent zc t.chunks) (h_stream : t.streamId < 2 ^ 64)
    {emitted : List Octets} {s : c.Stream} (h : Exact t past emitted s) {octets : Octets}
    {ch : ZclChunk} {k : Nat} {lot : Lot} (h_at : Arrives t octets ch k lot) {nowMs : Nat}
    (h_max : ch.id + 1 < 2 ^ 64)
    (h_fresh : staleCarrier s (ch.header t.streamId k lot.payload) = false) {buf : List Pending}
    (h_ins : insertPending (pendingOf (ch.header t.streamId k lot.payload) nowMs lot.payload)
      s.buf = some buf) :
    Exact t (past ++ [.carrier octets nowMs]) emitted (buffering s buf lot.payload) := by
  obtain ⟨h_perm, -⟩ := insertPending_some h_ins h.sorted
  refine ⟨h.toOnCourse.buffering h_fresh h_max h_ins (h_at.genuine nowMs), h.off, h.on, ?_, ?_⟩
  · intro p h_p ch' h_ch' h_id lot' h_lot'
    rcases List.mem_cons.mp (h_perm.mem_iff.mp h_p) with rfl | h_old
    · obtain rfl := h_sent.eq_of_id h_ch' h_at.mem h_id
      obtain rfl := Option.some.inj (h_at.at_lot.symm.trans h_lot')
      refine List.mem_append_right _ ?_
      rw [h_at.is_carrier]
      exact List.mem_cons_self
    · exact List.mem_append_left _ (h.came p h_old ch' h_ch' h_id lot' h_lot')
  · intro ch' h_ch' k' lot' h_lot' h_past
    rcases mem_octetsIn_snoc.mp h_past with h_past | h_new
    · rcases h.held ch' h_ch' k' lot' h_lot' h_past with h_over | ⟨p, h_p, h_place⟩
      · exact Or.inl h_over
      · exact Or.inr ⟨p, h_perm.mem_iff.mpr (List.mem_cons_of_mem _ h_p), h_place⟩
    · obtain ⟨h_id, rfl⟩ :=
        h_at.same h_sent h_stream h_ch' h_lot' (Option.some.inj h_new)
      exact Or.inr ⟨_, h_perm.mem_iff.mpr List.mem_cons_self, h_id.symm, rfl⟩

/-- What is stale has been passed. -/
theorem over_of_stale {s : c.Stream} (h : StreamOk s) {hd : ZclHeader}
    (h_stale : staleCarrier s hd = true) : s.Over hd.chunkId hd.seq := by
  unfold staleCarrier at h_stale
  simp only [Bool.or_eq_true, Bool.and_eq_true, decide_eq_true_iff] at h_stale
  cases h_on : s.synced with
  | false =>
    rw [over_of_off h_on]
    rw [h_on] at h_stale
    unfold ZclStream.awaited
    rcases h_stale with (⟨h_done, h_le⟩ | ⟨⟨h_false, -⟩, -⟩) | ⟨h_false, -⟩
    · rw [h_done, if_pos rfl]
      exact Nat.lt_succ_of_le h_le
    · cases h_false
    · cases h_false
  | true =>
    rw [over_of_on h_on]
    rcases h_stale with (⟨h_done, h_le⟩ | ⟨⟨-, h_chunk⟩, h_seq⟩) | ⟨-, h_lt⟩
    · have h_above := h.cur_above h_on h_done
      exact Or.inl (by omega)
    · exact Or.inr ⟨h_chunk, h_seq⟩
    · exact Or.inl h_lt

/-! ## Runs -/

/-- No gap is given up at `nowMs` while a carrier is still to come that belongs in front of a
    buffered one. -/
def Patient (c : ZclCfg) (t : Traffic) (past : List RxEvent) (nowMs : Nat) : Prop :=
  ∀ (emitted : List Octets) (s : c.Stream), Exact t past emitted s → s.buf ≠ [] →
    goesOn s = false → overdue c s nowMs = true → Spares t past s

/-- A receiver of one peer, of whose carriers none has been lost that it has passed. -/
structure ExactRx (t : Traffic) (past : List RxEvent) (rx : ZclRx c) : Prop where
  peer : OnePeer t.streamId rx.streams
  some : rx.streams ≠ []
  exact : Exact t past rx.work.emitted (theStream rx.streams)
  stuck : goesOn (theStream rx.streams) = false
  bounded : Bounded (theStream rx.streams)

/-- What the receiver is made for, and what it is made with. -/
structure Fitting (c : ZclCfg) (zc : ZstdC) (t : Traffic) : Prop where
  decodes : Decodes zc c.z
  room : 0 < c.tmpLen
  guard : GuardSuffices c.limits
  stream : t.streamId < 2 ^ 64
  sent : Sent zc t.chunks
  below : ∀ ch ∈ t.chunks, ch.id + 1 < 2 ^ 64
  fits : ∀ ch ∈ t.chunks, Fits c ch

/-- The stream after `settle`. -/
theorem Exact.settled (h_fit : Fitting c zc t) {w : ZclWork} {s : c.Stream} {nowMs : Nat}
    (h : Exact t past w.emitted s) (h_patient : Patient c t past nowMs)
    (h_len : s.buf.length ≤ c.limits.maxCarriers + 1) :
    Exact t past (Zcl.settle c w s nowMs).1.emitted (Zcl.settle c w s nowMs).2 ∧
      goesOn (Zcl.settle c w s nowMs).2 = false ∧ Calm (Zcl.settle c w s nowMs).2 nowMs := by
  have h_rank := settleRank_le s
  have h_guard := h_fit.guard
  unfold GuardSuffices at h_guard
  refine ⟨h.settle h_fit.decodes h_fit.room h_fit.sent h_fit.fits h_patient, ?_,
    settle_calm h_fit.guard h.toStreamOk h_len⟩
  exact settleRounds_stuck h.toStreamOk (by omega)

theorem length_buffering {s : c.Stream} (h : StreamOk s) {p : Pending} {buf : List Pending}
    (h_ins : insertPending p s.buf = some buf) (data : Octets) :
    (buffering s buf data).buf.length = s.buf.length + 1 :=
  (insertPending_some h_ins h.sorted).1.length_eq

theorem ExactRx.carrier (h_fit : Fitting c zc t) {rx : ZclRx c} (h : ExactRx t past rx)
    {octets : Octets} {ch : ZclChunk} {k : Nat} {lot : Lot} (h_at : Arrives t octets ch k lot)
    {nowMs : Nat} (h_patient : Patient c t (past ++ [.carrier octets nowMs]) nowMs) :
    ExactRx t (past ++ [.carrier octets nowMs]) (zclRxCarrier rx octets nowMs).1 := by
  have h_id := h_fit.below ch h_at.mem
  obtain ⟨h_peer, h_received⟩ := zclRxCarrier_received h.peer h.some
    (h_at.header h_fit.sent h_fit.stream) rfl h_id nowMs
  rw [h_at.payload] at h_received
  have h_some := h.peer.streams_ne_nil h.some h_peer
  have h_exact := h.exact
  have h_stuck := h.stuck
  have h_bounded := h.bounded
  suffices h_all : Exact t (past ++ [.carrier octets nowMs])
      (zclRxCarrier rx octets nowMs).1.work.emitted
      (theStream (zclRxCarrier rx octets nowMs).1.streams) ∧
      goesOn (theStream (zclRxCarrier rx octets nowMs).1.streams) = false ∧
      Bounded (theStream (zclRxCarrier rx octets nowMs).1.streams) from
    ⟨h_peer, h_some, h_all.1, h_all.2.1, h_all.2.2⟩
  generalize theStream rx.streams = s at h_received h_exact h_stuck h_bounded
  generalize (zclRxCarrier rx octets nowMs).1.work = w' at h_received ⊢
  generalize theStream (zclRxCarrier rx octets nowMs).1.streams = s' at h_received ⊢
  cases h_received with
  | aside h_emitted h_same h_why =>
    have h_have : s.Over ch.id k ∨ ∃ p ∈ s.buf, p.chunk = ch.id ∧ p.seq = k := by
      rcases h_why with ⟨n, h_none⟩ | h_stale | h_there
      · rw [(h_fit.fits ch h_at.mem).1 n] at h_none
        cases h_none
      · exact Or.inl (over_of_stale h_exact.toStreamOk h_stale)
      · exact Or.inr h_there
    have h_next := h_exact.aside h_fit.sent h_fit.stream h_at nowMs h_have
    rw [h_emitted]
    rcases h_same with rfl | ⟨n, rfl⟩
    · exact ⟨h_next, h_stuck, h_bounded⟩
    · exact ⟨h_next.inUse t.streamId n, h_stuck, ⟨h_bounded.carriers, h_bounded.octets⟩⟩
  | taken w n buf h_emitted h_fresh h_ins =>
    have h_use := h_exact.inUse t.streamId n
    have h_next := h_use.buffering h_fit.sent h_fit.stream h_at h_id h_fresh h_ins
    rw [← h_emitted] at h_next
    have h_len := length_buffering h_use.toStreamOk h_ins lot.payload
    have h_most : (buffering (Zcl.inUse t.streamId n s) buf lot.payload).buf.length ≤
        c.limits.maxCarriers + 1 := by
      rw [h_len]
      exact Nat.succ_le_succ h_bounded.carriers
    obtain ⟨h_settled, h_end, h_calm⟩ := h_next.settled h_fit h_patient h_most
    exact ⟨h_settled, h_end, h_calm.toBounded⟩

theorem ExactRx.tick (h_fit : Fitting c zc t) {rx : ZclRx c} (h : ExactRx t past rx) {nowMs : Nat}
    (h_patient : Patient c t (past ++ [.tick nowMs]) nowMs) :
    ExactRx t (past ++ [.tick nowMs]) (zclRxTick rx nowMs) ∧
      Calm (theStream (zclRxTick rx nowMs).streams) nowMs := by
  obtain ⟨h_peer, h_work, h_the⟩ := zclRxTick_onePeer h.peer nowMs
  have h_other := h.exact.other (e := .tick nowMs) fun _ _ _ _ _ h_eq => by cases h_eq
  obtain ⟨h_settled, h_stuck, h_calm⟩ := h_other.settled h_fit h_patient
    (Nat.le_succ_of_le h.bounded.carriers)
  rw [h_the]
  refine ⟨⟨h_peer, h.peer.streams_ne_nil h.some h_peer, ?_, ?_, ?_⟩, h_calm⟩
  · rw [h_work, h_the]
    exact h_settled
  · rw [h_the]
    exact h_stuck
  · rw [h_the]
    exact h_calm.toBounded

theorem ExactRx.after (h_fit : Fitting c zc t) {rx : ZclRx c} (h : ExactRx t past rx)
    {e : RxEvent} (h_e : e.Of t) (h_patient : Patient c t (past ++ [e]) e.nowMs) :
    ExactRx t (past ++ [e]) (rx.after e) := by
  cases e with
  | carrier octets nowMs =>
    rcases h_e with h_none | ⟨h_arrived, ch, h_ch, h_octets⟩
    · have h_same := zclRxCarrier_refused rx h_none nowMs
      have h_other := h.exact.other (e := .carrier octets nowMs) fun ch h_ch k lot h_lot h_eq => by
        have h_get := ZclChunk.zclHeaderGet_carrier (h_fit.sent.sound ch h_ch) h_fit.stream h_lot
        rw [← Option.some.inj h_eq, h_none] at h_get
        cases h_get
      show ExactRx t _ (zclRxCarrier rx octets nowMs).1
      refine ⟨?_, ?_, ?_, ?_, ?_⟩
      · exact h_same.1 ▸ h.peer
      · exact h_same.1 ▸ h.some
      · rw [h_same.1, h_same.2]
        exact h_other
      · rw [h_same.1]
        exact h.stuck
      · rw [h_same.1]
        exact h.bounded
    · obtain ⟨k, lot, h_lot, h_eq⟩ := ZclChunk.mem_carriers.mp h_octets
      exact h.carrier h_fit ⟨h_ch, h_lot, h_eq, h_arrived⟩ h_patient
  | tick nowMs => exact (h.tick h_fit h_patient).1

theorem run_snoc (rx : ZclRx c) (es : List RxEvent) (e : RxEvent) :
    rx.run (es ++ [e]) = (rx.run es).after e := by
  unfold ZclRx.run
  rw [List.foldl_append]
  rfl

/-- A run that gives up no gap too early. -/
theorem exactRx_run (h_fit : Fitting c zc t) {rx : ZclRx c} (h_new : zclRxNew c = some rx)
    {es : List RxEvent} (h_es : ∀ e ∈ es, e.Of t)
    (h_patient : ∀ pre e post, es = pre ++ e :: post → Patient c t (pre ++ [e]) e.nowMs) :
    ExactRx t es (rx.run es) := by
  induction es using List.reverseRecOn with
  | nil =>
    obtain ⟨h_peer, h_some, h_the, h_emitted⟩ := zclRxNew_onePeer h_new t.streamId
    show ExactRx t [] rx
    refine ⟨h_peer, h_some, ?_, ?_, ?_⟩
    · rw [h_the, h_emitted]
      refine ⟨.free, fun _ => ?_, fun h_on => ?_, fun p h_p => ?_, fun _ _ _ _ _ h_past => ?_⟩
      · exact t.below_zero.symm
      · cases h_on
      · cases h_p
      · cases h_past
    · rw [h_the]
      rfl
    · rw [h_the]
      exact Bounded.of_empty rfl
  | append_singleton es e ih =>
    have h_before := ih (fun e h_e => h_es e (List.mem_append_left _ h_e))
      fun pre e' post h_eq => h_patient pre e' (post ++ [e]) (by rw [h_eq, List.append_assoc]; rfl)
    rw [run_snoc]
    exact h_before.after h_fit (h_es e (List.mem_append_right _ List.mem_cons_self))
      (h_patient es e [] rfl)

/-! ## In the order in which they were cut -/

/-- Whether a carrier belongs in front of another. -/
def precedes (octets octets' : Octets) : Bool :=
  match zclHeaderGet octets, zclHeaderGet octets' with
  | some h, some h' =>
    decide (h.chunkId < h'.chunkId ∨ h.chunkId = h'.chunkId ∧ h.seq < h'.seq)
  | _, _ => false

theorem precedes_carrier (h_fit : Fitting c zc t) {ch ch' : ZclChunk} (h_ch : ch ∈ t.chunks)
    (h_ch' : ch' ∈ t.chunks) {k k' : Nat} {lot lot' : Lot} (h_lot : ch.lots[k]? = some lot)
    (h_lot' : ch'.lots[k']? = some lot') :
    precedes (ch.carrier t.streamId k lot) (ch'.carrier t.streamId k' lot') =
      decide (ch.id < ch'.id ∨ ch.id = ch'.id ∧ k < k') := by
  unfold precedes
  rw [ZclChunk.zclHeaderGet_carrier (h_fit.sent.sound ch h_ch) h_fit.stream h_lot,
    ZclChunk.zclHeaderGet_carrier (h_fit.sent.sound ch' h_ch') h_fit.stream h_lot']
  rfl

/-- None arrives behind one that it belongs in front of. -/
def InLine (es : List RxEvent) : Prop :=
  (octetsIn es).Pairwise fun octets octets' => precedes octets' octets = false

theorem InLine.patient (h_fit : Fitting c zc t) {es : List RxEvent} (h : InLine es)
    (h_arrived : t.arrived = octetsIn es) {pre post : List RxEvent} {e : RxEvent}
    (h_eq : es = pre ++ e :: post) (nowMs : Nat) : Patient c t (pre ++ [e]) nowMs := by
  intro emitted s h_exact _ _ _ ch h_ch k h_k lot h_lot h_past p h_p
  have h_split : octetsIn es = octetsIn (pre ++ [e]) ++ octetsIn post := by
    unfold octetsIn
    rw [← List.filterMap_append, h_eq, List.append_assoc]
    rfl
  obtain ⟨lot', h_lot', h_comes⟩ := arrived_of_lt_reach h_k
  obtain rfl := Option.some.inj (h_lot.symm.trans h_lot')
  rw [h_arrived, h_split] at h_comes
  have h_later := (List.mem_append.mp h_comes).resolve_left h_past
  obtain ⟨ch', h_ch', lot', h_id, h_lot', -⟩ := h_exact.genuine p h_p
  have h_came := mem_octetsIn.mpr ⟨_, h_exact.came p h_p ch' h_ch' h_id lot' h_lot'⟩
  unfold InLine at h
  rw [h_split] at h
  have h_not := (List.pairwise_append.mp h).2.2 _ h_came _ h_later
  rw [precedes_carrier h_fit h_ch h_ch' h_lot h_lot', decide_eq_false_iff_not] at h_not
  omega

/-- **All of what arrives in order.**  Let any of the carriers be lost, any arrive more than once
    and any other octets come between them: if none arrives behind one that it belongs in front
    of, then by a tick that is late enough, all the bundles have been emitted that are before
    the first lost carrier of their chunk, in their order and nothing else.  So a carrier that is
    lost costs the rest of its chunk and no more. -/
theorem receives_all_in_order (h_fit : Fitting c zc t) {rx : ZclRx c}
    (h_new : zclRxNew c = some rx) {es : List RxEvent} (h_es : ∀ e ∈ es, e.Of t)
    (h_arrived : t.arrived = octetsIn es) (h_line : InLine es) {late : Nat}
    (h_late : ∀ octets atMs, .carrier octets atMs ∈ es → atMs + c.limits.reorderMs ≤ late) :
    (rx.run (es ++ [.tick late])).work.emitted = t.due := by
  have h_octets : octetsIn (es ++ [.tick late]) = octetsIn es := by
    unfold octetsIn
    rw [List.filterMap_append]
    exact List.append_nil _
  have h_line' : InLine (es ++ [.tick late]) := by
    unfold InLine
    rw [h_octets]
    exact h_line
  have h_run := exactRx_run h_fit h_new h_es fun pre e post h_eq =>
    h_line.patient h_fit h_arrived h_eq e.nowMs
  obtain ⟨h_end, h_calm⟩ := h_run.tick h_fit
    (h_line'.patient h_fit (h_arrived.trans h_octets.symm) rfl late)
  rw [run_snoc]
  have h_buf : (theStream (zclRxTick (rx.run es) late).streams).buf = [] := by
    cases h_cons : (theStream (zclRxTick (rx.run es) late).streams).buf with
    | nil => rfl
    | cons p rest =>
      have h_p : p ∈ (theStream (zclRxTick (rx.run es) late).streams).buf := by
        rw [h_cons]
        exact List.mem_cons_self
      have h_fresh := h_calm.head p (by rw [h_cons]; rfl)
      obtain ⟨ch, h_ch, lot, h_id, h_lot, -⟩ := h_end.exact.genuine p h_p
      rcases List.mem_append.mp (h_end.exact.came p h_p ch h_ch h_id lot h_lot) with h_came | h_came
      · exact absurd (h_late _ _ h_came) (Nat.not_le_of_lt h_fresh)
      · cases List.mem_singleton.mp h_came
  refine h_end.exact.all h_fit.sent h_buf fun octets h_octet => ?_
  rw [h_octets, ← h_arrived]
  exact h_octet

theorem octetsIn_map (arrivals : List Octets) (atMs : Nat) :
    octetsIn (arrivals.map (.carrier · atMs)) = arrivals := by
  unfold octetsIn
  rw [List.filterMap_map]
  exact List.filterMap_some

theorem fitting_chunks (arrivals : List Octets) :
    Fitting tagCfg zTagged ⟨9, [endedChunk, laterChunk], arrivals⟩ where
  decodes := decodes_tagged
  room := Nat.succ_pos _
  guard := guardSuffices_defaults
  stream := (by decide : 9 < 2 ^ 64)
  sent := sent_chunks
  below := (by decide : ∀ ch ∈ [endedChunk, laterChunk], ch.id + 1 < 2 ^ 64)
  fits := by
    refine List.forall_mem_cons.mpr ⟨?_, List.forall_mem_singleton.mpr ?_⟩
    · exact ⟨fun _ => rfl, by decide, by decide⟩
    · exact ⟨fun _ => rfl, by decide, by decide⟩

/-- They are carriers of these chunks. -/
theorem arrivals_of {chunks : List ZclChunk} {streamId : Nat} {arrivals : List Octets}
    (h : arrivals ⊆ chunks.flatMap (·.carriers streamId)) (atMs : Nat) :
    ∀ e ∈ arrivals.map (RxEvent.carrier · atMs), e.Of ⟨streamId, chunks, arrivals⟩ := by
  intro e h_e
  obtain ⟨octets, h_mem, rfl⟩ := List.mem_map.mp h_e
  exact Or.inr ⟨h_mem, List.mem_flatMap.mp (h h_mem)⟩

/-- The second carrier is lost. -/
theorem receives_all_in_order_lossy : ∃ rx, zclRxNew tagCfg = some rx ∧
    (rx.run (((endedChunk.carriers 9).take 1 ++ laterChunk.carriers 9).map (.carrier · 5) ++
      [.tick 20000])).work.emitted = [[7], [9]] := by
  obtain ⟨rx, h_new⟩ := zclRxNew_tagged
  generalize h_arrivals : (endedChunk.carriers 9).take 1 ++ laterChunk.carriers 9 = arrivals
  have h_due : Traffic.due ⟨9, [endedChunk, laterChunk], arrivals⟩ = [[7], [9]] := by
    rw [← h_arrivals]
    decide +kernel
  have h_line : InLine (arrivals.map (.carrier · 5)) := by
    unfold InLine
    rw [octetsIn_map, ← h_arrivals]
    decide +kernel
  have h_sub : arrivals ⊆ [endedChunk, laterChunk].flatMap (·.carriers 9) := by
    rw [← h_arrivals]
    decide +kernel
  refine ⟨rx, h_new, h_due ▸ receives_all_in_order (fitting_chunks arrivals) h_new
    (arrivals_of h_sub 5) (octetsIn_map arrivals 5).symm h_line fun octets atMs h_mem => ?_⟩
  obtain ⟨octets', -, h_eq⟩ := List.mem_map.mp h_mem
  obtain ⟨-, rfl⟩ := RxEvent.carrier.inj h_eq
  decide

/-! ## In time -/

/-- The carriers that have arrived behind one. -/
def Traffic.behind (t : Traffic) (past : List RxEvent) (octets : Octets) : List Octets :=
  (t.chunks.flatMap (·.carriers t.streamId)).filter fun octets' =>
    decide (octets' ∈ octetsIn past) && precedes octets octets'

/-- At `nowMs` nothing has waited too long for a carrier that is still missing, nor does too much
    of it wait. -/
structure OnTime (limits : ZclRxLimits) (t : Traffic) (past : List RxEvent) (octets : Octets)
    (nowMs : Nat) : Prop where
  wait : ∀ octets' atMs, .carrier octets' atMs ∈ past → precedes octets octets' = true →
    nowMs < atMs + limits.reorderMs
  carriers : (t.behind past octets).length ≤ limits.maxCarriers
  octets : ((t.behind past octets).map fun octets' => octets'.length - zclHdrLen).sum ≤
    limits.maxBufBytes

/-- Chunks as they are numbered, all but the last of them ended. -/
structure Whole (chunks : List ZclChunk) : Prop where
  id_eq : ∀ (i : Nat) (ch : ZclChunk), chunks[i]? = some ch → ch.id = i
  nonempty : ∀ ch ∈ chunks, ch.lots ≠ []
  ended : ∀ (i : Nat) (ch : ZclChunk), chunks[i]? = some ch → i + 1 < chunks.length →
    ch.ended = true

/-- A carrier in the buffer as it came. -/
def Pending.octets (streamId : Nat) (p : Pending) : Octets :=
  zclHeaderPut ⟨if p.isEnd then zclFlagEnd else 0, streamId, p.chunk, p.seq, p.data.length⟩ p.data ++
    p.data

end IonContrib.Zcl
