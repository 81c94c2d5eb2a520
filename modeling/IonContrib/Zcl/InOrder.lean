/-
  IonContrib.Zcl.InOrder

  What a receiver gives out of the carriers of one encoder is in the order in
  which it was put in, with nothing twice and nothing else: whichever of the
  carriers arrive, how often, when and in which order (`receives_in_order`).
-/
import IonContrib.Zcl.Tagged
import Mathlib.Data.List.Flatten

namespace IonContrib.Zcl

open Octets

variable {c : ZclCfg} {zc : ZstdC} {t : Traffic}

/-- The first element that `takeWhile` leaves. -/
theorem of_getElem?_takeWhile {α : Type*} {p : α → Bool} {l : List α} {x : α}
    (h : l[(l.takeWhile p).length]? = some x) : p x = false := by
  induction l with
  | nil => cases h
  | cons a l ih =>
    cases h_a : p a with
    | false =>
      rw [List.takeWhile_cons_of_neg (Bool.not_eq_true _ |>.mpr h_a)] at h
      rwa [← Option.some.inj h]
    | true =>
      rw [List.takeWhile_cons_of_pos h_a, List.length_cons, List.getElem?_cons_succ] at h
      exact ih h

/-! ## What can come out -/

theorem octets_lawfulBEq : LawfulBEq Octets := inferInstance

instance decidableMemCarriers (octets : Octets) (l : List Octets) : Decidable (octets ∈ l) :=
  @List.instDecidableMemOfLawfulBEq Octets _ octets_lawfulBEq octets l

namespace Traffic

/-- How many of the first carriers of a chunk arrive. -/
def reach (t : Traffic) (ch : ZclChunk) : Nat :=
  ((ch.carriers t.streamId).takeWhile fun octets => decide (octets ∈ t.arrived)).length

/-- The bundles of the chunks with lower numbers, of each up to its first carrier that is lost. -/
def below (t : Traffic) (n : Nat) : List Octets :=
  (t.chunks.filter fun ch => decide (ch.id < n)).flatMap fun ch => ch.bundlesTo (t.reach ch)

/-- All that can come out. -/
def due (t : Traffic) : List Octets := t.chunks.flatMap fun ch => ch.bundlesTo (t.reach ch)

theorem below_zero (t : Traffic) : t.below 0 = [] := by
  unfold below
  rw [List.filter_eq_nil_iff.mpr fun ch _ => by simp]
  rfl

theorem below_sublist (t : Traffic) (n : Nat) : (t.below n).Sublist t.due :=
  List.filter_sublist.flatMap _

theorem below_mono (t : Traffic) {n m : Nat} (h : n ≤ m) : (t.below n).Sublist (t.below m) := by
  have h_filter : (t.chunks.filter fun ch => decide (ch.id < n)) =
      (t.chunks.filter fun ch => decide (ch.id < m)).filter fun ch => decide (ch.id < n) := by
    rw [List.filter_filter]
    refine List.filter_congr fun ch _ => ?_
    rw [← Bool.decide_and, decide_eq_decide]
    omega
  unfold below
  rw [h_filter]
  exact List.filter_sublist.flatMap _

/-- The carriers up to `k` arrive, and so do the first ones of the chunk up to and with it. -/
theorem lt_reach {ch : ZclChunk} {k : Nat} {lot : Lot} (h_before : k ≤ t.reach ch)
    (h_lot : ch.lots[k]? = some lot) (h_arrived : ch.carrier t.streamId k lot ∈ t.arrived) :
    k < t.reach ch := by
  have h_at : (ch.carriers t.streamId)[k]? = some (ch.carrier t.streamId k lot) := by
    unfold ZclChunk.carriers
    rw [List.getElem?_mapIdx, h_lot]
    rfl
  refine Nat.lt_of_le_of_ne h_before fun h_eq => ?_
  rw [h_eq] at h_at
  have h_lost := of_getElem?_takeWhile h_at
  exact of_decide_eq_false h_lost (h_eq ▸ h_arrived)

end Traffic

/-- The chunks up to one of them. -/
theorem Sent.filter_succ {chunks : List ZclChunk} (h : Sent zc chunks) {ch : ZclChunk} (h_ch : ch ∈ chunks) :
    (chunks.filter fun one => decide (one.id < ch.id + 1)) =
      (chunks.filter fun one => decide (one.id < ch.id)) ++ [ch] := by
  obtain ⟨before, after, rfl⟩ := List.append_of_mem h_ch
  obtain ⟨-, h_tail, h_cross⟩ := List.pairwise_append.mp h.increasing
  have h_before : ∀ one ∈ before, one.id < ch.id := fun one h_one =>
    h_cross one h_one ch List.mem_cons_self
  have h_after : ∀ one ∈ after, ch.id < one.id := (List.pairwise_cons.mp h_tail).1
  have h_keep : ∀ n, ch.id ≤ n → (before.filter fun one => decide (one.id < n)) = before := by
    intro n h_n
    refine List.filter_eq_self.mpr fun one h_one => decide_eq_true ?_
    have h_lt := h_before one h_one
    omega
  have h_drop : ∀ n, n ≤ ch.id + 1 → (after.filter fun one => decide (one.id < n)) = [] := by
    intro n h_n
    refine List.filter_eq_nil_iff.mpr fun one h_one h_lt => ?_
    have h_gt := h_after one h_one
    have h_lt := of_decide_eq_true h_lt
    omega
  rw [List.filter_append, List.filter_append, h_keep _ (Nat.le_succ _), h_keep _ (Nat.le_refl _),
    List.filter_cons_of_pos (by simp), List.filter_cons_of_neg (by simp), h_drop _ (Nat.le_refl _),
    h_drop _ (Nat.le_succ _), List.append_nil]

theorem Traffic.below_succ (h : Sent zc t.chunks) {ch : ZclChunk} (h_ch : ch ∈ t.chunks) :
    t.below (ch.id + 1) = t.below ch.id ++ ch.bundlesTo (t.reach ch) := by
  unfold below
  rw [h.filter_succ h_ch, List.flatMap_append, List.flatMap_singleton]

/-- A stream, and that what has been emitted came in order. -/
structure Safe (t : Traffic) (emitted : List Octets) (s : c.Stream) : Prop
    extends OnCourse t s where
  off : s.synced = false → emitted.Sublist (t.below s.awaited)
  on : s.synced = true → ∀ ch ∈ t.chunks, ch.id = s.cur → s.next ≤ t.reach ch ∧
    ∃ old, emitted = old ++ ch.bundlesTo s.next ∧ old.Sublist (t.below s.cur)

theorem bundlesTo_mono (ch : ZclChunk) {k m : Nat} (h : k ≤ m) :
    ch.bundlesTo k <+: ch.bundlesTo m := by
  have h_take : ch.lots.take k = (ch.lots.take m).take k := by
    rw [List.take_take, Nat.min_eq_left h]
  unfold ZclChunk.bundlesTo
  refine ⟨((ch.lots.take m).drop k).flatMap (·.bundles), ?_⟩
  rw [h_take, ← List.flatMap_append, List.take_append_drop]

/-- The chunk that a stream is on is left with some of its bundles emitted. -/
theorem Safe.leave (h_sent : Sent zc t.chunks) {emitted emitted' : List Octets} {s : c.Stream}
    (h : Safe t emitted s) {ch : ZclChunk} (h_ch : ch ∈ t.chunks) (h_on : s.synced = true)
    (h_id : ch.id = s.cur) {k : Nat} (h_k : k ≤ t.reach ch)
    (h_front : ∀ old, emitted = old ++ ch.bundlesTo s.next → emitted' <+: old ++ ch.bundlesTo k) :
    emitted'.Sublist (t.below (s.cur + 1)) := by
  obtain ⟨-, old, h_emitted, h_old⟩ := h.on h_on ch h_ch h_id
  rw [← h_id] at h_old ⊢
  rw [Traffic.below_succ h_sent h_ch]
  exact (h_front old h_emitted).sublist.trans (h_old.append (bundlesTo_mono ch h_k).sublist)

/-- The carrier in line is one of those before the first that is lost. -/
theorem Safe.lt_reach {emitted : List Octets} {s : c.Stream} (h : Safe t emitted s) {ch : ZclChunk}
    {lot : Lot} (h_line : AtLine t s ch lot) : s.next < t.reach ch :=
  t.lt_reach (h.on h_line.on ch h_line.mem h_line.id).1 h_line.at_lot h_line.arrived

theorem Safe.drainRound (h_dec : Decodes zc c.z) (h_room : 0 < c.tmpLen)
    (h_sent : Sent zc t.chunks) {w w' : ZclWork} {s s' : c.Stream} (h : Safe t w.emitted s)
    (h_round : drainRound c w s = some (w', s')) : Safe t w'.emitted s' := by
  obtain ⟨h_course, h_step⟩ := drainRound_genuine h_dec h_room h_sent h.toOnCourse h_round
  cases h_step with
  | sync h_off h_emitted h_on h_buf =>
    refine ⟨h_course, fun h_not => ?_, fun _ ch h_ch h_id => ⟨?_, w'.emitted, ?_, ?_⟩⟩
    · rw [h_on.1] at h_not
      cases h_not
    · rw [h_on.2.2]
      exact Nat.zero_le _
    · rw [h_on.2.2]
      exact (List.append_nil _).symm
    · rw [h_emitted, h_on.2.1]
      exact h.off h_off
  | next ch lot h_line h_end h_emitted h_on h_buf =>
    refine ⟨h_course, fun h_not => ?_, fun _ ch' h_ch' h_id => ?_⟩
    · rw [h_on.1] at h_not
      cases h_not
    · have h_id := h_id.trans h_on.2.1
      obtain rfl := h_sent.eq_of_id h_line.mem h_ch' (h_line.id.trans h_id.symm)
      obtain ⟨-, old, h_old, h_below⟩ := h.on h_line.on ch h_ch' h_id
      refine ⟨h_on.2.2 ▸ h.lt_reach h_line, old, ?_, h_on.2.1 ▸ h_below⟩
      rw [h_emitted, h_old, h_on.2.2, ZclChunk.bundlesTo_succ h_line.at_lot, List.append_assoc]
  | gone ch lot h_line h_out h_off h_buf =>
    refine ⟨h_course, fun _ => ?_, fun h_not => ?_⟩
    · rw [h_off.2]
      refine h.leave h_sent h_line.mem h_line.on h_line.id (h.lt_reach h_line) fun old h_old => ?_
      rw [ZclChunk.bundlesTo_succ h_line.at_lot, ← List.append_assoc, ← h_old]
      rcases h_out with ⟨-, h_emitted⟩ | ⟨-, h_front⟩
      · exact h_emitted ▸ List.prefix_rfl
      · exact h_front
    · rw [h_off.1] at h_not
      cases h_not

theorem Safe.resolveGap (h_sent : Sent zc t.chunks) {w : ZclWork} {s : c.Stream}
    (h : Safe t w.emitted s) (h_some : s.buf ≠ []) :
    Safe t (resolveGap c w s).1.emitted (resolveGap c w s).2 := by
  obtain ⟨h_course, h_step⟩ := resolveGap_genuine (w := w) h.toOnCourse h_some
  generalize (Zcl.resolveGap c w s).1 = w' at h_step ⊢
  generalize (Zcl.resolveGap c w s).2 = s' at h_course h_step ⊢
  cases h_step with
  | lost h_on h_emitted h_off h_buf =>
    obtain ⟨ch, h_ch, h_id, -⟩ := h.decoding h_on
    refine ⟨h_course, fun _ => ?_, fun h_not => ?_⟩
    · rw [h_off.2]
      refine h.leave h_sent h_ch h_on h_id (h.on h_on ch h_ch h_id).1 fun old h_old => ?_
      exact (h_emitted.trans h_old) ▸ List.prefix_rfl
    · rw [h_off.1] at h_not
      cases h_not
  | skip start h_start h_first h_off h_emitted h_on h_buf =>
    refine ⟨h_course, fun h_not => ?_, fun _ ch h_ch h_id => ⟨?_, w'.emitted, ?_, ?_⟩⟩
    · rw [h_on.1] at h_not
      cases h_not
    · rw [h_on.2.2]
      exact Nat.zero_le _
    · rw [h_on.2.2]
      exact (List.append_nil _).symm
    · rw [h_emitted, h_on.2.1]
      exact (h.off h_off).trans (t.below_mono (h.awaited_le h_start))
  | noStart head h_head h_none h_off h_emitted h_off' h_buf =>
    refine ⟨h_course, fun _ => ?_, fun h_not => ?_⟩
    · rw [h_emitted, h_off'.2]
      exact (h.off h_off).trans (t.below_mono (Nat.le_succ_of_le (h.awaited_le h_head)))
    · rw [h_off'.1] at h_not
      cases h_not

/-! ## Runs -/

theorem Safe.settle (h_dec : Decodes zc c.z) (h_room : 0 < c.tmpLen) (h_sent : Sent zc t.chunks)
    {w : ZclWork} {s : c.Stream} (h : Safe t w.emitted s) (nowMs : Nat) :
    Safe t (settle c w s nowMs).1.emitted (settle c w s nowMs).2 :=
  settle_keeps (P := fun w s => Safe t w.emitted s)
    (fun _ _ _ _ h_s h_round => h_s.drainRound h_dec h_room h_sent h_round)
    (fun _ _ h_s h_some _ _ => h_s.resolveGap h_sent h_some) h

theorem Safe.inUse {emitted : List Octets} {s : c.Stream} (h : Safe t emitted s)
    (streamId k : Nat) : Safe t emitted (inUse streamId k s) :=
  ⟨h.toOnCourse.inUse streamId k, h.off, h.on⟩

/-- A receiver of one peer, of whose bundles what came out is in order. -/
structure SafeRx (t : Traffic) (rx : ZclRx c) : Prop where
  peer : OnePeer t.streamId rx.streams
  some : rx.streams ≠ []
  safe : Safe t rx.work.emitted (theStream rx.streams)

theorem SafeRx.carrier (h_dec : Decodes zc c.z) (h_room : 0 < c.tmpLen) (h_sent : Sent zc t.chunks)
    (h_max : ∀ ch ∈ t.chunks, ch.id + 1 < 2 ^ 64) (h_stream : t.streamId < 2 ^ 64) {rx : ZclRx c}
    (h : SafeRx t rx) {octets : Octets} {ch : ZclChunk} {k : Nat} {lot : Lot}
    (h_at : Arrives t octets ch k lot) (nowMs : Nat) :
    SafeRx t (zclRxCarrier rx octets nowMs).1 := by
  have h_id := h_max ch h_at.mem
  obtain ⟨h_peer, h_received⟩ := zclRxCarrier_received h.peer h.some
    (h_at.header h_sent h_stream) rfl h_id nowMs
  rw [h_at.payload] at h_received
  refine ⟨h_peer, h.peer.streams_ne_nil h.some h_peer, ?_⟩
  generalize (zclRxCarrier rx octets nowMs).1.work = w' at h_received ⊢
  generalize theStream (zclRxCarrier rx octets nowMs).1.streams = s' at h_received ⊢
  cases h_received with
  | aside h_emitted h_same h_why =>
    rw [h_emitted]
    rcases h_same with rfl | ⟨k, rfl⟩
    · exact h.safe
    · exact h.safe.inUse t.streamId k
  | taken w k buf h_emitted h_fresh h_ins =>
    have h_use := h.safe.inUse t.streamId k
    have h_course := h_use.toOnCourse.buffering h_fresh h_id h_ins (h_at.genuine nowMs)
    have h_safe : Safe t w.emitted (buffering (Zcl.inUse t.streamId k (theStream rx.streams)) buf
        lot.payload) := by
      rw [h_emitted]
      exact ⟨h_course, h_use.off, h_use.on⟩
    exact h_safe.settle h_dec h_room h_sent nowMs

theorem SafeRx.after (h_dec : Decodes zc c.z) (h_room : 0 < c.tmpLen) (h_sent : Sent zc t.chunks)
    (h_max : ∀ ch ∈ t.chunks, ch.id + 1 < 2 ^ 64) (h_stream : t.streamId < 2 ^ 64) {rx : ZclRx c}
    (h : SafeRx t rx) {e : RxEvent} (h_e : e.Of t) :
    SafeRx t (rx.after e) := by
  cases e with
  | carrier octets nowMs =>
    rcases h_e with h_none | ⟨h_arrived, ch, h_ch, h_octets⟩
    · obtain ⟨h_streams, h_emitted⟩ := zclRxCarrier_refused rx h_none nowMs
      refine ⟨?_, ?_, ?_⟩
      · exact h_streams ▸ h.peer
      · exact h_streams ▸ h.some
      · show Safe t (zclRxCarrier rx octets nowMs).1.work.emitted
          (theStream (zclRxCarrier rx octets nowMs).1.streams)
        rw [h_streams, h_emitted]
        exact h.safe
    · obtain ⟨k, lot, h_lot, h_eq⟩ := ZclChunk.mem_carriers.mp h_octets
      exact h.carrier h_dec h_room h_sent h_max h_stream ⟨h_ch, h_lot, h_eq, h_arrived⟩ nowMs
  | tick nowMs =>
    obtain ⟨h_peer, h_work, h_the⟩ := zclRxTick_onePeer h.peer nowMs
    refine ⟨h_peer, h.peer.streams_ne_nil h.some h_peer, ?_⟩
    show Safe t (zclRxTick rx nowMs).work.emitted (theStream (zclRxTick rx nowMs).streams)
    rw [h_work, h_the]
    exact h.safe.settle h_dec h_room h_sent nowMs

/-- **In order.**  Of the carriers that an encoder has cut, let any arrive, in any order, as often
    and whenever they do, with anything between them that is refused, and let any allocation and
    any bundle fail: what is emitted is among the bundles put in, each at most once and in their
    order, and of each chunk it is none behind the first carrier that has not arrived. -/
theorem receives_in_order (h_dec : Decodes zc c.z) (h_room : 0 < c.tmpLen)
    (h_sent : Sent zc t.chunks) (h_max : ∀ ch ∈ t.chunks, ch.id + 1 < 2 ^ 64)
    (h_stream : t.streamId < 2 ^ 64) {rx : ZclRx c} (h_new : zclRxNew c = some rx)
    {es : List RxEvent} (h_es : ∀ e ∈ es, e.Of t) : (rx.run es).work.emitted.Sublist t.due := by
  have h_run : ∀ (rx : ZclRx c) (es : List RxEvent), SafeRx t rx → (∀ e ∈ es, e.Of t) →
      SafeRx t (rx.run es) := by
    intro rx es
    induction es generalizing rx with
    | nil => exact fun h _ => h
    | cons e es ih =>
      intro h h_es
      obtain ⟨h_e, h_rest⟩ := List.forall_mem_cons.mp h_es
      exact ih (rx.after e) (h.after h_dec h_room h_sent h_max h_stream h_e) h_rest
  obtain ⟨h_peer, h_some, h_the, h_emitted⟩ := zclRxNew_onePeer h_new t.streamId
  have h_start : SafeRx t rx := by
    refine ⟨h_peer, h_some, ?_⟩
    rw [h_the, h_emitted]
    refine ⟨.free, fun _ => List.nil_sublist _, fun h_on => ?_⟩
    cases h_on
  have h_end := (h_run rx es h_start h_es).safe
  cases h_on : (theStream (rx.run es).streams).synced with
  | false => exact (h_end.off h_on).trans (t.below_sublist _)
  | true =>
    obtain ⟨ch, h_ch, h_id, -⟩ := h_end.decoding h_on
    have h_front : ∀ old,
        (rx.run es).work.emitted = old ++ ch.bundlesTo (theStream (rx.run es).streams).next →
        (rx.run es).work.emitted <+: old ++ ch.bundlesTo (theStream (rx.run es).streams).next :=
      fun old h_old => h_old ▸ List.prefix_refl _
    have h_reach := (h_end.on h_on ch h_ch h_id).1
    exact (h_end.leave h_sent h_ch h_on h_id h_reach h_front).trans (t.below_sublist _)

/-- The later chunk comes first, and of the other one only the second carrier. -/
def reordered : List Octets := laterChunk.carriers 9 ++ (endedChunk.carriers 9).drop 1

theorem receives_in_order_reordered : ∃ rx, zclRxNew tagCfg = some rx ∧
    (rx.run ((([1, 2] :: reordered) ++ reordered).map (.carrier · 5) ++
      [.tick 20000])).work.emitted.Sublist [[9]] := by
  obtain ⟨rx, h_new⟩ := zclRxNew_tagged
  have h_room : 0 < tagCfg.tmpLen := Nat.succ_pos _
  have h_max : ∀ ch ∈ [endedChunk, laterChunk], ch.id + 1 < 2 ^ 64 := by decide
  have h_due : Traffic.due ⟨9, [endedChunk, laterChunk], reordered⟩ = [[9]] := by decide +kernel
  have h_of : ∀ octets ∈ reordered, ∃ ch ∈ [endedChunk, laterChunk],
      octets ∈ ch.carriers 9 := by
    intro octets h_mem
    rcases List.mem_append.mp h_mem with h_later | h_ended
    · exact ⟨laterChunk, List.mem_cons_of_mem _ List.mem_cons_self, h_later⟩
    · exact ⟨endedChunk, List.mem_cons_self, List.mem_of_mem_drop h_ended⟩
  have h_all : ∀ octets ∈ ([1, 2] :: reordered) ++ reordered,
      zclHeaderGet octets = none ∨ octets ∈ reordered := by
    intro octets h_mem
    rcases List.mem_append.mp h_mem with h_mem | h_mem
    · rcases List.mem_cons.mp h_mem with rfl | h_mem
      · exact Or.inl rfl
      · exact Or.inr h_mem
    · exact Or.inr h_mem
  refine ⟨rx, h_new, h_due ▸ receives_in_order decodes_tagged h_room sent_chunks h_max
    (by decide) h_new fun e h_e => ?_⟩
  rcases List.mem_append.mp h_e with h_e | h_e
  · obtain ⟨octets, h_mem, rfl⟩ := List.mem_map.mp h_e
    exact (h_all octets h_mem).imp_right fun h_in => ⟨h_in, h_of octets h_in⟩
  · rw [List.mem_singleton.mp h_e]
    trivial

end IonContrib.Zcl
