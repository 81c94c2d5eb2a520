/-
  IonContrib.Zcl.ZcloLots

  What `zclo` has given to BP, chunk by chunk (`Passing`): the carriers are
  those of the chunks that its encoder has cut, each with the bundles whose
  records end in it, and of a chunk at most the last carrier has failed.
-/
import IonContrib.Zcl.EncChunks
import IonContrib.Zcl.InOrder
import IonContrib.Zcl.ZcloLedger
import Mathlib.Data.List.Flatten

namespace IonContrib.Zclo

open Octets Zcl

variable {c : ZclEncCfg} {cfg : ZclCloConfig} {d d' : CloState c} {e : Event}

/-! ## What has been cut -/

/-- The carrier in hand with its bundles. -/
def handed (work : Option (Octets × List Pend) × List (Pend × Bool)) :
    List (Octets × List Pend) := work.1.toList

/-- All carriers with their bundles, those sent and the one in hand. -/
def CloState.carriers (d : CloState c) : List (Octets × List Pend) :=
  (sendsIn d.log).map (fun s => (s.1, s.2.1)) ++ handed d.flusher.work

/-- The carriers that `bp_send` has accepted. -/
def acceptedCarriers (log : List Effect) : List Octets := ((sendsIn log).filter (·.2.2)).map (·.1)

theorem mem_acceptedCarriers {log : List Effect} {carrier : Octets} :
    carrier ∈ acceptedCarriers log ↔ ∃ zcos, (carrier, zcos, true) ∈ sendsIn log := by
  unfold acceptedCarriers
  rw [List.mem_map]
  constructor
  · rintro ⟨⟨carrier, zcos, ok⟩, h_mem, rfl⟩
    obtain ⟨h_mem, h_ok⟩ := List.mem_filter.mp h_mem
    obtain rfl : ok = true := h_ok
    exact ⟨zcos, h_mem⟩
  · rintro ⟨zcos, h_mem⟩
    exact ⟨_, List.mem_filter.mpr ⟨h_mem, rfl⟩, rfl⟩

/-- The carriers of a chunk but the last have been accepted. -/
def SentBut (log : List Effect) (entries : List (Octets × List Octets)) : Prop :=
  ∀ x ∈ entries.dropLast, x.1 ∈ acceptedCarriers log

structure Passing (d : CloState c) (chunks : List ZclChunk) (lots : List Lot) : Prop where
  cutting : Cutting d.enc chunks lots (d.pending.map (·.bytes))
  entries : d.carriers.map (fun x => (x.1, x.2.map (·.bytes))) = entriesOf d.enc chunks lots
  behind : ∀ ch ∈ chunks, SentBut d.log (ch.entries c.streamId)
  here : SentBut d.log ((openChunk d.enc lots).entries c.streamId)
  /-- The last carrier of the open chunk is in hand when it is not accepted. -/
  last : ∀ x ∈ (openChunk d.enc lots).entries c.streamId,
    x.1 ∈ acceptedCarriers d.log ∨ ∃ zcos, d.flusher.work.1 = some (x.1, zcos)
  /-- In the order in which they were added. -/
  order : (d.carriers.flatMap (·.2) ++ d.pending).Sublist (addedIn d.log)

theorem passing_start : Passing (CloState.start c) [] [] where
  cutting := .init
  entries := rfl
  behind := fun _ h => absurd h List.not_mem_nil
  here := fun _ h => absurd h List.not_mem_nil
  last := fun _ h => absurd h List.not_mem_nil
  order := List.Sublist.refl _

theorem SentBut.mono {log log' : List Effect} {entries : List (Octets × List Octets)}
    (h : SentBut log entries) (h_log : ∀ x ∈ acceptedCarriers log, x ∈ acceptedCarriers log') :
    SentBut log' entries := fun x h_x => h_log _ (h x h_x)

theorem carriers_of (h_sends : sendsIn d'.log = sendsIn d.log)
    (h_work : d'.flusher.work.1 = d.flusher.work.1) : d'.carriers = d.carriers := by
  unfold CloState.carriers handed
  rw [h_sends, h_work]

theorem acceptedCarriers_of {log log' : List Effect} (h : sendsIn log' = sendsIn log) :
    acceptedCarriers log' = acceptedCarriers log := by
  unfold acceptedCarriers
  rw [h]

/-- Nothing is cut, given up or sent. -/
theorem Passing.quiet {chunks : List ZclChunk} {lots : List Lot} (h : Passing d chunks lots)
    (h_cutting : Cutting d'.enc chunks lots (d'.pending.map (·.bytes)))
    (h_chunk : d'.enc.enc.chunkId = d.enc.enc.chunkId)
    (h_sends : sendsIn d'.log = sendsIn d.log) (h_work : d'.flusher.work.1 = d.flusher.work.1)
    (h_order : (d.carriers.flatMap (·.2) ++ d'.pending).Sublist (addedIn d'.log)) :
    Passing d' chunks lots := by
  have h_carriers := carriers_of h_sends h_work
  have h_accepted := acceptedCarriers_of h_sends
  have h_open : openChunk d'.enc lots = openChunk d.enc lots := by
    unfold openChunk
    rw [h_chunk]
  have h_same : ∀ x ∈ acceptedCarriers d.log, x ∈ acceptedCarriers d'.log := by
    rw [h_accepted]
    exact fun _ h_x => h_x
  refine ⟨h_cutting, ?_, fun ch h_ch => (h.behind ch h_ch).mono h_same, ?_, ?_, ?_⟩
  · rw [h_carriers, entriesOf_same h_chunk]
    exact h.entries
  · rw [h_open]
    exact h.here.mono h_same
  · rw [h_open, h_accepted, h_work]
    exact h.last
  · rw [h_carriers]
    exact h_order

/-- The open chunk is given up. -/
theorem Passing.giveUp {chunks : List ZclChunk} {lots : List Lot} (h : Passing d chunks lots)
    {w : ZclEncRun c} (h_same : SameCut d.enc w) (h_roomy : Roomy d.enc .abort)
    (h_enc : d'.enc = zclEncAbort c w) (h_pending : d'.pending = [])
    (h_carriers : d'.carriers = d.carriers)
    (h_accepted : ∀ x ∈ acceptedCarriers d.log, x ∈ acceptedCarriers d'.log)
    (h_added : addedIn d'.log = addedIn d.log) : ∃ chunks', Passing d' chunks' [] := by
  obtain ⟨chunks', h_cutting, h_entries, h_chunks⟩ := h.cutting.abort h_same h_roomy
  refine ⟨chunks', ?_, ?_, fun ch h_ch => ?_, ?_, ?_, ?_⟩
  · rw [h_enc, h_pending]
    exact h_cutting
  · rw [h_carriers, h.entries, h_enc, h_entries]
  · rcases h_chunks with rfl | rfl
    · exact (h.behind ch h_ch).mono h_accepted
    · rcases List.mem_append.mp h_ch with h_ch | h_ch
      · exact (h.behind ch h_ch).mono h_accepted
      · rw [List.mem_singleton.mp h_ch]
        exact h.here.mono h_accepted
  · exact fun _ h_x => absurd h_x List.not_mem_nil
  · exact fun _ h_x => absurd h_x List.not_mem_nil
  · rw [h_carriers, h_pending, h_added, List.append_nil]
    exact (List.sublist_append_left _ _).trans h.order

/-- A carrier is cut. -/
theorem Passing.cut (h_z : Faithful c.z) {chunks : List ZclChunk} {lots : List Lot}
    (h : Passing d chunks lots) {endChunk : Bool} (h_cut : (zclEncCut c d.enc endChunk).2 = 1)
    (h_roomy : Roomy d.enc (.cut endChunk)) (h_idle : d.flusher.work = (none, []))
    (h_enc : d'.enc = (zclEncCut c d.enc endChunk).1) (h_pending : d'.pending = [])
    (h_work : d'.flusher.work =
      (some ((zclEncCut c d.enc endChunk).1.cut.getLastD [], d.pending), []))
    (h_log : d'.log = d.log) : ∃ chunks' lots', Passing d' chunks' lots' := by
  obtain ⟨lot, carrier, chunks', lots', h_last, h_cutting, h_entries, h_chunks⟩ :=
    h.cutting.cut h_z h_cut h_roomy
  have h_carrier : (zclEncCut c d.enc endChunk).1.cut.getLastD [] = carrier := by
    rw [h_last]
    simp
  rw [h_carrier] at h_work
  have h_carriers : d'.carriers = d.carriers ++ [(carrier, d.pending)] := by
    unfold CloState.carriers handed
    rw [h_log, h_work, h_idle]
    exact (congrArg (· ++ _) (List.append_nil _)).symm
  -- All carriers of the open chunk have been accepted, for none is in hand.
  have h_all : ∀ x ∈ (openChunk d.enc lots).entries c.streamId,
      x.1 ∈ acceptedCarriers d.log := by
    intro x h_x
    rcases h.last x h_x with h_sent | ⟨zcos, h_hand⟩
    · exact h_sent
    · rw [h_idle] at h_hand
      cases h_hand
  have h_map : d'.carriers.map (fun x => (x.1, x.2.map (·.bytes))) =
      entriesOf d'.enc chunks' lots' := by
    rw [h_carriers, h_enc, h_entries, List.map_append, h.entries]
    rfl
  have h_order : (d'.carriers.flatMap (·.2) ++ d'.pending).Sublist (addedIn d'.log) := by
    rw [h_carriers, h_pending, h_log, List.flatMap_append, List.flatMap_singleton, List.append_nil]
    exact h.order
  rw [← h_enc] at h_cutting h_chunks
  rcases h_chunks with ⟨rfl, rfl⟩ | ⟨rfl, h_open⟩
  · refine ⟨_, [], by rwa [h_pending], h_map, fun ch h_ch => ?_, ?_, ?_, h_order⟩
    · rw [h_log]
      rcases List.mem_append.mp h_ch with h_ch | h_ch
      · exact h.behind ch h_ch
      · rw [List.mem_singleton.mp h_ch]
        unfold SentBut
        rw [ZclChunk.entries_snoc, List.dropLast_concat]
        exact h_all
    · exact fun _ h_x => absurd h_x List.not_mem_nil
    · exact fun _ h_x => absurd h_x List.not_mem_nil
  · refine ⟨chunks', lots', by rwa [h_pending], h_map, ?_, ?_, fun x h_x => ?_, h_order⟩
    · rw [h_log]
      exact h.behind
    · unfold SentBut
      rw [h_open, List.dropLast_concat, h_log]
      exact h_all
    · rw [h_open] at h_x
      rcases List.mem_append.mp h_x with h_x | h_x
      · exact Or.inl (h_log ▸ h_all x h_x)
      · rw [List.mem_singleton.mp h_x]
        exact Or.inr ⟨d.pending, by rw [h_work]⟩

/-- The carrier in hand has been sent. -/
theorem carriers_sendOff {carrier : Octets} {zcos : List Pend} {ok : Bool}
    (h_sending : d.flusher.work.1 = some (carrier, zcos))
    (h_sends : sendsIn d'.log = sendsIn d.log ++ [(carrier, zcos, ok)])
    (h_work : d'.flusher.work.1 = none) : d'.carriers = d.carriers := by
  unfold CloState.carriers handed
  rw [h_sends, h_work, h_sending, List.map_append]
  exact List.append_nil _

/-- Numbers are left for one more chunk and one more carrier. -/
def Numbers (d : CloState c) : Prop :=
  d.enc.enc.chunkId + 2 < 2 ^ 64 ∧ d.enc.enc.seq + 1 < 2 ^ 32

theorem Numbers.roomy (h : Numbers d) (a : ZclEncAct) : Roomy d.enc a := by
  obtain ⟨h_chunk, h_seq⟩ := h
  cases a with
  | add bundle => trivial
  | cut endChunk =>
    cases endChunk with
    | false => exact fun _ _ => h_seq
    | true => exact fun _ => by omega
  | abort => exact fun _ => by omega

theorem Stepped.passing (h_z : Faithful c.z) {chunks : List ZclChunk} {lots : List Lot}
    (h : Passing d chunks lots) (h_numbers : Numbers d) (h_step : Stepped cfg d e d') :
    ∃ chunks' lots', Passing d' chunks' lots' := by
  cases h_step with
  | idle h_enc h_pending h_main h_work es h_log h_es =>
    obtain ⟨h_added, -, h_sends⟩ := aloof_nil h_es
    refine ⟨chunks, lots, h.quiet ?_ (by rw [h_enc]) ?_ (by rw [h_work]) ?_⟩
    · rw [h_enc, h_pending]
      exact h.cutting
    · rw [h_log, sendsIn_append, h_sends, List.append_nil]
    · rw [h_pending, h_log, addedIn_append, h_added, List.append_nil]
      exact h.order
  | added p h_hold h_add h_enc h_pending h_main h_work h_log =>
    refine ⟨chunks, lots, h.quiet ?_ ?_ ?_ (by rw [h_work]) ?_⟩
    · rw [h_enc, h_pending, List.map_append]
      exact h.cutting.add h_add
    · rw [h_enc, (zclEncAdd_same d.enc p.bytes).chunkId]
    · rw [h_log, sendsIn_append]
      exact List.append_nil _
    · rw [h_pending, h_log, addedIn_append, ← List.append_assoc]
      exact h.order.append (List.Sublist.refl _)
  | addFailed p h_hold h_add h_enc h_pending h_main h_work h_log =>
    have h_same := zclEncAdd_same d.enc p.bytes
    obtain ⟨chunks', h'⟩ := h.giveUp h_same (h_numbers.roomy .abort) h_enc h_pending
      (carriers_of (by rw [h_log]) (by rw [h_work])) (by rw [h_log]; exact fun _ h_x => h_x)
      (by rw [h_log])
    exact ⟨chunks', [], h'⟩
  | dropped q h_enc h_pending h_main h_work h_log =>
    refine ⟨chunks, lots, h.quiet ?_ (by rw [h_enc]) ?_ (by rw [h_work]) ?_⟩
    · rw [h_enc, h_pending]
      exact h.cutting
    · rw [h_log, sendsIn_append]
      exact List.append_nil _
    · rw [h_pending, h_log, addedIn_append]
      exact (List.append_nil (addedIn d.log)).symm ▸ h.order
  | cut endChunk last h_look h_last h_cut h_enc h_pending h_main h_idle h_work h_log =>
    exact h.cut h_z h_cut (h_numbers.roomy _) h_idle h_enc h_pending h_work h_log
  | cutFailed endChunk last h_look h_last h_cut h_enc h_pending h_main h_idle h_work h_log =>
    obtain ⟨chunks', h'⟩ := h.giveUp (cut_of_failed h_cut) (h_numbers.roomy .abort) h_enc h_pending
      (carriers_of (by rw [h_log]) (by rw [h_work, h_idle]))
      (by rw [h_log]; exact fun _ h_x => h_x) (by rw [h_log])
    exact ⟨chunks', [], h'⟩
  | sent carrier zcos h_enc h_pending h_main h_sending h_work h_log =>
    have h_sends : sendsIn d'.log = sendsIn d.log ++ [(carrier, zcos, true)] := by
      rw [h_log, sendsIn_append]
      rfl
    have h_carriers := carriers_sendOff (by rw [h_sending]) h_sends (by rw [h_work])
    have h_accepted : acceptedCarriers d'.log = acceptedCarriers d.log ++ [carrier] := by
      unfold acceptedCarriers
      rw [h_sends, List.filter_append, List.map_append]
      rfl
    have h_more : ∀ x ∈ acceptedCarriers d.log, x ∈ acceptedCarriers d'.log := by
      rw [h_accepted]
      exact fun _ h_x => List.mem_append_left _ h_x
    refine ⟨chunks, lots, ?_, ?_, fun ch h_ch => (h.behind ch h_ch).mono h_more, ?_,
      fun x h_x => ?_, ?_⟩
    · rw [h_enc, h_pending]
      exact h.cutting
    · rw [h_carriers, h_enc]
      exact h.entries
    · rw [h_enc]
      exact h.here.mono h_more
    · rw [h_enc] at h_x
      rcases h.last x h_x with h_sent | ⟨zcos', h_hand⟩
      · exact Or.inl (h_more _ h_sent)
      · rw [h_sending] at h_hand
        obtain ⟨h_x, -⟩ := Prod.mk.inj (Option.some.inj h_hand)
        rw [h_accepted, ← h_x]
        exact Or.inl (List.mem_append_right _ List.mem_cons_self)
    · rw [h_carriers, h_pending, h_log, addedIn_append]
      exact (List.append_nil (addedIn d.log)).symm ▸ h.order
  | sendFailed carrier zcos h_enc h_pending h_main h_sending h_work h_log =>
    have h_sends : sendsIn d'.log = sendsIn d.log ++ [(carrier, zcos, false)] := by
      rw [h_log, sendsIn_append]
      rfl
    have h_carriers := carriers_sendOff (by rw [h_sending]) h_sends (by rw [h_work])
    have h_accepted : acceptedCarriers d'.log = acceptedCarriers d.log := by
      unfold acceptedCarriers
      rw [h_sends, List.filter_append]
      exact congrArg _ (List.append_nil _)
    have h_added : addedIn d'.log = addedIn d.log := by
      rw [h_log, addedIn_append]
      exact List.append_nil _
    obtain ⟨chunks', h'⟩ := h.giveUp ⟨rfl, rfl, rfl, rfl⟩ (h_numbers.roomy .abort) h_enc h_pending
      h_carriers (by rw [h_accepted]; exact fun _ h_x => h_x) h_added
    exact ⟨chunks', [], h'⟩
  | reported q sent reports h_enc h_pending h_main h_settling h_work h_log =>
    refine ⟨chunks, lots, h.quiet ?_ (by rw [h_enc]) ?_ (by rw [h_work, h_settling]) ?_⟩
    · rw [h_enc, h_pending]
      exact h.cutting
    · rw [h_log, sendsIn_append]
      exact List.append_nil _
    · rw [h_pending, h_log, addedIn_append]
      exact (List.append_nil (addedIn d.log)).symm ▸ h.order

/-! ## What has been accepted -/

/-- The carriers have all been cut. -/
theorem Passing.cut_eq {chunks : List ZclChunk} {lots : List Lot} (h : Passing d chunks lots) :
    d.carriers.map (·.1) = (chunks ++ [openChunk d.enc lots]).flatMap (·.carriers c.streamId) := by
  have h_map := congrArg (List.map (·.1)) h.entries
  rw [List.map_map] at h_map
  unfold entriesOf at h_map
  rw [List.map_flatMap] at h_map
  refine h_map.trans (List.flatMap_congr fun ch _ => ZclChunk.map_entries)

/-- Of the carriers that were cut, those accepted bring the bundles that are reported with
    success. -/
theorem Passing.accepted_eq {chunks : List ZclChunk} {lots : List Lot} (h : Passing d chunks lots) :
    ((entriesOf d.enc chunks lots).filter
      fun x => decide (x.1 ∈ acceptedCarriers d.log)).flatMap (·.2) =
        (accepted (sendsIn d.log)).map (·.bytes) := by
  have h_nodup := h.cutting.sent.nodup_carriers c.streamId_lt
  rw [← h.cut_eq] at h_nodup
  unfold CloState.carriers at h_nodup
  rw [List.map_append, List.map_map] at h_nodup
  obtain ⟨h_sends, -, h_apart⟩ := List.nodup_append.mp h_nodup
  have h_iff : ∀ s ∈ sendsIn d.log, decide (s.1 ∈ acceptedCarriers d.log) = s.2.2 := by
    rintro ⟨carrier, zcos, ok⟩ h_s
    rw [← Bool.coe_iff_coe, decide_eq_true_iff]
    refine ⟨fun h_mem => ?_, fun h_ok => mem_acceptedCarriers.mpr ⟨zcos, ?_⟩⟩
    · obtain ⟨zcos', h_s'⟩ := mem_acceptedCarriers.mp h_mem
      have h_eq := List.inj_on_of_nodup_map h_sends h_s h_s' rfl
      exact (Prod.mk.inj (Prod.mk.inj h_eq).2).2
    · obtain rfl : ok = true := h_ok
      exact h_s
  have h_hand : ∀ x ∈ handed d.flusher.work, x.1 ∉ acceptedCarriers d.log := by
    intro x h_x h_mem
    obtain ⟨zcos, h_s⟩ := mem_acceptedCarriers.mp h_mem
    exact h_apart _ (List.mem_map_of_mem h_s) _ (List.mem_map_of_mem h_x) rfl
  have h_keep : ((entriesOf d.enc chunks lots).filter
      fun x => decide (x.1 ∈ acceptedCarriers d.log)) =
        ((sendsIn d.log).filter (·.2.2)).map fun s => (s.1, s.2.1.map (·.bytes)) := by
    rw [← h.entries]
    unfold CloState.carriers
    rw [List.map_append, List.filter_append, List.map_map, List.filter_map, List.filter_map]
    have h_none : (handed d.flusher.work).filter ((fun x : Octets × List Octets =>
        decide (x.1 ∈ acceptedCarriers d.log)) ∘ fun x => (x.1, x.2.map (·.bytes))) = [] :=
      List.filter_eq_nil_iff.mpr fun x h_x => by simpa using h_hand x h_x
    rw [h_none, List.map_nil, List.append_nil]
    exact congrArg _ (List.filter_congr h_iff)
  unfold accepted
  rw [h_keep, List.flatMap_map, List.map_flatMap]

/-- And of each chunk they are the first ones. -/
theorem Passing.sentBut {chunks : List ZclChunk} {lots : List Lot} (h : Passing d chunks lots) :
    ∀ ch ∈ chunks ++ [openChunk d.enc lots], SentBut d.log (ch.entries c.streamId) := by
  intro ch h_ch
  rcases List.mem_append.mp h_ch with h_ch | h_ch
  · exact h.behind ch h_ch
  · rw [List.mem_singleton.mp h_ch]
    exact h.here

/-- They have been accepted in the order in which they were cut. -/
theorem Passing.accepted_sublist_cut {chunks : List ZclChunk} {lots : List Lot}
    (h : Passing d chunks lots) : (acceptedCarriers d.log).Sublist
      ((chunks ++ [openChunk d.enc lots]).flatMap (·.carriers c.streamId)) := by
  rw [← h.cut_eq]
  unfold CloState.carriers
  rw [List.map_append, List.map_map]
  exact (List.filter_sublist.map _).trans (List.sublist_append_left _ _)

theorem Passing.accepted_sublist {chunks : List ZclChunk} {lots : List Lot}
    (h : Passing d chunks lots) : (accepted (sendsIn d.log)).Sublist (addedIn d.log) := by
  have h_order := h.order
  unfold CloState.carriers at h_order
  rw [List.flatMap_append, List.flatMap_map, List.append_assoc] at h_order
  refine List.Sublist.trans ?_ ((List.sublist_append_left _ _).trans h_order)
  exact List.filter_sublist.flatMap _

/-- A step takes at most one chunk number. -/
theorem Stepped.chunkId_le (h_step : Stepped cfg d e d') :
    d'.enc.enc.chunkId ≤ d.enc.enc.chunkId + 1 := by
  have h_abort : ∀ w : ZclEncRun c, w.enc.chunkId = d.enc.enc.chunkId →
      (zclEncAbort c w).enc.chunkId ≤ d.enc.enc.chunkId + 1 := by
    intro w h_w
    show (if w.enc.seq > 0 then (w.enc.chunkId + 1) % 2 ^ 64 else w.enc.chunkId) ≤ _
    rw [h_w]
    split
    · exact Nat.mod_le _ _
    · exact Nat.le_succ _
  cases h_step with
  | idle h_enc h_pending h_main h_work es h_log h_es => exact h_enc ▸ Nat.le_succ _
  | added p h_hold h_add h_enc h_pending h_main h_work h_log =>
    rw [h_enc, (zclEncAdd_same d.enc p.bytes).chunkId]
    exact Nat.le_succ _
  | addFailed p h_hold h_add h_enc h_pending h_main h_work h_log =>
    rw [h_enc]
    exact h_abort _ (zclEncAdd_same d.enc p.bytes).chunkId
  | dropped q h_enc h_pending h_main h_work h_log => exact h_enc ▸ Nat.le_succ _
  | cut endChunk last h_look h_last h_cut h_enc h_pending h_main h_idle h_work h_log =>
    obtain ⟨w₁, cut, -, -, h_made⟩ := cut_of_made h_cut
    rw [h_enc, h_made.chunkId]
    split
    · exact Nat.mod_le _ _
    · exact Nat.le_succ _
  | cutFailed endChunk last h_look h_last h_cut h_enc h_pending h_main h_idle h_work h_log =>
    rw [h_enc]
    exact h_abort _ (cut_of_failed h_cut).chunkId
  | sent carrier zcos h_enc h_pending h_main h_sending h_work h_log => exact h_enc ▸ Nat.le_succ _
  | sendFailed carrier zcos h_enc h_pending h_main h_sending h_work h_log =>
    rw [h_enc]
    exact h_abort _ rfl
  | reported q sent reports h_enc h_pending h_main h_settling h_work h_log =>
    exact h_enc ▸ Nat.le_succ _

/-- What has been logged stays. -/
theorem Stepped.log_prefix (h_step : Stepped cfg d e d') : d.log <+: d'.log := by
  cases h_step with
  | idle h_enc h_pending h_main h_work es h_log h_es => exact ⟨es, h_log.symm⟩
  | added p h_hold h_add h_enc h_pending h_main h_work h_log => exact ⟨_, h_log.symm⟩
  | addFailed p h_hold h_add h_enc h_pending h_main h_work h_log => exact h_log ▸ List.prefix_refl _
  | dropped q h_enc h_pending h_main h_work h_log => exact ⟨_, h_log.symm⟩
  | cut endChunk last h_look h_last h_cut h_enc h_pending h_main h_idle h_work h_log =>
    exact h_log ▸ List.prefix_refl _
  | cutFailed endChunk last h_look h_last h_cut h_enc h_pending h_main h_idle h_work h_log =>
    exact h_log ▸ List.prefix_refl _
  | sent carrier zcos h_enc h_pending h_main h_sending h_work h_log => exact ⟨_, h_log.symm⟩
  | sendFailed carrier zcos h_enc h_pending h_main h_sending h_work h_log => exact ⟨_, h_log.symm⟩
  | reported q sent reports h_enc h_pending h_main h_settling h_work h_log => exact ⟨_, h_log.symm⟩

end IonContrib.Zclo
