/-
  IonContrib.Zcl.EncChunks

  What an encoder has cut, chunk by chunk.

  A chunk is a row of lots, each the payload of a carrier with the bundles whose
  records end in it (`ZclChunk`).  The carriers that were cut are those of the
  chunks behind the encoder and of the one it is in (`Cutting`), as long as no
  counter wraps round and a call that failed is followed by an abort.
-/
import IonContrib.Zcl.EncText
import Mathlib.Data.List.Nodup

namespace IonContrib.Zcl

open Octets

structure Lot where
  payload : Octets
  bundles : List Octets

structure ZclChunk where
  id : Nat
  lots : List Lot
  ended : Bool

/-! ## Chunks -/

namespace ZclChunk

def bundles (ch : ZclChunk) : List Octets := ch.lots.flatMap (·.bundles)

/-- What the first carriers of a chunk hold. -/
def payloadTo (ch : ZclChunk) (k : Nat) : Octets := (ch.lots.take k).flatMap (·.payload)
def bundlesTo (ch : ZclChunk) (k : Nat) : List Octets := (ch.lots.take k).flatMap (·.bundles)

/-- The END is on the last carrier of a chunk that was ended. -/
def isEnd (ch : ZclChunk) (k : Nat) : Bool := ch.ended && decide (k + 1 = ch.lots.length)

def header (ch : ZclChunk) (streamId k : Nat) (payload : Octets) : ZclHeader where
  flags := if ch.isEnd k then zclFlagEnd else 0
  streamId := streamId
  chunkId := ch.id
  seq := k
  length := payload.length

def carrier (ch : ZclChunk) (streamId k : Nat) (lot : Lot) : Octets :=
  zclHeaderPut (ch.header streamId k lot.payload) lot.payload ++ lot.payload

def carriers (ch : ZclChunk) (streamId : Nat) : List Octets :=
  ch.lots.mapIdx (ch.carrier streamId)

/-- The carriers, each with the bundles whose records end in it. -/
def entries (ch : ZclChunk) (streamId : Nat) : List (Octets × List Octets) :=
  ch.lots.mapIdx fun k lot => (ch.carrier streamId k lot, lot.bundles)

/-- What holds of a chunk that an encoder has cut with the compressor `z`. -/
structure Sound (z : ZstdC) (ch : ZclChunk) : Prop where
  wrote : ∀ k, k < ch.lots.length →
    Wrote z (ch.payloadTo (k + 1)) (zclRecords (ch.bundlesTo (k + 1))) (ch.isEnd k)
  full : ∀ lot ∈ ch.lots, lot.payload ≠ []
  small : ∀ lot ∈ ch.lots, lot.payload.length ≤ zclMaxCarrier
  record : ∀ b ∈ ch.bundles, 0 < b.length ∧ b.length < 2 ^ 32
  id_lt : ch.id < 2 ^ 64
  seq_le : ch.lots.length ≤ 2 ^ 32
  /-- The number behind the last one is in range too, unless the chunk was ended. -/
  seq_lt : ch.ended = false → ch.lots.length < 2 ^ 32

variable {z : ZstdC} {ch : ZclChunk} {streamId k : Nat} {lot : Lot}

/-- Behind a carrier that is not the END there is a number for another one. -/
theorem Sound.next_lt (h : ch.Sound z) (h_k : k < ch.lots.length) (h_end : ch.isEnd k = false) :
    k + 1 < 2 ^ 32 := by
  have h_le := h.seq_le
  unfold isEnd at h_end
  cases h_ended : ch.ended with
  | false =>
    have h_lt := h.seq_lt h_ended
    omega
  | true =>
    rw [h_ended, Bool.true_and, decide_eq_false_iff_not] at h_end
    omega

theorem payloadTo_succ (h : ch.lots[k]? = some lot) :
    ch.payloadTo (k + 1) = ch.payloadTo k ++ lot.payload := by
  unfold payloadTo
  rw [List.take_add_one, h, List.flatMap_append]
  exact congrArg (_ ++ ·) (List.append_nil _)

theorem bundlesTo_succ (h : ch.lots[k]? = some lot) :
    ch.bundlesTo (k + 1) = ch.bundlesTo k ++ lot.bundles := by
  unfold bundlesTo
  rw [List.take_add_one, h, List.flatMap_append]
  exact congrArg (_ ++ ·) (List.append_nil _)

theorem map_entries : (ch.entries streamId).map (·.1) = ch.carriers streamId := by
  refine List.ext_getElem? fun k => ?_
  unfold entries carriers
  rw [List.getElem?_map, List.getElem?_mapIdx, List.getElem?_mapIdx, Option.map_map]
  rfl

/-- One more carrier leaves those before it as they are. -/
theorem entries_snoc (id : Nat) (lots : List Lot) (lot : Lot) (ended : Bool) (streamId : Nat) :
    (⟨id, lots ++ [lot], ended⟩ : ZclChunk).entries streamId =
      (⟨id, lots, false⟩ : ZclChunk).entries streamId ++
        [((⟨id, lots ++ [lot], ended⟩ : ZclChunk).carrier streamId lots.length lot,
          lot.bundles)] := by
  unfold entries
  rw [List.mapIdx_append]
  congr 1
  · refine List.mapIdx_eq_mapIdx_iff.mpr fun k h_k => ?_
    have h_open : decide (k + 1 = (lots ++ [lot]).length) = false := by
      refine decide_eq_false ?_
      rw [List.length_append, List.length_singleton]
      omega
    unfold carrier header isEnd
    rw [h_open, Bool.and_false, Bool.false_and]
  · show [(ZclChunk.carrier _ _ (0 + lots.length) _, _)] = _
    rw [Nat.zero_add]

/-- The receiver reads the header that was meant. -/
theorem zclHeaderGet_carrier (h : ch.Sound z) (h_stream : streamId < 2 ^ 64)
    (h_lot : ch.lots[k]? = some lot) :
    zclHeaderGet (ch.carrier streamId k lot) = some (ch.header streamId k lot.payload) := by
  have h_k := (List.getElem?_eq_some_iff.mp h_lot).1
  have h_seq := h.seq_le
  apply zclHeaderGet_put
  refine ⟨?_, h_stream, h.id_lt, ?_, rfl, h.small lot (List.mem_of_getElem? h_lot)⟩
  · unfold header
    dsimp only
    cases ch.isEnd k <;> decide
  · show k < 2 ^ 32
    omega

theorem mem_carriers {carrier : Octets} :
    carrier ∈ ch.carriers streamId ↔
      ∃ k lot, ch.lots[k]? = some lot ∧ carrier = ch.carrier streamId k lot := by
  unfold carriers
  rw [List.mem_mapIdx]
  constructor
  · rintro ⟨k, h_k, h_eq⟩
    exact ⟨k, ch.lots[k], List.getElem?_eq_getElem h_k, h_eq.symm⟩
  · rintro ⟨k, lot, h_lot, h_eq⟩
    obtain ⟨h_k, h_at⟩ := List.getElem?_eq_some_iff.mp h_lot
    exact ⟨k, h_k, by rw [h_at, h_eq]⟩

end ZclChunk

/-- Chunks as they are cut one after the other. -/
structure Sent (z : ZstdC) (chunks : List ZclChunk) : Prop where
  sound : ∀ ch ∈ chunks, ch.Sound z
  increasing : chunks.Pairwise (·.id < ·.id)

/-- No carrier is cut twice. -/
theorem Sent.nodup_carriers {z : ZstdC} {chunks : List ZclChunk} (h : Sent z chunks)
    {streamId : Nat} (h_stream : streamId < 2 ^ 64) :
    (chunks.flatMap (·.carriers streamId)).Nodup := by
  have h_same : ∀ ch ∈ chunks, ∀ ch' ∈ chunks, ∀ k k' lot lot', ch.lots[k]? = some lot →
      ch'.lots[k']? = some lot' → ch.carrier streamId k lot = ch'.carrier streamId k' lot' →
        ch.id = ch'.id ∧ k = k' := by
    intro ch h_ch ch' h_ch' k k' lot lot' h_lot h_lot' h_eq
    have h_get := ZclChunk.zclHeaderGet_carrier (h.sound ch h_ch) h_stream h_lot
    rw [h_eq, ZclChunk.zclHeaderGet_carrier (h.sound ch' h_ch') h_stream h_lot'] at h_get
    have h_hdr := Option.some.inj h_get
    exact ⟨(congrArg ZclHeader.chunkId h_hdr).symm, (congrArg ZclHeader.seq h_hdr).symm⟩
  refine List.nodup_flatMap.mpr ⟨fun ch h_ch => ?_, ?_⟩
  · refine List.pairwise_iff_getElem.mpr fun k k' h_k h_k' h_lt h_eq => ?_
    unfold ZclChunk.carriers at h_k h_k' h_eq
    rw [List.length_mapIdx] at h_k h_k'
    rw [List.getElem_mapIdx, List.getElem_mapIdx] at h_eq
    have h_place := h_same ch h_ch ch h_ch k k' _ _ (List.getElem?_eq_getElem h_k)
      (List.getElem?_eq_getElem h_k') h_eq
    omega
  · refine h.increasing.imp_of_mem fun {ch ch'} h_ch h_ch' h_lt octets h_octets h_octets' => ?_
    obtain ⟨k, lot, h_lot, h_eq⟩ := ZclChunk.mem_carriers.mp h_octets
    obtain ⟨k', lot', h_lot', h_eq'⟩ := ZclChunk.mem_carriers.mp h_octets'
    have h_place := h_same ch h_ch ch' h_ch' k k' lot lot' h_lot h_lot' (h_eq.symm.trans h_eq')
    omega

/-- The octets that are forced out tell how much has been compressed. -/
structure Faithful (z : ZstdC) : Prop where
  nothing : ∀ {text : Octets} {ended : Bool}, Wrote z [] text ended → text = [] ∧ ended = false
  once : ∀ {out text text' : Octets} {ended ended' : Bool}, Wrote z out text ended →
    Wrote z out text' ended' → text = text' ∧ ended = ended'

theorem zclRecords_eq_nil {bundles : List Octets} (h : zclRecords bundles = []) :
    bundles = [] := by
  cases bundles with
  | nil => rfl
  | cons b bundles =>
    have h_len := congrArg List.length h
    unfold zclRecords at h_len
    rw [List.map_cons, List.flatten_cons, List.length_append, zclRecord, List.length_append,
      length_beBytes, List.length_nil] at h_len
    omega

/-- With the bundles of `tail` something has been put out, and so it has with an END. -/
theorem Faithful.full {z : ZstdC} (h_z : Faithful z) {front : List Octets} {payload : Octets}
    {held tail : List Octets} {ended : Bool} (h_held : Holds z front held)
    (h : Wrote z (front ++ [payload]).flatten (zclRecords (held ++ tail)) ended)
    (h_some : ended = false → tail ≠ []) : payload ≠ [] := by
  rintro rfl
  have h_same : zclRecords (held ++ tail) = zclRecords held ∧ ended = false := by
    rw [List.flatten_append, List.flatten_singleton, List.append_nil] at h
    rcases h_held with ⟨rfl, rfl⟩ | h_before
    · exact h_z.nothing h
    · exact h_z.once h h_before
  rw [zclRecords_append, List.append_right_eq_self] at h_same
  exact h_some h_same.2 (zclRecords_eq_nil h_same.1)

/-! ## The encoder -/

variable {c : ZclEncCfg}

/-- The chunk that the encoder is in. -/
def openChunk (w : ZclEncRun c) (lots : List Lot) : ZclChunk := ⟨w.enc.chunkId, lots, false⟩

/-- The carriers of these chunks and of the open one. -/
def entriesOf (w : ZclEncRun c) (chunks : List ZclChunk) (lots : List Lot) :
    List (Octets × List Octets) :=
  (chunks ++ [openChunk w lots]).flatMap (·.entries c.streamId)

/-- The chunk has no carriers yet. -/
theorem entriesOf_nil (w : ZclEncRun c) (chunks : List ZclChunk) :
    entriesOf w chunks [] = chunks.flatMap (·.entries c.streamId) := by
  unfold entriesOf
  rw [List.flatMap_append, List.flatMap_singleton]
  exact List.append_nil _

theorem entriesOf_same {w w' : ZclEncRun c} (h : w'.enc.chunkId = w.enc.chunkId)
    (chunks : List ZclChunk) (lots : List Lot) : entriesOf w' chunks lots = entriesOf w chunks lots := by
  unfold entriesOf openChunk
  rw [h]

/-- An encoder that has cut `chunks` and is in the next one, of which `lots` are cut; the bundles
    of `tail` are in it and in no carrier. -/
structure Cutting (w : ZclEncRun c) (chunks : List ZclChunk) (lots : List Lot)
    (tail : List Octets) : Prop where
  range : InRange w
  cuts : w.cut = (entriesOf w chunks lots).map (·.1)
  sent : Sent c.z (chunks ++ [openChunk w lots])
  seq : w.enc.seq = lots.length
  frame : InFrame w (lots.map (·.payload)) (lots.flatMap (·.bundles)) tail
  record : ∀ b ∈ tail, 0 < b.length ∧ b.length < 2 ^ 32
  pending : tail = [] → w.enc.pendingIn = 0

/-- A chunk of which nothing is cut. -/
theorem ZclChunk.Sound.empty {z : ZstdC} {id : Nat} (h : id < 2 ^ 64) (ended : Bool) :
    (⟨id, [], ended⟩ : ZclChunk).Sound z where
  wrote := fun k h_k => absurd h_k (Nat.not_lt_zero k)
  full := fun _ h_lot => absurd h_lot List.not_mem_nil
  small := fun _ h_lot => absurd h_lot List.not_mem_nil
  record := fun _ h_b => absurd h_b List.not_mem_nil
  id_lt := h
  seq_le := Nat.zero_le _
  seq_lt := fun _ => by
    show 0 < 2 ^ 32
    decide

/-- One more carrier of a chunk that was not ended. -/
theorem ZclChunk.Sound.snoc {z : ZstdC} {id : Nat} {lots : List Lot} {lot : Lot} {ended : Bool}
    (h : (⟨id, lots, false⟩ : ZclChunk).Sound z)
    (h_wrote : Wrote z ((lots ++ [lot]).flatMap (·.payload))
      (zclRecords ((lots ++ [lot]).flatMap (·.bundles))) ended)
    (h_full : lot.payload ≠ []) (h_small : lot.payload.length ≤ zclMaxCarrier)
    (h_record : ∀ b ∈ lot.bundles, 0 < b.length ∧ b.length < 2 ^ 32)
    (h_seq : lots.length < 2 ^ 32) (h_next : ended = false → lots.length + 1 < 2 ^ 32) :
    (⟨id, lots ++ [lot], ended⟩ : ZclChunk).Sound z where
  wrote := by
    intro k h_k
    have h_len : (lots ++ [lot]).length = lots.length + 1 := by
      rw [List.length_append, List.length_singleton]
    dsimp only at h_k
    unfold payloadTo bundlesTo isEnd
    dsimp only
    rw [h_len] at h_k ⊢
    rcases Nat.lt_or_eq_of_le (Nat.le_of_lt_succ h_k) with h_lt | rfl
    · have h_open : decide (k + 1 = lots.length + 1) = false := decide_eq_false (by omega)
      rw [List.take_append_of_le_length h_lt, h_open, Bool.and_false]
      exact h.wrote k h_lt
    · rw [List.take_of_length_le (Nat.le_of_eq h_len), decide_eq_true rfl, Bool.and_true]
      exact h_wrote
  full := by
    intro one h_one
    rcases List.mem_append.mp h_one with h_one | h_one
    · exact h.full one h_one
    · rw [List.mem_singleton.mp h_one]
      exact h_full
  small := by
    intro one h_one
    rcases List.mem_append.mp h_one with h_one | h_one
    · exact h.small one h_one
    · rw [List.mem_singleton.mp h_one]
      exact h_small
  record := by
    intro b h_b
    unfold bundles at h_b
    rw [List.flatMap_append, List.flatMap_singleton] at h_b
    rcases List.mem_append.mp h_b with h_b | h_b
    · exact h.record b h_b
    · exact h_record b h_b
  id_lt := h.id_lt
  seq_le := by
    rw [List.length_append, List.length_singleton]
    exact h_seq
  seq_lt := by
    rw [List.length_append, List.length_singleton]
    exact h_next

theorem Sent.snoc {z : ZstdC} {chunks : List ZclChunk} {ch : ZclChunk} (h : Sent z chunks)
    (h_ch : ch.Sound z) (h_lt : ∀ before ∈ chunks, before.id < ch.id) : Sent z (chunks ++ [ch]) where
  sound := by
    intro one h_one
    rcases List.mem_append.mp h_one with h_one | h_one
    · exact h.sound one h_one
    · rw [List.mem_singleton.mp h_one]
      exact h_ch
  increasing := by
    refine List.pairwise_append.mpr ⟨h.increasing, List.pairwise_singleton _ _, ?_⟩
    intro before h_before one h_one
    rw [List.mem_singleton.mp h_one]
    exact h_lt before h_before

namespace Cutting

variable {w w' : ZclEncRun c} {chunks : List ZclChunk} {lots : List Lot} {tail : List Octets}

theorem openSound (h : Cutting w chunks lots tail) : (openChunk w lots).Sound c.z :=
  h.sent.sound _ (List.mem_append_right _ List.mem_cons_self)

theorem behind (h : Cutting w chunks lots tail) : Sent c.z chunks where
  sound := fun ch h_ch => h.sent.sound ch (List.mem_append_left _ h_ch)
  increasing := (List.pairwise_append.mp h.sent.increasing).1

theorem below (h : Cutting w chunks lots tail) {ch : ZclChunk} (h_ch : ch ∈ chunks) :
    ch.id < w.enc.chunkId :=
  (List.pairwise_append.mp h.sent.increasing).2.2 ch h_ch _ List.mem_cons_self

theorem init : Cutting (zclEncInit c) [] [] [] where
  range := inRange_init
  cuts := rfl
  sent := ⟨fun ch h_ch => by
    rw [List.mem_singleton.mp h_ch]
    exact .empty (by show 0 < 2 ^ 64; decide) false, List.pairwise_singleton _ _⟩
  seq := rfl
  frame := InFrame.init
  record := fun b h_b => absurd h_b List.not_mem_nil
  pending := fun _ => rfl

/-- A bundle has been added. -/
theorem add (h : Cutting w chunks lots tail) {bundle : Octets}
    (h_ok : (zclEncAdd c w bundle).2 = 0) :
    Cutting (zclEncAdd c w bundle).1 chunks lots (tail ++ [bundle]) := by
  have h_same := zclEncAdd_same w bundle
  have h_open : openChunk (zclEncAdd c w bundle).1 lots = openChunk w lots := by
    unfold openChunk
    rw [h_same.chunkId]
  refine ⟨h.range.same h_same, ?_, ?_, ?_, h.frame.add h_ok, ?_, ?_⟩
  · rw [h_same.cut, entriesOf_same h_same.chunkId]
    exact h.cuts
  · rw [h_open]
    exact h.sent
  · rw [h_same.seq]
    exact h.seq
  · intro b h_b
    rcases List.mem_append.mp h_b with h_b | h_b
    · exact h.record b h_b
    · rw [List.mem_singleton.mp h_b]
      rcases zclEncAdd_spec w bundle with ⟨h_failed, -⟩ | ⟨w₁, w₂, -, -, h_len, -⟩
      · rw [h_failed] at h_ok
        cases h_ok
      · omega
  · intro h_nil
    cases List.append_eq_nil_iff.mp h_nil |>.2

/-- The chunk is dropped after a call that took no number. -/
theorem abort (h : Cutting w chunks lots tail) (h_same : SameCut w w')
    (h_roomy : Roomy w .abort) : ∃ chunks', Cutting (zclEncAbort c w') chunks' [] [] ∧
      entriesOf (zclEncAbort c w') chunks' [] = entriesOf w chunks lots ∧
      (chunks' = chunks ∨ chunks' = chunks ++ [openChunk w lots]) := by
  have h_range := (h.range.same h_same).abort
  have h_empty : (openChunk (zclEncAbort c w') []).Sound c.z := .empty h_range.chunkId_lt false
  have h_cut : (zclEncAbort c w').cut = w.cut := h_same.cut
  have h_chunk : (zclEncAbort c w').enc.chunkId =
      if w.enc.seq > 0 then (w.enc.chunkId + 1) % 2 ^ 64 else w.enc.chunkId := by
    show (if w'.enc.seq > 0 then (w'.enc.chunkId + 1) % 2 ^ 64 else w'.enc.chunkId) = _
    rw [h_same.seq, h_same.chunkId]
  have h_none : ∀ b ∈ ([] : List Octets), 0 < b.length ∧ b.length < 2 ^ 32 :=
    fun b h_b => absurd h_b List.not_mem_nil
  rcases List.eq_nil_or_concat lots with rfl | ⟨lots', lot, rfl⟩
  · rw [h.seq, List.length_nil, if_neg (Nat.lt_irrefl 0)] at h_chunk
    have h_entries : entriesOf (zclEncAbort c w') chunks [] = entriesOf w chunks [] :=
      entriesOf_same h_chunk chunks []
    refine ⟨chunks, ⟨h_range, ?_, h.behind.snoc h_empty fun ch h_ch => ?_, rfl, .abort w', h_none,
      fun _ => rfl⟩, h_entries, Or.inl rfl⟩
    · rw [h_cut, h.cuts, h_entries]
    · show ch.id < (zclEncAbort c w').enc.chunkId
      rw [h_chunk]
      exact h.below h_ch
  · have h_pos : w.enc.seq > 0 := by
      rw [h.seq, List.concat_eq_append, List.length_append]
      exact Nat.succ_pos _
    rw [if_pos h_pos, Nat.mod_eq_of_lt (h_roomy h_pos)] at h_chunk
    have h_entries := entriesOf_nil (zclEncAbort c w')
      (chunks ++ [openChunk w (lots'.concat lot)])
    refine ⟨_, ⟨h_range, ?_, h.sent.snoc h_empty fun ch h_ch => ?_, rfl, .abort w', h_none,
      fun _ => rfl⟩, h_entries, Or.inr rfl⟩
    · rw [h_cut, h.cuts, h_entries]
      rfl
    · show ch.id < (zclEncAbort c w').enc.chunkId
      rw [h_chunk]
      rcases List.mem_append.mp h_ch with h_ch | h_ch
      · exact Nat.lt_succ_of_lt (h.below h_ch)
      · rw [List.mem_singleton.mp h_ch]
        exact Nat.lt_succ_self _

/-- A carrier has been cut, with the bundles that were in no other. -/
theorem cut (h_z : Faithful c.z) (h : Cutting w chunks lots tail) {endChunk : Bool}
    (h_cut : (zclEncCut c w endChunk).2 = 1) (h_roomy : Roomy w (.cut endChunk)) :
    ∃ (lot : Lot) (carrier : Octets) (chunks' : List ZclChunk) (lots' : List Lot),
      (zclEncCut c w endChunk).1.cut = w.cut ++ [carrier] ∧
      Cutting (zclEncCut c w endChunk).1 chunks' lots' [] ∧
      entriesOf (zclEncCut c w endChunk).1 chunks' lots' =
        entriesOf w chunks lots ++ [(carrier, tail)] ∧
      (chunks' = chunks ++ [⟨w.enc.chunkId, lots ++ [lot], true⟩] ∧ lots' = [] ∨
        chunks' = chunks ∧ (openChunk (zclEncCut c w endChunk).1 lots').entries c.streamId =
          (openChunk w lots).entries c.streamId ++ [(carrier, tail)]) := by
  obtain ⟨w₁, cut, h_out, h_made, h_step⟩ := cut_of_made h_cut
  obtain ⟨h_wrote, h_next⟩ := h.frame.cut h_out cut
  rw [← h_made] at h_next
  generalize w₁.enc.out.getD [] = payload at h_step h_wrote h_next
  have h_seq := h.range.seq_lt
  rw [h.seq] at h_seq
  have h_full : payload ≠ [] := by
    refine h_z.full h.frame.held h_wrote fun h_end h_nil => ?_
    exact h_step.going.2 h_end (h.pending h_nil)
  have h_payloads : (lots.map (·.payload) ++ [payload]).flatten =
      (lots ++ [Lot.mk payload tail]).flatMap (·.payload) := by
    rw [List.flatMap_append, List.flatMap_singleton, List.flatten_append, List.flatten_singleton]
    rfl
  have h_bundles : lots.flatMap (·.bundles) ++ tail =
      (lots ++ [Lot.mk payload tail]).flatMap (·.bundles) := by
    rw [List.flatMap_append, List.flatMap_singleton]
  rw [h_payloads, h_bundles] at h_wrote
  have h_next_seq : endChunk = false → lots.length + 1 < 2 ^ 32 := by
    rintro rfl
    exact h.seq ▸ h_roomy h_step.going.1 (h_step.going.2 rfl)
  have h_sound : (⟨w.enc.chunkId, lots ++ [Lot.mk payload tail], endChunk⟩ : ZclChunk).Sound c.z :=
    h.openSound.snoc h_wrote h_full h_step.small h.record h_seq h_next_seq
  -- The carriers of the chunk are the ones before and this one.
  have h_last := h_step.cut
  generalize h_carrier : zclHeaderPut (nextHeader w.enc endChunk payload) payload ++ payload =
    carrier at h_last
  have h_this : (⟨w.enc.chunkId, lots ++ [Lot.mk payload tail], endChunk⟩ : ZclChunk).carrier
      c.streamId lots.length (Lot.mk payload tail) = carrier := by
    unfold ZclChunk.carrier ZclChunk.header ZclChunk.isEnd
    unfold nextHeader at h_carrier
    rw [h.range.streamId, h.seq] at h_carrier
    rw [List.length_append, List.length_singleton, decide_eq_true rfl, Bool.and_true]
    exact h_carrier
  have h_entries : (chunks ++ [ZclChunk.mk w.enc.chunkId (lots ++ [Lot.mk payload tail])
      endChunk]).flatMap (·.entries c.streamId) = entriesOf w chunks lots ++ [(carrier, tail)] := by
    unfold entriesOf
    rw [List.flatMap_append, List.flatMap_append, List.flatMap_singleton, List.flatMap_singleton,
      ZclChunk.entries_snoc, h_this, List.append_assoc]
    rfl
  have h_all : (zclEncCut c w endChunk).1.cut =
      (entriesOf w chunks lots ++ [(carrier, tail)]).map (·.1) := by
    rw [h_last, h.cuts, List.map_append]
    rfl
  have h_range := h.range.cut h_step
  have h_none : ∀ b ∈ ([] : List Octets), 0 < b.length ∧ b.length < 2 ^ 32 :=
    fun b h_b => absurd h_b List.not_mem_nil
  have h_sent := h.behind.snoc h_sound fun ch h_ch => h.below h_ch
  have h_pending : (zclEncCut c w endChunk).1.enc.pendingIn = 0 := by
    rw [h_made]
    unfold afterCut
    cases endChunk <;> rfl
  cases endChunk with
  | true =>
    have h_chunk : (zclEncCut c w true).1.enc.chunkId = w.enc.chunkId + 1 := by
      rw [h_step.chunkId, if_pos rfl, Nat.mod_eq_of_lt (h_roomy h_step.going.1)]
    have h_entries' := (entriesOf_nil (zclEncCut c w true).1
      (chunks ++ [⟨w.enc.chunkId, lots ++ [Lot.mk payload tail], true⟩])).trans h_entries
    refine ⟨⟨payload, tail⟩, carrier, _, [], h_last, ⟨h_range, ?_,
      h_sent.snoc (.empty h_range.chunkId_lt false) fun ch h_ch => ?_, ?_, h_next, h_none,
      fun _ => h_pending⟩, h_entries', Or.inl ⟨rfl, rfl⟩⟩
    · rw [h_entries', h_all]
    · show ch.id < (zclEncCut c w true).1.enc.chunkId
      rw [h_chunk]
      rcases List.mem_append.mp h_ch with h_ch | h_ch
      · exact Nat.lt_succ_of_lt (h.below h_ch)
      · rw [List.mem_singleton.mp h_ch]
        exact Nat.lt_succ_self _
    · rw [h_step.seq]
      rfl
  | false =>
    have h_open : openChunk (zclEncCut c w false).1 (lots ++ [Lot.mk payload tail]) =
        ⟨w.enc.chunkId, lots ++ [Lot.mk payload tail], false⟩ := by
      unfold openChunk
      rw [h_step.chunkId]
      rfl
    have h_entries' : entriesOf (zclEncCut c w false).1 chunks (lots ++ [Lot.mk payload tail]) =
        entriesOf w chunks lots ++ [(carrier, tail)] := by
      unfold entriesOf at h_entries ⊢
      rw [h_open]
      exact h_entries
    refine ⟨⟨payload, tail⟩, carrier, chunks, _, h_last, ⟨h_range, ?_, ?_, ?_, ?_, h_none,
      fun _ => h_pending⟩, h_entries', Or.inr ⟨rfl, ?_⟩⟩
    · rw [h_entries', h_all]
    · rw [h_open]
      exact h_sent
    · rw [h_step.seq, if_neg Bool.false_ne_true, h.seq, Nat.mod_eq_of_lt (h_next_seq rfl),
        List.length_append, List.length_singleton]
    · rw [List.map_append, List.map_singleton, ← h_bundles]
      exact h_next
    · rw [h_open, ZclChunk.entries_snoc, h_this]
      rfl

end Cutting

end IonContrib.Zcl
