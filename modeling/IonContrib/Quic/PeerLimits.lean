/-
  IonContrib.Quic.PeerLimits

  What the sender of `quicsession.c` makes of the limits its peer announced.

  A bundle goes out as segments, on a stream (`frameBundle`) or as datagrams
  (`quicClientSendDatagram`).  `Carries` reads the segments off the octets, and
  there is only one way to (`segWire_injective`), so what holds of the segments
  the code makes holds of the wire.

  `frameBundle` cuts to the peer's Segment MRU, the datagrams are cut to a size
  of their own; nobody looks at the Transfer MRU; and the number of a segment is
  a `uint16_t`, while a Segment MRU of a few octets takes more segments than that.
  `peer_limits_honoured` says exactly when all goes well nevertheless.
-/
import IonContrib.Quic.Signal

namespace IonContrib.Quic

open Octets

/-- What `quicEngineSendTo` puts on the wire for a bundle: the frame, or the datagrams. -/
def transferOctets (unreliable : Bool) (c : SigConn) (txid : Nat) (bundle : Octets)
    (mem : Nat → Bool) : List Octets :=
  if unreliable then quicClientSendDatagram txid bundle mem
  else (frameBundle c.peerSegmentMru txid bundle (mem 0)).toList

/-- A segment as it is put on the wire. -/
structure Segment.Whole (s : Segment) : Prop where
  fits : s.1.Fits
  length : s.1.segmentLength = s.2.length

/-- These octets are those of the segments, one after the other. -/
structure Carries (wire : List Octets) (segs : List Segment) : Prop where
  octets : wire.flatten = segs.flatMap segWire
  whole : ∀ s ∈ segs, s.Whole

/-- The segments are within the limits of the peer, and numbered as they should be. -/
structure Honours (peer : QuicSessInit) (segs : List Segment) : Prop where
  payload : ∀ s ∈ segs, s.2.length ≤ peer.segmentMru
  transfer : ∀ s ∈ segs, s.1.bundleLength ≤ peer.transferMru
  numbers : (segs.map fun s => s.1.segmentId).Perm (List.range segs.length)
  total : ∀ s ∈ segs, s.1.totalSegments = segs.length

/-! ## The segments are read off the wire in one way -/

theorem segWire_append_inj {s t : Segment} (h_s : s.Whole) (h_t : t.Whole) {p q : Octets}
    (h : segWire s ++ p = segWire t ++ q) : s = t ∧ p = q := by
  have h_dec_s := quicMsgDecodeXferSegmentHdr_hdr h_s.fits (s.2 ++ p)
  have h_dec_t := quicMsgDecodeXferSegmentHdr_hdr h_t.fits (t.2 ++ q)
  unfold segWire at h
  rw [List.append_assoc, List.append_assoc] at h
  rw [h, h_dec_t] at h_dec_s
  have h_hdr : t.1 = s.1 := (Decoded.ok.inj h_dec_s).1
  rw [h_hdr] at h
  have h_data := List.append_cancel_left h
  have h_len : s.2.length = t.2.length := by
    rw [← h_s.length, ← h_t.length, h_hdr]
  obtain ⟨h_eq, h_rest⟩ := List.append_inj h_data h_len
  exact ⟨Prod.ext h_hdr.symm h_eq, h_rest⟩

theorem segWire_ne_nil (s : Segment) (p : Octets) : segWire s ++ p ≠ [] := by
  obtain ⟨bs, h_hdr⟩ := head_hdr s.1
  rw [segWire, h_hdr]
  exact List.cons_ne_nil _ _

theorem segWire_injective {segs segs' : List Segment} (h : ∀ s ∈ segs, s.Whole)
    (h' : ∀ s ∈ segs', s.Whole) (h_eq : segs.flatMap segWire = segs'.flatMap segWire) :
    segs = segs' := by
  induction segs generalizing segs' with
  | nil =>
    cases segs' with
    | nil => rfl
    | cons t segs' =>
      rw [List.flatMap_nil, List.flatMap_cons] at h_eq
      exact absurd h_eq.symm (segWire_ne_nil t _)
  | cons s segs ih =>
    cases segs' with
    | nil =>
      rw [List.flatMap_nil, List.flatMap_cons] at h_eq
      exact absurd h_eq (segWire_ne_nil s _)
    | cons t segs' =>
      obtain ⟨h_s, h⟩ := List.forall_mem_cons.mp h
      obtain ⟨h_t, h'⟩ := List.forall_mem_cons.mp h'
      rw [List.flatMap_cons, List.flatMap_cons] at h_eq
      obtain ⟨h_first, h_rest⟩ := segWire_append_inj h_s h_t h_eq
      rw [h_first, ih h h' h_rest]

/-- What holds of the segments that are there holds of the wire. -/
theorem carries_iff {wire : List Octets} {segs : List Segment} (h : Carries wire segs)
    (P : List Segment → Prop) : (∃ segs', Carries wire segs' ∧ P segs') ↔ P segs := by
  constructor
  · rintro ⟨segs', h', h_P⟩
    rw [segWire_injective h.whole h'.whole (h.octets.symm.trans h'.octets)]
    exact h_P
  · intro h_P
    exact ⟨segs, h, h_P⟩

/-! ## On a stream -/

section

variable {segMru txid len nSeg : Nat}

theorem length_frameSegs (rounds segId : Nat) (src : Octets) :
    (frameSegs segMru txid len nSeg rounds segId src).length = rounds := by
  induction rounds generalizing segId src with
  | zero => rfl
  | succ rounds ih => rw [frameSegs, List.length_cons, ih]

theorem numbers_frameSegs (rounds segId : Nat) (src : Octets) :
    (frameSegs segMru txid len nSeg rounds segId src).map (fun s => s.1.segmentId) =
      (List.range' segId rounds).map (· % 2 ^ 16) := by
  induction rounds generalizing segId src with
  | zero => rfl
  | succ rounds ih =>
    rw [frameSegs, List.map_cons, ih, List.range'_succ, List.map_cons]
    rfl

/-- Each segment of a frame: its size, and what it says about the whole. -/
theorem mem_frameSegs {rounds segId : Nat} {src : Octets} (h_txid : txid < 2 ^ 64)
    (h_len : len < 2 ^ 64) (h_src : src.length ≤ len) {s : Segment}
    (h : s ∈ frameSegs segMru txid len nSeg rounds segId src) :
    s.Whole ∧ s.2.length ≤ segMru ∧ s.1.bundleLength = len ∧ s.1.totalSegments = nSeg % 2 ^ 16 := by
  induction rounds generalizing segId src with
  | zero => cases h
  | succ rounds ih =>
    rcases List.mem_cons.mp h with rfl | h
    · have h_this := segLen_le segMru src
      have h_mru : segLen segMru src ≤ segMru := by
        unfold segLen
        split <;> omega
      have h_fits := frameSegment_fits nSeg segId h_txid h_len (Nat.le_trans h_this h_src)
      refine ⟨⟨h_fits, (length_take_segLen segMru src).symm⟩, ?_, rfl, rfl⟩
      rw [length_take_segLen]
      exact h_mru
    · refine ih ?_ h
      rw [List.length_drop]
      omega

/-- The sixteen bits are enough unless the peer takes very small segments. -/
theorem frameSegments_lt_iff (h_mru : 0 < segMru) (h_lt : segMru < 2 ^ 64)
    (h_len : len ≤ quicclaBufsz) : frameSegments segMru len < 2 ^ 16 ↔ len ≤ 65535 * segMru := by
  have h_buf : quicclaBufsz = 262144 := rfl
  constructor
  · intro h_few
    have h_cover := le_frameSegments h_mru h_lt h_len
    have h_le : frameSegments segMru len * segMru ≤ 65535 * segMru :=
      Nat.mul_le_mul_right segMru (by omega)
    omega
  · intro h_small
    have h_div : (len + segMru - 1) % 2 ^ 64 / segMru < 65536 := by
      rw [Nat.div_lt_iff_lt_mul h_mru]
      -- Where the sum wraps round, what is left of it is below one segment.
      have h_mod := Nat.mod_le (len + segMru - 1) (2 ^ 64)
      omega
    unfold frameSegments
    generalize (len + segMru - 1) % 2 ^ 64 / segMru = n at h_div
    show (if n < 1 then 1 else n) < 2 ^ 16
    split <;> omega

end

/-- The segments of a frame. -/
def streamSegs (segMru txid : Nat) (bundle : Octets) : List Segment :=
  frameSegs segMru txid bundle.length (frameSegments segMru bundle.length)
    (frameSegments segMru bundle.length) 0 bundle

theorem frameBundle_carries {segMru txid : Nat} {bundle : Octets} (h_mru : 0 < segMru)
    (h_txid : txid < 2 ^ 64) (h_len : bundle.length < 2 ^ 64) :
    Carries (frameBundle segMru txid bundle true).toList (streamSegs segMru txid bundle) := by
  have h_peer : frameSegMru segMru = segMru := if_pos (Nat.ne_of_gt h_mru)
  have h_frame : frameBundle segMru txid bundle true =
      some ((streamSegs segMru txid bundle).flatMap segWire) := by
    unfold frameBundle
    rw [h_peer]
    exact frameFrom_eq (by simp)
  refine ⟨?_, fun s h_s => (mem_frameSegs h_txid h_len (Nat.le_refl _) h_s).1⟩
  rw [h_frame]
  exact List.append_nil _

/-- Segments numbered one after the other, as far as sixteen bits go. -/
theorem honours_iff {peer : QuicSessInit} {segs : List Segment} {n len : Nat}
    (h_some : segs ≠ [])
    (h_numbers : segs.map (fun s => s.1.segmentId) = (List.range segs.length).map (· % 2 ^ 16))
    (h_total : ∀ s ∈ segs, s.1.totalSegments = n % 2 ^ 16)
    (h_bundle : ∀ s ∈ segs, s.1.bundleLength = len) (h_n : segs.length = n ∨ n < 2 ^ 16) :
    Honours peer segs ↔ (∀ s ∈ segs, s.2.length ≤ peer.segmentMru) ∧ len ≤ peer.transferMru ∧
      segs.length = n ∧ n < 2 ^ 16 := by
  obtain ⟨s, h_s⟩ := List.exists_mem_of_ne_nil segs h_some
  constructor
  · intro h
    have h_here := (h_total s h_s).symm.trans (h.total s h_s)
    refine ⟨h.payload, ?_, ?_⟩
    · rw [← h_bundle s h_s]
      exact h.transfer s h_s
    · omega
  · rintro ⟨h_payload, h_transfer, h_length, h_few⟩
    refine ⟨h_payload, fun s h_s => ?_, ?_, fun s h_s => ?_⟩
    · rw [h_bundle s h_s]
      exact h_transfer
    · have h_same : (List.range segs.length).map (· % 2 ^ 16) = List.range segs.length := by
        rw [List.map_congr_left (g := id) fun i h_i => ?_, List.map_id]
        exact Nat.mod_eq_of_lt (by have := List.mem_range.mp h_i; omega)
      rw [h_numbers, h_same]
    · rw [h_total s h_s, h_length]
      exact Nat.mod_eq_of_lt h_few

/-- The segments of a frame are within the limits exactly if the bundle is, and if there are not
    too many for sixteen bits. -/
theorem honours_stream_iff {peer : QuicSessInit} {txid : Nat} {bundle : Octets}
    (h_mru : 0 < peer.segmentMru) (h_lt : peer.segmentMru < 2 ^ 64) (h_txid : txid < 2 ^ 64)
    (h_len : bundle.length ≤ quicclaBufsz) :
    Honours peer (streamSegs peer.segmentMru txid bundle) ↔
      bundle.length ≤ peer.transferMru ∧ bundle.length ≤ 65535 * peer.segmentMru := by
  have h_buf : quicclaBufsz = 262144 := rfl
  have h_mem : ∀ s ∈ streamSegs peer.segmentMru txid bundle, _ := fun s h_s =>
    mem_frameSegs h_txid (by omega) (Nat.le_refl _) h_s
  have h_length : (streamSegs peer.segmentMru txid bundle).length =
      frameSegments peer.segmentMru bundle.length := length_frameSegs _ _ _
  have h_some : streamSegs peer.segmentMru txid bundle ≠ [] := by
    apply List.ne_nil_of_length_pos
    rw [h_length]
    exact frameSegments_pos _ _
  have h_numbers : (streamSegs peer.segmentMru txid bundle).map (fun s => s.1.segmentId) =
      (List.range (streamSegs peer.segmentMru txid bundle).length).map (· % 2 ^ 16) := by
    rw [h_length, List.range_eq_range']
    exact numbers_frameSegs _ _ _
  rw [honours_iff h_some h_numbers (fun s h_s => (h_mem s h_s).2.2.2)
    (fun s h_s => (h_mem s h_s).2.2.1) (Or.inl h_length), ← frameSegments_lt_iff h_mru h_lt h_len]
  constructor
  · rintro ⟨-, h_transfer, -, h_few⟩
    exact ⟨h_transfer, h_few⟩
  · rintro ⟨h_transfer, h_few⟩
    exact ⟨fun s h_s => (h_mem s h_s).2.1, h_transfer, h_length, h_few⟩

/-! ## In datagrams -/

def datagramSegs (txid : Nat) (bundle : Octets) (k : Nat) : List Segment :=
  (List.range k).map fun i => (dgSegmentOf txid bundle i, dgChunk bundle i)

theorem datagrams_carries {txid : Nat} {bundle : Octets} (h_txid : txid < 2 ^ 64)
    (h_len : bundle.length < 2 ^ 31) (k : Nat) :
    Carries ((List.range k).map (dgDatagram txid bundle)) (datagramSegs txid bundle k) := by
  refine ⟨?_, fun s h_s => ?_⟩
  · rw [datagramSegs, List.flatMap_map, List.flatMap_def]
    rfl
  · obtain ⟨i, -, rfl⟩ := List.mem_map.mp h_s
    exact ⟨dgSegmentOf_fits i h_txid h_len, rfl⟩

/-- The first datagrams of a bundle are within the limits exactly if the bundle is, if the peer
    takes segments of that size, and if there are all of them. -/
theorem honours_datagrams_iff {peer : QuicSessInit} {txid : Nat} {bundle : Octets} {k : Nat}
    (h_len : bundle.length ≤ quicclaBufsz) (h_pos : 0 < k) :
    Honours peer (datagramSegs txid bundle k) ↔
      bundle.length ≤ peer.transferMru ∧
        (bundle.length ≤ peer.segmentMru ∨ quicDgSeg ≤ peer.segmentMru) ∧
        k = dgSegments bundle.length := by
  obtain ⟨-, h_few⟩ := dgSegments_bounds h_len
  have h_length : (datagramSegs txid bundle k).length = k := by simp [datagramSegs]
  have h_some : datagramSegs txid bundle k ≠ [] := by
    apply List.ne_nil_of_length_pos
    rwa [h_length]
  have h_numbers : (datagramSegs txid bundle k).map (fun s => s.1.segmentId) =
      (List.range (datagramSegs txid bundle k).length).map (· % 2 ^ 16) := by
    rw [h_length, datagramSegs, List.map_map]
    rfl
  have h_total : ∀ s ∈ datagramSegs txid bundle k,
      s.1.totalSegments = dgSegments bundle.length % 2 ^ 16 := by
    intro s h_s
    obtain ⟨i, -, rfl⟩ := List.mem_map.mp h_s
    rfl
  have h_bundle : ∀ s ∈ datagramSegs txid bundle k, s.1.bundleLength = bundle.length := by
    intro s h_s
    obtain ⟨i, -, rfl⟩ := List.mem_map.mp h_s
    rfl
  rw [honours_iff h_some h_numbers h_total h_bundle (Or.inr (by omega)), h_length]
  constructor
  · rintro ⟨h_payload, h_transfer, h_all, -⟩
    refine ⟨h_transfer, ?_, h_all⟩
    -- No segment is longer than the first.
    have h_first := h_payload _ (List.mem_map.mpr ⟨0, List.mem_range.mpr h_pos, rfl⟩)
    rw [length_dgChunk, Nat.mul_zero, Nat.sub_zero] at h_first
    split at h_first <;> omega
  · rintro ⟨h_transfer, h_size, h_all⟩
    refine ⟨fun s h_s => ?_, h_transfer, h_all, by omega⟩
    obtain ⟨i, -, rfl⟩ := List.mem_map.mp h_s
    dsimp only
    rw [length_dgChunk]
    split <;> omega

/-- With memory for the first node some datagrams are queued, without it none is. -/
theorem quicClientSendDatagram_first (txid : Nat) (bundle : Octets) {mem : Nat → Bool} :
    quicClientSendDatagram txid bundle mem = [] ↔ mem 0 = false := by
  have h_pos : 0 < dgSegments bundle.length := by
    unfold dgSegments
    split <;> omega
  obtain ⟨rounds, h_rounds⟩ := Nat.exists_eq_succ_of_ne_zero (Nat.ne_of_gt h_pos)
  have h_node := dgNode_chunk txid bundle 0
  have h_take : bundle.take (if bundle.length > quicDgSeg then quicDgSeg else bundle.length) =
      dgChunk bundle 0 := by
    rw [dgChunk, Nat.mul_zero, List.drop_zero]
    split
    · rfl
    · rw [List.take_length, List.take_of_length_le (by omega)]
  unfold quicClientSendDatagram
  rw [h_rounds] at h_node ⊢
  rw [Nat.succ_eq_add_one, dgNodes, h_take]
  cases h_mem : mem 0 with
  | false => simp
  | true =>
    rw [Nat.succ_eq_add_one] at h_node
    rw [h_node]
    simp

/-- The numbers of the datagrams of a bundle are 0, and those that have octets left. -/
theorem forall_dgSegments {len : Nat} {P : Nat → Prop} (h_zero : P 0) :
    (∀ i < dgSegments len, P i) ↔ ∀ i, quicDgSeg * i < len → P i := by
  have h_seg : quicDgSeg = 1024 := rfl
  have h_spec := dgSegments_spec len
  rw [h_seg] at h_spec ⊢
  constructor
  · intro h i h_i
    exact h i (by omega)
  · intro h i h_i
    by_cases h_first : i = 0
    · rw [h_first]
      exact h_zero
    · exact h i (by omega)

/-! ## Either way -/

section

variable {cfg : SigCfg} {c : SigConn} {peer : QuicSessInit} {txid : Nat} {bundle : Octets}
  {mem : Nat → Bool}

/-- Nothing goes out when there is no memory to begin with. -/
theorem honours_nothing (unreliable : Bool) (h_mem : mem 0 = false) :
    ∃ segs, Carries (transferOctets unreliable c txid bundle mem) segs ∧ Honours peer segs := by
  have h_none : transferOctets unreliable c txid bundle mem = [] := by
    unfold transferOctets
    cases unreliable with
    | true => exact (quicClientSendDatagram_first txid bundle).mpr h_mem
    | false =>
      rw [h_mem]
      rfl
  rw [h_none]
  refine ⟨[], ⟨rfl, fun s h_s => absurd h_s List.not_mem_nil⟩, ?_⟩
  exact ⟨fun s h_s => absurd h_s List.not_mem_nil, fun s h_s => absurd h_s List.not_mem_nil,
    List.Perm.refl _, fun s h_s => absurd h_s List.not_mem_nil⟩

theorem stream_honours_iff (h_mru : 0 < peer.segmentMru) (h_lt : peer.segmentMru < 2 ^ 64)
    (h_txid : txid < 2 ^ 64) (h_len : bundle.length ≤ quicclaBufsz) (h_mem : mem 0 = true) :
    (∃ segs, Carries (transferOctets false (c.sessNegotiate cfg peer) txid bundle mem) segs ∧
        Honours peer segs) ↔
      bundle.length ≤ peer.transferMru ∧ bundle.length ≤ 65535 * peer.segmentMru := by
  have h_buf : quicclaBufsz = 262144 := rfl
  unfold transferOctets
  rw [if_neg Bool.false_ne_true, h_mem, ← honours_stream_iff h_mru h_lt h_txid h_len]
  exact carries_iff (frameBundle_carries h_mru h_txid (by omega)) (Honours peer)

theorem datagrams_honour_iff (h_txid : txid < 2 ^ 64) (h_len : bundle.length ≤ quicclaBufsz)
    (h_mem : mem 0 = true) :
    (∃ segs, Carries (transferOctets true c txid bundle mem) segs ∧ Honours peer segs) ↔
      bundle.length ≤ peer.transferMru ∧
        (bundle.length ≤ peer.segmentMru ∨ quicDgSeg ≤ peer.segmentMru) ∧
        ∀ i, quicDgSeg * i < bundle.length → mem i = true := by
  have h_buf : quicclaBufsz = 262144 := rfl
  obtain ⟨k, h_k, h_all, h_wire⟩ := quicClientSendDatagram_eq txid bundle mem
  have h_pos : 0 < k := by
    rcases Nat.eq_zero_or_pos k with rfl | h_pos
    · rw [List.range_zero, List.map_nil, quicClientSendDatagram_first, h_mem] at h_wire
      cases h_wire
    · exact h_pos
  unfold transferOctets
  rw [if_pos rfl, h_wire, carries_iff (datagrams_carries h_txid (by omega) k) (Honours peer),
    honours_datagrams_iff h_len h_pos, h_all, forall_dgSegments h_mem]

/-- **The limits of the peer.**  What goes out for a bundle is within them, and its segments are
    numbered 0, 1, …, as many as announced, exactly if nothing goes out at all, or the bundle is
    no longer than the peer's Transfer MRU and, on a stream, than 65535 of its segments; in
    datagrams, if the peer takes segments of 1024 octets or of the whole bundle and there is
    memory for every node. -/
theorem peer_limits_honoured {unreliable : Bool} (h_mru : 0 < peer.segmentMru)
    (h_lt : peer.segmentMru < 2 ^ 64) (h_txid : txid < 2 ^ 64)
    (h_len : bundle.length ≤ quicclaBufsz) :
    (∃ segs, Carries (transferOctets unreliable (c.sessNegotiate cfg peer) txid bundle mem) segs ∧
        Honours peer segs) ↔
      mem 0 = false ∨ bundle.length ≤ peer.transferMru ∧
        if unreliable then
          (bundle.length ≤ peer.segmentMru ∨ quicDgSeg ≤ peer.segmentMru) ∧
            ∀ i, quicDgSeg * i < bundle.length → mem i = true
        else bundle.length ≤ 65535 * peer.segmentMru := by
  cases h_mem : mem 0 with
  | false => exact iff_of_true (honours_nothing unreliable h_mem) (Or.inl rfl)
  | true =>
    rw [or_iff_right (Ne.symm Bool.false_ne_true)]
    cases unreliable with
    | false => exact stream_honours_iff h_mru h_lt h_txid h_len h_mem
    | true => exact datagrams_honour_iff h_txid h_len h_mem

end

/-- A peer with these limits. -/
def announcing (segmentMru transferMru : Nat) : QuicSessInit :=
  ⟨30, segmentMru, 0, transferMru, [], []⟩

/-- A bundle of five octets in three segments. -/
theorem peer_limits_honoured_three :
    ∃ segs, Carries (transferOctets false
        ((SigConn.init true).sessNegotiate ⟨30, 0, 1⟩ (announcing 2 8)) 0 [1, 2, 3, 4, 5]
        fun _ => true) segs ∧ Honours (announcing 2 8) segs := by
  rw [peer_limits_honoured (by decide) (by decide) (by decide) (by decide)]
  refine Or.inr ⟨by decide, ?_⟩
  rw [if_neg Bool.false_ne_true]
  decide

/-- Four octets in one datagram to a peer that takes two at a time; four octets to a peer that
    takes bundles of three; and 65536 octets to a peer that takes one at a time. -/
theorem peer_limits_exceeded :
    (¬ ∃ segs, Carries (transferOctets true
        ((SigConn.init true).sessNegotiate ⟨30, 0, 1⟩ (announcing 2 8)) 0 [1, 2, 3, 4]
        fun _ => true) segs ∧ Honours (announcing 2 8) segs) ∧
    (¬ ∃ segs, Carries (transferOctets false
        ((SigConn.init true).sessNegotiate ⟨30, 0, 1⟩ (announcing 2 3)) 0 [1, 2, 3, 4]
        fun _ => true) segs ∧ Honours (announcing 2 3) segs) ∧
    ¬ ∃ segs, Carries (transferOctets false
        ((SigConn.init true).sessNegotiate ⟨30, 0, 1⟩ (announcing 1 262144)) 0
        (List.replicate 65536 0) fun _ => true) segs ∧ Honours (announcing 1 262144) segs := by
  have h_four : ([1, 2, 3, 4] : Octets).length ≤ quicclaBufsz := by decide
  have h_many : (List.replicate 65536 (0 : UInt8)).length ≤ quicclaBufsz := by
    rw [List.length_replicate]
    decide
  refine ⟨?_, ?_, ?_⟩
  · rw [datagrams_honour_iff (by decide) h_four rfl]
    rintro ⟨-, h_size | h_size, -⟩
    · exact absurd h_size (by decide)
    · exact absurd h_size (by decide)
  · rw [stream_honours_iff (by decide) (by decide) (by decide) h_four rfl]
    rintro ⟨h_transfer, -⟩
    exact absurd h_transfer (by decide)
  · rw [stream_honours_iff (by decide) (by decide) (by decide) h_many rfl, List.length_replicate]
    rintro ⟨-, h_few⟩
    exact absurd h_few (by decide)

end IonContrib.Quic
