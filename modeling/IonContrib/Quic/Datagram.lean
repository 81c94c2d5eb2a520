/-
  IonContrib.Quic.Datagram

  The unreliable service of `quicsession.c`: `quicClientSendDatagram` cuts a
  bundle into datagrams, `recvDatagramCb` and `dgReassemble` put it together.

  A datagram has at most `QUIC_MAX_UDP` octets (the `max_datagram_frame_size`
  the receiver announces), so an offset into the buffer does not overflow an
  `int`; the product of a segment number and a length is cut to one as the
  cast does it.

  * Whatever arrives, what is delivered consists of octets received since the
    reassembly began and of zeros, and every segment number below the total
    has been received since then (`run_sound`).
  * A segment with START begins the reassembly anew.  So a transfer that
    arrives undisturbed is delivered exactly if its START segment comes first
    (`run_delivered_iff`).
-/
import IonContrib.Lib.Doubling
import IonContrib.Lib.Memory
import IonContrib.Quic.Msg
import Mathlib.Data.List.Perm.Subperm
import Mathlib.Data.List.Dedup

namespace IonContrib.Quic

def quicclaBufsz : Nat := 256 * 1024
def quicDgSeg : Nat := 1024

/-- `(int) n`. -/
def toInt (n : Nat) : Int := (n : Int).bmod (2 ^ 32)

theorem toInt_of_lt {n : Nat} (h : n < 2 ^ 31) : toInt n = n := by
  unfold toInt
  exact Int.bmod_eq_of_le (by omega) (by omega)

/-! ## Sender -/

def dgSegment (txid len nSeg i thisLen : Nat) : QuicXferSegment where
  flags := (if i = 0 then qmsgFlagStart else 0) ||| (if i = nSeg - 1 then qmsgFlagEnd else 0)
  segmentId := i % 2 ^ 16
  totalSegments := nSeg % 2 ^ 16
  transferId := txid
  xferExt := []
  segmentLength := thisLen
  bundleLength := len
  serviceMode := qmsgSvcUnreliable

/-- One datagram: the encoded header and the octets. -/
def dgNode (txid len nSeg i : Nat) (data : Octets) : Option Octets :=
  (quicMsgEncodeXferSegmentHdr (40 + data.length) (dgSegment txid len nSeg i data.length)).map
    (· ++ data)

/-- The loop: `rounds` segments from number `i` on, `src` being what remains of the bundle.
    It ends early when there is no memory for a node. -/
def dgNodes (txid len nSeg : Nat) (mem : Nat → Bool) : Nat → Nat → Octets → List Octets
  | 0, _, _ => []
  | rounds + 1, i, src =>
    let thisLen := if src.length > quicDgSeg then quicDgSeg else src.length
    if !mem i then []
    else (dgNode txid len nSeg i (src.take thisLen)).elim [] fun node =>
      node :: dgNodes txid len nSeg mem rounds (i + 1) (src.drop thisLen)

def dgSegments (len : Nat) : Nat :=
  if (len + quicDgSeg - 1) / quicDgSeg < 1 then 1 else (len + quicDgSeg - 1) / quicDgSeg

/-- The datagrams put on the queue for a bundle. -/
def quicClientSendDatagram (txid : Nat) (bundle : Octets) (mem : Nat → Bool) : List Octets :=
  dgNodes txid bundle.length (dgSegments bundle.length) mem (dgSegments bundle.length) 0 bundle

/-! ## Receiver -/

/-- The `dgRx` fields of `QuicConn`. -/
structure DgRx where
  dgRxId : Nat
  dgRxActive : Bool
  dgRxTotal : Nat
  dgRxCount : Nat
  dgRxBundleLen : Nat
  dgRxBuf : Memory
  dgRxCap : Nat
  dgRxSeen : Memory
  dgRxSeenCap : Nat

def DgRx.init : DgRx := ⟨0, false, 0, 0, 0, fun _ => 0, 0, fun _ => 0, 0⟩

/-- What one call gets from outside: the blocks `MTAKE` answers, with whatever they hold,
    and whether the delivery callback takes the bundle. -/
structure DgEnv where
  buf : Option Memory
  seen : Option Memory
  takes : Bool

/-- What a call leaves behind, what it passed to the delivery callback, and whether it
    returned 0. -/
structure DgOut where
  rx : DgRx
  delivered : Option Octets
  ok : Bool

def dgPlausible (seg : QuicXferSegment) : Bool :=
  !(decide (seg.bundleLength > quicclaBufsz) || decide (seg.segmentLength > quicclaBufsz) ||
    decide (seg.totalSegments = 0))

/-- The condition under which a segment begins a reassembly. -/
def dgBegins (d : DgRx) (seg : QuicXferSegment) : Bool :=
  seg.isStart || !d.dgRxActive || seg.transferId != d.dgRxId

def dgGrowBuf (d : DgRx) (want : Nat) (block : Option Memory) : Option DgRx :=
  if want > d.dgRxCap then
    let cap := if d.dgRxCap = 0 then quicclaBufsz else d.dgRxCap
    block.map fun m => { d with dgRxBuf := m, dgRxCap := doubleUntil want cap want }
  else some d

def dgGrowSeen (d : DgRx) (want : Nat) (block : Option Memory) : Option DgRx :=
  if want > d.dgRxSeenCap then
    block.map fun m => { d with dgRxSeen := m, dgRxSeenCap := want }
  else some d

/-- (Re)size and reset; `false` when there is no memory. -/
def dgBegin (d : DgRx) (seg : QuicXferSegment) (env : DgEnv) : DgRx × Bool :=
  let seenBytes := (seg.totalSegments + 7) / 8
  let d := { d with
    dgRxId := seg.transferId
    dgRxActive := true
    dgRxTotal := seg.totalSegments
    dgRxCount := 0
    dgRxBundleLen := seg.bundleLength }
  match dgGrowBuf d seg.bundleLength env.buf with
  | none => ({ d with dgRxActive := false }, false)
  | some d =>
    match dgGrowSeen d seenBytes env.seen with
    | none => ({ d with dgRxActive := false }, false)
    | some d => ({ d with
        dgRxSeen := d.dgRxSeen.zero seenBytes
        dgRxBuf := d.dgRxBuf.zero seg.bundleLength }, true)

/-- Where a segment goes: to the tail of the bundle with END, else to its own place.  The
    subtraction is that of `uint64_t`. -/
def dgOffset (seg : QuicXferSegment) : Int :=
  if seg.isEnd then toInt ((2 ^ 64 + seg.bundleLength - seg.segmentLength) % 2 ^ 64)
  else toInt (seg.segmentId * seg.segmentLength % 2 ^ 64)

/-- The octets go into the buffer; only the first arrival of a number counts. -/
def dgStore (d : DgRx) (seg : QuicXferSegment) (offset : Nat) (segData : Octets) : DgRx :=
  let d := { d with dgRxBuf := d.dgRxBuf.write offset segData }
  if d.dgRxSeen.marked seg.segmentId then d
  else { d with
    dgRxSeen := d.dgRxSeen.mark seg.segmentId
    dgRxCount := d.dgRxCount + 1 }

def dgFinish (d : DgRx) (env : DgEnv) : DgOut :=
  if d.dgRxCount = d.dgRxTotal then
    ⟨{ d with dgRxActive := false }, some (d.dgRxBuf.read d.dgRxBundleLen), env.takes⟩
  else ⟨d, none, true⟩

/-- The second half of `dgReassemble`. -/
def dgPlace (d : DgRx) (seg : QuicXferSegment) (segData : Octets) (env : DgEnv) : DgOut :=
  if seg.segmentId ≥ d.dgRxTotal then ⟨d, none, true⟩
  else if dgOffset seg < 0 ∨ dgOffset seg + seg.segmentLength > d.dgRxCap then ⟨d, none, true⟩
  else dgFinish (dgStore d seg (dgOffset seg).toNat segData) env

def dgReassemble (d : DgRx) (seg : QuicXferSegment) (segData : Octets) (env : DgEnv) : DgOut :=
  if !dgPlausible seg then ⟨d, none, true⟩
  else if dgBegins d seg then
    match dgBegin d seg env with
    | (d, false) => ⟨d, none, true⟩
    | (d, true) => dgPlace d seg segData env
  else dgPlace d seg segData env

/-- The segment in a datagram, with its data; a malformed datagram is dropped. -/
def dgReceived (data : Octets) : Option (QuicXferSegment × Octets) :=
  match quicMsgDecodeXferSegmentHdr data with
  | .ok seg hdr =>
    if data.length - hdr < seg.segmentLength then none
    else some (seg, (data.drop hdr).take seg.segmentLength)
  | _ => none

def recvDatagramCb (d : DgRx) (data : Octets) (env : DgEnv) : DgOut :=
  match dgReceived data with
  | none => ⟨d, none, true⟩
  | some (seg, segData) => dgReassemble d seg segData env

/-- The receiving end of a connection; a callback that fails ends it. -/
structure DgConn where
  rx : DgRx
  failed : Bool
  delivered : List Octets

def DgConn.init : DgConn := ⟨DgRx.init, false, []⟩

def DgConn.recv (w : DgConn) (e : Octets × DgEnv) : DgConn :=
  if w.failed then w
  else
    let out := recvDatagramCb w.rx e.1 e.2
    ⟨out.rx, !out.ok, w.delivered ++ out.delivered.toList⟩

def DgConn.run (w : DgConn) (es : List (Octets × DgEnv)) : DgConn := es.foldl DgConn.recv w

/-! ## What has been received since the reassembly began -/

abbrev DgSegments := List (QuicXferSegment × Octets)

/-- The plausible segments received since the last that began a reassembly, that one
    included. -/
def sinceBegan (d : DgRx) (since : DgSegments) (data : Octets) : DgSegments :=
  match dgReceived data with
  | none => since
  | some x => if !dgPlausible x.1 then since else (if dgBegins d x.1 then [] else since) ++ [x]

def DgConn.since (w : DgConn) (since : DgSegments) : List (Octets × DgEnv) → DgSegments
  | [] => since
  | e :: es => (w.recv e).since (if w.failed then since else sinceBegan w.rx since e.1) es

/-- An octet at place `k` of a bundle comes from one of these segments. -/
def FromSegment (since : DgSegments) (k : Nat) (c : UInt8) : Prop :=
  ∃ x ∈ since, ∃ j : Nat, dgOffset x.1 + j = k ∧ x.2[j]? = some c

/-- A bundle made of nothing but these segments, which are of one transfer and have as many
    different numbers as the first of them announced. -/
structure SoundBundle (since : DgSegments) (b : Octets) : Prop where
  began : ∃ first ∈ since.head?, b.length = first.1.bundleLength ∧
    first.1.totalSegments ≤ ((since.map fun x => x.1.segmentId).dedup).length ∧
    ∀ x ∈ since, x.1.transferId = first.1.transferId
  octets : ∀ k c, b[k]? = some c → c = 0 ∨ FromSegment since k c

/-- How the receiver's fields go with what it has received. -/
structure Tracks (d : DgRx) (since : DgSegments) : Prop where
  first : ∃ first ∈ since.head?, d.dgRxTotal = first.1.totalSegments ∧
    d.dgRxBundleLen = first.1.bundleLength
  same : ∀ x ∈ since, x.1.transferId = d.dgRxId
  count : d.dgRxCount = (d.dgRxSeen.markedBelow d.dgRxTotal).length
  seen : ∀ i, i < d.dgRxTotal → d.dgRxSeen.marked i = true → ∃ x ∈ since, x.1.segmentId = i
  octets : ∀ k, k < d.dgRxBundleLen → d.dgRxBuf k = 0 ∨ FromSegment since k (d.dgRxBuf k)

theorem FromSegment.append {since : DgSegments} {k : Nat} {c : UInt8}
    (h : FromSegment since k c) (more : DgSegments) : FromSegment (since ++ more) k c := by
  obtain ⟨x, h_x, h_j⟩ := h
  exact ⟨x, List.mem_append_left _ h_x, h_j⟩

/-- One more segment of the transfer, wherever it goes. -/
theorem Tracks.snoc {d : DgRx} {since : DgSegments} (h : Tracks d since)
    {x : QuicXferSegment × Octets} (h_x : x.1.transferId = d.dgRxId) : Tracks d (since ++ [x]) := by
  obtain ⟨first, h_first, h_total, h_len⟩ := h.first
  refine ⟨⟨first, ?_, h_total, h_len⟩, ?_, h.count, ?_, ?_⟩
  · rw [List.head?_append, Option.mem_def.mp h_first]
    rfl
  · intro y h_y
    rcases List.mem_append.mp h_y with h_old | h_new
    · exact h.same y h_old
    · rw [List.mem_singleton.mp h_new]
      exact h_x
  · intro i h_i h_marked
    obtain ⟨y, h_y, h_id⟩ := h.seen i h_i h_marked
    exact ⟨y, List.mem_append_left _ h_y, h_id⟩
  · intro k h_k
    exact (h.octets k h_k).imp_right fun h_from => h_from.append [x]

theorem dgGrowBuf_cases {d : DgRx} {want : Nat} {block : Option Memory} :
    dgGrowBuf d want block = none ∨ ∃ buf cap, want ≤ cap ∧
      dgGrowBuf d want block = some { d with dgRxBuf := buf, dgRxCap := cap } := by
  unfold dgGrowBuf
  by_cases h_more : want > d.dgRxCap
  · rw [if_pos h_more]
    cases block with
    | none => exact Or.inl rfl
    | some m =>
      refine Or.inr ⟨m, _, le_doubleUntil ?_ (Nat.le_add_left _ _), rfl⟩
      split
      · decide
      · omega
  · rw [if_neg h_more]
    exact Or.inr ⟨d.dgRxBuf, d.dgRxCap, Nat.not_lt.mp h_more, rfl⟩

theorem dgGrowSeen_cases {d : DgRx} {want : Nat} {block : Option Memory} :
    dgGrowSeen d want block = none ∨ ∃ seen cap,
      dgGrowSeen d want block = some { d with dgRxSeen := seen, dgRxSeenCap := cap } := by
  unfold dgGrowSeen
  split
  · cases block with
    | none => exact Or.inl rfl
    | some m => exact Or.inr ⟨m, want, rfl⟩
  · exact Or.inr ⟨d.dgRxSeen, d.dgRxSeenCap, rfl⟩

/-- All that beginning a reassembly can do. -/
theorem dgBegin_cases (d : DgRx) (seg : QuicXferSegment) (env : DgEnv) :
    (∃ d', dgBegin d seg env = (d', false) ∧ d'.dgRxActive = false) ∨
      ∃ buf cap seen seenCap, seg.bundleLength ≤ cap ∧ dgBegin d seg env =
        (⟨seg.transferId, true, seg.totalSegments, 0, seg.bundleLength,
          Memory.zero buf seg.bundleLength, cap,
          Memory.zero seen ((seg.totalSegments + 7) / 8), seenCap⟩, true) := by
  unfold dgBegin
  dsimp only
  rcases dgGrowBuf_cases with h_none | ⟨buf, cap, h_cap, h_some⟩
  · rw [h_none]
    exact Or.inl ⟨_, rfl, rfl⟩
  rw [h_some]
  dsimp only
  rcases dgGrowSeen_cases with h_none | ⟨seen, seenCap, h_some⟩
  · rw [h_none]
    exact Or.inl ⟨_, rfl, rfl⟩
  · rw [h_some]
    exact Or.inr ⟨buf, cap, seen, seenCap, h_cap, rfl⟩

/-- A reassembly that has begun has only its first segment to its name. -/
theorem tracks_begin {d d' : DgRx} {seg : QuicXferSegment} {segData : Octets} {env : DgEnv}
    (h : dgBegin d seg env = (d', true)) :
    d'.dgRxActive = true ∧ Tracks d' [(seg, segData)] := by
  rcases dgBegin_cases d seg env with ⟨d₁, h_eq, -⟩ | ⟨buf, cap, seen, seenCap, -, h_eq⟩
  · rw [h] at h_eq
    cases h_eq
  · rw [h] at h_eq
    obtain ⟨rfl, -⟩ := Prod.mk.inj h_eq
    have h_none : (seen.zero ((seg.totalSegments + 7) / 8)).markedBelow seg.totalSegments = [] :=
      Memory.markedBelow_zero (by omega)
    refine ⟨rfl, ⟨(seg, segData), rfl, rfl, rfl⟩, by simp, by simp [h_none], ?_, ?_⟩
    · intro i h_i h_marked
      have h_mem : i ∈ (seen.zero ((seg.totalSegments + 7) / 8)).markedBelow seg.totalSegments :=
        List.mem_filter.mpr ⟨List.mem_range.mpr h_i, h_marked⟩
      rw [h_none] at h_mem
      cases h_mem
    · intro k h_k
      exact Or.inl (Memory.zero_lt h_k)

/-- Storing one of the segments received. -/
theorem tracks_store {d : DgRx} {since : DgSegments} {seg : QuicXferSegment} {segData : Octets}
    (h : Tracks d since) (h_mem : (seg, segData) ∈ since) (h_id : seg.segmentId < d.dgRxTotal)
    (h_off : 0 ≤ dgOffset seg) : Tracks (dgStore d seg (dgOffset seg).toNat segData) since := by
  have h_octets : ∀ k, k < d.dgRxBundleLen →
      d.dgRxBuf.write (dgOffset seg).toNat segData k = 0 ∨
        FromSegment since k (d.dgRxBuf.write (dgOffset seg).toNat segData k) := by
    intro k h_k
    rcases Memory.write_cases d.dgRxBuf (dgOffset seg).toNat segData k with ⟨j, h_j, h_c⟩ | h_same
    · exact Or.inr ⟨(seg, segData), h_mem, j, by simp only; omega, h_c⟩
    · rw [h_same]
      exact h.octets k h_k
  unfold dgStore
  dsimp only
  by_cases h_dup : d.dgRxSeen.marked seg.segmentId = true
  · rw [if_pos h_dup]
    exact ⟨h.first, h.same, h.count, h.seen, h_octets⟩
  · rw [if_neg h_dup]
    refine ⟨h.first, h.same, ?_, ?_, h_octets⟩
    · simp only [Memory.length_markedBelow_mark h_id (by simpa using h_dup), h.count]
    · intro i h_i h_marked
      simp only [Memory.marked_mark, Bool.or_eq_true, decide_eq_true_eq] at h_marked
      rcases h_marked with rfl | h_marked
      · exact ⟨(seg, segData), h_mem, rfl⟩
      · exact h.seen i h_i h_marked

/-- When the count reaches the total, every number has been received. -/
theorem soundBundle_of_full {d : DgRx} {since : DgSegments} (h : Tracks d since)
    (h_full : d.dgRxCount = d.dgRxTotal) :
    SoundBundle since (d.dgRxBuf.read d.dgRxBundleLen) := by
  obtain ⟨first, h_first, h_total, h_len⟩ := h.first
  have h_all : ∀ i, i < d.dgRxTotal → d.dgRxSeen.marked i = true := by
    have h_filter : ((List.range d.dgRxTotal).filter d.dgRxSeen.marked).length =
        (List.range d.dgRxTotal).length := by
      have h_count := h.count
      rw [h_full] at h_count
      rw [List.length_range]
      exact h_count.symm
    rw [List.length_filter_eq_length_iff] at h_filter
    exact fun i h_i => h_filter i (List.mem_range.mpr h_i)
  refine ⟨⟨first, h_first, by simp [h_len], ?_, ?_⟩, ?_⟩
  · have h_sub : List.range d.dgRxTotal ⊆ (since.map fun x => x.1.segmentId).dedup := by
      intro i h_i
      have h_lt := List.mem_range.mp h_i
      obtain ⟨x, h_x, h_id⟩ := h.seen i h_lt (h_all i h_lt)
      exact List.mem_dedup.mpr (List.mem_map.mpr ⟨x, h_x, h_id⟩)
    have h_le := (List.subperm_of_subset List.nodup_range h_sub).length_le
    rw [List.length_range] at h_le
    rwa [← h_total]
  · intro x h_x
    have h_mem : first ∈ since := List.mem_of_mem_head? h_first
    rw [h.same x h_x, h.same first h_mem]
  · intro k c h_c
    have h_k : k < d.dgRxBundleLen := by
      by_contra h_not
      rw [List.getElem?_eq_none (by simpa using h_not)] at h_c
      cases h_c
    rw [Memory.getElem?_read h_k, Option.some.injEq] at h_c
    rw [← h_c]
    exact h.octets k h_k

/-- What a call leaves goes with what has been received, and what it delivers is sound. -/
structure DgSafe (out : DgOut) (since : DgSegments) : Prop where
  tracks : out.rx.dgRxActive = true → Tracks out.rx since
  sound : ∀ b ∈ out.delivered, SoundBundle since b

theorem dgPlace_safe {d : DgRx} {since : DgSegments} {seg : QuicXferSegment} {segData : Octets}
    {env : DgEnv} (h : Tracks d since) (h_mem : (seg, segData) ∈ since) :
    DgSafe (dgPlace d seg segData env) since := by
  unfold dgPlace
  split
  · exact ⟨fun _ => h, by simp⟩
  rename_i h_id
  split
  · exact ⟨fun _ => h, by simp⟩
  rename_i h_out
  have h_stored := tracks_store h h_mem (by omega) (by omega)
  unfold dgFinish
  split
  · rename_i h_full
    refine ⟨fun h_active => (by cases h_active), ?_⟩
    rintro b ⟨⟩
    exact soundBundle_of_full h_stored h_full
  · exact ⟨fun _ => h_stored, by simp⟩

/-- **Whatever datagram arrives**, the receiver goes on with what it has received, and
    delivers only a bundle made of it. -/
theorem recvDatagramCb_safe {d : DgRx} {since : DgSegments} (data : Octets) (env : DgEnv)
    (h : d.dgRxActive = true → Tracks d since) :
    DgSafe (recvDatagramCb d data env) (sinceBegan d since data) := by
  unfold recvDatagramCb sinceBegan
  cases h_rcv : dgReceived data with
  | none => exact ⟨h, by simp⟩
  | some x =>
    obtain ⟨seg, segData⟩ := x
    dsimp only
    unfold dgReassemble
    by_cases h_imp : (!dgPlausible seg) = true
    · rw [if_pos h_imp, if_pos h_imp]
      exact ⟨h, by simp⟩
    rw [if_neg h_imp, if_neg h_imp]
    by_cases h_begins : dgBegins d seg = true
    · rw [if_pos h_begins, if_pos h_begins, List.nil_append]
      rcases dgBegin_cases d seg env with ⟨d', h_eq, h_off⟩ | ⟨buf, cap, seen, seenCap, -, h_eq⟩
      · rw [h_eq]
        refine ⟨fun h_active => ?_, by simp⟩
        rw [h_off] at h_active
        cases h_active
      · rw [h_eq]
        exact dgPlace_safe (tracks_begin h_eq).2 List.mem_cons_self
    · rw [if_neg h_begins, if_neg h_begins]
      have h_same : d.dgRxActive = true ∧ seg.transferId = d.dgRxId := by
        unfold dgBegins at h_begins
        simp only [Bool.or_eq_true, Bool.not_eq_true', bne_iff_ne, not_or, Bool.not_eq_false,
          Decidable.not_not] at h_begins
        exact ⟨h_begins.1.2, h_begins.2⟩
      have h_tracks := (h h_same.1).snoc (x := (seg, segData)) h_same.2
      exact dgPlace_safe h_tracks (List.mem_append_right _ List.mem_cons_self)

/-- The run lemma of the safety half. -/
theorem run_tracks {w : DgConn} {since : DgSegments} (es : List (Octets × DgEnv))
    (h : w.rx.dgRxActive = true → Tracks w.rx since) :
    (w.run es).rx.dgRxActive = true → Tracks (w.run es).rx (w.since since es) := by
  induction es generalizing w since with
  | nil => exact h
  | cons e es ih =>
    refine ih ?_
    unfold DgConn.recv
    by_cases h_failed : w.failed = true
    · rw [if_pos h_failed, if_pos h_failed]
      exact h
    · rw [if_neg h_failed, if_neg h_failed]
      exact (recvDatagramCb_safe e.1 e.2 h).tracks

/-! ## What the sender's datagrams hold -/

/-- The octets of segment `i`. -/
def dgChunk (bundle : Octets) (i : Nat) : Octets := (bundle.drop (quicDgSeg * i)).take quicDgSeg

/-- Segment `i` of a bundle. -/
def dgSegmentOf (txid : Nat) (bundle : Octets) (i : Nat) : QuicXferSegment :=
  dgSegment txid bundle.length (dgSegments bundle.length) i (dgChunk bundle i).length

def dgDatagram (txid : Nat) (bundle : Octets) (i : Nat) : Octets :=
  (dgSegmentOf txid bundle i).hdr ++ dgChunk bundle i

theorem length_dgChunk (bundle : Octets) (i : Nat) :
    (dgChunk bundle i).length =
      if bundle.length - quicDgSeg * i > quicDgSeg then quicDgSeg
      else bundle.length - quicDgSeg * i := by
  simp only [dgChunk, List.length_take, List.length_drop]
  split <;> omega

@[simp] theorem xferExt_dgSegmentOf (txid : Nat) (bundle : Octets) (i : Nat) :
    (dgSegmentOf txid bundle i).xferExt = [] := rfl

theorem dgNode_chunk (txid : Nat) (bundle : Octets) (i : Nat) :
    dgNode txid bundle.length (dgSegments bundle.length) i (dgChunk bundle i) =
      some (dgDatagram txid bundle i) := by
  have h_cap : 35 + (dgSegmentOf txid bundle i).xferExt.length ≤
      40 + (dgChunk bundle i).length := by
    rw [xferExt_dgSegmentOf, List.length_nil]
    omega
  have h_enc := quicMsgEncodeXferSegmentHdr_eq h_cap
  rw [dgSegmentOf] at h_enc
  rw [dgNode, h_enc, Option.map_some]
  rfl

/-- The loop makes the segments up to the first that it has no memory for. -/
theorem dgNodes_eq (txid : Nat) (bundle : Octets) (mem : Nat → Bool) (rounds i : Nat) :
    ∃ k ≤ rounds, (k = rounds ↔ ∀ j < rounds, mem (i + j) = true) ∧
      dgNodes txid bundle.length (dgSegments bundle.length) mem rounds i
          (bundle.drop (quicDgSeg * i)) =
        (List.range k).map fun j => dgDatagram txid bundle (i + j) := by
  induction rounds generalizing i with
  | zero =>
    refine ⟨0, Nat.le_refl 0, by simp, ?_⟩
    rw [dgNodes, List.range_zero, List.map_nil]
  | succ rounds ih =>
    have h_this : (if (bundle.drop (quicDgSeg * i)).length > quicDgSeg then quicDgSeg
        else (bundle.drop (quicDgSeg * i)).length) = (dgChunk bundle i).length := by
      rw [length_dgChunk, List.length_drop]
    have h_take : (bundle.drop (quicDgSeg * i)).take (dgChunk bundle i).length =
        dgChunk bundle i := by
      rw [length_dgChunk, dgChunk]
      split
      · rfl
      · rw [List.take_of_length_le (by rw [List.length_drop]),
          List.take_of_length_le (by rw [List.length_drop]; omega)]
    have h_drop : (bundle.drop (quicDgSeg * i)).drop (dgChunk bundle i).length =
        bundle.drop (quicDgSeg * (i + 1)) := by
      rw [List.drop_drop, length_dgChunk]
      split
      · rw [Nat.mul_add, Nat.mul_one]
      · rw [List.drop_eq_nil_of_le (by omega), List.drop_eq_nil_of_le (by
          rw [Nat.mul_add]
          omega)]
    obtain ⟨k, h_k, h_iff, h_rest⟩ := ih (i + 1)
    rw [dgNodes]
    simp only [h_this]
    rw [h_take, h_drop, dgNode_chunk, Option.elim_some, h_rest]
    by_cases h_mem : mem i = true
    · refine ⟨k + 1, by omega, ?_, ?_⟩
      · rw [Nat.add_right_cancel_iff, h_iff, Nat.forall_lt_succ_left]
        simp only [Nat.add_zero, h_mem, true_and, Nat.add_right_comm i 1, Nat.add_assoc]
      · rw [h_mem, List.range_succ_eq_map, List.map_cons, List.map_map]
        refine congrArg₂ List.cons rfl (List.map_congr_left fun j _ => ?_)
        simp only [Function.comp_apply]
        rw [Nat.add_right_comm, Nat.add_assoc]
    · refine ⟨0, by omega, ?_, ?_⟩
      · refine ⟨fun h => (by omega), fun h => absurd (h 0 (by omega)) h_mem⟩
      · simp [h_mem]

/-- The datagrams of a bundle, in order. -/
theorem quicClientSendDatagram_eq (txid : Nat) (bundle : Octets) (mem : Nat → Bool) :
    ∃ k ≤ dgSegments bundle.length,
      (k = dgSegments bundle.length ↔ ∀ j < dgSegments bundle.length, mem j = true) ∧
      quicClientSendDatagram txid bundle mem =
        (List.range k).map (dgDatagram txid bundle) := by
  have h_nodes := dgNodes_eq txid bundle mem (dgSegments bundle.length) 0
  simp only [Nat.mul_zero, List.drop_zero, Nat.zero_add] at h_nodes
  exact h_nodes

theorem dgSegmentOf_fits {txid : Nat} {bundle : Octets} (i : Nat) (h_txid : txid < 2 ^ 64)
    (h_len : bundle.length < 2 ^ 31) : (dgSegmentOf txid bundle i).Fits where
  segmentId_lt := Nat.mod_lt _ (by decide)
  total_lt := Nat.mod_lt _ (by decide)
  id_lt := h_txid
  ext_lt := by simp
  ext_start _ := rfl
  length_lt := by
    show (dgChunk bundle i).length < 2 ^ 64
    simp only [dgChunk, List.length_take, List.length_drop]
    omega
  bundle_lt := by
    show bundle.length < 2 ^ 64
    omega

/-- The receiver finds the segment and its octets in the datagram. -/
theorem dgReceived_datagram {txid : Nat} {bundle : Octets} (i : Nat) (h_txid : txid < 2 ^ 64)
    (h_len : bundle.length < 2 ^ 31) :
    dgReceived (dgDatagram txid bundle i) =
      some (dgSegmentOf txid bundle i, dgChunk bundle i) := by
  have h_dec := quicMsgDecodeXferSegmentHdr_hdr (dgSegmentOf_fits i h_txid h_len)
    (dgChunk bundle i)
  have h_seg : (dgSegmentOf txid bundle i).segmentLength = (dgChunk bundle i).length := rfl
  rw [dgReceived, dgDatagram, h_dec]
  dsimp only
  rw [List.drop_left, h_seg, List.take_length, if_neg (by simp)]

/-! ## A transfer that is being put together -/

/-- The segments cover the bundle, and the last one is needed unless it is empty. -/
theorem dgSegments_spec (len : Nat) :
    (len = 0 ∧ dgSegments len = 1) ∨
      (quicDgSeg * dgSegments len < len + quicDgSeg ∧ len ≤ quicDgSeg * dgSegments len ∧
        1 ≤ dgSegments len) := by
  have h_seg : quicDgSeg = 1024 := rfl
  unfold dgSegments
  rw [h_seg]
  by_cases h_empty : (len + 1024 - 1) / 1024 < 1
  · rw [if_pos h_empty]
    omega
  · rw [if_neg h_empty]
    omega

theorem dgSegments_bounds {len : Nat} (h_len : len ≤ quicclaBufsz) :
    1 ≤ dgSegments len ∧ dgSegments len ≤ 256 := by
  have h_seg : quicDgSeg = 1024 := rfl
  have h_buf : quicclaBufsz = 256 * 1024 := rfl
  rcases dgSegments_spec len with ⟨-, h_one⟩ | ⟨h_lt, -, h_pos⟩
  · rw [h_one]
    decide
  · rw [h_seg] at h_lt
    omega

/-- Whether a flag is among those of a segment. -/
theorem hasFlag_dgSegmentOf (txid : Nat) (bundle : Octets) (i : Nat) :
    (dgSegmentOf txid bundle i).isStart = decide (i = 0) ∧
      (dgSegmentOf txid bundle i).isEnd = decide (i = dgSegments bundle.length - 1) :=
  hasFlag_startEnd (i = 0) (i = dgSegments bundle.length - 1)

/-- How many octets there are before and in segment `i`. -/
theorem dgChunk_bounds {bundle : Octets} {i : Nat}
    (h_i : i < dgSegments bundle.length) :
    quicDgSeg * i + (dgChunk bundle i).length ≤ bundle.length ∧
      (if i = dgSegments bundle.length - 1 then
        quicDgSeg * i + (dgChunk bundle i).length = bundle.length
      else (dgChunk bundle i).length = quicDgSeg) := by
  have h_seg : quicDgSeg = 1024 := rfl
  have h_spec := dgSegments_spec bundle.length
  rw [length_dgChunk]
  rw [h_seg] at h_spec ⊢
  rcases h_spec with ⟨h_zero, h_one⟩ | ⟨h_lt, h_cover, h_pos⟩
  · have h_first : i = 0 := by omega
    have h_last : i = dgSegments bundle.length - 1 := by omega
    rw [if_pos h_last, h_first, h_zero]
    decide
  · by_cases h_last : i = dgSegments bundle.length - 1
    · rw [if_pos h_last, if_neg (by omega)]
      omega
    · rw [if_neg h_last, if_pos (by omega)]
      omega

/-- The offset the receiver works out is the one the octets were taken from. -/
theorem dgOffset_dgSegmentOf {txid : Nat} {bundle : Octets} {i : Nat}
    (h_len : bundle.length ≤ quicclaBufsz) (h_i : i < dgSegments bundle.length) :
    dgOffset (dgSegmentOf txid bundle i) = (quicDgSeg * i : Nat) := by
  obtain ⟨h_le, h_full⟩ := dgChunk_bounds h_i
  obtain ⟨-, h_few⟩ := dgSegments_bounds h_len
  have h_small : bundle.length ≤ 256 * 1024 := h_len
  have h_seg : quicDgSeg = 1024 := rfl
  rw [dgOffset, (hasFlag_dgSegmentOf txid bundle i).2]
  show (if decide (i = dgSegments bundle.length - 1) = true then
      toInt ((2 ^ 64 + bundle.length - (dgChunk bundle i).length) % 2 ^ 64)
    else toInt (i % 2 ^ 16 * (dgChunk bundle i).length % 2 ^ 64)) = _
  by_cases h_last : i = dgSegments bundle.length - 1
  · rw [if_pos h_last] at h_full
    rw [if_pos (decide_eq_true h_last), ← h_full]
    have h_sub : (2 ^ 64 + (quicDgSeg * i + (dgChunk bundle i).length) -
        (dgChunk bundle i).length) % 2 ^ 64 = quicDgSeg * i := by
      rw [h_seg] at h_le ⊢
      omega
    rw [h_sub]
    exact toInt_of_lt (by omega)
  · rw [if_neg h_last] at h_full
    rw [h_seg] at h_full h_le ⊢
    rw [if_neg (by simpa using h_last), h_full, Nat.mod_eq_of_lt (by omega : i < 2 ^ 16),
      Nat.mul_comm, Nat.mod_eq_of_lt (by omega)]
    exact toInt_of_lt (by omega)

theorem dgPlausible_dgSegmentOf (txid : Nat) {bundle : Octets} (i : Nat) :
    dgPlausible (dgSegmentOf txid bundle i) = true ↔ bundle.length ≤ quicclaBufsz ∧
      dgSegments bundle.length % 2 ^ 16 ≠ 0 := by
  have h_chunk : (dgChunk bundle i).length ≤ quicDgSeg := by
    rw [length_dgChunk]
    split <;> omega
  show (!(decide (bundle.length > quicclaBufsz) ||
    decide ((dgChunk bundle i).length > quicclaBufsz) ||
    decide (dgSegments bundle.length % 2 ^ 16 = 0))) = true ↔ _
  have h_not : ¬ (dgChunk bundle i).length > quicclaBufsz := by
    have h_lt : quicDgSeg ≤ quicclaBufsz := by decide
    omega
  rw [decide_eq_false h_not]
  simp

/-- The receiver has the segments `done` of a bundle and no others. -/
structure Collecting (txid : Nat) (bundle : Octets) (d : DgRx) (done : List Nat) : Prop where
  active : d.dgRxActive = true
  id : d.dgRxId = txid
  total : d.dgRxTotal = dgSegments bundle.length
  count : d.dgRxCount = done.length
  bundleLen : d.dgRxBundleLen = bundle.length
  cap : bundle.length ≤ d.dgRxCap
  nodup : done.Nodup
  lt : ∀ i ∈ done, i < dgSegments bundle.length
  seen : ∀ i < dgSegments bundle.length, d.dgRxSeen.marked i = true ↔ i ∈ done
  octets : ∀ i ∈ done, ∀ k b, (dgChunk bundle i)[k]? = some b →
    d.dgRxBuf (quicDgSeg * i + k) = b

/-- What a call leaves when it has placed a segment: the bundle goes out with the last one. -/
structure Placed (txid : Nat) (bundle : Octets) (out : DgOut) (done : List Nat) : Prop where
  last : done.length = dgSegments bundle.length →
    out.delivered = some bundle ∧ out.rx.dgRxActive = false
  more : done.length ≠ dgSegments bundle.length →
    out.delivered = none ∧ out.ok = true ∧ Collecting txid bundle out.rx done

theorem mem_of_length_eq {n : Nat} {done : List Nat} (h_nodup : done.Nodup)
    (h_lt : ∀ i ∈ done, i < n) (h_all : done.length = n) {i : Nat} (h_i : i < n) : i ∈ done := by
  have h_sub : done ⊆ List.range n := fun j h_j => List.mem_range.mpr (h_lt j h_j)
  have h_perm := (h_nodup.subperm h_sub).perm_of_length_le (by rw [List.length_range, h_all])
  exact h_perm.mem_iff.mpr (List.mem_range.mpr h_i)

/-- With all segments there, the buffer holds the bundle. -/
theorem Collecting.read_eq {txid : Nat} {bundle : Octets} {d : DgRx} {done : List Nat}
    (h : Collecting txid bundle d done) (h_all : done.length = dgSegments bundle.length) :
    d.dgRxBuf.read d.dgRxBundleLen = bundle := by
  rw [h.bundleLen]
  refine Memory.read_eq fun k b h_b => ?_
  have h_k : k < bundle.length := (List.getElem?_eq_some_iff.mp h_b).1
  have h_seg : quicDgSeg = 1024 := rfl
  have h_spec := dgSegments_spec bundle.length
  rw [h_seg] at h_spec
  have h_mem := mem_of_length_eq h.nodup h.lt h_all (i := k / 1024) (by omega)
  have h_chunk : (dgChunk bundle (k / 1024))[k % 1024]? = some b := by
    rw [dgChunk, h_seg, List.getElem?_take_of_lt (Nat.mod_lt _ (by decide)),
      List.getElem?_drop, Nat.div_add_mod]
    exact h_b
  have h_octet := h.octets _ h_mem _ b h_chunk
  rwa [h_seg, Nat.div_add_mod] at h_octet

theorem Collecting.store {txid : Nat} {bundle : Octets} {d : DgRx} {done : List Nat}
    (h : Collecting txid bundle d done) (h_len : bundle.length ≤ quicclaBufsz) {i : Nat}
    (h_i : i < dgSegments bundle.length) (h_new : i ∉ done) :
    Collecting txid bundle
      (dgStore d (dgSegmentOf txid bundle i) (quicDgSeg * i) (dgChunk bundle i)) (i :: done) := by
  obtain ⟨-, h_few⟩ := dgSegments_bounds h_len
  have h_id : (dgSegmentOf txid bundle i).segmentId = i := Nat.mod_eq_of_lt (by omega)
  have h_unseen : ¬ d.dgRxSeen.marked i = true := fun h_seen => h_new ((h.seen i h_i).mp h_seen)
  unfold dgStore
  simp only [h_id]
  rw [if_neg h_unseen]
  refine ⟨h.active, h.id, h.total, ?_, h.bundleLen, h.cap, ?_, ?_, ?_, ?_⟩
  · simp only [h.count, List.length_cons]
  · exact List.nodup_cons.mpr ⟨h_new, h.nodup⟩
  · exact List.forall_mem_cons.mpr ⟨h_i, h.lt⟩
  · intro j h_j
    simp only [Memory.marked_mark, Bool.or_eq_true, decide_eq_true_eq, List.mem_cons,
      h.seen j h_j]
  · intro j h_j k b h_b
    rcases List.mem_cons.mp h_j with rfl | h_old
    · exact Memory.write_at h_b
    · have h_ne : j ≠ i := fun h_eq => h_new (h_eq ▸ h_old)
      have h_k : k < (dgChunk bundle j).length := (List.getElem?_eq_some_iff.mp h_b).1
      have h_chunk : ∀ m, (dgChunk bundle m).length ≤ 1024 := fun m => List.length_take_le _ _
      have h_this := h_chunk i
      have h_that := h_chunk j
      have h_seg : quicDgSeg = 1024 := rfl
      have h_outside : quicDgSeg * j + k < quicDgSeg * i ∨
          quicDgSeg * i + (dgChunk bundle i).length ≤ quicDgSeg * j + k := by
        rw [h_seg]
        omega
      exact (Memory.write_outside h_outside).trans (h.octets j h_old k b h_b)

/-- A segment that is not there yet finds its place. -/
theorem Collecting.place {txid : Nat} {bundle : Octets} {d : DgRx} {done : List Nat}
    (h : Collecting txid bundle d done) (h_len : bundle.length ≤ quicclaBufsz) {i : Nat}
    (h_i : i < dgSegments bundle.length) (h_new : i ∉ done) (env : DgEnv) :
    Placed txid bundle (dgPlace d (dgSegmentOf txid bundle i) (dgChunk bundle i) env)
      (i :: done) := by
  obtain ⟨-, h_few⟩ := dgSegments_bounds h_len
  obtain ⟨h_le, -⟩ := dgChunk_bounds h_i
  have h_id : (dgSegmentOf txid bundle i).segmentId = i := Nat.mod_eq_of_lt (by omega)
  have h_off : dgOffset (dgSegmentOf txid bundle i) = (quicDgSeg * i : Nat) :=
    dgOffset_dgSegmentOf h_len h_i
  have h_dataLen : (dgSegmentOf txid bundle i).segmentLength = (dgChunk bundle i).length := rfl
  have h_cap := h.cap
  have h_store := h.store h_len h_i h_new
  unfold dgPlace
  rw [h_id, h_off, h_dataLen, if_neg (by rw [h.total]; omega), if_neg (by omega),
    Int.toNat_natCast]
  unfold dgFinish
  rw [h_store.count, h_store.total]
  constructor
  · intro h_all
    rw [if_pos h_all]
    exact ⟨congrArg some (h_store.read_eq h_all), rfl⟩
  · intro h_more
    rw [if_neg h_more]
    exact ⟨rfl, rfl, h_store⟩

/-- There is memory to begin a reassembly. -/
def canBegin (d : DgRx) (seg : QuicXferSegment) (env : DgEnv) : Prop :=
  (seg.bundleLength > d.dgRxCap → env.buf.isSome = true) ∧
    ((seg.totalSegments + 7) / 8 > d.dgRxSeenCap → env.seen.isSome = true)

theorem dgBegin_snd (d : DgRx) (seg : QuicXferSegment) (env : DgEnv) :
    (dgBegin d seg env).2 = true ↔ canBegin d seg env := by
  unfold dgBegin dgGrowBuf dgGrowSeen canBegin
  dsimp only
  by_cases h_buf : seg.bundleLength > d.dgRxCap
  · rw [if_pos h_buf]
    cases h_block : env.buf with
    | none => simp [h_buf]
    | some m =>
      dsimp only [Option.map_some]
      by_cases h_seen : (seg.totalSegments + 7) / 8 > d.dgRxSeenCap
      · rw [if_pos h_seen]
        cases env.seen with
        | none => simp [h_seen]
        | some m => simp
      · rw [if_neg h_seen]
        simp [h_seen]
  · rw [if_neg h_buf]
    dsimp only
    by_cases h_seen : (seg.totalSegments + 7) / 8 > d.dgRxSeenCap
    · rw [if_pos h_seen]
      cases env.seen with
      | none => simp [h_seen]
      | some m => simp [h_buf]
    · rw [if_neg h_seen]
      simp [h_buf, h_seen]

theorem collecting_begin {txid : Nat} {bundle : Octets} {d d' : DgRx} {env : DgEnv} {i : Nat}
    (h_len : bundle.length ≤ quicclaBufsz)
    (h : dgBegin d (dgSegmentOf txid bundle i) env = (d', true)) :
    Collecting txid bundle d' [] := by
  obtain ⟨-, h_few⟩ := dgSegments_bounds h_len
  have h_total : (dgSegmentOf txid bundle i).totalSegments = dgSegments bundle.length :=
    Nat.mod_eq_of_lt (by omega)
  rcases dgBegin_cases d (dgSegmentOf txid bundle i) env with
    ⟨d₁, h_eq, -⟩ | ⟨buf, cap, seen, seenCap, h_cap, h_eq⟩
  · rw [h] at h_eq
    cases h_eq
  · rw [h] at h_eq
    obtain ⟨rfl, -⟩ := Prod.mk.inj h_eq
    refine ⟨rfl, rfl, h_total, rfl, rfl, h_cap, List.nodup_nil, by simp, ?_, by simp⟩
    intro j h_j
    have h_zero := Memory.marked_zero (m := seen) (i := j)
      (n := ((dgSegmentOf txid bundle i).totalSegments + 7) / 8) (by rw [h_total]; omega)
    simp only [h_zero, Bool.false_eq_true, List.not_mem_nil]

theorem DgConn.recv_ok {w : DgConn} (h_ok : w.failed = false) (e : Octets × DgEnv) :
    w.recv e = ⟨(recvDatagramCb w.rx e.1 e.2).rx, !(recvDatagramCb w.rx e.1 e.2).ok,
      w.delivered ++ (recvDatagramCb w.rx e.1 e.2).delivered.toList⟩ := by
  rw [DgConn.recv, h_ok, if_neg Bool.false_ne_true]

/-- A connection that has failed takes nothing in. -/
theorem DgConn.run_failed {w : DgConn} (h_failed : w.failed = true)
    (es : List (Octets × DgEnv)) : w.run es = w := by
  induction es with
  | nil => rfl
  | cons e es ih =>
    show (w.recv e).run es = w
    rw [DgConn.recv, if_pos h_failed, ih]

theorem DgConn.run_append (w : DgConn) (es fs : List (Octets × DgEnv)) :
    w.run (es ++ fs) = (w.run es).run fs := List.foldl_append

/-- With `left` still to come, some segment of the transfer will be missing: one is gone
    already, and what is being collected lacks one that is gone or the first, which begins
    everything anew. -/
def Behind (txid : Nat) (bundle : Octets) (d : DgRx) (left : List Nat) : Prop :=
  (∃ j, j < dgSegments bundle.length ∧ j ∉ left) ∧
    (d.dgRxActive = true → d.dgRxId = txid → ∃ done, Collecting txid bundle d done ∧
      (∀ i ∈ done, i ∉ left) ∧
        ∃ m, m < dgSegments bundle.length ∧ m ∉ done ∧ (m ∉ left ∨ m = 0))

section Transfer

variable {txid : Nat} {bundle : Octets} {d : DgRx} {env : DgEnv} {i : Nat}
  (h_txid : txid < 2 ^ 64) (h_len : bundle.length ≤ quicclaBufsz)

include h_txid h_len

/-- What the receiver does with a datagram of the transfer. -/
theorem recvDatagramCb_datagram (d : DgRx) (env : DgEnv) (i : Nat) :
    recvDatagramCb d (dgDatagram txid bundle i) env =
      if dgBegins d (dgSegmentOf txid bundle i) then
        match dgBegin d (dgSegmentOf txid bundle i) env with
        | (d, false) => ⟨d, none, true⟩
        | (d, true) => dgPlace d (dgSegmentOf txid bundle i) (dgChunk bundle i) env
      else dgPlace d (dgSegmentOf txid bundle i) (dgChunk bundle i) env := by
  obtain ⟨h_pos, h_few⟩ := dgSegments_bounds h_len
  have h_buf : quicclaBufsz = 256 * 1024 := rfl
  have h_plausible : dgPlausible (dgSegmentOf txid bundle i) = true :=
    (dgPlausible_dgSegmentOf txid i).mpr ⟨h_len, by omega⟩
  rw [recvDatagramCb, dgReceived_datagram i h_txid (by omega)]
  dsimp only
  rw [dgReassemble, h_plausible, Bool.not_true, if_neg Bool.false_ne_true]

theorem recv_joins {done : List Nat} (h : Collecting txid bundle d done)
    (h_i : i < dgSegments bundle.length) (h_start : i ≠ 0) (h_new : i ∉ done) :
    Placed txid bundle (recvDatagramCb d (dgDatagram txid bundle i) env) (i :: done) := by
  have h_joins : ¬ dgBegins d (dgSegmentOf txid bundle i) = true := by
    have h_id : (dgSegmentOf txid bundle i).transferId = txid := rfl
    unfold dgBegins
    rw [(hasFlag_dgSegmentOf txid bundle i).1, h.active, h.id, h_id]
    simp [h_start]
  rw [recvDatagramCb_datagram h_txid h_len, if_neg h_joins]
  exact h.place h_len h_i h_new env

theorem recv_begins (h_begins : dgBegins d (dgSegmentOf txid bundle i) = true)
    (h_i : i < dgSegments bundle.length) (h_mem : canBegin d (dgSegmentOf txid bundle i) env) :
    Placed txid bundle (recvDatagramCb d (dgDatagram txid bundle i) env) [i] := by
  have h_snd := (dgBegin_snd d (dgSegmentOf txid bundle i) env).mpr h_mem
  obtain ⟨d', h_eq⟩ : ∃ d', dgBegin d (dgSegmentOf txid bundle i) env = (d', true) :=
    ⟨_, Prod.ext rfl h_snd⟩
  rw [recvDatagramCb_datagram h_txid h_len, if_pos h_begins, h_eq]
  exact (collecting_begin h_len h_eq).place h_len h_i List.not_mem_nil env

theorem recv_noMemory (h_begins : dgBegins d (dgSegmentOf txid bundle i) = true)
    (h_mem : ¬ canBegin d (dgSegmentOf txid bundle i) env) :
    (recvDatagramCb d (dgDatagram txid bundle i) env).delivered = none ∧
      (recvDatagramCb d (dgDatagram txid bundle i) env).rx.dgRxActive = false := by
  rw [recvDatagramCb_datagram h_txid h_len, if_pos h_begins]
  rcases dgBegin_cases d (dgSegmentOf txid bundle i) env with
    ⟨d', h_eq, h_off⟩ | ⟨buf, cap, seen, seenCap, -, h_eq⟩
  · rw [h_eq]
    exact ⟨rfl, h_off⟩
  · exact absurd ((dgBegin_snd _ _ _).mp (by rw [h_eq])) h_mem

/-- The run lemma when START has come: the other segments complete the bundle. -/
theorem run_collecting {w : DgConn} {done : List Nat} (is : List Nat)
    (es : List (Octets × DgEnv)) (h_es : es.map Prod.fst = is.map (dgDatagram txid bundle))
    (h_ok : w.failed = false) (h : Collecting txid bundle w.rx done)
    (h_perm : (done ++ is).Perm (List.range (dgSegments bundle.length))) (h_some : is ≠ [])
    (h_start : 0 ∉ is) : (w.run es).delivered = w.delivered ++ [bundle] := by
  induction is generalizing w done es with
  | nil => exact absurd rfl h_some
  | cons i is ih =>
    obtain ⟨⟨data, env⟩, es, rfl⟩ : ∃ e es', es = e :: es' := by
      cases es with
      | nil => cases h_es
      | cons e es => exact ⟨e, es, rfl⟩
    obtain ⟨rfl, h_rest⟩ := List.cons_eq_cons.mp h_es
    have h_nodup : (done ++ i :: is).Nodup := h_perm.nodup_iff.mpr List.nodup_range
    have h_i : i < dgSegments bundle.length :=
      List.mem_range.mp (h_perm.mem_iff.mp (by simp))
    have h_new : i ∉ done := fun h_old =>
      (List.nodup_append.mp h_nodup).2.2 i h_old i List.mem_cons_self rfl
    have h_length := h_perm.length_eq
    rw [List.length_append, List.length_range, List.length_cons] at h_length
    have h_placed : Placed txid bundle (recvDatagramCb w.rx (dgDatagram txid bundle i) env)
        (i :: done) :=
      recv_joins h_txid h_len h h_i (fun h_zero => h_start (h_zero ▸ List.mem_cons_self)) h_new
    show ((w.recv (dgDatagram txid bundle i, env)).run es).delivered = _
    rw [DgConn.recv_ok h_ok]
    by_cases h_last : is = []
    · subst h_last
      obtain rfl : es = [] := List.map_eq_nil_iff.mp h_rest
      obtain ⟨h_delivered, -⟩ := h_placed.last (by rw [List.length_cons]; exact h_length)
      simp only [DgConn.run, List.foldl_nil, h_delivered, Option.toList_some]
    · have h_pos : 0 < is.length := List.length_pos_iff.mpr h_last
      obtain ⟨h_delivered, h_out, h_collecting⟩ :=
        h_placed.more (by rw [List.length_cons]; omega)
      refine (ih es h_rest ?_ h_collecting (List.perm_middle.symm.trans h_perm) h_last
        fun h_mem => h_start (List.mem_cons_of_mem i h_mem)).trans ?_
      · simp only [h_out, Bool.not_true]
      · simp only [h_delivered, Option.toList_none, List.append_nil]

/-- The step lemma when a segment will be missing. -/
theorem recv_behind {is : List Nat} (h : Behind txid bundle d (i :: is))
    (h_i : i < dgSegments bundle.length) (h_nodup : (i :: is).Nodup) :
    (recvDatagramCb d (dgDatagram txid bundle i) env).delivered = none ∧
      Behind txid bundle (recvDatagramCb d (dgDatagram txid bundle i) env).rx is := by
  obtain ⟨⟨j, h_j, h_gone⟩, h_coll⟩ := h
  have h_gone' : j ∉ is := fun h_mem => h_gone (List.mem_cons_of_mem i h_mem)
  have h_ne : j ≠ i := fun h_eq => h_gone (h_eq ▸ List.mem_cons_self)
  by_cases h_begins : dgBegins d (dgSegmentOf txid bundle i) = true
  · by_cases h_mem : canBegin d (dgSegmentOf txid bundle i) env
    · -- With START it is the one that is gone that is missing, else START itself.
      obtain ⟨m, h_m, h_mi, h_later⟩ : ∃ m, m < dgSegments bundle.length ∧ m ∉ [i] ∧
          (m ∉ is ∨ m = 0) := by
        by_cases h_start : i = 0
        · exact ⟨j, h_j, by simpa using h_ne, Or.inl h_gone'⟩
        · exact ⟨0, by omega, by simpa using Ne.symm h_start, Or.inr rfl⟩
      obtain ⟨h_none, -, h_new⟩ := (recv_begins h_txid h_len h_begins h_i h_mem).more
        fun h_all => h_mi (mem_of_length_eq (List.nodup_singleton i) (by simpa using h_i)
          h_all h_m)
      refine ⟨h_none, ⟨j, h_j, h_gone'⟩, fun _ _ => ⟨[i], h_new, ?_, m, h_m, h_mi, h_later⟩⟩
      intro k h_k
      rw [List.mem_singleton.mp h_k]
      exact (List.nodup_cons.mp h_nodup).1
    · obtain ⟨h_none, h_off⟩ := recv_noMemory h_txid h_len h_begins h_mem
      refine ⟨h_none, ⟨j, h_j, h_gone'⟩, fun h_active => ?_⟩
      rw [h_off] at h_active
      cases h_active
  · have h_joins : i ≠ 0 ∧ d.dgRxActive = true ∧ d.dgRxId = txid := by
      have h_id : (dgSegmentOf txid bundle i).transferId = txid := rfl
      rw [dgBegins, (hasFlag_dgSegmentOf txid bundle i).1, h_id] at h_begins
      simp only [Bool.or_eq_true, decide_eq_true_eq, Bool.not_eq_true', bne_iff_ne, ne_eq,
        not_or, Bool.not_eq_false, Decidable.not_not] at h_begins
      exact ⟨h_begins.1.1, h_begins.1.2, h_begins.2.symm⟩
    obtain ⟨h_start, h_active, h_id⟩ := h_joins
    obtain ⟨done, h_done, h_apart, m, h_m, h_miss, h_later⟩ := h_coll h_active h_id
    have h_new : i ∉ done := fun h_old => h_apart i h_old List.mem_cons_self
    have h_miss' : m ∉ i :: done := by
      intro h_mem
      rcases List.mem_cons.mp h_mem with rfl | h_old
      · rcases h_later with h_not | h_zero
        · exact h_not List.mem_cons_self
        · exact h_start h_zero
      · exact h_miss h_old
    have h_placed : Placed txid bundle (recvDatagramCb d (dgDatagram txid bundle i) env)
        (i :: done) :=
      recv_joins h_txid h_len h_done h_i h_start h_new
    obtain ⟨h_none, -, h_coll'⟩ := h_placed.more fun h_all =>
      h_miss' (mem_of_length_eq (List.nodup_cons.mpr ⟨h_new, h_done.nodup⟩)
        (List.forall_mem_cons.mpr ⟨h_i, h_done.lt⟩) h_all h_m)
    refine ⟨h_none, ⟨j, h_j, h_gone'⟩, fun _ _ => ⟨i :: done, h_coll', ?_, m, h_m, h_miss', ?_⟩⟩
    · refine List.forall_mem_cons.mpr ⟨(List.nodup_cons.mp h_nodup).1, fun k h_k h_mem => ?_⟩
      exact h_apart k h_k (List.mem_cons_of_mem i h_mem)
    · exact h_later.imp_left fun h_not h_mem => h_not (List.mem_cons_of_mem i h_mem)

/-- A first datagram without START, or without memory. -/
theorem recv_first_behind {is : List Nat}
    (h_begins : dgBegins d (dgSegmentOf txid bundle i) = true)
    (h_i : i < dgSegments bundle.length) (h_nodup : (i :: is).Nodup)
    (h_first : ¬ (i = 0 ∧ canBegin d (dgSegmentOf txid bundle i) env)) :
    (recvDatagramCb d (dgDatagram txid bundle i) env).delivered = none ∧
      Behind txid bundle (recvDatagramCb d (dgDatagram txid bundle i) env).rx is := by
  have h_gone : i ∉ is := (List.nodup_cons.mp h_nodup).1
  by_cases h_mem : canBegin d (dgSegmentOf txid bundle i) env
  · have h_start : 0 ∉ [i] := by
      intro h_zero
      exact h_first ⟨(List.mem_singleton.mp h_zero).symm, h_mem⟩
    obtain ⟨h_none, -, h_new⟩ := (recv_begins h_txid h_len h_begins h_i h_mem).more
      fun h_all => h_start (mem_of_length_eq (List.nodup_singleton i) (by simpa using h_i)
        h_all (by omega))
    refine ⟨h_none, ⟨i, h_i, h_gone⟩, fun _ _ => ⟨[i], h_new, ?_, 0, by omega, h_start,
      Or.inr rfl⟩⟩
    intro k h_k
    rwa [List.mem_singleton.mp h_k]
  · obtain ⟨h_none, h_off⟩ := recv_noMemory h_txid h_len h_begins h_mem
    refine ⟨h_none, ⟨i, h_i, h_gone⟩, fun h_active => ?_⟩
    rw [h_off] at h_active
    cases h_active

/-- The run lemma when a segment will be missing. -/
theorem run_behind {w : DgConn} (is : List Nat) (es : List (Octets × DgEnv))
    (h_es : es.map Prod.fst = is.map (dgDatagram txid bundle))
    (h : Behind txid bundle w.rx is) (h_lt : ∀ i ∈ is, i < dgSegments bundle.length)
    (h_nodup : is.Nodup) : (w.run es).delivered = w.delivered := by
  induction is generalizing w es with
  | nil =>
    obtain rfl : es = [] := List.map_eq_nil_iff.mp h_es
    rfl
  | cons i is ih =>
    obtain ⟨⟨data, env⟩, es, rfl⟩ : ∃ e es', es = e :: es' := by
      cases es with
      | nil => cases h_es
      | cons e es => exact ⟨e, es, rfl⟩
    obtain ⟨rfl, h_rest⟩ := List.cons_eq_cons.mp h_es
    obtain ⟨h_i, h_lt⟩ := List.forall_mem_cons.mp h_lt
    obtain ⟨h_none, h_behind⟩ : (recvDatagramCb w.rx (dgDatagram txid bundle i) env).delivered =
          none ∧ Behind txid bundle (recvDatagramCb w.rx (dgDatagram txid bundle i) env).rx is :=
      recv_behind h_txid h_len h h_i h_nodup
    obtain ⟨⟨j, h_j, h_gone⟩, h_coll⟩ := h
    show ((w.recv (dgDatagram txid bundle i, env)).run es).delivered = _
    by_cases h_failed : w.failed = true
    · rw [DgConn.recv, if_pos h_failed, DgConn.run_failed h_failed]
    · rw [DgConn.recv_ok (Bool.eq_false_iff.mpr h_failed)]
      refine (ih es h_rest h_behind h_lt (List.nodup_cons.mp h_nodup).2).trans ?_
      simp only [h_none, Option.toList_none, List.append_nil]

end Transfer

/-- A bundle the receiver has no room for is not put together. -/
theorem run_oversize {txid : Nat} {bundle : Octets} {w : DgConn} (is : List Nat)
    (es : List (Octets × DgEnv)) (h_txid : txid < 2 ^ 64) (h_len : bundle.length < 2 ^ 31)
    (h_big : quicclaBufsz < bundle.length)
    (h_es : es.map Prod.fst = is.map (dgDatagram txid bundle)) :
    (w.run es).delivered = w.delivered := by
  induction is generalizing w es with
  | nil =>
    obtain rfl : es = [] := List.map_eq_nil_iff.mp h_es
    rfl
  | cons i is ih =>
    obtain ⟨⟨data, env⟩, es, rfl⟩ : ∃ e es', es = e :: es' := by
      cases es with
      | nil => cases h_es
      | cons e es => exact ⟨e, es, rfl⟩
    obtain ⟨rfl, h_rest⟩ := List.cons_eq_cons.mp h_es
    have h_drop : recvDatagramCb w.rx (dgDatagram txid bundle i) env = ⟨w.rx, none, true⟩ := by
      have h_imp : ¬ dgPlausible (dgSegmentOf txid bundle i) = true := fun h =>
        absurd ((dgPlausible_dgSegmentOf txid i).mp h).1 (by omega)
      rw [recvDatagramCb, dgReceived_datagram i h_txid h_len]
      dsimp only
      rw [dgReassemble, Bool.eq_false_iff.mpr h_imp, Bool.not_false, if_pos rfl]
    show ((w.recv (dgDatagram txid bundle i, env)).run es).delivered = _
    by_cases h_failed : w.failed = true
    · rw [DgConn.recv, if_pos h_failed, DgConn.run_failed h_failed]
    · rw [DgConn.recv_ok (Bool.eq_false_iff.mpr h_failed)]
      refine (ih es h_rest).trans ?_
      simp only [h_drop, Option.toList_none, List.append_nil]

/-! ## Which transfers arrive -/

/-- The datagram with START comes first and finds the memory it needs. -/
def StartsFirst (w : DgConn) (es : List (Octets × DgEnv)) : Prop :=
  ∃ e ∈ es.head?, ∃ x ∈ dgReceived e.1, x.1.isStart = true ∧ canBegin w.rx x.1 e.2

/-- While only others' datagrams come, the receiver is not collecting this transfer. -/
theorem run_others {txid : Nat} {w : DgConn} (pre : List (Octets × DgEnv))
    (h_other : ∀ e ∈ pre, ∀ x ∈ dgReceived e.1, x.1.transferId ≠ txid)
    (h : w.rx.dgRxActive = true → w.rx.dgRxId ≠ txid) :
    (w.run pre).rx.dgRxActive = true → (w.run pre).rx.dgRxId ≠ txid := by
  induction pre generalizing w with
  | nil => exact h
  | cons e pre ih =>
    refine ih (fun e' h_e' => h_other e' (List.mem_cons_of_mem e h_e')) ?_
    by_cases h_failed : w.failed = true
    · rw [DgConn.recv, if_pos h_failed]
      exact h
    rw [DgConn.recv_ok (Bool.eq_false_iff.mpr h_failed)]
    dsimp only
    have h_place : ∀ (d : DgRx) seg segData, (d.dgRxActive = true → d.dgRxId ≠ txid) →
        (dgPlace d seg segData e.2).rx.dgRxActive = true →
          (dgPlace d seg segData e.2).rx.dgRxId ≠ txid := by
      intro d seg segData h_d
      unfold dgPlace dgFinish dgStore
      split
      · exact h_d
      split
      · exact h_d
      dsimp only
      split <;> split
      · exact fun h_active => (by cases h_active)
      · exact h_d
      · exact fun h_active => (by cases h_active)
      · exact h_d
    unfold recvDatagramCb
    cases h_rcv : dgReceived e.1 with
    | none => exact h
    | some x =>
      obtain ⟨seg, segData⟩ := x
      have h_id : seg.transferId ≠ txid := h_other e List.mem_cons_self _ h_rcv
      dsimp only
      unfold dgReassemble
      split
      · exact h
      split
      · rcases dgBegin_cases w.rx seg e.2 with ⟨d', h_eq, h_off⟩ |
          ⟨buf, cap, seen, seenCap, -, h_eq⟩
        · rw [h_eq]
          intro h_active
          rw [h_off] at h_active
          cases h_active
        · rw [h_eq]
          exact h_place _ seg segData fun _ => h_id
      · exact h_place _ seg segData h

/-- **The transfers that are delivered**: those with the START datagram first. -/
theorem run_delivered_iff {txid : Nat} {bundle : Octets} {mem : Nat → Bool} {w : DgConn}
    {es : List (Octets × DgEnv)} (h_txid : txid < 2 ^ 64) (h_len : bundle.length < 2 ^ 31)
    (h_ok : w.failed = false) (h_fresh : w.rx.dgRxActive = true → w.rx.dgRxId ≠ txid)
    (h_all : (es.map Prod.fst).Perm (quicClientSendDatagram txid bundle mem)) :
    (w.run es).delivered = w.delivered ++ [bundle] ↔
      bundle.length ≤ quicclaBufsz ∧ (∀ j < dgSegments bundle.length, mem j = true) ∧
        StartsFirst w es := by
  obtain ⟨k, h_k, h_mem, h_nodes⟩ := quicClientSendDatagram_eq txid bundle mem
  rw [h_nodes] at h_all
  obtain ⟨is, h_es, h_perm⟩ :=
    (congrFun₂ (List.eq_map_comp_perm (dgDatagram txid bundle)) _ _).mpr h_all
  have h_nodup : is.Nodup := h_perm.nodup_iff.mpr List.nodup_range
  have h_lt : ∀ i ∈ is, i < dgSegments bundle.length := fun i h_i =>
    Nat.lt_of_lt_of_le (List.mem_range.mp (h_perm.mem_iff.mp h_i)) h_k
  -- Nothing is delivered when a segment will be missing.
  have h_not : bundle.length ≤ quicclaBufsz → Behind txid bundle w.rx is →
      ¬ (w.run es).delivered = w.delivered ++ [bundle] := by
    intro h_small h_behind h_eq
    rw [run_behind h_txid h_small is es h_es h_behind h_lt h_nodup] at h_eq
    simp at h_eq
  have h_idle : ∀ (left : List Nat), w.rx.dgRxActive = true → w.rx.dgRxId = txid →
      ∃ done, Collecting txid bundle w.rx done ∧ (∀ i ∈ done, i ∉ left) ∧
        ∃ m, m < dgSegments bundle.length ∧ m ∉ done ∧ (m ∉ left ∨ m = 0) :=
    fun _ h_active h_id => absurd h_id (h_fresh h_active)
  by_cases h_small : bundle.length ≤ quicclaBufsz
  swap
  · have h_same := run_oversize (w := w) is es h_txid h_len (by omega) h_es
    refine ⟨fun h_eq => ?_, fun h => absurd h.1 h_small⟩
    rw [h_same] at h_eq
    simp at h_eq
  by_cases h_full : k = dgSegments bundle.length
  swap
  · refine ⟨fun h_eq => absurd h_eq (h_not h_small ⟨⟨k, by omega, fun h_mem => ?_⟩, h_idle is⟩),
      fun h => absurd (h_mem.mpr h.2.1) h_full⟩
    exact absurd (List.mem_range.mp (h_perm.mem_iff.mp h_mem)) (Nat.lt_irrefl k)
  subst h_full
  obtain ⟨h_pos, -⟩ := dgSegments_bounds h_small
  have h_count := h_perm.length_eq
  rw [List.length_range] at h_count
  obtain ⟨i, is, rfl⟩ : ∃ i is', is = i :: is' := by
    cases is with
    | nil =>
      rw [List.length_nil] at h_count
      omega
    | cons i is => exact ⟨i, is, rfl⟩
  obtain ⟨⟨data, env⟩, es, rfl⟩ : ∃ e es', es = e :: es' := by
    cases es with
    | nil => cases h_es
    | cons e es => exact ⟨e, es, rfl⟩
  obtain ⟨rfl, h_rest⟩ := List.cons_eq_cons.mp h_es
  have h_i := h_lt i List.mem_cons_self
  have h_len' : bundle.length < 2 ^ 31 := h_len
  have h_starts : StartsFirst w ((dgDatagram txid bundle i, env) :: es) ↔
      i = 0 ∧ canBegin w.rx (dgSegmentOf txid bundle i) env := by
    simp only [StartsFirst, List.head?_cons, Option.mem_some_iff, exists_eq_left',
      dgReceived_datagram i h_txid h_len, (hasFlag_dgSegmentOf txid bundle i).1,
      decide_eq_true_eq]
  have h_begins : dgBegins w.rx (dgSegmentOf txid bundle i) = true := by
    have h_id : (dgSegmentOf txid bundle i).transferId = txid := rfl
    rw [dgBegins, h_id]
    cases h_active : w.rx.dgRxActive with
    | false => simp
    | true => simp [Ne.symm (h_fresh h_active)]
  show ((w.recv (dgDatagram txid bundle i, env)).run es).delivered = _ ↔ _
  rw [DgConn.recv_ok h_ok, h_starts]
  by_cases h_first : i = 0 ∧ canBegin w.rx (dgSegmentOf txid bundle i) env
  · obtain ⟨rfl, h_can⟩ := h_first
    refine iff_of_true ?_ ⟨h_small, h_mem.mp rfl, rfl, h_can⟩
    have h_placed := recv_begins h_txid h_small h_begins h_i h_can
    by_cases h_last : is = []
    · subst h_last
      obtain rfl : es = [] := List.map_eq_nil_iff.mp h_rest
      obtain ⟨h_delivered, -⟩ := h_placed.last h_count
      simp only [DgConn.run, List.foldl_nil, h_delivered, Option.toList_some]
    · have h_more : 0 < is.length := List.length_pos_iff.mpr h_last
      rw [List.length_cons] at h_count
      obtain ⟨h_none, h_out, h_collecting⟩ := h_placed.more (by
        rw [List.length_singleton]
        omega)
      refine (run_collecting h_txid h_small is es h_rest (by simp only [h_out, Bool.not_true])
        h_collecting h_perm h_last (List.nodup_cons.mp h_nodup).1).trans ?_
      simp only [h_none, Option.toList_none, List.append_nil]
  · refine iff_of_false (fun h_eq => ?_) fun h => h_first h.2.2
    obtain ⟨h_none, h_behind⟩ := recv_first_behind h_txid h_small h_begins h_i h_nodup h_first
    refine absurd ((run_behind h_txid h_small is es h_rest h_behind
      (fun j h_j => h_lt j (List.mem_cons_of_mem i h_j)) (List.nodup_cons.mp h_nodup).2).symm.trans
        h_eq) ?_
    simp [h_none]

/-- Whatever has arrived, the next datagram delivers only a sound bundle. -/
theorem run_sound (es : List (Octets × DgEnv)) (data : Octets) (env : DgEnv) :
    ∀ b ∈ (recvDatagramCb (DgConn.init.run es).rx data env).delivered,
      SoundBundle (sinceBegan (DgConn.init.run es).rx (DgConn.init.since [] es) data) b := by
  have h_init : DgConn.init.rx.dgRxActive = true → Tracks DgConn.init.rx [] := by
    intro h_active
    cases h_active
  exact (recvDatagramCb_safe data env (run_tracks es h_init)).sound

/-- **Bundles sent as datagrams.**  When all datagrams of a transfer come after those of
    others, the bundle is delivered, once and octet by octet, exactly if START comes first;
    and whatever comes, only sound bundles are delivered. -/
theorem datagrams_reassembled (pre : List (Octets × DgEnv)) :
    (∀ txid bundle mem es, txid < 2 ^ 64 → bundle.length ≤ 2 ^ 31 - quicDgSeg →
      (DgConn.init.run pre).failed = false →
      (∀ e ∈ pre, ∀ x ∈ dgReceived e.1, x.1.transferId ≠ txid) →
      (es.map Prod.fst).Perm (quicClientSendDatagram txid bundle mem) →
      ((DgConn.init.run (pre ++ es)).delivered =
          (DgConn.init.run pre).delivered ++ [bundle] ↔
        bundle.length ≤ quicclaBufsz ∧ (∀ j < dgSegments bundle.length, mem j = true) ∧
          StartsFirst (DgConn.init.run pre) es)) ∧
    ∀ data env, ∀ b ∈ (recvDatagramCb (DgConn.init.run pre).rx data env).delivered,
      SoundBundle (sinceBegan (DgConn.init.run pre).rx (DgConn.init.since [] pre) data) b := by
  refine ⟨fun txid bundle mem es h_txid h_len h_ok h_other h_all => ?_, run_sound pre⟩
  have h_seg : quicDgSeg = 1024 := rfl
  have h_init : DgConn.init.rx.dgRxActive = true → DgConn.init.rx.dgRxId ≠ txid := by
    intro h_active
    cases h_active
  rw [DgConn.run_append]
  exact run_delivered_iff h_txid (by omega) h_ok (run_others pre h_other h_init) h_all

/-- A call that gets all the memory it asks for, and a callback that takes the bundle. -/
def amplyServed : DgEnv := ⟨some fun _ => 0xff, some fun _ => 0xff, true⟩

/-- A bundle of two segments, in order. -/
theorem datagrams_reassembled_inOrder :
    (DgConn.init.run [(dgDatagram 0 (List.replicate 1025 7) 0, amplyServed),
      (dgDatagram 0 (List.replicate 1025 7) 1, amplyServed)]).delivered =
        [List.replicate 1025 7] := by
  have h_nodes : quicClientSendDatagram 0 (List.replicate 1025 7) (fun _ => true) =
      [dgDatagram 0 (List.replicate 1025 7) 0, dgDatagram 0 (List.replicate 1025 7) 1] := by
    obtain ⟨k, -, h_k, h_eq⟩ := quicClientSendDatagram_eq 0 (List.replicate 1025 7) fun _ => true
    rw [h_eq, h_k.mpr fun _ _ => rfl, List.length_replicate]
    rfl
  have h_len : (List.replicate 1025 (7 : UInt8)).length = 1025 := List.length_replicate
  refine ((datagrams_reassembled []).1 0 (List.replicate 1025 7) (fun _ => true)
    [(dgDatagram 0 (List.replicate 1025 7) 0, amplyServed),
      (dgDatagram 0 (List.replicate 1025 7) 1, amplyServed)]
    (by decide) (by rw [h_len]; decide) rfl (by simp) ?_).mpr ⟨by rw [h_len]; decide,
      fun _ _ => rfl, ?_⟩
  · rw [h_nodes]
    exact List.Perm.refl _
  · refine ⟨_, rfl, _, dgReceived_datagram 0 (by decide) (by rw [h_len]; decide), ?_, ?_⟩
    · rw [(hasFlag_dgSegmentOf _ _ 0).1]
      rfl
    · exact ⟨fun _ => rfl, fun _ => rfl⟩

/-- The same bundle with its END segment first is never delivered. -/
theorem endFirst_lost :
    ¬ ∀ txid bundle es, txid < 2 ^ 64 → bundle.length ≤ quicclaBufsz →
      (es.map Prod.fst).Perm (quicClientSendDatagram txid bundle fun _ => true) →
      (∀ e ∈ es, e.2 = amplyServed) → (DgConn.init.run es).delivered = [bundle] := by
  intro h_claim
  have h_len : (List.replicate 1025 (7 : UInt8)).length = 1025 := List.length_replicate
  have h_small : (List.replicate 1025 (7 : UInt8)).length ≤ quicclaBufsz := by
    rw [h_len]
    decide
  obtain ⟨k, -, h_k, h_eq⟩ := quicClientSendDatagram_eq 0 (List.replicate 1025 7) fun _ => true
  have h_two : k = 2 := by
    rw [h_k.mpr fun _ _ => rfl, h_len]
    rfl
  have h_lost := h_claim 0 (List.replicate 1025 7)
    [(dgDatagram 0 (List.replicate 1025 7) 1, amplyServed),
      (dgDatagram 0 (List.replicate 1025 7) 0, amplyServed)] (by decide) h_small
    (by rw [h_eq, h_two]; exact List.Perm.swap _ _ _)
    (List.forall_mem_cons.mpr ⟨rfl, List.forall_mem_singleton.mpr rfl⟩)
  have h_perm : ([(dgDatagram 0 (List.replicate 1025 7) 1, amplyServed),
      (dgDatagram 0 (List.replicate 1025 7) 0, amplyServed)].map Prod.fst).Perm
        (quicClientSendDatagram 0 (List.replicate 1025 7) fun _ => true) := by
    rw [h_eq, h_two]
    exact List.Perm.swap _ _ _
  obtain ⟨-, -, e, h_e, x, h_x, h_start, -⟩ :=
    (run_delivered_iff (by decide) (by rw [h_len]; decide) rfl
      (fun h_active => (by cases h_active)) h_perm).mp h_lost
  obtain rfl := Option.mem_some_iff.mp h_e
  rw [dgReceived_datagram 1 (by decide) (by rw [h_len]; decide), Option.mem_some_iff] at h_x
  rw [← h_x, (hasFlag_dgSegmentOf _ _ 1).1] at h_start
  cases h_start

end IonContrib.Quic
