/-
  IonContrib.Zcl.EncNumbers

  The numbers on the carriers an encoder cuts.

  Of all the calls only two touch the counters: a cut that makes a carrier
  (`CutStep`) and an abort.  So the headers so far are `Numbered`, and the
  encoder is `Ready` to go on: no carrier bears a number above its own, and the
  chunk it is in has all the numbers below the next one and no END.

  The sequence number has 32 bits and nothing ends a chunk before it wraps
  round (`number_reused`).
-/
import IonContrib.Zcl.Enc

namespace IonContrib.Zcl

open Octets

/-! ## Lawful numbers -/

/-- The headers of carriers, in the order in which they were cut. -/
structure Numbered (hs : List ZclHeader) : Prop where
  increasing : hs.Pairwise fun a b =>
    a.chunkId < b.chunkId ∨ a.chunkId = b.chunkId ∧ a.seq < b.seq
  /-- The sequence numbers of a chunk are 0, 1, …. -/
  contiguous : ∀ chunk, (hs.filter (·.chunkId = chunk)).map (·.seq) =
    List.range (hs.filter (·.chunkId = chunk)).length
  /-- Nothing follows the END of a chunk, not even another one. -/
  ended : hs.Pairwise fun a b => a.chunkId = b.chunkId → a.flags ≠ zclFlagEnd

theorem numbered_nil : Numbered [] := ⟨List.Pairwise.nil, fun _ => rfl, List.Pairwise.nil⟩

/-- No number is on two carriers. -/
theorem Numbered.nodup {hs : List ZclHeader} (h : Numbered hs) :
    (hs.map fun h => (h.chunkId, h.seq)).Nodup := by
  apply List.pairwise_map.mpr
  refine h.increasing.imp fun h_lt h_eq => ?_
  obtain ⟨h_chunk, h_seq⟩ := Prod.mk.inj h_eq
  omega

/-- The carriers so far leave these numbers to the next one. -/
structure Ready (hs : List ZclHeader) (chunkId seq : Nat) : Prop where
  le : ∀ h ∈ hs, h.chunkId ≤ chunkId
  here : (hs.filter (·.chunkId = chunkId)).map (·.seq) = List.range seq
  unfinished : ∀ h ∈ hs, h.chunkId = chunkId → h.flags ≠ zclFlagEnd

namespace Ready

variable {hs : List ZclHeader} {chunkId seq : Nat}

theorem length_here (h : Ready hs chunkId seq) :
    (hs.filter (·.chunkId = chunkId)).length = seq := by
  have h_len := congrArg List.length h.here
  rwa [List.length_map, List.length_range] at h_len

/-- What is in the chunk already is below. -/
theorem seq_lt (h : Ready hs chunkId seq) {a : ZclHeader} (h_a : a ∈ hs)
    (h_chunk : a.chunkId = chunkId) : a.seq < seq := by
  have h_mem : a.seq ∈ (hs.filter (·.chunkId = chunkId)).map (·.seq) :=
    List.mem_map_of_mem (List.mem_filter.mpr ⟨h_a, by simpa using h_chunk⟩)
  rw [h.here] at h_mem
  exact List.mem_range.mp h_mem

/-- One more carrier with the next number. -/
theorem snoc (h : Ready hs chunkId seq) (h_num : Numbered hs) {a : ZclHeader}
    (h_chunk : a.chunkId = chunkId) (h_seq : a.seq = seq) : Numbered (hs ++ [a]) := by
  refine ⟨?_, fun chunk => ?_, ?_⟩
  · refine List.pairwise_append.mpr ⟨h_num.increasing, List.pairwise_singleton _ _, ?_⟩
    intro b h_b a' h_a'
    rw [List.mem_singleton.mp h_a']
    have h_le := h.le b h_b
    by_cases h_same : b.chunkId = chunkId
    · right
      rw [h_chunk, h_seq]
      exact ⟨h_same, h.seq_lt h_b h_same⟩
    · left
      omega
  · rw [List.filter_append, List.map_append, List.length_append, h_num.contiguous chunk]
    by_cases h_here : chunkId = chunk
    · subst h_here
      have h_a : [a].filter (·.chunkId = chunkId) = [a] := by
        rw [List.filter_singleton, decide_eq_true h_chunk]
        rfl
      rw [h_a, h.length_here, List.length_singleton, List.range_succ, List.map_singleton, h_seq]
    · have h_a : [a].filter (·.chunkId = chunk) = [] := by
        rw [List.filter_singleton, decide_eq_false (h_chunk ▸ h_here)]
        rfl
      rw [h_a, List.map_nil, List.append_nil, List.length_nil, Nat.add_zero]
  · refine List.pairwise_append.mpr ⟨h_num.ended, List.pairwise_singleton _ _, ?_⟩
    intro b h_b a' h_a' h_same
    rw [List.mem_singleton.mp h_a'] at h_same
    exact h.unfinished b h_b (h_same.trans h_chunk)

/-- The chunk goes on after a carrier that does not end it. -/
theorem next (h : Ready hs chunkId seq) {a : ZclHeader} (h_chunk : a.chunkId = chunkId)
    (h_seq : a.seq = seq) (h_flags : a.flags ≠ zclFlagEnd) :
    Ready (hs ++ [a]) chunkId (seq + 1) := by
  refine ⟨fun b h_b => ?_, ?_, fun b h_b h_same => ?_⟩
  · rcases List.mem_append.mp h_b with h_b | h_b
    · exact h.le b h_b
    · rw [List.mem_singleton.mp h_b]
      exact Nat.le_of_eq h_chunk
  · have h_a : [a].filter (·.chunkId = chunkId) = [a] := by
      rw [List.filter_singleton, decide_eq_true h_chunk]
      rfl
    rw [List.filter_append, List.map_append, h.here, h_a, List.range_succ, List.map_singleton,
      h_seq]
  · rcases List.mem_append.mp h_b with h_b | h_b
    · exact h.unfinished b h_b h_same
    · rw [List.mem_singleton.mp h_b]
      exact h_flags

/-- A chunk with a number above all others. -/
theorem fresh {chunk : Nat} (h : ∀ b ∈ hs, b.chunkId < chunk) : Ready hs chunk 0 := by
  have h_none : hs.filter (·.chunkId = chunk) = [] := by
    refine List.filter_eq_nil_iff.mpr fun b h_b h_same => ?_
    have h_lt := h b h_b
    have h_eq : b.chunkId = chunk := by simpa using h_same
    omega
  refine ⟨fun b h_b => Nat.le_of_lt (h b h_b), ?_, fun b h_b h_same => ?_⟩
  · rw [h_none]
    rfl
  · have h_lt := h b h_b
    omega

end Ready

/-! ## What a call does to the counters -/

variable {c : ZclEncCfg}

/-- The fields that compressing leaves alone. -/
structure SameNumbers (w w' : ZclEncRun c) : Prop where
  streamId : w'.enc.streamId = w.enc.streamId
  chunkId : w'.enc.chunkId = w.enc.chunkId
  seq : w'.enc.seq = w.enc.seq
  inChunk : w'.enc.inChunk = w.enc.inChunk
  pendingIn : w'.enc.pendingIn = w.enc.pendingIn
  cut : w'.cut = w.cut

namespace SameNumbers

theorem refl (w : ZclEncRun c) : SameNumbers w w := ⟨rfl, rfl, rfl, rfl, rfl, rfl⟩

theorem trans {w w' w'' : ZclEncRun c} (h : SameNumbers w w') (h' : SameNumbers w' w'') :
    SameNumbers w w'' where
  streamId := h'.streamId.trans h.streamId
  chunkId := h'.chunkId.trans h.chunkId
  seq := h'.seq.trans h.seq
  inChunk := h'.inChunk.trans h.inChunk
  pendingIn := h'.pendingIn.trans h.pendingIn
  cut := h'.cut.trans h.cut

end SameNumbers

theorem growOut_same (w : ZclEncRun c) (want : Nat) : SameNumbers w (growOut c w want).1 := by
  rcases growOut_cases c w want with ⟨h_eq, -⟩ | ⟨cap, h_eq, -⟩ | h_eq
  · rw [h_eq]
    exact SameNumbers.refl w
  · rw [h_eq]
    exact ⟨rfl, rfl, rfl, rfl, rfl, rfl⟩
  · rw [h_eq]
    exact ⟨rfl, rfl, rfl, rfl, rfl, rfl⟩

theorem makeRoom_same (w : ZclEncRun c) : SameNumbers w (makeRoom c w).1 := by
  unfold makeRoom
  split
  · exact growOut_same w _
  · exact SameNumbers.refl w

theorem zPut_same (w : ZclEncRun c) (call : ZPut c.z.CCtx) : SameNumbers w (zPut c w call) :=
  ⟨rfl, rfl, rfl, rfl, rfl, rfl⟩

theorem compressLoop_same (w : ZclEncRun c) (input : Octets) (dir : ZDirective) :
    SameNumbers w (compressLoop c w input dir).1 := by
  induction w, input using compressLoop.induct c dir with
  | case1 w input h_room call h_err =>
    rw [compressLoop, dif_pos h_room, dif_pos h_err]
    exact (makeRoom_same w).trans (zPut_same _ _)
  | case2 w input h_room call h_err h_done =>
    rw [compressLoop, dif_pos h_room, dif_neg h_err, dif_pos h_done]
    exact (makeRoom_same w).trans (zPut_same _ _)
  | case3 w input h_room call w' h_err h_done ih =>
    rw [compressLoop, dif_pos h_room, dif_neg h_err, dif_neg h_done]
    exact ((makeRoom_same w).trans (zPut_same _ _)).trans ih
  | case4 w input h_room =>
    rw [compressLoop, dif_neg h_room]
    exact makeRoom_same w

theorem compress_same (w : ZclEncRun c) (data : Octets) (dir : ZDirective) :
    SameNumbers w (compress c w data dir).1 := by
  unfold compress
  cases w.enc.out with
  | some out => exact compressLoop_same w data dir
  | none =>
    have h_grow := growOut_same w (zclHdrLen + c.z.outSize)
    dsimp only
    generalize growOut c w (zclHdrLen + c.z.outSize) = grown at h_grow
    rcases grown with ⟨w', got⟩
    cases got with
    | false => exact h_grow
    | true =>
      have h_new : SameNumbers w' { w' with enc := { w'.enc with out := some [] } } :=
        ⟨rfl, rfl, rfl, rfl, rfl, rfl⟩
      exact (h_grow.trans h_new).trans (compressLoop_same _ data dir)

/-- Adding a bundle cuts nothing and takes no number. -/
structure SameCut (w w' : ZclEncRun c) : Prop where
  streamId : w'.enc.streamId = w.enc.streamId
  chunkId : w'.enc.chunkId = w.enc.chunkId
  seq : w'.enc.seq = w.enc.seq
  cut : w'.cut = w.cut

theorem SameNumbers.sameCut {w w' : ZclEncRun c} (h : SameNumbers w w') : SameCut w w' :=
  ⟨h.streamId, h.chunkId, h.seq, h.cut⟩

/-- A bundle that is added is fed to the compressor behind its length. -/
theorem zclEncAdd_spec (w : ZclEncRun c) (bundle : Octets) :
    ((zclEncAdd c w bundle).2 = -1 ∧ SameCut w (zclEncAdd c w bundle).1) ∨
      ∃ w₁ w₂, compress c w (beBytes 4 bundle.length) .goOn = (w₁, true) ∧
        compress c w₁ bundle .goOn = (w₂, true) ∧
        (0 < bundle.length ∧ bundle.length ≤ 0xffffffff) ∧
        zclEncAdd c w bundle = ({ w₂ with enc := { w₂.enc with
          inChunk := true
          chunkIn := (w₂.enc.chunkIn + bundle.length) % 2 ^ 64
          pendingIn := (w₂.enc.pendingIn + bundle.length) % 2 ^ 64 } }, 0) := by
  unfold zclEncAdd
  split
  · exact Or.inl ⟨rfl, (SameNumbers.refl w).sameCut⟩
  rename_i h_len
  have h_first := compress_same w (beBytes 4 bundle.length) .goOn
  cases h_hdr : compress c w (beBytes 4 bundle.length) .goOn with
  | mk w₁ ok =>
    rw [h_hdr] at h_first
    cases ok with
    | false => exact Or.inl ⟨rfl, h_first.sameCut⟩
    | true =>
      have h_second := compress_same w₁ bundle .goOn
      dsimp only
      cases h_body : compress c w₁ bundle .goOn with
      | mk w₂ ok =>
        rw [h_body] at h_second
        cases ok with
        | false => exact Or.inl ⟨rfl, (h_first.trans h_second).sameCut⟩
        | true => exact Or.inr ⟨w₁, w₂, rfl, h_body, by omega, rfl⟩

theorem zclEncAdd_same (w : ZclEncRun c) (bundle : Octets) :
    SameCut w (zclEncAdd c w bundle).1 := by
  rcases zclEncAdd_spec w bundle with ⟨-, h_same⟩ | ⟨w₁, w₂, h_hdr, h_body, -, h_eq⟩
  · exact h_same
  · have h_first := compress_same w (beBytes 4 bundle.length) .goOn
    have h_second := compress_same w₁ bundle .goOn
    rw [h_hdr] at h_first
    rw [h_body] at h_second
    have h_all := h_first.trans h_second
    rw [h_eq]
    exact ⟨h_all.streamId, h_all.chunkId, h_all.seq, h_all.cut⟩

/-- A cut that made a carrier. -/
structure CutStep (w w' : ZclEncRun c) (endChunk : Bool) (payload : Octets) : Prop where
  small : payload.length ≤ zclMaxCarrier
  cut : w'.cut = w.cut ++ [zclHeaderPut (nextHeader w.enc endChunk payload) payload ++ payload]
  streamId : w'.enc.streamId = w.enc.streamId
  chunkId : w'.enc.chunkId =
    if endChunk then (w.enc.chunkId + 1) % 2 ^ 64 else w.enc.chunkId
  seq : w'.enc.seq = if endChunk then 0 else (w.enc.seq + 1) % 2 ^ 32
  /-- The chunk was open, with something in it that is not cut yet unless this ends it. -/
  going : w.enc.inChunk = true ∧ (endChunk = false → w.enc.pendingIn ≠ 0)

/-- The directive a cut gives. -/
def cutDirective (endChunk : Bool) : ZDirective := if endChunk then .finish else .flush

/-- There is nothing to cut, the cut fails, or it makes a carrier of what the compressor has
    put out. -/
theorem zclEncCut_spec (w : ZclEncRun c) (endChunk : Bool) :
    (zclEncCut c w endChunk = (w, 0) ∧
        (w.enc.inChunk = false ∨ w.enc.pendingIn = 0 ∧ endChunk = false)) ∨
      ((zclEncCut c w endChunk).2 = -1 ∧ SameCut w (zclEncCut c w endChunk).1) ∨
      ∃ w₁, compress c w [] (cutDirective endChunk) = (w₁, true) ∧
        (w₁.enc.out.getD []).length ≤ zclMaxCarrier ∧
        (w.enc.inChunk = true ∧ (endChunk = false → w.enc.pendingIn ≠ 0)) ∧
        zclEncCut c w endChunk = ({ w₁ with
          enc := afterCut w₁.enc endChunk
          cut := w₁.cut ++ [zclHeaderPut (nextHeader w₁.enc endChunk (w₁.enc.out.getD []))
            (w₁.enc.out.getD []) ++ w₁.enc.out.getD []] }, 1) := by
  unfold zclEncCut
  by_cases h_idle : (!w.enc.inChunk) = true ∨ w.enc.pendingIn = 0 ∧ (!endChunk) = true
  · rw [if_pos h_idle]
    exact Or.inl ⟨rfl, by simpa using h_idle⟩
  rw [if_neg h_idle]
  have h_same := compress_same w [] (if endChunk then .finish else .flush)
  cases h_out : compress c w [] (if endChunk then .finish else .flush) with
  | mk w₁ ok =>
    rw [h_out] at h_same
    cases ok with
    | false => exact Or.inr (Or.inl ⟨rfl, h_same.sameCut⟩)
    | true =>
      dsimp only
      by_cases h_large : (w₁.enc.out.getD []).length > zclMaxCarrier
      · rw [if_pos h_large]
        exact Or.inr (Or.inl ⟨rfl, h_same.sameCut⟩)
      · rw [if_neg h_large]
        rw [not_or, not_and] at h_idle
        exact Or.inr (Or.inr ⟨w₁, h_out, Nat.not_lt.mp h_large,
          ⟨by simpa using h_idle.1, fun h_end h_none => h_idle.2 h_none (by simp [h_end])⟩, rfl⟩)

/-- What a carrier that was made does to the numbers. -/
theorem CutStep.of_compress {w w₁ : ZclEncRun c} {endChunk : Bool} (h_same : SameNumbers w w₁)
    (h_small : (w₁.enc.out.getD []).length ≤ zclMaxCarrier)
    (h_going : w.enc.inChunk = true ∧ (endChunk = false → w.enc.pendingIn ≠ 0)) :
    CutStep w { w₁ with
      enc := afterCut w₁.enc endChunk
      cut := w₁.cut ++ [zclHeaderPut (nextHeader w₁.enc endChunk (w₁.enc.out.getD []))
        (w₁.enc.out.getD []) ++ w₁.enc.out.getD []] } endChunk (w₁.enc.out.getD []) := by
  have h_header : nextHeader w₁.enc endChunk (w₁.enc.out.getD []) =
      nextHeader w.enc endChunk (w₁.enc.out.getD []) := by
    unfold nextHeader
    rw [h_same.streamId, h_same.chunkId, h_same.seq]
  have h_streamId := h_same.streamId
  have h_chunkId := h_same.chunkId
  have h_seq := h_same.seq
  refine ⟨h_small, ?_, ?_, ?_, ?_, h_going⟩
  · dsimp only
    rw [h_same.cut, h_header]
  · unfold afterCut
    cases endChunk with
    | true => exact h_streamId
    | false => exact h_streamId
  · unfold afterCut
    cases endChunk with
    | true => exact congrArg (fun n => (n + 1) % 2 ^ 64) h_chunkId
    | false => exact h_chunkId
  · unfold afterCut
    cases endChunk with
    | true => rfl
    | false => exact congrArg (fun n => (n + 1) % 2 ^ 32) h_seq

/-- A cut makes a carrier, or it changes no number. -/
theorem zclEncCut_cases (w : ZclEncRun c) (endChunk : Bool) :
    SameCut w (zclEncCut c w endChunk).1 ∨
      ∃ payload, CutStep w (zclEncCut c w endChunk).1 endChunk payload := by
  rcases zclEncCut_spec w endChunk with
    ⟨h_eq, -⟩ | ⟨-, h_same⟩ | ⟨w₁, h_out, h_small, h_going, h_eq⟩
  · rw [h_eq]
    exact Or.inl (SameNumbers.refl w).sameCut
  · exact Or.inl h_same
  · have h_same : SameNumbers w w₁ := by
      have h_all := compress_same w [] (cutDirective endChunk)
      rwa [h_out] at h_all
    rw [h_eq]
    exact Or.inr ⟨_, .of_compress h_same h_small h_going⟩

/-- What an abort leaves alone. -/
theorem abort_cut (w : ZclEncRun c) : (zclEncAbort c w).cut = w.cut := rfl

theorem cut_of_failed {w : ZclEncRun c} {endChunk : Bool}
    (h_cut : (zclEncCut c w endChunk).2 = -1) : SameCut w (zclEncCut c w endChunk).1 := by
  rcases zclEncCut_spec w endChunk with ⟨h_eq, -⟩ | ⟨-, h_same⟩ | ⟨w₁, -, -, -, h_eq⟩
  · rw [h_eq] at h_cut
    cases h_cut
  · exact h_same
  · rw [h_eq] at h_cut
    cases h_cut

/-- A cut with 1 has made a carrier of what was forced out of the compressor. -/
theorem cut_of_made {w : ZclEncRun c} {endChunk : Bool}
    (h_cut : (zclEncCut c w endChunk).2 = 1) :
    ∃ w₁ cut, compress c w [] (cutDirective endChunk) = (w₁, true) ∧
      (zclEncCut c w endChunk).1 = { w₁ with enc := afterCut w₁.enc endChunk, cut := cut } ∧
      CutStep w (zclEncCut c w endChunk).1 endChunk (w₁.enc.out.getD []) := by
  rcases zclEncCut_spec w endChunk with ⟨h_eq, -⟩ | ⟨h_rc, -⟩ | ⟨w₁, h_out, h_small, h_going, h_eq⟩
  · rw [h_eq] at h_cut
    cases h_cut
  · rw [h_rc] at h_cut
    cases h_cut
  · have h_same : SameNumbers w w₁ := by
      have h_all := compress_same w [] (cutDirective endChunk)
      rwa [h_out] at h_all
    rw [h_eq]
    exact ⟨w₁, _, h_out, rfl, .of_compress h_same h_small h_going⟩

/-! ## Runs -/

/-- The step does not wrap a counter round: it does not cut carrier number 2^32 - 1 of a chunk
    that goes on, and does not leave chunk number 2^64 - 1. -/
def Roomy (w : ZclEncRun c) : ZclEncAct → Prop
  | .add _ => True
  | .cut false => w.enc.inChunk = true → w.enc.pendingIn ≠ 0 → w.enc.seq + 1 < 2 ^ 32
  | .cut true => w.enc.inChunk = true → w.enc.chunkId + 1 < 2 ^ 64
  | .abort => 0 < w.enc.seq → w.enc.chunkId + 1 < 2 ^ 64

/-- The carriers cut bear these headers. -/
def Bears (cut : List Octets) (hs : List ZclHeader) : Prop := cut.map zclHeaderGet = hs.map some

/-- The counters are within their widths. -/
structure InRange (w : ZclEncRun c) : Prop where
  streamId : w.enc.streamId = c.streamId
  chunkId_lt : w.enc.chunkId < 2 ^ 64
  seq_lt : w.enc.seq < 2 ^ 32

theorem inRange_init : InRange (zclEncInit c) := by
  refine ⟨rfl, ?_, ?_⟩
  · show 0 < 2 ^ 64
    decide
  · show 0 < 2 ^ 32
    decide

namespace InRange

variable {w w' : ZclEncRun c}

theorem same (h : InRange w) (h_same : SameCut w w') : InRange w' := by
  refine ⟨?_, ?_, ?_⟩
  · rw [h_same.streamId]
    exact h.streamId
  · rw [h_same.chunkId]
    exact h.chunkId_lt
  · rw [h_same.seq]
    exact h.seq_lt

theorem cut (h : InRange w) {endChunk : Bool} {payload : Octets}
    (h_cut : CutStep w w' endChunk payload) : InRange w' := by
  refine ⟨?_, ?_, ?_⟩
  · rw [h_cut.streamId]
    exact h.streamId
  · rw [h_cut.chunkId]
    split
    · exact Nat.mod_lt _ (by decide)
    · exact h.chunkId_lt
  · rw [h_cut.seq]
    split
    · decide
    · exact Nat.mod_lt _ (by decide)

theorem abort (h : InRange w) : InRange (zclEncAbort c w) := by
  refine ⟨h.streamId, ?_, by show 0 < 2 ^ 32; decide⟩
  show (if w.enc.seq > 0 then (w.enc.chunkId + 1) % 2 ^ 64 else w.enc.chunkId) < 2 ^ 64
  split
  · exact Nat.mod_lt _ (by decide)
  · exact h.chunkId_lt

/-- What is cut is a carrier with the header the encoder has meant. -/
theorem header (h : InRange w) {endChunk : Bool} {payload : Octets}
    (h_small : payload.length ≤ zclMaxCarrier) :
    zclHeaderGet (zclHeaderPut (nextHeader w.enc endChunk payload) payload ++ payload) =
      some (nextHeader w.enc endChunk payload) := by
  apply zclHeaderGet_put
  refine ⟨?_, ?_, h.chunkId_lt, h.seq_lt, rfl, h_small⟩
  · cases endChunk with
    | true =>
      show zclFlagEnd &&& ~~~ zclFlagEnd = 0
      decide
    | false =>
      show 0 &&& ~~~ zclFlagEnd = 0
      decide
  · show w.enc.streamId < 2 ^ 64
    rw [h.streamId]
    exact c.streamId_lt

end InRange

structure EncOk (w : ZclEncRun c) (hs : List ZclHeader) : Prop where
  bears : Bears w.cut hs
  numbered : Numbered hs
  ready : Ready hs w.enc.chunkId w.enc.seq
  streams : ∀ h ∈ hs, h.streamId = c.streamId
  streamId : w.enc.streamId = c.streamId
  chunkId_lt : w.enc.chunkId < 2 ^ 64
  seq_lt : w.enc.seq < 2 ^ 32

namespace EncOk

variable {w w' : ZclEncRun c} {hs : List ZclHeader}

theorem inRange (h : EncOk w hs) : InRange w := ⟨h.streamId, h.chunkId_lt, h.seq_lt⟩

theorem same (h : EncOk w hs) (h_same : SameCut w w') : EncOk w' hs := by
  have h_range := h.inRange.same h_same
  refine ⟨?_, h.numbered, ?_, h.streams, h_range.streamId, h_range.chunkId_lt, h_range.seq_lt⟩
  · rw [h_same.cut]
    exact h.bears
  · rw [h_same.chunkId, h_same.seq]
    exact h.ready

theorem cut (h : EncOk w hs) {endChunk : Bool} {payload : Octets}
    (h_cut : CutStep w w' endChunk payload) (h_roomy : Roomy w (.cut endChunk)) :
    EncOk w' (hs ++ [nextHeader w.enc endChunk payload]) := by
  have h_header :
      zclHeaderGet (zclHeaderPut (nextHeader w.enc endChunk payload) payload ++ payload) =
        some (nextHeader w.enc endChunk payload) := h.inRange.header h_cut.small
  have h_range := h.inRange.cut h_cut
  have h_num : Numbered (hs ++ [nextHeader w.enc endChunk payload]) :=
    h.ready.snoc h.numbered rfl rfl
  refine ⟨?_, h_num, ?_, ?_, h_range.streamId, h_range.chunkId_lt, h_range.seq_lt⟩
  · unfold Bears
    rw [h_cut.cut, List.map_append, List.map_append, h.bears, List.map_singleton,
      List.map_singleton, h_header]
  · rw [h_cut.chunkId, h_cut.seq]
    cases endChunk with
    | true =>
      have h_room : w.enc.chunkId + 1 < 2 ^ 64 := h_roomy h_cut.going.1
      rw [if_pos rfl, if_pos rfl, Nat.mod_eq_of_lt h_room]
      refine Ready.fresh fun b h_b => ?_
      rcases List.mem_append.mp h_b with h_b | h_b
      · exact Nat.lt_succ_of_le (h.ready.le b h_b)
      · rw [List.mem_singleton.mp h_b]
        exact Nat.lt_succ_self _
    | false =>
      have h_room : w.enc.seq + 1 < 2 ^ 32 := h_roomy h_cut.going.1 (h_cut.going.2 rfl)
      rw [if_neg Bool.false_ne_true, if_neg Bool.false_ne_true, Nat.mod_eq_of_lt h_room]
      have h_flags : (0 : UInt8) ≠ zclFlagEnd := by decide
      exact h.ready.next rfl rfl h_flags
  · intro b h_b
    rcases List.mem_append.mp h_b with h_b | h_b
    · exact h.streams b h_b
    · rw [List.mem_singleton.mp h_b]
      exact h.streamId

/-- An aborted chunk of which something is out is not gone on with. -/
theorem abort (h : EncOk w hs) (h_roomy : Roomy w .abort) : EncOk (zclEncAbort c w) hs := by
  have h_range := h.inRange.abort
  refine ⟨h.bears, h.numbered, ?_, h.streams, h.streamId, h_range.chunkId_lt, h_range.seq_lt⟩
  show Ready hs (if w.enc.seq > 0 then (w.enc.chunkId + 1) % 2 ^ 64 else w.enc.chunkId) 0
  by_cases h_out : w.enc.seq > 0
  · rw [if_pos h_out, Nat.mod_eq_of_lt (h_roomy h_out)]
    exact Ready.fresh fun b h_b => Nat.lt_succ_of_le (h.ready.le b h_b)
  · rw [if_neg h_out]
    have h_ready := h.ready
    rwa [Nat.eq_zero_of_not_pos h_out] at h_ready

theorem step {a : ZclEncAct} (h : EncOk w hs) (h_roomy : Roomy w a)
    (h_step : encStep c w a = some w') : ∃ hs', EncOk w' hs' := by
  cases a with
  | add bundle =>
    obtain rfl := Option.some.inj h_step
    exact ⟨hs, h.same (zclEncAdd_same w bundle)⟩
  | abort =>
    obtain rfl := Option.some.inj h_step
    exact ⟨hs, h.abort h_roomy⟩
  | cut endChunk =>
    obtain rfl := Option.some.inj h_step
    rcases zclEncCut_cases w endChunk with h_same | ⟨payload, h_cut⟩
    · exact ⟨hs, h.same h_same⟩
    · exact ⟨_, h.cut h_cut h_roomy⟩

end EncOk

/-- **The numbers of an encoder.**  In every run that wraps no counter round, after every call,
    the carriers cut so far bear strictly increasing numbers, those of each chunk are 0, 1, …,
    nothing follows the END of a chunk, and no number is on two carriers. -/
theorem carriers_numbered {as : List ZclEncAct} {w : ZclEncRun c}
    (h_meets : Lts.Meets (encStep c) Roomy (zclEncInit c) as)
    (h_run : Lts.run (encStep c) (zclEncInit c) as = some w) :
    ∃ hs, Bears w.cut hs ∧ Numbered hs ∧ (hs.map fun h => (h.chunkId, h.seq)).Nodup := by
  have h_init : ∃ hs, EncOk (zclEncInit c) hs := by
    refine ⟨[], rfl, numbered_nil, Ready.fresh fun b h_b => ?_, fun b h_b => ?_, rfl, ?_, ?_⟩
    · cases h_b
    · cases h_b
    · show 0 < 2 ^ 64
      decide
    · show 0 < 2 ^ 32
      decide
  have h_step : ∀ w a w', (∃ hs, EncOk w hs) → Roomy w a → encStep c w a = some w' →
      ∃ hs, EncOk w' hs := by
    rintro w a w' ⟨hs, h⟩ h_roomy h_step
    exact h.step h_roomy h_step
  obtain ⟨hs, h⟩ := Lts.run_invariant_of_meets h_step h_init h_meets h_run
  exact ⟨hs, h.bears, h.numbered, h.numbered.nodup⟩

/-! ## A chunk that is never ended -/

/-- A compressor that takes what there is room for, as it is. -/
abbrev zStored : ZstdC where
  CCtx := Unit
  fresh := ()
  outSize := 8
  outSize_pos := by decide
  compressStream2 _ room input _ := ⟨(), min room input.length, input.take room, some 0⟩
  work _ input _ := input.length
  progress := by
    intro d room input dir h_room _ h_more
    unfold zDone at h_more
    by_cases h_dir : dir = .goOn
    · rw [if_pos h_dir] at h_more
      have h_ne : min room input.length ≠ input.length := by simpa using h_more
      dsimp only
      rw [List.length_drop]
      omega
    · rw [if_neg h_dir] at h_more
      simp at h_more

abbrev storing : ZclEncCfg := ⟨zStored, 9, by decide, fun _ => true⟩

theorem compressLoop_stored {w : ZclEncRun storing} {out input : Octets} {dir : ZDirective}
    (h_out : w.enc.out = some out) (h_cap : w.enc.outCap = 65536)
    (h_len : zclHdrLen + out.length + input.length + 8 ≤ 65536) :
    compressLoop storing w input dir =
      ({ w with enc := { w.enc with out := some (out ++ input) } }, true) := by
  have h_outLen : w.enc.outLen = zclHdrLen + out.length := by
    unfold ZclEnc.outLen
    rw [h_out]
  have h_room : makeRoom storing w = (w, true) := by
    have h_enough : ¬ w.enc.outCap - w.enc.outLen < storing.z.outSize := by
      show ¬ w.enc.outCap - w.enc.outLen < 8
      omega
    exact if_neg h_enough
  have h_take : input.take (w.enc.outCap - w.enc.outLen) = input := by
    apply List.take_of_length_le
    omega
  have h_used : min (w.enc.outCap - w.enc.outLen) input.length = input.length := by omega
  have h_done : zDone dir input (⟨(), input.length, input, some 0⟩ : ZPut storing.z.CCtx) = true := by
    unfold zDone
    split
    · exact decide_eq_true rfl
    · rfl
  have h_some : (makeRoom storing w).2 = true := by rw [h_room]
  rw [compressLoop, dif_pos h_some, h_room]
  dsimp only
  rw [h_take, h_used, dif_neg (by simp), dif_pos h_done]
  unfold zPut
  rw [h_out]
  rfl

/-- The first octets of a carrier go into a new buffer. -/
theorem compress_stored_new {w : ZclEncRun storing} {input : Octets} {dir : ZDirective}
    (h_out : w.enc.out = none) (h_cap : w.enc.outCap = 0) (h_len : input.length ≤ 8) :
    compress storing w input dir =
      ({ w with
        enc := { w.enc with out := some input, outCap := 65536 }, allocs := w.allocs + 1 },
        true) := by
  have h_hdr : zclHdrLen = 36 := rfl
  have h_want : w.enc.capFor (zclHdrLen + storing.z.outSize) = 65536 := by
    unfold ZclEnc.capFor
    rw [h_cap]
    rfl
  have h_grow : growOut storing w (zclHdrLen + storing.z.outSize) =
      ({ w with enc := { w.enc with outCap := 65536 }, allocs := w.allocs + 1 }, true) := by
    unfold growOut
    dsimp only
    rw [h_want, h_cap]
    rfl
  unfold compress
  rw [h_out]
  dsimp only
  rw [h_grow]
  dsimp only
  rw [compressLoop_stored rfl rfl (by rw [List.length_nil]; omega), List.nil_append]

theorem compress_stored_more {w : ZclEncRun storing} {out input : Octets} {dir : ZDirective}
    (h_out : w.enc.out = some out) (h_cap : w.enc.outCap = 65536)
    (h_len : zclHdrLen + out.length + input.length + 8 ≤ 65536) :
    compress storing w input dir =
      ({ w with enc := { w.enc with out := some (out ++ input) } }, true) := by
  unfold compress
  rw [h_out]
  exact compressLoop_stored h_out h_cap h_len

/-- The carrier of a bundle of one octet. -/
def oneOctet (seq : Nat) : Octets := zclHeaderPut ⟨0, 9, 0, seq, 5⟩ [0, 0, 0, 1, 7] ++ [0, 0, 0, 1, 7]

/-- After `n` such carriers, none of which has ended the chunk. -/
def afterCarriers (n : Nat) : ZclEncRun storing where
  enc := ⟨(), 9, 0, n % 2 ^ 32, decide (n ≠ 0), n % 2 ^ 64, 0, none, 0⟩
  allocs := n
  cut := (List.range n).map fun i => oneOctet (i % 2 ^ 32)

def oneCarrier : List ZclEncAct := [.add [7], .cut false]

/-- With one more bundle in the buffer. -/
def withOctet (n : Nat) : ZclEncRun storing where
  enc := ⟨(), 9, 0, n % 2 ^ 32, true, (n % 2 ^ 64 + 1) % 2 ^ 64, 1, some [0, 0, 0, 1, 7], 65536⟩
  allocs := n + 1
  cut := (afterCarriers n).cut

theorem add_oneOctet (n : Nat) :
    zclEncAdd storing (afterCarriers n) [7] = (withOctet n, 0) := by
  have h_len : compress storing (afterCarriers n) (beBytes 4 [(7 : UInt8)].length) .goOn =
      ({ afterCarriers n with
        enc := { (afterCarriers n).enc with out := some [0, 0, 0, 1], outCap := 65536 }
        allocs := n + 1 }, true) :=
    compress_stored_new rfl rfl (by decide)
  unfold zclEncAdd
  rw [if_neg (by decide), h_len]
  dsimp only
  rw [compress_stored_more rfl rfl (by decide)]
  rfl

theorem cut_oneOctet (n : Nat) :
    zclEncCut storing (withOctet n) false = (afterCarriers (n + 1), 1) := by
  have h_open : ¬ ((!(withOctet n).enc.inChunk) = true ∨
      (withOctet n).enc.pendingIn = 0 ∧ (!false) = true) := by
    simp [withOctet]
  unfold zclEncCut
  rw [if_neg h_open, compress_stored_more rfl rfl (by decide)]
  have h_small : ¬ ((some ([0, 0, 0, 1, 7] ++ []) : Option Octets).getD []).length >
      zclMaxCarrier := by decide
  dsimp only
  rw [if_neg h_small]
  have h_some : decide (n + 1 ≠ 0) = true := by simp
  unfold withOctet afterCarriers afterCut
  rw [h_some, List.range_succ, List.map_append, Nat.mod_add_mod, Nat.mod_add_mod]
  rfl

theorem run_oneCarrier (n : Nat) :
    Lts.run (encStep storing) (afterCarriers n) oneCarrier = some (afterCarriers (n + 1)) := by
  show some (zclEncCut storing (zclEncAdd storing (afterCarriers n) [7]).1 false).1 = _
  rw [add_oneOctet, cut_oneOctet]

theorem run_carriers (n : Nat) :
    Lts.run (encStep storing) (zclEncInit storing) (List.replicate n oneCarrier).flatten =
      some (afterCarriers n) := by
  induction n with
  | zero => rfl
  | succ n ih =>
    have h_more : (List.replicate (n + 1) oneCarrier).flatten =
        (List.replicate n oneCarrier).flatten ++ oneCarrier := by
      rw [List.replicate_succ', List.flatten_append, List.flatten_singleton]
    rw [h_more]
    exact Lts.run_append.mpr ⟨_, ih, run_oneCarrier n⟩

/-- The first carrier of a chunk. -/
theorem carriers_numbered_first :
    Lts.run (encStep storing) (zclEncInit storing) oneCarrier = some (afterCarriers 1) ∧
      ∃ hs, Bears (afterCarriers 1).cut hs ∧ Numbered hs ∧
        (hs.map fun h => (h.chunkId, h.seq)).Nodup := by
  have h_run : Lts.run (encStep storing) (zclEncInit storing) oneCarrier =
      some (afterCarriers 1) := run_oneCarrier 0
  have h_meets : Lts.Meets (encStep storing) Roomy (zclEncInit storing) oneCarrier := by
    refine And.intro trivial fun w h_add => And.intro (fun _ _ => ?_) fun _ _ => trivial
    obtain rfl := Option.some.inj h_add
    rw [(zclEncAdd_same (zclEncInit storing) [7]).seq]
    show 0 + 1 < 2 ^ 32
    decide
  exact ⟨h_run, carriers_numbered h_meets h_run⟩

theorem afterCarriers_cut {n i : Nat} (h_i : i < n) :
    (afterCarriers n).cut[i]? = some (oneOctet (i % 2 ^ 32)) := by
  show ((List.range n).map fun i => oneOctet (i % 2 ^ 32))[i]? = _
  rw [List.getElem?_map, List.getElem?_range h_i, Option.map_some]

/-- What the first carrier bears. -/
def firstHeader : ZclHeader := ⟨0, 9, 0, 0, 5⟩

theorem oneOctet_header : zclHeaderGet (oneOctet 0) = some firstHeader := by
  apply zclHeaderGet_put
  exact ⟨by decide, by decide, by decide, by decide, rfl, by decide⟩

theorem cut_header {cut : List Octets} {i : Nat} (h_at : cut[i]? = some (oneOctet 0)) :
    cut[i]?.bind zclHeaderGet = some firstHeader := by
  rw [h_at, Option.bind_some]
  exact oneOctet_header

theorem bears_header {cut : List Octets} {hs : List ZclHeader} {i : Nat} (h_bears : Bears cut hs)
    (h_at : cut[i]? = some (oneOctet 0)) : hs[i]? = some firstHeader := by
  have h_header := congrArg (fun l => l[i]?) h_bears
  rw [List.getElem?_map, List.getElem?_map, h_at, Option.map_some, oneOctet_header] at h_header
  obtain ⟨h, h_h, h_eq⟩ := Option.map_eq_some_iff.mp h_header.symm
  rw [h_h]
  exact h_eq

/-- Carriers of one number are not numbered as the receiver's ordering wants it. -/
theorem not_numbered {cut : List Octets} {i j : Nat} (h_lt : i < j)
    (h_i : cut[i]? = some (oneOctet 0)) (h_j : cut[j]? = some (oneOctet 0)) :
    ¬ ∃ hs, Bears cut hs ∧ Numbered hs := by
  rintro ⟨hs, h_bears, h_num⟩
  obtain ⟨h_iLen, h_iGet⟩ := List.getElem?_eq_some_iff.mp (bears_header h_bears h_i)
  obtain ⟨h_jLen, h_jGet⟩ := List.getElem?_eq_some_iff.mp (bears_header h_bears h_j)
  have h_above := List.pairwise_iff_getElem.mp h_num.increasing i j h_iLen h_jLen h_lt
  rw [h_iGet, h_jGet] at h_above
  omega

/-- A chunk of 2^32 + 1 carriers: the last of them bears the number of the first. -/
theorem number_reused :
    ∃ as w, Lts.run (encStep storing) (zclEncInit storing) as = some w ∧
      (∃ (i j : Nat) (h : ZclHeader), i < j ∧ (w.cut[i]?).bind zclHeaderGet = some h ∧
        (w.cut[j]?).bind zclHeaderGet = some h) ∧
      ¬ ∃ hs, Bears w.cut hs ∧ Numbered hs := by
  have h_first : (afterCarriers (2 ^ 32 + 1)).cut[0]? = some (oneOctet 0) := by
    have h_at := afterCarriers_cut (n := 2 ^ 32 + 1) (i := 0) (by omega)
    rwa [Nat.zero_mod] at h_at
  have h_last : (afterCarriers (2 ^ 32 + 1)).cut[2 ^ 32]? = some (oneOctet 0) := by
    have h_at := afterCarriers_cut (n := 2 ^ 32 + 1) (i := 2 ^ 32) (by omega)
    rwa [Nat.mod_self] at h_at
  have h_lt : 0 < 2 ^ 32 := by omega
  exact ⟨_, _, run_carriers (2 ^ 32 + 1),
    ⟨0, 2 ^ 32, firstHeader, h_lt, cut_header h_first, cut_header h_last⟩,
    not_numbered h_lt h_first h_last⟩

end IonContrib.Zcl
