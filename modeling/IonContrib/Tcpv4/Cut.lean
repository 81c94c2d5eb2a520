/-
  IonContrib.Tcpv4.Cut

  What `sendSegments` cuts a transfer into: slices of the bundle one behind the
  other, none of them empty, START on the first and END on the one that reaches
  the end of the bundle.  A part of the segments that has the END is all of them
  (`CutTo.whole`).
-/
import IonContrib.Lib.Groups
import IonContrib.Tcpv4.Term
import IonContrib.Tcpv4.Wire

namespace IonContrib.Tcpv4

open Octets

/-- A segment with its data. -/
abbrev Segment := XferSegment × Octets

/-- The Transfer Length item of a START. -/
def lengthItem (length : Nat) : Octets :=
  0 :: (beBytes 2 tmsgXferextLength ++ (beBytes 2 8 ++ beBytes 8 length))

/-- `s` is the segment of `x` that starts at octet `off` of the bundle. -/
structure Piece (x : Xfer) (off : Nat) (s : Segment) : Prop where
  id : s.1.transferId = x.transferId
  announced : s.1.dataLength = s.2.length
  some_ : s.2 ≠ []
  within : off + s.2.length ≤ x.length
  slice : s.2 = (x.bundle.drop off).take s.2.length
  start : s.1.isStart = decide (off = 0)
  end_ : s.1.isEnd = decide (off + s.2.length = x.length)
  ext : s.1.xferExt = if off = 0 then lengthItem x.length else []

@[simp] theorem length_lengthItem (length : Nat) : (lengthItem length).length = 13 := by
  simp [lengthItem]

theorem Piece.ext_le {x : Xfer} {off : Nat} {s : Segment} (h : Piece x off s) :
    s.1.xferExt.length ≤ 13 := by
  rw [h.ext]
  split
  · rw [length_lengthItem]
  · exact Nat.zero_le _

/-- `segs` are the segments of `x` from octet `off` to octet `off'` of the bundle. -/
inductive CutTo (x : Xfer) : Nat → List Segment → Nat → Prop where
  | nil (off : Nat) : CutTo x off [] off
  | cons {off off' : Nat} {s : Segment} {segs : List Segment} (h_s : Piece x off s)
      (h : CutTo x (off + s.2.length) segs off') : CutTo x off (s :: segs) off'

namespace CutTo

variable {x : Xfer} {off mid off' : Nat} {segs segs' : List Segment}

theorem append (h : CutTo x off segs mid) (h' : CutTo x mid segs' off') :
    CutTo x off (segs ++ segs') off' := by
  induction h with
  | nil => exact h'
  | cons h_s _ ih => exact .cons h_s (ih h')

theorem le (h : CutTo x off segs off') : off ≤ off' ∧ (segs ≠ [] → off' ≤ x.length) := by
  induction h with
  | nil off => exact ⟨Nat.le_refl _, fun h_ne => absurd rfl h_ne⟩
  | @cons off off' s segs h_s h ih =>
    refine ⟨by omega, fun _ => ?_⟩
    cases h with
    | nil => exact h_s.within
    | cons h_next _ => exact ih.2 (List.cons_ne_nil _ _)

/-- The data are the bundle, from one offset to the other. -/
theorem data (h : CutTo x off segs off') :
    (segs.map Prod.snd).flatten = (x.bundle.drop off).take (off' - off) := by
  induction h with
  | nil off => simp
  | @cons off off' s segs h_s h ih =>
    have h_le := h.le.1
    have h_split : off' - off = s.2.length + (off' - (off + s.2.length)) := by omega
    rw [List.map_cons, List.flatten_cons, ih, h_split, List.take_add, ← h_s.slice, List.drop_drop]

/-- A front part of the segments ends earlier. -/
theorem front (h : CutTo x off segs off') (h_pre : segs' <+: segs) :
    ∃ mid, CutTo x off segs' mid := by
  induction h generalizing segs' with
  | nil off =>
    obtain rfl := List.prefix_nil.mp h_pre
    exact ⟨off, .nil off⟩
  | @cons off off' s segs h_s _ ih =>
    cases segs' with
    | nil => exact ⟨off, .nil off⟩
    | cons s' segs' =>
      obtain ⟨rfl, h_tail⟩ := List.cons_prefix_cons.mp h_pre
      obtain ⟨mid, h_mid⟩ := ih h_tail
      exact ⟨mid, .cons h_s h_mid⟩

theorem piece (h : CutTo x off segs off') {s : Segment} (h_s : s ∈ segs) :
    ∃ mid, Piece x mid s := by
  induction h with
  | nil => cases h_s
  | @cons off off' s' segs h_p _ ih =>
    rcases List.mem_cons.mp h_s with rfl | h_s
    · exact ⟨off, h_p⟩
    · exact ih h_s

/-- Only the segment that begins the transfer is a START. -/
theorem group (h : CutTo x 0 segs off') (h_ne : segs ≠ []) :
    Group (fun s => s.1.isStart) segs := by
  cases h with
  | nil => exact absurd rfl h_ne
  | @cons _ _ s segs h_s h =>
    refine ⟨s, segs, rfl, by simp [h_s.start], ?_⟩
    have h_pos : 0 < 0 + s.2.length := by
      have := List.length_pos_iff.mpr h_s.some_
      omega
    clear h_ne h_s
    generalize 0 + s.2.length = off at h h_pos
    induction h with
    | nil => intro b h_b; cases h_b
    | @cons off off' s' segs h_p _ ih =>
      intro b h_b
      rcases List.mem_cons.mp h_b with rfl | h_b
      · exact h_p.start.trans (decide_eq_false (by omega))
      · exact ih (by omega) b h_b

/-- **A part with the END in it is the whole transfer**, and the END is the last of it. -/
theorem whole (h : CutTo x 0 segs off') (h_end : segs.any fun s => s.1.isEnd) :
    off' = x.length ∧ (segs.map Prod.snd).flatten = x.bundle ∧
      ∃ front s, segs = front ++ [s] ∧ s.1.isEnd = true ∧ ∀ s' ∈ front, s'.1.isEnd = false := by
  have h_last : ∀ {off}, CutTo x off segs off' → off' = x.length ∧
      ∃ front s, segs = front ++ [s] ∧ s.1.isEnd = true ∧ ∀ s' ∈ front, s'.1.isEnd = false := by
    intro off h_cut
    clear h
    induction h_cut with
    | nil => cases h_end
    | @cons off off' s segs h_s h ih =>
      cases segs with
      | nil =>
        cases h
        have h_s' : s.1.isEnd = true := by simpa using h_end
        refine ⟨?_, [], s, rfl, h_s', by simp⟩
        rw [h_s.end_] at h_s'
        exact of_decide_eq_true h_s'
      | cons s' segs =>
        -- What follows is not empty, so the bundle does not end here.
        have h_open : s.1.isEnd = false := by
          cases h with
          | cons h_next _ =>
            have h_in := h_next.within
            have h_pos := List.length_pos_iff.mpr h_next.some_
            rw [h_s.end_]
            exact decide_eq_false (by omega)
        have h_end' : (s' :: segs).any fun s => s.1.isEnd := by
          rwa [List.any_cons, h_open, Bool.false_or] at h_end
        obtain ⟨h_off, front, s'', h_eq, h_is, h_front⟩ := ih h_end'
        refine ⟨h_off, s :: front, s'', by rw [h_eq]; rfl, h_is, ?_⟩
        intro t h_t
        rcases List.mem_cons.mp h_t with rfl | h_t
        · exact h_open
        · exact h_front t h_t
  obtain ⟨h_off, h_front⟩ := h_last h
  refine ⟨h_off, ?_, h_front⟩
  rw [h.data, h_off, List.drop_zero, Nat.sub_zero]
  exact List.take_length

/-- ... and so is a part as long as the bundle. -/
theorem ended (h : CutTo x off segs off') (h_ne : segs ≠ []) (h_off : off' = x.length) :
    ∃ front s, segs = front ++ [s] ∧ s.1.isEnd = true := by
  induction h with
  | nil => exact absurd rfl h_ne
  | @cons off off' s segs h_s h ih =>
    cases segs with
    | nil =>
      cases h
      exact ⟨[], s, rfl, by rw [h_s.end_]; exact decide_eq_true h_off⟩
    | cons s' segs =>
      obtain ⟨front, s'', h_eq, h_is⟩ := ih (List.cons_ne_nil _ _) h_off
      exact ⟨s :: front, s'', by rw [h_eq]; rfl, h_is⟩

end CutTo

/-! ## What `sendSegments` writes -/

/-- The flags of a segment. -/
theorem cut_flags (first last : Bool) :
    hasFlag ((if first then tmsgFlagStart else 0) ||| if last then tmsgFlagEnd else 0)
        tmsgFlagStart = first ∧
      hasFlag ((if first then tmsgFlagStart else 0) ||| if last then tmsgFlagEnd else 0)
        tmsgFlagEnd = last := by
  cases first <;> cases last <;> decide

/-- A round of the loop cuts a piece off what is left of the bufferful. -/
theorem cutSegment_piece {mtu : Nat} {x : Xfer} {len off consumed : Nat} (h_mtu : 0 < mtu)
    (h_buf : off + len ≤ x.length) (h_more : consumed < len) :
    ∃ s, cutSegment mtu x len off consumed = some s ∧ Piece x (off + consumed) s ∧
      consumed + s.2.length ≤ len := by
  have h_chunk : ∃ chunk, (if len - consumed > mtu then mtu else len - consumed) = chunk ∧
      0 < chunk ∧ consumed + chunk ≤ len := by
    split
    · exact ⟨_, rfl, h_mtu, by omega⟩
    · exact ⟨_, rfl, by omega, by omega⟩
  obtain ⟨chunk, h_eq, h_pos, h_le⟩ := h_chunk
  have h_len : ((x.bundle.drop (off + consumed)).take chunk).length = chunk := by
    rw [List.length_take, List.length_drop]
    unfold Xfer.length at h_buf
    omega
  have h_some : (x.bundle.drop (off + consumed)).take chunk ≠ [] := by
    intro h_nil
    rw [h_nil] at h_len
    exact absurd h_len.symm (Nat.ne_of_gt h_pos)
  have h_piece : ∀ first : Bool, first = decide (off + consumed = 0) → Piece x (off + consumed)
      (⟨(if first then tmsgFlagStart else 0) |||
          if decide (off + consumed + chunk = x.length) then tmsgFlagEnd else 0,
        x.transferId, if first then lengthItem x.length else [], chunk⟩,
        (x.bundle.drop (off + consumed)).take chunk) := by
    intro first h_first
    obtain ⟨h_start, h_end⟩ := cut_flags first (decide (off + consumed + chunk = x.length))
    refine ⟨rfl, h_len.symm, h_some, ?_, ?_, ?_, ?_, ?_⟩
    · show off + consumed + ((x.bundle.drop (off + consumed)).take chunk).length ≤ x.length
      omega
    · show _ = (x.bundle.drop (off + consumed)).take
        ((x.bundle.drop (off + consumed)).take chunk).length
      rw [h_len]
    · exact h_start.trans h_first
    · show hasFlag _ _ = _
      rw [h_end]
      show _ = decide (off + consumed +
        ((x.bundle.drop (off + consumed)).take chunk).length = x.length)
      rw [h_len]
    · rw [h_first]
      by_cases h_zero : off + consumed = 0
      · rw [if_pos h_zero, decide_eq_true h_zero]
        rfl
      · rw [if_neg h_zero, decide_eq_false h_zero]
        rfl
  have h_flags : (if off + consumed + chunk = x.length then tmsgFlagEnd else 0) =
      if decide (off + consumed + chunk = x.length) = true then tmsgFlagEnd else 0 := by
    by_cases h_end : off + consumed + chunk = x.length
    · rw [if_pos h_end, if_pos (decide_eq_true h_end)]
    · rw [if_neg h_end, if_neg (by simpa using h_end)]
  by_cases h_zero : off + consumed = 0
  · refine ⟨_, ?_, h_piece true (decide_eq_true h_zero).symm, by rw [h_len]; exact h_le⟩
    simp only [cutSegment, h_eq]
    rw [if_pos h_zero, tcpv4MsgEncodeXferLengthExt_eq, Option.map_some, h_flags]
    rfl
  · refine ⟨_, ?_, h_piece false (decide_eq_false h_zero).symm, by rw [h_len]; exact h_le⟩
    simp only [cutSegment, h_eq]
    rw [if_neg h_zero, h_flags]
    simp

/-- The messages that are the segments of a transfer. -/
def segmentWires (segs : List Segment) : List Wire := segs.map fun s => .segment s.1 s.2

section

-- Unfolding an encoder on a variable message leads nowhere.
attribute [local irreducible] tcpv4MsgEncodeXferSegmentHdr cutSegment

theorem cutRun_zero (mtu : Nat) (x : Xfer) (len off consumed : Nat) :
    cutRun mtu x len off 0 consumed = some ([], consumed) := rfl

/-- **What one write of `sendSegments` puts on the wire**: the next pieces of the bundle. -/
theorem cutRun_cut {mtu : Nat} {x : Xfer} {len off : Nat} (h_mtu : 0 < mtu)
    (h_buf : off + len ≤ x.length) {n consumed consumed' : Nat} {data : Octets}
    (h_le : consumed ≤ len)
    (h : cutRun mtu x len off n consumed = some (data, consumed')) :
    ∃ segs, data = wired (segmentWires segs) ∧ CutTo x (off + consumed) segs (off + consumed') ∧
      consumed' ≤ len := by
  induction n generalizing consumed data with
  | zero =>
    rw [cutRun_zero, Option.some.injEq, Prod.mk.injEq] at h
    obtain ⟨rfl, rfl⟩ := h
    exact ⟨[], rfl, .nil _, h_le⟩
  | succ n ih =>
    obtain ⟨-, rfl, rfl⟩ | ⟨seg, chunk, hdr, rest, h_more, h_seg, h_hdr, h_rest, rfl⟩ :=
      cutRun_succ_eq h
    · exact ⟨[], rfl, .nil _, h_le⟩
    · obtain ⟨⟨seg', piece⟩, h_seg', h_piece, h_next⟩ := cutSegment_piece h_mtu h_buf h_more
      obtain ⟨rfl, rfl⟩ : seg = seg' ∧ chunk = piece := by
        rw [h_seg, Option.some.injEq, Prod.mk.injEq] at h_seg'
        exact h_seg'
      have h_ext : 22 + seg.xferExt.length ≤ sendHdrCap :=
        Nat.add_le_add_left h_piece.ext_le 22 |>.trans (by decide)
      have h_data : seg.dataLength = chunk.length := h_piece.announced
      rw [h_data] at h_rest
      rw [tcpv4MsgEncodeXferSegmentHdr_eq h_ext, Option.some.injEq] at h_hdr
      obtain ⟨segs, rfl, h_cut, h_end⟩ := ih h_next h_rest
      refine ⟨(seg, chunk) :: segs, by rw [← h_hdr]; rfl, ?_, h_end⟩
      rw [← Nat.add_assoc] at h_cut
      exact .cons h_piece h_cut

end

/-- ... and the numbers of a piece fit their fields. -/
theorem Piece.fits {x : Xfer} {off : Nat} {s : Segment} (h : Piece x off s)
    (h_id : x.transferId < 2 ^ 64) (h_len : s.2.length < 2 ^ 64) :
    (Wire.segment s.1 s.2).Fits := by
  refine ⟨⟨by rw [h.id]; exact h_id, by rw [h.announced]; exact h_len, ?_, ?_⟩, h.announced.symm⟩
  · exact h.ext_le.trans (by decide)
  · intro h_start
    rw [h.start] at h_start
    rw [h.ext, if_neg (of_decide_eq_false h_start)]

@[simp] theorem segmentsOf_segmentWires (segs : List Segment) :
    segmentsOf (segmentWires segs) = segs := by
  induction segs with
  | nil => rfl
  | cons s segs ih =>
    rw [segmentWires, List.map_cons, segmentsOf, List.filterMap_cons]
    exact congrArg (s :: ·) ih

end IonContrib.Tcpv4
