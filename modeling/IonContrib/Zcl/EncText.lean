/-
  IonContrib.Zcl.EncText

  What the carriers of a chunk hold.

  The compressor is used in sessions, one a chunk (`Session`).  What it has put
  out when it has nothing left to emit after a flush or an end is the frame, or
  the part of it, that it has made of the text it took (`Wrote`).  So a carrier
  that was cut ends in what was made of the records fed since the one before it.
-/
import IonContrib.Zcl.EncNumbers

namespace IonContrib.Zcl

open Octets

/-! ## Sessions of the compressor -/

/-- What a context has taken and put out since its frame began.  A flush or an end that has
    left something to emit is repeated until it has not, and names the directive. -/
inductive Session (z : ZstdC) : z.CCtx → Octets → Octets → ZDirective → Prop
  | fresh : Session z z.fresh [] [] .goOn
  | feed {d : z.CCtx} {text out : Octets} (room : Nat) (input : Octets)
      (h : Session z d text out .goOn) (h_ret : (z.compressStream2 d room input .goOn).ret ≠ none) :
      Session z (z.compressStream2 d room input .goOn).cctx
        (text ++ input.take (z.compressStream2 d room input .goOn).used)
        (out ++ (z.compressStream2 d room input .goOn).out) .goOn
  | force {d : z.CCtx} {text out : Octets} {pending dir : ZDirective} (room left : Nat)
      (h : Session z d text out pending) (h_dir : dir ≠ .goOn)
      (h_pending : pending = .goOn ∨ pending = dir)
      (h_ret : (z.compressStream2 d room [] dir).ret = some (left + 1)) :
      Session z (z.compressStream2 d room [] dir).cctx text
        (out ++ (z.compressStream2 d room [] dir).out) dir
  | flushed {d : z.CCtx} {text out : Octets} {pending : ZDirective} (room : Nat)
      (h : Session z d text out pending) (h_pending : pending = .goOn ∨ pending = .flush)
      (h_ret : (z.compressStream2 d room [] .flush).ret = some 0) :
      Session z (z.compressStream2 d room [] .flush).cctx text
        (out ++ (z.compressStream2 d room [] .flush).out) .goOn
  | finished {d : z.CCtx} {text out : Octets} {pending : ZDirective} (room : Nat)
      (h : Session z d text out pending) (h_pending : pending = .goOn ∨ pending = .finish)
      (h_ret : (z.compressStream2 d room [] .finish).ret = some 0) :
      Session z (z.compressStream2 d room [] .finish).cctx [] [] .goOn

/-- `out` is what the compressor has made of `text` when everything is forced out: a whole frame if
    it was told to end it. -/
inductive Wrote (z : ZstdC) : Octets → Octets → Bool → Prop
  | forced {d : z.CCtx} {text out : Octets} {pending dir : ZDirective} (room : Nat)
      (h : Session z d text out pending) (h_dir : dir ≠ .goOn)
      (h_pending : pending = .goOn ∨ pending = dir)
      (h_ret : (z.compressStream2 d room [] dir).ret = some 0) :
      Wrote z (out ++ (z.compressStream2 d room [] dir).out) text (decide (dir = .finish))

/-! ## One call of `compress` -/

variable {c : ZclEncCfg}

/-- All that making room leaves alone. -/
theorem makeRoom_context (w : ZclEncRun c) :
    (makeRoom c w).1.enc.cctx = w.enc.cctx ∧ (makeRoom c w).1.enc.out = w.enc.out := by
  unfold makeRoom
  split
  · rcases growOut_cases c w (w.enc.outLen + c.z.outSize) with ⟨h_eq, -⟩ | ⟨cap, h_eq, -⟩ | h_eq
    · rw [h_eq]
      exact ⟨rfl, rfl⟩
    · rw [h_eq]
      exact ⟨rfl, rfl⟩
    · rw [h_eq]
      exact ⟨rfl, rfl⟩
  · exact ⟨rfl, rfl⟩

theorem zPut_out {w : ZclEncRun c} {out : Octets} (h_out : w.enc.out = some out)
    (call : ZPut c.z.CCtx) : (zPut c (makeRoom c w).1 call).enc.out = some (out ++ call.out) := by
  show (makeRoom c w).1.enc.out.map (· ++ call.out) = _
  rw [(makeRoom_context w).2, h_out]
  rfl

/-- What is fed is taken whole. -/
theorem compressLoop_feeds (w : ZclEncRun c) (input front : Octets) : ∀ text out : Octets,
    w.enc.out = some out → Session c.z w.enc.cctx text (front ++ out) .goOn →
    (compressLoop c w input .goOn).2 = true →
    ∃ out', (compressLoop c w input .goOn).1.enc.out = some out' ∧
      Session c.z (compressLoop c w input .goOn).1.enc.cctx (text ++ input) (front ++ out')
        .goOn := by
  induction w, input using compressLoop.induct c .goOn with
  | case1 w input h_room call h_err =>
    intro text out _ _ h_ok
    rw [compressLoop, dif_pos h_room, dif_pos h_err] at h_ok
    cases h_ok
  | case2 w input h_room call h_err h_done =>
    intro text out h_out h _
    rw [compressLoop, dif_pos h_room, dif_neg h_err, dif_pos h_done]
    have h_used : call.used = input.length := by
      unfold zDone at h_done
      rw [if_pos rfl] at h_done
      exact of_decide_eq_true h_done
    have h_fed := Session.feed _ input h h_err
    have h_take : input.take call.used = input :=
      List.take_of_length_le (Nat.le_of_eq h_used.symm)
    rw [h_take, List.append_assoc] at h_fed
    exact ⟨_, zPut_out h_out call, h_fed⟩
  | case3 w input h_room call w' h_err h_done ih =>
    intro text out h_out h h_ok
    rw [compressLoop, dif_pos h_room, dif_neg h_err, dif_neg h_done] at h_ok ⊢
    have h_fed := Session.feed _ input h h_err
    rw [List.append_assoc] at h_fed
    obtain ⟨out', h_out', h_all⟩ := ih _ _ (zPut_out h_out call) h_fed h_ok
    rw [List.append_assoc, List.take_append_drop] at h_all
    exact ⟨out', h_out', h_all⟩
  | case4 w input h_room =>
    intro text out _ _ h_ok
    rw [compressLoop, dif_neg h_room] at h_ok
    cases h_ok

/-- What the session is after the call that has forced everything out. -/
def sessionAfter (dir : ZDirective) (text out : Octets) : Octets × Octets :=
  if dir = .finish then ([], []) else (text, out)

/-- A flush or an end leaves nothing inside. -/
theorem compressLoop_forces {dir : ZDirective} (h_dir : dir ≠ .goOn) (w : ZclEncRun c)
    (input front text : Octets) :
    ∀ (out : Octets) (pending : ZDirective), input = [] → w.enc.out = some out →
    Session c.z w.enc.cctx text (front ++ out) pending → (pending = .goOn ∨ pending = dir) →
    (compressLoop c w input dir).2 = true →
    ∃ out', (compressLoop c w input dir).1.enc.out = some out' ∧
      Wrote c.z (front ++ out') text (decide (dir = .finish)) ∧
      Session c.z (compressLoop c w input dir).1.enc.cctx
        (sessionAfter dir text (front ++ out')).1 (sessionAfter dir text (front ++ out')).2
        .goOn := by
  induction w, input using compressLoop.induct c dir with
  | case1 w input h_room call h_err =>
    intro out pending _ _ _ _ h_ok
    rw [compressLoop, dif_pos h_room, dif_pos h_err] at h_ok
    cases h_ok
  | case2 w input h_room call h_err h_done =>
    intro out pending h_input h_out h h_pending _
    rw [compressLoop, dif_pos h_room, dif_neg h_err, dif_pos h_done]
    subst h_input
    have h_ret : call.ret = some 0 := by
      unfold zDone at h_done
      rw [if_neg h_dir] at h_done
      exact of_decide_eq_true h_done
    have h_wrote := Wrote.forced _ h h_dir h_pending h_ret
    rw [List.append_assoc] at h_wrote
    refine ⟨_, zPut_out h_out call, h_wrote, ?_⟩
    cases dir with
    | goOn => exact absurd rfl h_dir
    | flush =>
      have h_next := Session.flushed _ h h_pending h_ret
      rw [List.append_assoc] at h_next
      exact h_next
    | finish => exact Session.finished _ h h_pending h_ret
  | case3 w input h_room call w' h_err h_done ih =>
    intro out pending h_input h_out h h_pending h_ok
    rw [compressLoop, dif_pos h_room, dif_neg h_err, dif_neg h_done] at h_ok ⊢
    subst h_input
    obtain ⟨left, h_left⟩ : ∃ left, call.ret = some (left + 1) := by
      unfold zDone at h_done
      rw [if_neg h_dir] at h_done
      cases h_call : call.ret with
      | none => exact absurd h_call h_err
      | some left =>
        cases left with
        | zero => exact absurd (decide_eq_true h_call) h_done
        | succ left => exact ⟨left, rfl⟩
    have h_next := Session.force _ left h h_dir h_pending h_left
    rw [List.append_assoc] at h_next
    exact ih _ _ List.drop_nil (zPut_out h_out call) h_next (Or.inr rfl) h_ok
  | case4 w input h_room =>
    intro out pending _ _ _ _ h_ok
    rw [compressLoop, dif_neg h_room] at h_ok
    cases h_ok

theorem growOut_context (w : ZclEncRun c) (want : Nat) :
    (growOut c w want).1.enc.cctx = w.enc.cctx := by
  rcases growOut_cases c w want with ⟨h_eq, -⟩ | ⟨cap, h_eq, -⟩ | h_eq
  · rw [h_eq]
  · rw [h_eq]
  · rw [h_eq]

/-- The buffer is there for the loop. -/
theorem compress_loop (w : ZclEncRun c) (data : Octets) (dir : ZDirective)
    (h_ok : (compress c w data dir).2 = true) :
    ∃ w₀, w₀.enc.cctx = w.enc.cctx ∧ w₀.enc.out = some (w.enc.out.getD []) ∧
      compress c w data dir = compressLoop c w₀ data dir := by
  cases h_out : w.enc.out with
  | some out =>
    refine ⟨w, rfl, h_out, ?_⟩
    unfold compress
    rw [h_out]
  | none =>
    have h_same := growOut_context w (zclHdrLen + c.z.outSize)
    unfold compress at h_ok ⊢
    rw [h_out] at h_ok ⊢
    cases h_grow : growOut c w (zclHdrLen + c.z.outSize) with
    | mk w' got =>
      rw [h_grow] at h_ok h_same
      cases got with
      | false => cases h_ok
      | true => exact ⟨{ w' with enc := { w'.enc with out := some [] } }, h_same, rfl, rfl⟩

theorem compress_feeds {w : ZclEncRun c} {data front text : Octets}
    (h : Session c.z w.enc.cctx text (front ++ w.enc.out.getD []) .goOn)
    (h_ok : (compress c w data .goOn).2 = true) :
    Session c.z (compress c w data .goOn).1.enc.cctx (text ++ data)
      (front ++ (compress c w data .goOn).1.enc.out.getD []) .goOn := by
  obtain ⟨w₀, h_ctx, h_out, h_eq⟩ := compress_loop w data .goOn h_ok
  rw [h_eq] at h_ok ⊢
  rw [← h_ctx] at h
  obtain ⟨out, h_out', h_all⟩ := compressLoop_feeds w₀ data front text _ h_out h h_ok
  rw [h_out']
  exact h_all

theorem compress_forces {dir : ZDirective} (h_dir : dir ≠ .goOn) {w : ZclEncRun c}
    {front text : Octets} (h : Session c.z w.enc.cctx text (front ++ w.enc.out.getD []) .goOn)
    (h_ok : (compress c w [] dir).2 = true) :
    Wrote c.z (front ++ (compress c w [] dir).1.enc.out.getD []) text (decide (dir = .finish)) ∧
      Session c.z (compress c w [] dir).1.enc.cctx
        (sessionAfter dir text (front ++ (compress c w [] dir).1.enc.out.getD [])).1
        (sessionAfter dir text (front ++ (compress c w [] dir).1.enc.out.getD [])).2 .goOn := by
  obtain ⟨w₀, h_ctx, h_out, h_eq⟩ := compress_loop w [] dir h_ok
  rw [h_eq] at h_ok ⊢
  rw [← h_ctx] at h
  obtain ⟨out, h_out', h_wrote, h_next⟩ :=
    compressLoop_forces h_dir w₀ [] front text _ _ rfl h_out h (Or.inl rfl) h_ok
  rw [h_out']
  exact ⟨h_wrote, h_next⟩

/-! ## Calls of the encoder -/

/-- A record: the length in front of the bundle. -/
def zclRecord (bundle : Octets) : Octets := beBytes 4 bundle.length ++ bundle

def zclRecords (bundles : List Octets) : Octets := (bundles.map zclRecord).flatten

@[simp] theorem zclRecords_nil : zclRecords [] = [] := rfl

@[simp] theorem zclRecords_append (bundles more : List Octets) :
    zclRecords (bundles ++ more) = zclRecords bundles ++ zclRecords more := by
  unfold zclRecords
  rw [List.map_append, List.flatten_append]

@[simp] theorem zclRecords_singleton (bundle : Octets) :
    zclRecords [bundle] = zclRecord bundle := by
  unfold zclRecords
  rw [List.map_singleton, List.flatten_singleton]

/-- What a chunk holds so far: nothing, or what has been forced out of its frame. -/
def Holds (z : ZstdC) (front : List Octets) (held : List Octets) : Prop :=
  (front = [] ∧ held = []) ∨ Wrote z front.flatten (zclRecords held) false

/-- The encoder is in a chunk of which `front` has been cut: these carriers hold the bundles of
    `held`, and those of `tail` have been fed since. -/
structure InFrame (w : ZclEncRun c) (front : List Octets) (held tail : List Octets) : Prop where
  session : Session c.z w.enc.cctx (zclRecords held ++ zclRecords tail)
    (front.flatten ++ w.enc.out.getD []) .goOn
  held : Holds c.z front held

namespace InFrame

variable {w : ZclEncRun c} {front held tail : List Octets}

theorem init : InFrame (zclEncInit c) [] [] [] := ⟨.fresh, Or.inl ⟨rfl, rfl⟩⟩

theorem abort (w : ZclEncRun c) : InFrame (zclEncAbort c w) [] [] [] :=
  ⟨.fresh, Or.inl ⟨rfl, rfl⟩⟩

/-- A bundle that was added has been fed as a record. -/
theorem add (h : InFrame w front held tail) {bundle : Octets}
    (h_ok : (zclEncAdd c w bundle).2 = 0) :
    InFrame (zclEncAdd c w bundle).1 front held (tail ++ [bundle]) := by
  rcases zclEncAdd_spec w bundle with ⟨h_failed, -⟩ | ⟨w₁, w₂, h_hdr, h_body, -, h_eq⟩
  · rw [h_failed] at h_ok
    cases h_ok
  have h_first := compress_feeds h.session (congrArg Prod.snd h_hdr)
  rw [h_hdr] at h_first
  have h_second := compress_feeds h_first (congrArg Prod.snd h_body)
  rw [h_body, List.append_assoc, List.append_assoc] at h_second
  rw [h_eq]
  refine ⟨?_, h.held⟩
  rw [zclRecords_append, zclRecords_singleton, zclRecord]
  exact h_second

/-- A carrier ends in what was made of the bundles fed since the one before it. -/
theorem cut (h : InFrame w front held tail) {w₁ : ZclEncRun c} {endChunk : Bool}
    (h_out : compress c w [] (cutDirective endChunk) = (w₁, true)) (cut : List Octets) :
    Wrote c.z (front ++ [w₁.enc.out.getD []]).flatten (zclRecords (held ++ tail)) endChunk ∧
      InFrame { w₁ with enc := afterCut w₁.enc endChunk, cut := cut }
        (if endChunk then [] else front ++ [w₁.enc.out.getD []])
        (if endChunk then [] else held ++ tail) [] := by
  have h_dir : cutDirective endChunk ≠ .goOn := by cases endChunk <;> decide
  have h_end : decide (cutDirective endChunk = .finish) = endChunk := by cases endChunk <;> rfl
  have h_forced := compress_forces h_dir h.session (congrArg Prod.snd h_out)
  rw [h_out, h_end] at h_forced
  obtain ⟨h_wrote, h_next⟩ := h_forced
  have h_flat : (front ++ [w₁.enc.out.getD []]).flatten =
      front.flatten ++ w₁.enc.out.getD [] := by
    rw [List.flatten_append, List.flatten_singleton]
  rw [h_flat, zclRecords_append]
  refine ⟨h_wrote, ?_⟩
  cases endChunk with
  | true => exact ⟨h_next, Or.inl ⟨rfl, rfl⟩⟩
  | false =>
    rw [if_neg Bool.false_ne_true, if_neg Bool.false_ne_true]
    refine ⟨?_, Or.inr ?_⟩
    · rw [h_flat, zclRecords_append, zclRecords_nil, List.append_nil]
      show Session c.z _ _ (_ ++ []) _
      rw [List.append_nil]
      exact h_next
    · rw [h_flat, zclRecords_append]
      exact h_wrote

end InFrame

end IonContrib.Zcl
