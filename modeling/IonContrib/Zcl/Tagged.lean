/-
  IonContrib.Zcl.Tagged

  A compressor that tags and the decompressor of it, to run both ends of the
  tunnel with: an octet is written as a 0 and itself, the end of a frame as
  a 1.
-/
import IonContrib.Zcl.Course
import IonContrib.Zcl.Stored

namespace IonContrib.Zcl

open Octets

/-! ## The compressor -/

def tag (text : Octets) : Octets := text.flatMap fun b => [0, b]

/-- The end of a frame. -/
def mark (ended : Bool) : Octets := if ended then [1] else []

theorem tag_cons (b : UInt8) (text : Octets) : tag (b :: text) = 0 :: b :: tag text := rfl

theorem tag_append (text text' : Octets) : tag (text ++ text') = tag text ++ tag text' := by
  unfold tag
  rw [List.flatMap_append]

theorem length_tag (text : Octets) : (tag text).length = 2 * text.length := by
  induction text with
  | nil => rfl
  | cons b text ih =>
    rw [tag_cons, List.length_cons, List.length_cons, List.length_cons, ih]
    omega

/-- Takes as many octets as there is room for; a flush or an end has nothing left to emit. -/
def tagCall (room : Nat) (input : Octets) (dir : ZDirective) : ZPut Unit :=
  if dir = .goOn then
    ⟨(), min (room / 2) input.length, tag (input.take (room / 2)),
      if room = 1 then none else some 0⟩
  else ⟨(), 0, mark (decide (dir = .finish)), if input = [] ∧ 0 < room then some 0 else none⟩

theorem tagCall_goOn (room : Nat) (input : Octets) : tagCall room input .goOn =
    ⟨(), min (room / 2) input.length, tag (input.take (room / 2)),
      if room = 1 then none else some 0⟩ := if_pos rfl

theorem tagCall_force {dir : ZDirective} (h : dir ≠ .goOn) (room : Nat) (input : Octets) :
    tagCall room input dir =
      ⟨(), 0, mark (decide (dir = .finish)), if input = [] ∧ 0 < room then some 0 else none⟩ :=
  if_neg h

theorem tagSize_pos : 0 < 8 := by decide

abbrev zTagged : ZstdC where
  CCtx := Unit
  fresh := ()
  outSize := 8
  outSize_pos := tagSize_pos
  compressStream2 _ := tagCall
  work _ input _ := input.length
  progress := by
    intro d room input dir h_room h_ret h_more
    unfold zDone at h_more
    by_cases h_dir : dir = .goOn
    · subst h_dir
      rw [tagCall_goOn] at h_ret h_more ⊢
      rw [if_pos rfl] at h_more
      have h_one : room ≠ 1 := by
        rintro rfl
        exact h_ret rfl
      have h_ne : min (room / 2) input.length ≠ input.length := by simpa using h_more
      dsimp only
      rw [List.length_drop]
      omega
    · rw [tagCall_force h_dir] at h_ret h_more
      rw [if_neg h_dir] at h_more
      by_cases h_ok : input = [] ∧ 0 < room
      · rw [if_pos h_ok] at h_more
        exact absurd rfl (of_decide_eq_false h_more)
      · rw [if_neg h_ok] at h_ret
        exact absurd rfl h_ret

theorem session_tagged {d : zTagged.CCtx} {text out : Octets} {pending : ZDirective}
    (h : Session zTagged d text out pending) : out = tag text ∧ pending = .goOn := by
  induction h with
  | fresh => exact ⟨rfl, rfl⟩
  | @feed d text out room input h h_ret ih =>
    refine ⟨?_, rfl⟩
    show out ++ (tagCall room input .goOn).out = tag (text ++ input.take (tagCall room input .goOn).used)
    rw [tagCall_goOn, ih.1, tag_append]
    dsimp only
    rcases Nat.le_total (room / 2) input.length with h_le | h_le
    · rw [Nat.min_eq_left h_le]
    · rw [Nat.min_eq_right h_le, List.take_length, List.take_of_length_le h_le]
  | @force d text out pending dir room left h h_dir h_pending h_ret ih =>
    have h_ret : (tagCall room [] dir).ret = some (left + 1) := h_ret
    rw [tagCall_force h_dir] at h_ret
    dsimp only at h_ret
    split at h_ret
    · cases h_ret
    · cases h_ret
  | @flushed d text out pending room h h_pending h_ret ih =>
    exact ⟨ih.1 ▸ List.append_nil _, rfl⟩
  | finished => exact ⟨rfl, rfl⟩

theorem wrote_tagged {out text : Octets} {ended : Bool} :
    Wrote zTagged out text ended ↔ out = tag text ++ mark ended := by
  constructor
  · intro h
    obtain ⟨room, h, h_dir, h_pending, h_ret⟩ := h
    rename_i d out pending dir
    show out ++ (tagCall room [] dir).out = _
    rw [tagCall_force h_dir, (session_tagged h).1]
  · rintro rfl
    have h_half : 2 * text.length / 2 = text.length := by omega
    have h_call : tagCall (2 * text.length) text .goOn =
        ⟨(), text.length, tag text, some 0⟩ := by
      rw [tagCall_goOn, h_half, Nat.min_self, List.take_length, if_neg (by omega)]
    have h_feed : Session zTagged () text (tag text) .goOn := by
      have h : Session zTagged _ ([] ++ text.take (tagCall (2 * text.length) text .goOn).used)
          ([] ++ (tagCall (2 * text.length) text .goOn).out) .goOn :=
        .feed (2 * text.length) text .fresh (by
          show (tagCall (2 * text.length) text .goOn).ret ≠ none
          rw [h_call]
          exact Option.some_ne_none 0)
      rwa [h_call, List.take_length] at h
    have h_forced : ∀ dir : ZDirective, dir ≠ .goOn →
        Wrote zTagged (tag text ++ mark (decide (dir = .finish))) text (decide (dir = .finish)) := by
      intro dir h_dir
      have h_force := tagCall_force h_dir 1 []
      have h : Wrote zTagged (tag text ++ (tagCall 1 [] dir).out) text (decide (dir = .finish)) :=
        .forced 1 h_feed h_dir (Or.inl rfl) (by
          show (tagCall 1 [] dir).ret = some 0
          rw [h_force]
          rfl)
      rwa [h_force] at h
    cases ended with
    | false => exact h_forced .flush (by decide)
    | true => exact h_forced .finish (by decide)

/-! ## An encoder with it -/

theorem tagStream_lt : 9 < 2 ^ 64 := by decide

abbrev tagging : ZclEncCfg := ⟨zTagged, 9, tagStream_lt, fun _ => true⟩

theorem compressLoop_tagged {w : ZclEncRun tagging} {out input : Octets} {dir : ZDirective}
    (h_out : w.enc.out = some out) (h_cap : w.enc.outCap = 65536)
    (h_len : zclHdrLen + out.length + 2 * input.length + 8 ≤ 65536)
    (h_dir : dir = .goOn ∨ input = []) :
    compressLoop tagging w input dir = ({ w with enc := { w.enc with
      out := some (out ++ (tag input ++ mark (decide (dir = .finish)))) } }, true) := by
  have h_outLen : w.enc.outLen = zclHdrLen + out.length := by
    unfold ZclEnc.outLen
    rw [h_out]
  have h_room : makeRoom tagging w = (w, true) := by
    have h_enough : ¬ w.enc.outCap - w.enc.outLen < tagging.z.outSize := by
      show ¬ w.enc.outCap - w.enc.outLen < 8
      omega
    exact if_neg h_enough
  have h_some : (makeRoom tagging w).2 = true := by rw [h_room]
  have h_call : tagCall (w.enc.outCap - w.enc.outLen) input dir =
      ⟨(), input.length, tag input ++ mark (decide (dir = .finish)), some 0⟩ := by
    rcases h_dir with rfl | rfl
    · have h_half : input.length ≤ (w.enc.outCap - w.enc.outLen) / 2 := by omega
      rw [tagCall_goOn, Nat.min_eq_right h_half, List.take_of_length_le h_half, if_neg (by omega)]
      exact congrArg (ZPut.mk () input.length · (some 0)) (List.append_nil _).symm
    · cases dir with
      | goOn =>
        rw [tagCall_goOn, List.take_nil, List.length_nil, Nat.min_zero, if_neg (by omega)]
        rfl
      | flush => rw [tagCall_force (by decide), if_pos ⟨rfl, by omega⟩]; rfl
      | finish => rw [tagCall_force (by decide), if_pos ⟨rfl, by omega⟩]; rfl
  have h_done : zDone dir input (⟨(), input.length, tag input ++ mark (decide (dir = .finish)),
      some 0⟩ : ZPut Unit) = true := by
    unfold zDone
    split
    · exact decide_eq_true rfl
    · rfl
  rw [compressLoop, dif_pos h_some, h_room]
  dsimp only
  rw [h_call, dif_neg (by simp), dif_pos h_done]
  unfold zPut
  rw [h_out]
  rfl

/-- The first octets of a carrier go into a new buffer. -/
theorem compress_tagged_new {w : ZclEncRun tagging} {input : Octets} {dir : ZDirective}
    (h_out : w.enc.out = none) (h_cap : w.enc.outCap = 0) (h_len : input.length ≤ 8)
    (h_dir : dir = .goOn ∨ input = []) :
    compress tagging w input dir =
      ({ w with
        enc := { w.enc with
          out := some (tag input ++ mark (decide (dir = .finish))), outCap := 65536 }
        allocs := w.allocs + 1 }, true) := by
  have h_hdr : zclHdrLen = 36 := rfl
  have h_want : w.enc.capFor (zclHdrLen + tagging.z.outSize) = 65536 := by
    unfold ZclEnc.capFor
    rw [h_cap]
    rfl
  have h_grow : growOut tagging w (zclHdrLen + tagging.z.outSize) =
      ({ w with enc := { w.enc with outCap := 65536 }, allocs := w.allocs + 1 }, true) := by
    unfold growOut
    dsimp only
    rw [h_want, h_cap]
    rfl
  unfold compress
  rw [h_out]
  dsimp only
  rw [h_grow]
  dsimp only
  rw [compressLoop_tagged rfl rfl (by rw [List.length_nil]; omega) h_dir, List.nil_append]

theorem compress_tagged_more {w : ZclEncRun tagging} {out input : Octets} {dir : ZDirective}
    (h_out : w.enc.out = some out) (h_cap : w.enc.outCap = 65536)
    (h_len : zclHdrLen + out.length + 2 * input.length + 8 ≤ 65536)
    (h_dir : dir = .goOn ∨ input = []) :
    compress tagging w input dir = ({ w with enc := { w.enc with
      out := some (out ++ (tag input ++ mark (decide (dir = .finish)))) } }, true) := by
  unfold compress
  rw [h_out]
  exact compressLoop_tagged h_out h_cap h_len h_dir

/-- What has been written tells the text. -/
theorem tag_prefix {given rest text : Octets} {ended : Bool}
    (h : tag given ++ rest = tag text ++ mark ended) :
    ∃ text', text = given ++ text' ∧ rest = tag text' ++ mark ended := by
  induction given generalizing text with
  | nil => exact ⟨text, rfl, h⟩
  | cons b given ih =>
    cases text with
    | nil =>
      cases ended with
      | false => cases h
      | true => cases (List.cons.inj h).1
    | cons b' text =>
      rw [tag_cons, tag_cons, List.cons_append, List.cons_append, List.cons_append,
        List.cons_append] at h
      obtain ⟨rfl, h_more⟩ := List.cons.inj (List.cons.inj h).2
      obtain ⟨text', rfl, h_rest⟩ := ih h_more
      exact ⟨text', rfl, h_rest⟩

theorem faithful_tagged : Faithful zTagged where
  nothing := by
    intro text ended h
    obtain ⟨h_tag, h_mark⟩ := List.append_eq_nil_iff.mp (wrote_tagged.mp h).symm
    cases text with
    | nil =>
      cases ended with
      | false => exact ⟨rfl, rfl⟩
      | true => cases h_mark
    | cons b text => cases h_tag
  once := by
    intro out text text' ended ended' h h'
    have h_same := (wrote_tagged.mp h).symm.trans (wrote_tagged.mp h')
    obtain ⟨more, rfl, h_rest⟩ := tag_prefix h_same
    cases more with
    | nil =>
      refine ⟨(List.append_nil _).symm, ?_⟩
      cases ended <;> cases ended' <;> first | rfl | cases h_rest
    | cons b more =>
      cases ended with
      | false => cases h_rest
      | true => cases (List.cons.inj h_rest).1

/-! ## The decompressor -/

theorem unstore_tag (room : Nat) (text : Octets) (ended : Bool) :
    unstore room (tag text ++ mark ended) =
      if text.length < room then
        (text, 2 * text.length + (mark ended).length, if ended then .frameEnd else .more)
      else (text.take room, 2 * room, .more) := by
  induction text generalizing room with
  | nil =>
    cases room with
    | zero => cases ended <;> rfl
    | succ room => cases ended <;> rfl
  | cons b text ih =>
    cases room with
    | zero => rfl
    | succ room =>
      rw [tag_cons, List.cons_append, List.cons_append, unstore, if_neg (by decide), if_pos rfl]
      dsimp only
      rw [ih room, List.length_cons]
      by_cases h_lt : text.length < room
      · rw [if_pos h_lt, if_pos (Nat.succ_lt_succ h_lt)]
        dsimp only
        rw [show 2 * (text.length + 1) + (mark ended).length =
          2 * text.length + (mark ended).length + 2 by omega]
      · rw [if_neg h_lt, if_neg fun h => h_lt (Nat.lt_of_succ_lt_succ h)]
        rfl

/-- What has been taken is what has been given, tagged. -/
theorem take_unstore {room : Nat} {input : Octets} (h : (unstore room input).2.2 = .more) :
    input.take (unstore room input).2.1 = tag (unstore room input).1 := by
  fun_induction unstore room input with
  | case1 => rfl
  | case2 => rfl
  | case3 => cases h
  | case4 => cases h
  | case5 room b rest out used ret h_rest h_octet ih =>
    rw [h_rest] at ih
    show (0 :: b :: rest).take (used + 2) = tag (b :: out)
    rw [List.take_succ_cons, List.take_succ_cons, tag_cons, ih h]
  | case6 => cases h

/-- It waits when it is given nothing. -/
abbrev tagDecoder : Zstd where
  DCtx := Unit
  fresh := ()
  decompressStream _ room input :=
    if room = 0 then ⟨(), 0, [], .error⟩
    else ⟨(), (unstore room input).2.1, (unstore room input).1, (unstore room input).2.2⟩
  work _ input := input.length
  progress d room input h_more h_again := by
    by_cases h_none : room = 0
    · rw [if_pos h_none] at h_more
      cases h_more
    · simp only [if_neg h_none] at h_more h_again ⊢
      cases input with
      | nil =>
        have h_out : unstore room [] = ([], 0, .more) := by cases room <;> rfl
        rw [h_out] at h_again
        rcases h_again with h_lt | h_full
        · cases h_lt
        · exact absurd h_full.symm h_none
      | cons b rest =>
        have h_used := unstore_used (Nat.pos_of_ne_zero h_none) (List.cons_ne_nil b rest) h_more
        rw [List.length_drop]
        exact Nat.sub_lt (Nat.succ_pos _) h_used

theorem decompress_tagged {room : Nat} (h_room : 0 < room) (d : Unit) (input : Octets) :
    tagDecoder.decompressStream d room input =
      ⟨(), (unstore room input).2.1, (unstore room input).1, (unstore room input).2.2⟩ :=
  if_neg (Nat.ne_of_gt h_room)

theorem reading_tagged {d : tagDecoder.DCtx} {taken given : Octets} {full : Bool}
    (h : Reading tagDecoder d taken given full) : taken = tag given := by
  induction h with
  | fresh => rfl
  | @call d taken given full room input h h_room h_some h_more ih =>
    rw [decompress_tagged h_room] at h_more ⊢
    rw [tag_append, ih, take_unstore h_more]

theorem decodes_tagged : Decodes zTagged tagDecoder := by
  intro d taken given rest text full ended room h_reading h_wrote h_room h_some
  obtain rfl := reading_tagged h_reading
  obtain ⟨text', rfl, rfl⟩ := tag_prefix (wrote_tagged.mp h_wrote)
  rw [decompress_tagged h_room, unstore_tag]
  by_cases h_lt : text'.length < room
  · rw [if_pos h_lt]
    refine ⟨?_, ?_, List.prefix_refl _, fun h_end => ?_, fun h_more _ _ => ?_⟩
    · cases ended <;> exact nofun
    · rw [List.length_append, length_tag]
    · cases ended with
      | false => cases h_end
      | true => exact ⟨rfl, by rw [List.length_append, length_tag], rfl⟩
    · cases ended with
      | false => exact ⟨rfl, rfl⟩
      | true => cases h_more
  · rw [if_neg h_lt]
    have h_full : (text'.take room).length = room := List.length_take_of_le (Nat.not_lt.mp h_lt)
    refine ⟨fun h_err => ?_, ?_, ?_, fun h_end => ?_, fun _ _ h_ne => ?_⟩
    · cases h_err
    · rw [List.length_append, length_tag]
      dsimp only
      omega
    · exact (List.prefix_append_right_inj _).mpr (List.take_prefix _ _)
    · cases h_end
    · exact absurd h_full h_ne

/-- A receiver with the limits of the daemon that never runs out of memory. -/
abbrev tagCfg : ZclCfg where
  z := tagDecoder
  tmpLen := 128 * 1024
  limits := zclRxDefaults
  mem _ := true
  emit _ := true

theorem zclRxNew_tagged : ∃ rx, zclRxNew tagCfg = some rx := ⟨_, rfl⟩

/-! ## Chunks -/

/-- A chunk is made by the compressor when its carriers, put together, are the tagged records. -/
theorem ZclChunk.Sound.tagged {ch : ZclChunk}
    (h_wrote : ∀ k, k < ch.lots.length → ch.payloadTo (k + 1) =
      tag (zclRecords (ch.bundlesTo (k + 1))) ++ mark (ch.isEnd k))
    (h_lots : ∀ lot ∈ ch.lots, lot.payload ≠ [] ∧ lot.payload.length ≤ zclMaxCarrier)
    (h_record : ∀ b ∈ ch.bundles, 0 < b.length ∧ b.length < 2 ^ 32) (h_id : ch.id < 2 ^ 64)
    (h_seq : ch.lots.length < 2 ^ 32) : ch.Sound zTagged where
  wrote := fun k h_k => wrote_tagged.mpr (h_wrote k h_k)
  full := fun lot h_lot => (h_lots lot h_lot).1
  small := fun lot h_lot => (h_lots lot h_lot).2
  record := h_record
  id_lt := h_id
  seq_le := Nat.le_of_lt h_seq
  seq_lt := fun _ => h_seq

def endedChunk : ZclChunk :=
  ⟨0, [⟨tag (zclRecords [[7]]), [[7]]⟩, ⟨tag (zclRecords [[8]]) ++ [1], [[8]]⟩], true⟩

def laterChunk : ZclChunk := ⟨1, [⟨tag (zclRecords [[9]]), [[9]]⟩], false⟩

theorem sent_chunks : Sent zTagged [endedChunk, laterChunk] where
  sound := by
    refine List.forall_mem_cons.mpr ⟨?_, List.forall_mem_singleton.mpr ?_⟩
    · exact .tagged (by decide) (by decide) (by decide) (by decide) (by decide)
    · exact .tagged (by decide) (by decide) (by decide) (by decide) (by decide)
  increasing := by decide

/-! ## One bundle -/

def taggedOctet : Octets := tag (zclRecord [7])

/-- The encoder with a bundle of one octet in it. -/
def withTagged : ZclEncRun tagging :=
  ⟨⟨(), 9, 0, 0, true, 1, 1, some taggedOctet, 65536⟩, 1, []⟩

def taggedCarrier : Octets :=
  zclHeaderPut ⟨0, 9, 0, 0, taggedOctet.length⟩ taggedOctet ++ taggedOctet

def afterTagged : ZclEncRun tagging :=
  ⟨⟨(), 9, 0, 1, true, 1, 0, none, 0⟩, 1, [taggedCarrier]⟩

theorem add_tagged : zclEncAdd tagging (zclEncInit tagging) [7] = (withTagged, 0) := by
  unfold zclEncAdd
  rw [if_neg (by decide), compress_tagged_new rfl rfl (by decide) (Or.inl rfl)]
  dsimp only
  rw [compress_tagged_more rfl rfl (by decide) (Or.inl rfl)]
  rfl

theorem cut_tagged : zclEncCut tagging withTagged false = (afterTagged, 1) := by
  unfold zclEncCut
  rw [if_neg (by decide), compress_tagged_more rfl rfl (by decide) (Or.inr rfl)]
  rfl

theorem header_taggedCarrier :
    zclHeaderGet taggedCarrier = some ⟨0, 9, 0, 0, taggedOctet.length⟩ := by
  apply zclHeaderGet_put
  exact ⟨by decide, by decide, by decide, by decide, rfl, by decide⟩

end IonContrib.Zcl
