/-
  IonContrib.Zcl.Decode

  A carrier of an encoder at the decoder.

  Of libzstd this is assumed (`Decodes`): as far as a frame has been forced out
  of the compressor, the decompressor gives back its text, in whichever pieces
  it is called.  So the next carrier of a chunk comes out as its bundles, unless
  a limit of the receiver or its memory is in the way (`decodeCarrier_genuine`).
-/
import IonContrib.Zcl.EncChunks
import IonContrib.Zcl.Records

namespace IonContrib.Zcl

open Octets

/-! ## The decompressor -/

/-- What a context has taken and given since it was fresh, in calls that had something to do;
    `full` when the last one has filled the room it was given. -/
inductive Reading (z : Zstd) : z.DCtx → Octets → Octets → Bool → Prop
  | fresh : Reading z z.fresh [] [] false
  | call {d : z.DCtx} {taken given : Octets} {full : Bool} (room : Nat) (input : Octets)
      (h : Reading z d taken given full) (h_room : 0 < room) (h_some : input ≠ [] ∨ full = true)
      (h_more : (z.decompressStream d room input).ret = .more) :
      Reading z (z.decompressStream d room input).dctx
        (taken ++ input.take (z.decompressStream d room input).used)
        (given ++ (z.decompressStream d room input).out)
        (decide ((z.decompressStream d room input).out.length = room))

/-- A call that is given the rest of what was made of `text`. -/
structure Answers {δ : Type} (call : ZCall δ) (room : Nat) (given rest text : Octets)
    (ended : Bool) : Prop where
  ok : call.ret ≠ .error
  used_le : call.used ≤ rest.length
  out_prefix : given ++ call.out <+: text
  frameEnd : call.ret = .frameEnd → ended = true ∧ call.used = rest.length ∧ given ++ call.out = text
  /-- Nothing is kept back when there is room left. -/
  drained : call.ret = .more → call.used = rest.length → call.out.length ≠ room →
    ended = false ∧ given ++ call.out = text

/-- The decompressor of a compressor. -/
def Decodes (zc : ZstdC) (zd : Zstd) : Prop :=
  ∀ (d : zd.DCtx) (taken given rest text : Octets) (full ended : Bool) (room : Nat),
    Reading zd d taken given full → Wrote zc (taken ++ rest) text ended → 0 < room →
      rest ≠ [] ∨ full = true →
        Answers (zd.decompressStream d room rest) room given rest text ended

/-! ## Records -/

variable {c : ZclCfg}

/-- Records are read back until one is too long. -/
theorem parse_zclRecords (pre bundles : List Octets)
    (h : ∀ b ∈ bundles, 0 < b.length ∧ b.length < 2 ^ 32) :
    (recordGrammar c.limits.maxBundle).parse pre (zclRecords bundles) =
        ⟨pre ++ bundles, some []⟩ ∨
      ∃ front, front <+: bundles ∧ (∃ b ∈ bundles, c.limits.maxBundle < b.length) ∧
        (recordGrammar c.limits.maxBundle).parse pre (zclRecords bundles) =
          ⟨pre ++ front, none⟩ := by
  induction bundles generalizing pre with
  | nil =>
    left
    have h_more : recordLook c.limits.maxBundle pre [] = .more := recordLook_short (by decide)
    rw [List.append_nil]
    exact FrontParser.parse_more h_more
  | cons b bundles ih =>
    obtain ⟨h_b, h_rest⟩ := List.forall_mem_cons.mp h
    have h_all : zclRecords (b :: bundles) = beBytes 4 b.length ++ (b ++ zclRecords bundles) := by
      unfold zclRecords
      rw [List.map_cons, List.flatten_cons, zclRecord, List.append_assoc]
    have h_hdr : (beBytes 4 b.length).length = zclRecHdrLen := length_beBytes 4 _
    have h_len : beNat (beBytes 4 b.length) = b.length := beNat_beBytes h_b.2
    rw [h_all]
    by_cases h_long : c.limits.maxBundle < b.length
    · right
      have h_take : (beBytes 4 b.length ++ (b ++ zclRecords bundles)).take zclRecHdrLen =
          beBytes 4 b.length := List.take_left' h_hdr
      have h_bad : recordLook c.limits.maxBundle pre
          (beBytes 4 b.length ++ (b ++ zclRecords bundles)) = .bad pre := by
        refine recordLook_bad ?_ (Or.inr ?_)
        · rw [List.length_append, h_hdr]
          exact Nat.le_add_right _ _
        · rw [h_take, h_len]
          exact h_long
      refine ⟨[], List.nil_prefix, ⟨b, List.mem_cons_self, h_long⟩, ?_⟩
      rw [List.append_nil]
      exact FrontParser.parse_bad h_bad
    · rw [look_record h_hdr h_len.symm (by rw [h_len]; omega)]
      have h_pre : pre ++ [b] ++ bundles = pre ++ b :: bundles := by
        rw [List.append_assoc, List.singleton_append]
      rcases ih (pre ++ [b]) h_rest with h_ok | ⟨front, h_front, ⟨b', h_b', h_large⟩, h_bad⟩
      · left
        rw [h_ok, h_pre]
      · right
        refine ⟨b :: front, List.cons_prefix_cons.mpr ⟨rfl, h_front⟩,
          ⟨b', List.mem_cons_of_mem _ h_b', h_large⟩, ?_⟩
        rw [h_bad, List.append_assoc, List.singleton_append]

theorem state_zclRecords (pre bundles : List Octets)
    (h : ∀ b ∈ bundles, 0 < b.length ∧ b.length < 2 ^ 32) :
    ((recordGrammar c.limits.maxBundle).parse pre (zclRecords bundles)).state <+:
      pre ++ bundles := by
  rcases parse_zclRecords (c := c) pre bundles h with h_ok | ⟨front, h_front, -, h_bad⟩
  · exact congrArg Parsed.state h_ok ▸ List.prefix_rfl
  · rw [h_bad]
    exact (List.prefix_append_right_inj pre).mpr h_front

/-- A limit or the memory of the receiver stands against `bundles`, with which the text of the
    chunk is `textLen` octets long. -/
def Hindered (c : ZclCfg) (bundles : List Octets) (textLen : Nat) : Prop :=
  (∃ n, c.mem n = false) ∨ c.limits.maxChunkOut < textLen ∨
    ∃ b ∈ bundles, c.limits.maxBundle < b.length

/-- When `start` had been emitted the text went on with `x`, which has been taken. -/
structure RecordsAt (c : ZclCfg) (start : List Octets) (x : Octets) (w : ZclWork)
    (r : ZclRecords) : Prop where
  ok : RecordsOk c r
  within : r.chunkOut ≤ c.limits.maxChunkOut
  reads : ∀ y, (recordGrammar c.limits.maxBundle).parse start (x ++ y) =
    (recordGrammar c.limits.maxBundle).parse w.emitted (r.held ++ y)

section

variable {start bundles : List Octets} {x data : Octets} {w : ZclWork} {r : ZclRecords}
  {before : Nat}

theorem RecordsAt.emitted_prefix (h : RecordsAt c start x w r)
    (h_bundles : ∀ b ∈ bundles, 0 < b.length ∧ b.length < 2 ^ 32)
    (h_front : x <+: zclRecords bundles) : w.emitted <+: start ++ bundles := by
  obtain ⟨y, h_y⟩ := h_front
  refine (prefix_parse c.limits.maxBundle w.emitted (r.held ++ y)).trans ?_
  rw [← h.reads y, h_y]
  exact state_zclRecords start bundles h_bundles

/-- When all of the text has been taken, the bundles have been emitted. -/
theorem RecordsAt.whole (h : RecordsAt c start (zclRecords bundles) w r)
    (h_bundles : ∀ b ∈ bundles, 0 < b.length ∧ b.length < 2 ^ 32) :
    w.emitted = start ++ bundles ∧ r.lenBuf = [] ∧ r.record = [] := by
  have h_reads := h.reads []
  have h_more : (recordGrammar c.limits.maxBundle).parse w.emitted r.held =
      ⟨w.emitted, some r.held⟩ := FrontParser.parse_more (h.ok.look w.emitted)
  rw [List.append_nil, List.append_nil, h_more] at h_reads
  rcases parse_zclRecords (c := c) start bundles h_bundles with h_ok | ⟨front, -, -, h_bad⟩
  · rw [h_ok] at h_reads
    obtain ⟨h_emitted, h_held⟩ := Parsed.mk.inj h_reads
    exact ⟨h_emitted.symm, List.append_eq_nil_iff.mp (Option.some.inj h_held).symm⟩
  · rw [h_bad] at h_reads
    cases (Parsed.mk.inj h_reads).2

/-- A slice of the text is taken, or something is in the way. -/
theorem RecordsAt.take (h : RecordsAt c start x w r)
    (h_bundles : ∀ b ∈ bundles, 0 < b.length ∧ b.length < 2 ^ 32)
    (h_front : x ++ data <+: zclRecords bundles) (h_count : r.chunkOut = before + x.length) :
    (∃ w' r', takeRecords c w r data = (w', r', true) ∧ RecordsAt c start (x ++ data) w' r' ∧
        r'.chunkOut = before + (x ++ data).length) ∨
      ∃ w' r', takeRecords c w r data = (w', r', false) ∧ w'.emitted <+: start ++ bundles ∧
        Hindered c bundles (before + (zclRecords bundles).length) := by
  have h_le := h_front.length_le
  rw [List.length_append] at h_le
  by_cases h_room : r.chunkOut + data.length ≤ c.limits.maxChunkOut
  · obtain ⟨h_reads, h_out⟩ := takeRecords_reads (w := w) h.ok h_room
    generalize takeRecords c w r data = out at h_reads h_out ⊢
    obtain ⟨y, h_y⟩ := h_front
    have h_text : (recordGrammar c.limits.maxBundle).parse w.emitted (r.held ++ (data ++ y)) =
        (recordGrammar c.limits.maxBundle).parse start (zclRecords bundles) := by
      rw [← h.reads (data ++ y), ← List.append_assoc, h_y]
    cases h_reads with
    | on h_ok h_allocs h_slice =>
      refine Or.inl ⟨_, _, rfl, ⟨h_ok, h_out ▸ h_room, fun y => ?_⟩, ?_⟩
      · rw [List.append_assoc, h.reads, h_slice]
      · rw [h_out, h_count, List.length_append, Nat.add_assoc]
    | bad h_allocs h_slice =>
      rw [h_slice y] at h_text
      have h_state := state_zclRecords (c := c) start bundles h_bundles
      rw [← h_text] at h_state
      refine Or.inr ⟨_, _, rfl, h_state, Or.inr (Or.inr ?_)⟩
      rcases parse_zclRecords (c := c) start bundles h_bundles with h_ok | ⟨front, -, h_long, -⟩
      · rw [h_ok] at h_text
        cases (Parsed.mk.inj h_text).2
      · exact h_long
    | noMemory h_mem h_first =>
      obtain ⟨n, -, -, h_none⟩ := h_mem
      refine Or.inr ⟨_, _, rfl, (h_first y).trans ?_, Or.inl ⟨n, h_none⟩⟩
      rw [h_text]
      exact state_zclRecords start bundles h_bundles
  · refine Or.inr ⟨w, r, ?_, h.emitted_prefix h_bundles ?_, Or.inr (Or.inl ?_)⟩
    · have h_within := h.within
      unfold takeRecords
      rw [if_pos (by omega)]
    · exact (List.prefix_append x data).trans h_front
    · omega

end

/-! ## Carriers -/

/-- What the loop of `decodeCarrier` comes to when it has taken a whole carrier. -/
structure Decoded (c : ZclCfg) (start bundles : List Octets) (taken text : Octets) (ended : Bool)
    (out : ZclDecoded c.z.DCtx) : Prop where
  rest : out.rest = some ([], ended)
  emitted : out.work.emitted = start ++ bundles
  between : out.records.lenBuf = [] ∧ out.records.record = []
  count : out.records.chunkOut = text.length
  within : out.records.chunkOut ≤ c.limits.maxChunkOut
  reading : ended = false → Reading c.z out.dctx taken text false

variable {zc : ZstdC}

theorem decodeLoop_genuine (h_dec : Decodes zc c.z) (h_room : 0 < c.tmpLen)
    {start bundles : List Octets} (h_bundles : ∀ b ∈ bundles, 0 < b.length ∧ b.length < 2 ^ 32)
    {before all : Octets} {ended : Bool}
    (h_wrote : Wrote zc all (before ++ zclRecords bundles) ended) (w : ZclWork) (d : c.z.DCtx)
    (r : ZclRecords) (input : Octets) :
    ∀ (taken x : Octets) (full : Bool), Reading c.z d taken (before ++ x) full →
      RecordsAt c start x w r → r.chunkOut = before.length + x.length → taken ++ input = all →
      (input ≠ [] ∨ full = true) →
        Decoded c start bundles all (before ++ zclRecords bundles) ended
            (decodeLoop c w d r input) ∨
          ((decodeLoop c w d r input).rest = none ∧
            (decodeLoop c w d r input).work.emitted <+: start ++ bundles ∧
            Hindered c bundles (before.length + (zclRecords bundles).length)) := by
  fun_induction decodeLoop c w d r input with
  | case1 w d r input call h_err =>
    intro taken x full h_reading h_at h_count h_all h_some
    have h_answers := h_dec d taken _ input _ full ended _ h_reading (h_all ▸ h_wrote) h_room h_some
    exact absurd h_err h_answers.ok
  | case2 w d r input call h_err w₁ r₁ h_take =>
    intro taken x full h_reading h_at h_count h_all h_some
    have h_answers := h_dec d taken _ input _ full ended _ h_reading (h_all ▸ h_wrote) h_room h_some
    have h_front := h_answers.out_prefix
    rw [List.append_assoc, List.prefix_append_right_inj] at h_front
    rcases h_at.take h_bundles h_front h_count with ⟨w', r', h_eq, -⟩ | ⟨w', r', h_eq, h_out⟩
    · cases h_eq.symm.trans h_take
    · obtain ⟨rfl, h_rest⟩ := Prod.mk.inj (h_eq.symm.trans h_take)
      exact Or.inr ⟨rfl, h_out⟩
  | case3 w d r input call h_err w₁ r₁ h_take h_end =>
    intro taken x full h_reading h_at h_count h_all h_some
    have h_answers := h_dec d taken _ input _ full ended _ h_reading (h_all ▸ h_wrote) h_room h_some
    have h_front := h_answers.out_prefix
    obtain ⟨rfl, h_used, h_text⟩ := h_answers.frameEnd h_end
    rw [List.append_assoc, List.prefix_append_right_inj] at h_front
    rw [List.append_assoc, List.append_cancel_left_eq] at h_text
    rcases h_at.take h_bundles h_front h_count with ⟨w', r', h_eq, h_next, h_count'⟩ |
      ⟨w', r', h_eq, -⟩
    · obtain ⟨rfl, h_rest⟩ := Prod.mk.inj (h_eq.symm.trans h_take)
      obtain ⟨rfl, -⟩ := Prod.mk.inj h_rest
      rw [h_text] at h_next h_count'
      obtain ⟨h_emitted, h_between⟩ := h_next.whole h_bundles
      refine Or.inl ⟨?_, h_emitted, h_between, ?_, h_next.within, ?_⟩
      · dsimp only
        rw [List.drop_of_length_le (Nat.le_of_eq h_used.symm)]
      · rw [List.length_append]
        exact h_count'
      · intro h_false
        cases h_false
    · cases h_eq.symm.trans h_take
  | case4 w d r input call h_err w₁ r₁ h_take h_end h_more ih =>
    intro taken x full h_reading h_at h_count h_all h_some
    have h_answers := h_dec d taken _ input _ full ended _ h_reading (h_all ▸ h_wrote) h_room h_some
    have h_front := h_answers.out_prefix
    rw [List.append_assoc, List.prefix_append_right_inj] at h_front
    rcases h_at.take h_bundles h_front h_count with ⟨w', r', h_eq, h_next, h_count'⟩ |
      ⟨w', r', h_eq, -⟩
    · obtain ⟨rfl, h_rest⟩ := Prod.mk.inj (h_eq.symm.trans h_take)
      obtain ⟨rfl, -⟩ := Prod.mk.inj h_rest
      have h_read := Reading.call c.tmpLen input h_reading h_room h_some h_more.1
      rw [List.append_assoc before] at h_read
      refine ih _ _ _ h_read h_next h_count' ?_ ?_
      · rw [List.append_assoc, List.take_append_drop]
        exact h_all
      · rcases h_more.2 with h_left | h_full
        · left
          intro h_nil
          have h_len := congrArg List.length h_nil
          rw [List.length_drop, List.length_nil] at h_len
          omega
        · right
          exact decide_eq_true h_full
    · cases h_eq.symm.trans h_take
  | case5 w d r input call h_err w₁ r₁ h_take h_end h_more =>
    intro taken x full h_reading h_at h_count h_all h_some
    have h_answers := h_dec d taken _ input _ full ended _ h_reading (h_all ▸ h_wrote) h_room h_some
    have h_front := h_answers.out_prefix
    have h_ret : call.ret = .more := by
      cases h_call : call.ret with
      | error => exact absurd h_call h_err
      | frameEnd => exact absurd h_call h_end
      | more => rfl
    have h_stop := not_or.mp fun h => h_more ⟨h_ret, h⟩
    have h_used : call.used = input.length :=
      Nat.le_antisymm h_answers.used_le (Nat.not_lt.mp h_stop.1)
    obtain ⟨rfl, h_text⟩ := h_answers.drained h_ret h_used h_stop.2
    have h_read := Reading.call c.tmpLen input h_reading h_room h_some h_ret
    rw [List.take_of_length_le (Nat.le_of_eq h_used.symm), h_all, h_text,
      decide_eq_false h_stop.2] at h_read
    rw [List.append_assoc, List.prefix_append_right_inj] at h_front
    rw [List.append_assoc, List.append_cancel_left_eq] at h_text
    rcases h_at.take h_bundles h_front h_count with ⟨w', r', h_eq, h_next, h_count'⟩ |
      ⟨w', r', h_eq, -⟩
    · obtain ⟨rfl, h_rest⟩ := Prod.mk.inj (h_eq.symm.trans h_take)
      obtain ⟨rfl, -⟩ := Prod.mk.inj h_rest
      rw [h_text] at h_next h_count'
      obtain ⟨h_emitted, h_between⟩ := h_next.whole h_bundles
      refine Or.inl ⟨?_, h_emitted, h_between, ?_, h_next.within, fun _ => h_read⟩
      · dsimp only
        rw [List.drop_of_length_le (Nat.le_of_eq h_used.symm)]
      · rw [List.length_append]
        exact h_count'
    · cases h_eq.symm.trans h_take

/-- A stream that has decoded the first `k` carriers of a chunk. -/
structure Decoding (c : ZclCfg) (ch : ZclChunk) (k : Nat) (s : c.Stream) : Prop where
  le : k ≤ ch.lots.length
  going : ch.ended = true → k < ch.lots.length
  notDone : s.frameDone = false
  reading : Reading c.z s.dctx (ch.payloadTo k) (zclRecords (ch.bundlesTo k)) false
  between : s.records.lenBuf = [] ∧ s.records.record = []
  count : s.records.chunkOut = (zclRecords (ch.bundlesTo k)).length
  within : s.records.chunkOut ≤ c.limits.maxChunkOut

/-- The decoder has just been reset. -/
theorem Decoding.start {ch : ZclChunk} {s : c.Stream} (h_some : 0 < ch.lots.length)
    (h_dctx : s.dctx = c.z.fresh) (h_done : s.frameDone = false) {recCap : Nat}
    (h_records : s.records = chunkStart recCap) : Decoding c ch 0 s where
  le := Nat.zero_le _
  going := fun _ => h_some
  notDone := h_done
  reading := by
    rw [h_dctx]
    exact .fresh
  between := by
    rw [h_records]
    exact ⟨rfl, rfl⟩
  count := by
    rw [h_records]
    rfl
  within := by
    rw [h_records]
    exact Nat.zero_le _

/-- Where the decoder is after a carrier that did not end the chunk. -/
theorem Decoding.after {ch : ZclChunk} {k : Nat} (s : c.Stream)
    (h_k : k < ch.lots.length) (h_end : ch.isEnd k = false) {w : List Octets}
    {bundles : List Octets} {out : ZclDecoded c.z.DCtx}
    (h_out : Decoded c w bundles (ch.payloadTo (k + 1)) (zclRecords (ch.bundlesTo (k + 1)))
      false out) :
    Decoding c ch (k + 1)
      { s with dctx := out.dctx, records := out.records, frameDone := false } where
  le := h_k
  going := by
    intro h_ended
    unfold ZclChunk.isEnd at h_end
    rw [h_ended, Bool.true_and, decide_eq_false_iff_not] at h_end
    omega
  notDone := rfl
  reading := h_out.reading rfl
  between := h_out.between
  count := h_out.count
  within := h_out.within

/-- The next carrier of a chunk comes out as its bundles, or something of the receiver is in the
    way. -/
theorem decodeCarrier_genuine (h_dec : Decodes zc c.z) (h_room : 0 < c.tmpLen) {ch : ZclChunk}
    (h_sound : ch.Sound zc) {k : Nat} {s : c.Stream} (h : Decoding c ch k s) {lot : Lot}
    (h_lot : ch.lots[k]? = some lot) {p : Pending} (h_data : p.data = lot.payload)
    (h_end : p.isEnd = ch.isEnd k) (w : ZclWork) :
    ((decodeCarrier c w s p).2.2 = true ∧
        (decodeCarrier c w s p).1.emitted = w.emitted ++ lot.bundles ∧
        (ch.isEnd k = false → Decoding c ch (k + 1) (decodeCarrier c w s p).2.1)) ∨
      ((decodeCarrier c w s p).2.2 = false ∧
        (decodeCarrier c w s p).1.emitted <+: w.emitted ++ lot.bundles ∧
        Hindered c lot.bundles (zclRecords (ch.bundlesTo (k + 1))).length) := by
  have h_k := (List.getElem?_eq_some_iff.mp h_lot).1
  have h_mem := List.mem_of_getElem? h_lot
  have h_text : zclRecords (ch.bundlesTo (k + 1)) =
      zclRecords (ch.bundlesTo k) ++ zclRecords lot.bundles := by
    rw [ZclChunk.bundlesTo_succ h_lot, zclRecords_append]
  have h_wrote := h_sound.wrote k h_k
  have h_bundles : ∀ b ∈ lot.bundles, 0 < b.length ∧ b.length < 2 ^ 32 := fun b h_b =>
    h_sound.record b (List.mem_flatMap.mpr ⟨lot, h_mem, h_b⟩)
  have h_reading := h.reading
  rw [h_text] at h_wrote ⊢
  unfold decodeCarrier
  dsimp only
  rw [h.notDone, if_neg Bool.false_ne_true]
  generalize h_w : ({ w with handed := w.handed + 1, stats := { w.stats with
    bytesIn := w.stats.bytesIn + p.data.length } } : ZclWork) = w₁
  have h_emitted : w₁.emitted = w.emitted := by rw [← h_w]
  have h_held : s.records.held = [] := List.append_eq_nil_iff.mpr h.between
  have h_lenBuf : s.records.lenBuf.length = 0 := List.length_eq_zero_iff.mpr h.between.1
  have h_at : RecordsAt c w₁.emitted [] w₁ s.records := by
    refine ⟨⟨?_, fun _ => h.between.2, ?_, ?_⟩, h.within, fun y => ?_⟩
    · rw [h_lenBuf]
      exact Nat.zero_le _
    · rw [h_lenBuf]
      intro h_hdr
      exact absurd h_hdr (by decide)
    · rw [h.between.2]
      exact Nat.zero_le _
    · rw [h_held]
  have h_count : s.records.chunkOut = (zclRecords (ch.bundlesTo k)).length + ([] : Octets).length :=
    h.count
  have h_all : ch.payloadTo k ++ p.data = ch.payloadTo (k + 1) := by
    rw [ZclChunk.payloadTo_succ h_lot, h_data]
  rw [← List.append_nil (zclRecords (ch.bundlesTo k))] at h_reading
  have h_some : p.data ≠ [] ∨ false = true := Or.inl (h_data ▸ h_sound.full lot h_mem)
  rcases decodeLoop_genuine h_dec h_room h_bundles h_wrote w₁ s.dctx s.records p.data _ _ _
    h_reading h_at h_count h_all h_some with h_out | ⟨h_none, h_front, h_why⟩
  · rw [h_out.rest]
    dsimp only
    rw [if_neg (not_not_intro rfl), h_end]
    left
    cases h_last : ch.isEnd k with
    | true =>
      rw [if_pos rfl, h_out.between.1]
      refine ⟨rfl, ?_, ?_⟩
      · rw [← h_emitted]
        exact h_out.emitted
      · intro h_false
        cases h_false
    | false =>
      rw [if_neg Bool.false_ne_true]
      refine ⟨rfl, ?_, fun _ => ?_⟩
      · rw [← h_emitted]
        exact h_out.emitted
      · rw [h_last, ← h_text] at h_out
        exact .after s h_k h_last h_out
  · rw [h_none]
    dsimp only
    refine Or.inr ⟨rfl, ?_, ?_⟩
    · rw [← h_emitted]
      exact h_front
    · rw [List.length_append]
      exact h_why

end IonContrib.Zcl
