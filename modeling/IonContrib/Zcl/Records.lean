/-
  IonContrib.Zcl.Records

  The records of a chunk, in whichever slices its octets come out of the decoder.

  What the octets of a chunk hold is said by `recordGrammar`: an octet count and as
  many octets, again and again, with no count of zero or above `maxBundle`.
  `takeRecords` keeps of an unfinished record what there is of it (`held`), so the
  grammar's reading of what is held and what is still to come stays the same from
  one round of its loop to the next (`takeRound_reads`).  Only an allocation that
  fails ends it in another place.
-/
import IonContrib.Lib.FrontParser
import IonContrib.Zcl.Rx
import IonContrib.Zcl.Stored
import Mathlib.Logic.Relation

namespace IonContrib.Zcl

open Octets

/-! ## The grammar -/

/-- The record at the front, behind the bundles read so far. -/
def recordLook (maxBundle : Nat) (bundles : List Octets) (l : Octets) : Look (List Octets) :=
  if l.length < zclRecHdrLen then .more
  else
    let len := beNat (l.take zclRecHdrLen)
    if len = 0 ∨ len > maxBundle then .bad bundles
    else if l.length < zclRecHdrLen + len then .more
    else .next (bundles ++ [(l.drop zclRecHdrLen).take len]) (zclRecHdrLen + len)

section

variable {maxBundle : Nat} {bundles : List Octets} {l : Octets}

theorem recordLook_short (h : l.length < zclRecHdrLen) :
    recordLook maxBundle bundles l = .more := if_pos h

theorem recordLook_bad (h : zclRecHdrLen ≤ l.length)
    (h_len : beNat (l.take zclRecHdrLen) = 0 ∨ beNat (l.take zclRecHdrLen) > maxBundle) :
    recordLook maxBundle bundles l = .bad bundles := by
  unfold recordLook
  rw [if_neg (by omega)]
  exact if_pos h_len

theorem recordLook_more (h_len : ¬ (beNat (l.take zclRecHdrLen) = 0 ∨
      beNat (l.take zclRecHdrLen) > maxBundle))
    (h : l.length < zclRecHdrLen + beNat (l.take zclRecHdrLen)) :
    recordLook maxBundle bundles l = .more := by
  unfold recordLook
  dsimp only
  rw [if_neg h_len, if_pos h, ite_self]

theorem recordLook_next (h_len : ¬ (beNat (l.take zclRecHdrLen) = 0 ∨
      beNat (l.take zclRecHdrLen) > maxBundle))
    (h : zclRecHdrLen + beNat (l.take zclRecHdrLen) ≤ l.length) :
    recordLook maxBundle bundles l =
      .next (bundles ++ [(l.drop zclRecHdrLen).take (beNat (l.take zclRecHdrLen))])
        (zclRecHdrLen + beNat (l.take zclRecHdrLen)) := by
  unfold recordLook
  dsimp only
  rw [if_neg (by omega), if_neg h_len, if_neg (by omega)]

/-- The count and the record are there, so what comes behind them does not matter. -/
theorem recordLook_cases (maxBundle : Nat) (bundles : List Octets) (l : Octets) :
    recordLook maxBundle bundles l = .more ∨
    (zclRecHdrLen ≤ l.length ∧ (beNat (l.take zclRecHdrLen) = 0 ∨
        beNat (l.take zclRecHdrLen) > maxBundle) ∧
      recordLook maxBundle bundles l = .bad bundles) ∨
    (¬ (beNat (l.take zclRecHdrLen) = 0 ∨ beNat (l.take zclRecHdrLen) > maxBundle) ∧
      zclRecHdrLen + beNat (l.take zclRecHdrLen) ≤ l.length ∧
      recordLook maxBundle bundles l =
        .next (bundles ++ [(l.drop zclRecHdrLen).take (beNat (l.take zclRecHdrLen))])
          (zclRecHdrLen + beNat (l.take zclRecHdrLen))) := by
  by_cases h_short : l.length < zclRecHdrLen
  · exact Or.inl (recordLook_short h_short)
  · by_cases h_len : beNat (l.take zclRecHdrLen) = 0 ∨ beNat (l.take zclRecHdrLen) > maxBundle
    · exact Or.inr (Or.inl ⟨by omega, h_len, recordLook_bad (by omega) h_len⟩)
    · by_cases h_more : l.length < zclRecHdrLen + beNat (l.take zclRecHdrLen)
      · exact Or.inl (recordLook_more h_len h_more)
      · exact Or.inr (Or.inr ⟨h_len, by omega, recordLook_next h_len (by omega)⟩)

theorem take_hdr_append (h : zclRecHdrLen ≤ l.length) (x : Octets) :
    (l ++ x).take zclRecHdrLen = l.take zclRecHdrLen := List.take_append_of_le_length h

end

/-- Records with their octet counts before them. -/
def recordGrammar (maxBundle : Nat) : FrontParser (List Octets) UInt8 where
  look := recordLook maxBundle
  takes := by
    intro s s' l n h
    have h_hdr : zclRecHdrLen = 4 := rfl
    rcases recordLook_cases maxBundle s l with h_look | ⟨-, -, h_look⟩ | ⟨-, h_le, h_look⟩
    · rw [h_look] at h
      cases h
    · rw [h_look] at h
      cases h
    · rw [h_look] at h
      obtain ⟨rfl, rfl⟩ := Look.next.inj h
      exact ⟨by omega, h_le⟩
  next_append := by
    intro s s' l n h x
    rcases recordLook_cases maxBundle s l with h_look | ⟨-, -, h_look⟩ | ⟨h_len, h_le, h_look⟩
    · rw [h_look] at h
      cases h
    · rw [h_look] at h
      cases h
    · rw [h_look] at h
      rw [← h]
      have h_hdr : zclRecHdrLen ≤ l.length := by omega
      have h_take := take_hdr_append h_hdr x
      have h_room : beNat (l.take zclRecHdrLen) ≤ (l.drop zclRecHdrLen).length := by
        rw [List.length_drop]
        omega
      rw [← h_take] at h_len
      rw [recordLook_next h_len (by rw [h_take, List.length_append]; omega), h_take,
        List.drop_append_of_le_length h_hdr, List.take_append_of_le_length h_room]
  bad_append := by
    intro s s' l h x
    rcases recordLook_cases maxBundle s l with h_look | ⟨h_hdr, h_len, h_look⟩ | ⟨-, -, h_look⟩
    · rw [h_look] at h
      cases h
    · rw [h_look] at h
      rw [← h]
      rw [← take_hdr_append h_hdr x] at h_len
      exact recordLook_bad (by rw [List.length_append]; omega) h_len
    · rw [h_look] at h
      cases h

/-- What a whole buffer holds: its bundles, and the unfinished rest unless a count is wrong. -/
def readRecords (maxBundle : Nat) (l : Octets) : Parsed (List Octets) UInt8 :=
  (recordGrammar maxBundle).parse [] l

theorem recordLook_behind (maxBundle : Nat) (pre s : List Octets) (l : Octets) :
    recordLook maxBundle (pre ++ s) l = (recordLook maxBundle s l).map (pre ++ ·) := by
  unfold recordLook
  dsimp only
  split
  · rfl
  · split
    · rfl
    · split
      · rfl
      · rw [List.append_assoc]
        rfl

/-- Reading on behind other bundles. -/
theorem parse_behind (maxBundle : Nat) (pre : List Octets) (l : Octets) :
    (recordGrammar maxBundle).parse pre l =
      ⟨pre ++ (readRecords maxBundle l).state, (readRecords maxBundle l).rest⟩ := by
  have h_map := FrontParser.parse_map (P := recordGrammar maxBundle)
    (Q := recordGrammar maxBundle) (recordLook_behind maxBundle pre) [] l
  rwa [List.append_nil] at h_map

theorem prefix_parse (maxBundle : Nat) (pre : List Octets) (l : Octets) :
    pre <+: ((recordGrammar maxBundle).parse pre l).state := by
  rw [parse_behind]
  exact List.prefix_append _ _

/-! ## Rounds -/

variable (c : ZclCfg)

/-- A round of the loop of `takeRecords`. -/
def takeRound (w : ZclWork) (r : ZclRecords) (b : UInt8) (data : Octets) :
    ZclWork × ZclRecords × Option Octets :=
  if r.lenBuf.length < zclRecHdrLen then takeLen c w r b data else takeBody c w r (b :: data)

theorem takeRounds_none {rounds : Nat} {w w' : ZclWork} {r r' : ZclRecords} {b : UInt8}
    {data : Octets} (h : takeRound c w r b data = (w', r', none)) :
    takeRounds c (rounds + 1) w r (b :: data) = (w', r', false) := by
  unfold takeRound at h
  rw [takeRounds, h]

theorem takeRounds_some {rounds : Nat} {w w' : ZclWork} {r r' : ZclRecords} {b : UInt8}
    {data data' : Octets} (h : takeRound c w r b data = (w', r', some data')) :
    takeRounds c (rounds + 1) w r (b :: data) = takeRounds c rounds w' r' data' := by
  unfold takeRound at h
  rw [takeRounds, h]

/-- What there is of the unfinished record, its count first. -/
def ZclRecords.held (r : ZclRecords) : Octets := r.lenBuf ++ r.record

/-- The stream between two rounds. -/
structure RecordsOk (r : ZclRecords) : Prop where
  len_le : r.lenBuf.length ≤ zclRecHdrLen
  between : r.lenBuf.length < zclRecHdrLen → r.record = []
  within : r.lenBuf.length = zclRecHdrLen → r.recLen = beNat r.lenBuf ∧
    ¬ (r.recLen = 0 ∨ r.recLen > c.limits.maxBundle) ∧ r.record.length < r.recLen
  stored : r.record.length ≤ r.recCap

variable {c}

theorem RecordsOk.look {r : ZclRecords} (h : RecordsOk c r) (bundles : List Octets) :
    recordLook c.limits.maxBundle bundles r.held = .more := by
  unfold ZclRecords.held
  rcases Nat.lt_or_eq_of_le h.len_le with h_short | h_full
  · apply recordLook_short
    rw [h.between h_short, List.append_nil]
    exact h_short
  · obtain ⟨h_recLen, h_fits, h_less⟩ := h.within h_full
    have h_take : (r.lenBuf ++ r.record).take zclRecHdrLen = r.lenBuf := List.take_left' h_full
    rw [h_recLen] at h_fits h_less
    rw [← h_take] at h_fits
    apply recordLook_more h_fits
    rw [h_take, List.length_append]
    omega

/-- What a round does to the reading of what is held and what is still to come, `y` being what
    comes after this slice. -/
inductive RoundReads (c : ZclCfg) (w : ZclWork) (r : ZclRecords) (data : Octets) :
    ZclWork × ZclRecords × Option Octets → Prop
  | on {w' : ZclWork} {r' : ZclRecords} {data' : Octets} (h_ok : RecordsOk c r')
      (h_allocs : w.allocs ≤ w'.allocs) (h_less : data'.length < data.length)
      (h_reads : ∀ y, (recordGrammar c.limits.maxBundle).parse w.emitted (r.held ++ (data ++ y)) =
        (recordGrammar c.limits.maxBundle).parse w'.emitted (r'.held ++ (data' ++ y))) :
      RoundReads c w r data (w', r', some data')
  | bad {r' : ZclRecords}
      (h_reads : ∀ y, (recordGrammar c.limits.maxBundle).parse w.emitted (r.held ++ (data ++ y)) =
        ⟨w.emitted, none⟩) : RoundReads c w r data (w, r', none)
  | noMemory {w' : ZclWork} {r' : ZclRecords} (h_mem : c.mem w.allocs = false)
      (h_allocs : w'.allocs = w.allocs + 1) (h_emitted : w'.emitted = w.emitted) :
      RoundReads c w r data (w', r', none)

theorem takeLen_reads {w : ZclWork} {r : ZclRecords} (h : RecordsOk c r)
    (h_short : r.lenBuf.length < zclRecHdrLen) (b : UInt8) (data : Octets) :
    RoundReads c w r (b :: data) (takeLen c w r b data) := by
  have h_none := h.between h_short
  have h_len : (r.lenBuf ++ [b]).length = r.lenBuf.length + 1 := by
    rw [List.length_append, List.length_singleton]
  have h_held : ∀ y : Octets, r.held ++ (b :: data ++ y) = (r.lenBuf ++ [b]) ++ (data ++ y) := by
    intro y
    unfold ZclRecords.held
    rw [h_none, List.append_nil, List.append_assoc]
    rfl
  unfold takeLen
  dsimp only
  by_cases h_full : (r.lenBuf ++ [b]).length = zclRecHdrLen
  · rw [if_pos h_full]
    by_cases h_bad : beNat (r.lenBuf ++ [b]) = 0 ∨ beNat (r.lenBuf ++ [b]) > c.limits.maxBundle
    · rw [if_pos h_bad]
      apply RoundReads.bad
      intro y
      rw [h_held]
      have h_take : ((r.lenBuf ++ [b]) ++ (data ++ y)).take zclRecHdrLen = r.lenBuf ++ [b] :=
        List.take_left' h_full
      rw [← h_take] at h_bad
      have h_hdr : zclRecHdrLen ≤ ((r.lenBuf ++ [b]) ++ (data ++ y)).length := by
        rw [List.length_append]
        omega
      exact FrontParser.parse_bad (recordLook_bad h_hdr h_bad)
    · rw [if_neg h_bad]
      refine RoundReads.on ⟨Nat.le_of_eq h_full, fun _ => rfl, fun _ => ⟨rfl, h_bad, ?_⟩, ?_⟩
        (Nat.le_refl _) (Nat.lt_succ_self _) fun y => ?_
      · show 0 < beNat (r.lenBuf ++ [b])
        omega
      · exact Nat.zero_le _
      · rw [h_held]
        show _ = (recordGrammar c.limits.maxBundle).parse w.emitted
          ((r.lenBuf ++ [b] ++ []) ++ (data ++ y))
        rw [List.append_nil]
  · rw [if_neg h_full]
    have h_le : (r.lenBuf ++ [b]).length ≤ zclRecHdrLen := by omega
    refine RoundReads.on ⟨h_le, fun _ => h_none, fun h_eq => absurd h_eq h_full, h.stored⟩
      (Nat.le_refl _) (Nat.lt_succ_self _) fun y => ?_
    rw [h_held]
    show _ = (recordGrammar c.limits.maxBundle).parse w.emitted
      ((r.lenBuf ++ [b] ++ r.record) ++ (data ++ y))
    rw [h_none, List.append_nil]

/-- What growing the buffer comes to, for a record that is not longer than it says. -/
theorem growRec_cases {r : ZclRecords} {want : Nat} (h_want : want ≤ r.recLen) (w : ZclWork) :
    (∃ cap allocs, growRec c w r want =
        ({ w with allocs := allocs }, { r with recCap := cap }, true) ∧
      want ≤ cap ∧ w.allocs ≤ allocs) ∨
    (growRec c w r want = ({ w with allocs := w.allocs + 1 }, r, false) ∧
      c.mem w.allocs = false) := by
  unfold growRec
  by_cases h_grow : want > r.recCap
  · rw [if_pos h_grow]
    have h_start : 0 < (if r.recCap = 0 then 4096 else r.recCap) := by
      split <;> omega
    have h_double : want ≤ doubleUntil want (if r.recCap = 0 then 4096 else r.recCap) want :=
      le_doubleUntil h_start (by omega)
    generalize doubleUntil want (if r.recCap = 0 then 4096 else r.recCap) want = cap at h_double
    cases h_mem : c.mem w.allocs with
    | false => exact Or.inr ⟨rfl, rfl⟩
    | true =>
      refine Or.inl ⟨if cap > r.recLen then r.recLen else cap, w.allocs + 1, rfl, ?_,
        Nat.le_succ _⟩
      split <;> omega
  · rw [if_neg h_grow]
    exact Or.inl ⟨r.recCap, w.allocs, rfl, by omega, Nat.le_refl _⟩

theorem takeSize_eq (r : ZclRecords) (len : Nat) :
    takeSize r len = min (r.recLen - r.record.length) len := by
  unfold takeSize
  split <;> omega

/-- The grammar at a record all of which is there. -/
theorem look_record {lenBuf record rest : Octets} (h_full : lenBuf.length = zclRecHdrLen)
    (h_len : record.length = beNat lenBuf)
    (h_fits : ¬ (beNat lenBuf = 0 ∨ beNat lenBuf > c.limits.maxBundle)) (bundles : List Octets) :
    (recordGrammar c.limits.maxBundle).parse bundles (lenBuf ++ (record ++ rest)) =
      (recordGrammar c.limits.maxBundle).parse (bundles ++ [record]) rest := by
  have h_take : (lenBuf ++ (record ++ rest)).take zclRecHdrLen = lenBuf := List.take_left' h_full
  have h_drop : (lenBuf ++ (record ++ rest)).drop zclRecHdrLen = record ++ rest :=
    List.drop_left' h_full
  have h_look : recordLook c.limits.maxBundle bundles (lenBuf ++ (record ++ rest)) =
      .next (bundles ++ [record]) (zclRecHdrLen + beNat lenBuf) := by
    rw [recordLook_next, h_take, h_drop, List.take_left' h_len]
    · rw [h_take]
      exact h_fits
    · rw [h_take, List.length_append, List.length_append]
      omega
  rw [FrontParser.parse_next h_look, ← List.drop_drop, h_drop, List.drop_left' h_len]

theorem takeBody_reads {w : ZclWork} {r : ZclRecords} (h : RecordsOk c r)
    (h_full : r.lenBuf.length = zclRecHdrLen) {data : Octets} (h_some : 0 < data.length) :
    RoundReads c w r data (takeBody c w r data) := by
  obtain ⟨h_recLen, h_fits, h_less⟩ := h.within h_full
  have h_size := takeSize_eq r data.length
  unfold takeBody
  dsimp only
  generalize takeSize r data.length = take at h_size ⊢
  have h_want : r.record.length + take ≤ r.recLen := by omega
  have h_take : (r.record ++ data.take take).length = r.record.length + take := by
    rw [List.length_append, List.length_take]
    omega
  have h_less' : (data.drop take).length < data.length := by
    rw [List.length_drop]
    omega
  -- The octets taken go from the slice to the record, and nothing moves.
  have h_moved : ∀ y, r.held ++ (data ++ y) =
      r.lenBuf ++ ((r.record ++ data.take take) ++ (data.drop take ++ y)) := by
    intro y
    have h_data : data ++ y = data.take take ++ (data.drop take ++ y) := by
      rw [← List.append_assoc, List.take_append_drop]
    unfold ZclRecords.held
    rw [h_data, List.append_assoc, List.append_assoc]
  rcases growRec_cases (c := c) h_want w with
    ⟨cap, allocs, h_grow, h_cap, h_allocs⟩ | ⟨h_grow, h_mem⟩
  · rw [h_grow]
    dsimp only
    by_cases h_done : (r.record ++ data.take take).length = r.recLen
    · rw [if_pos h_done]
      have h_zero : ([] : Octets).length ≠ zclRecHdrLen := by decide
      have h_between : RecordsOk c { r with lenBuf := [], recLen := 0, record := [], recCap := cap } :=
        ⟨Nat.zero_le _, fun _ => rfl, fun h_eq => absurd h_eq h_zero, Nat.zero_le _⟩
      refine RoundReads.on h_between h_allocs h_less' fun y => ?_
      rw [h_moved]
      rw [h_recLen] at h_done h_fits
      exact look_record h_full h_done h_fits w.emitted
    · rw [if_neg h_done]
      have h_within : RecordsOk c { r with record := r.record ++ data.take take, recCap := cap } := by
        refine ⟨h.len_le, fun h_short => absurd h_full (Nat.ne_of_lt h_short),
          fun _ => ⟨h_recLen, h_fits, ?_⟩, ?_⟩
        · show (r.record ++ data.take take).length < r.recLen
          omega
        · show (r.record ++ data.take take).length ≤ cap
          omega
      refine RoundReads.on h_within h_allocs h_less' fun y => ?_
      rw [h_moved, ← List.append_assoc]
      rfl
  · rw [h_grow]
    exact RoundReads.noMemory h_mem rfl rfl

theorem takeRound_reads {w : ZclWork} {r : ZclRecords} (h : RecordsOk c r) (b : UInt8)
    (data : Octets) : RoundReads c w r (b :: data) (takeRound c w r b data) := by
  unfold takeRound
  by_cases h_short : r.lenBuf.length < zclRecHdrLen
  · rw [if_pos h_short]
    exact takeLen_reads h h_short b data
  · rw [if_neg h_short]
    have h_full : r.lenBuf.length = zclRecHdrLen := Nat.le_antisymm h.len_le (by omega)
    exact takeBody_reads h h_full (Nat.succ_pos _)

/-! ## Slices -/

/-- An allocation failed between two states. -/
def NoMemory (c : ZclCfg) (w w' : ZclWork) : Prop :=
  ∃ n, w.allocs ≤ n ∧ n < w'.allocs ∧ c.mem n = false

/-- What slices do to the reading of the octets, `y` being what comes after them. -/
inductive SliceReads (c : ZclCfg) (w : ZclWork) (r : ZclRecords) (data : Octets) :
    ZclWork × ZclRecords × Bool → Prop
  | on {w' : ZclWork} {r' : ZclRecords} (h_ok : RecordsOk c r') (h_allocs : w.allocs ≤ w'.allocs)
      (h_reads : ∀ y, (recordGrammar c.limits.maxBundle).parse w.emitted (r.held ++ (data ++ y)) =
        (recordGrammar c.limits.maxBundle).parse w'.emitted (r'.held ++ y)) :
      SliceReads c w r data (w', r', true)
  | bad {w' : ZclWork} {r' : ZclRecords} (h_allocs : w.allocs ≤ w'.allocs)
      (h_reads : ∀ y, (recordGrammar c.limits.maxBundle).parse w.emitted (r.held ++ (data ++ y)) =
        ⟨w'.emitted, none⟩) : SliceReads c w r data (w', r', false)
  | noMemory {w' : ZclWork} {r' : ZclRecords} (h_mem : NoMemory c w w')
      (h_first : ∀ y, w'.emitted <+:
        ((recordGrammar c.limits.maxBundle).parse w.emitted (r.held ++ (data ++ y))).state) :
      SliceReads c w r data (w', r', false)

/-- Slices after a first part that has been read. -/
theorem SliceReads.after {w w₁ : ZclWork} {r r₁ : ZclRecords} {data data₁ : Octets}
    {out : ZclWork × ZclRecords × Bool} (h_allocs : w.allocs ≤ w₁.allocs)
    (h_reads : ∀ y, (recordGrammar c.limits.maxBundle).parse w.emitted (r.held ++ (data ++ y)) =
      (recordGrammar c.limits.maxBundle).parse w₁.emitted (r₁.held ++ (data₁ ++ y)))
    (h : SliceReads c w₁ r₁ data₁ out) : SliceReads c w r data out := by
  cases h with
  | on h_ok h_allocs' h_reads' =>
    exact .on h_ok (Nat.le_trans h_allocs h_allocs') fun y => (h_reads y).trans (h_reads' y)
  | bad h_allocs' h_reads' =>
    exact .bad (Nat.le_trans h_allocs h_allocs') fun y => (h_reads y).trans (h_reads' y)
  | noMemory h_mem h_first =>
    obtain ⟨n, h_n, h_lt, h_false⟩ := h_mem
    refine .noMemory ⟨n, Nat.le_trans h_allocs h_n, h_lt, h_false⟩ fun y => ?_
    rw [h_reads y]
    exact h_first y

theorem takeRounds_reads {rounds : Nat} {w : ZclWork} {r : ZclRecords} {data : Octets}
    (h : RecordsOk c r) (h_rounds : data.length ≤ rounds) :
    SliceReads c w r data (takeRounds c rounds w r data) := by
  induction rounds generalizing w r data with
  | zero =>
    obtain rfl := List.length_eq_zero_iff.mp (Nat.le_zero.mp h_rounds)
    exact .on h (Nat.le_refl _) fun y => rfl
  | succ rounds ih =>
    cases data with
    | nil => exact .on h (Nat.le_refl _) fun y => rfl
    | cons b data =>
      have h_round := takeRound_reads (w := w) h b data
      generalize h_out : takeRound c w r b data = out at h_round
      cases h_round with
      | on h_ok h_allocs h_less h_reads =>
        rw [takeRounds_some c h_out]
        have h_fuel := Nat.lt_of_lt_of_le h_less h_rounds
        exact (ih h_ok (Nat.le_of_lt_succ h_fuel)).after h_allocs h_reads
      | bad h_reads =>
        rw [takeRounds_none c h_out]
        exact .bad (Nat.le_refl _) h_reads
      | noMemory h_mem h_allocs h_emitted =>
        rw [takeRounds_none c h_out]
        refine .noMemory ⟨w.allocs, Nat.le_refl _, by omega, h_mem⟩ fun y => ?_
        rw [h_emitted]
        exact prefix_parse _ _ _

variable (c) in
/-- A slice for `whileOk`, and as the function has it. -/
def takeSlice (s : ZclWork × ZclRecords) (data : Octets) : (ZclWork × ZclRecords) × Bool :=
  let out := takeRecords c s.1 s.2 data
  ((out.1, out.2.1), out.2.2)

variable (c) in
/-- The octets of a chunk in slices, until one is refused. -/
def takeSlices (s : ZclWork × ZclRecords) (slices : List Octets) : (ZclWork × ZclRecords) × Bool :=
  whileOk (takeSlice c) s slices

theorem growRec_chunkOut (w : ZclWork) (r : ZclRecords) (want : Nat) :
    (growRec c w r want).2.1.chunkOut = r.chunkOut := by
  unfold growRec
  by_cases h_grow : want > r.recCap
  · rw [if_pos h_grow]
    dsimp only
    split <;> rfl
  · rw [if_neg h_grow]

theorem takeRound_chunkOut (w : ZclWork) (r : ZclRecords) (b : UInt8) (data : Octets) :
    (takeRound c w r b data).2.1.chunkOut = r.chunkOut := by
  unfold takeRound
  by_cases h_short : r.lenBuf.length < zclRecHdrLen
  · rw [if_pos h_short]
    unfold takeLen
    dsimp only
    split <;> rfl
  · rw [if_neg h_short]
    unfold takeBody
    dsimp only
    have h_grow := growRec_chunkOut (c := c) w r
      (r.record.length + takeSize r (b :: data).length)
    generalize growRec c w r (r.record.length + takeSize r (b :: data).length) = grown at h_grow ⊢
    obtain ⟨w₁, r₁, ok⟩ := grown
    cases ok with
    | false => exact h_grow
    | true =>
      dsimp only
      split <;> exact h_grow

theorem takeRounds_chunkOut (rounds : Nat) (w : ZclWork) (r : ZclRecords) (data : Octets) :
    (takeRounds c rounds w r data).2.1.chunkOut = r.chunkOut := by
  induction rounds generalizing w r data with
  | zero => rfl
  | succ rounds ih =>
    cases data with
    | nil => rfl
    | cons b data =>
      have h_round := takeRound_chunkOut (c := c) w r b data
      rcases h_out : takeRound c w r b data with ⟨w₁, r₁, _ | data₁⟩
      · rw [h_out] at h_round
        rw [takeRounds_none c h_out]
        exact h_round
      · rw [h_out] at h_round
        rw [takeRounds_some c h_out, ih]
        exact h_round

theorem takeRecords_reads {w : ZclWork} {r : ZclRecords} {data : Octets} (h : RecordsOk c r)
    (h_room : r.chunkOut + data.length ≤ c.limits.maxChunkOut) :
    SliceReads c w r data (takeRecords c w r data) ∧
      (takeRecords c w r data).2.1.chunkOut = r.chunkOut + data.length := by
  have h_fits : ¬ data.length > c.limits.maxChunkOut - r.chunkOut := by omega
  have h_ok : RecordsOk c { r with chunkOut := r.chunkOut + data.length } :=
    ⟨h.len_le, h.between, h.within, h.stored⟩
  unfold takeRecords
  rw [if_neg h_fits]
  refine ⟨?_, takeRounds_chunkOut _ _ _ _⟩
  have h_rounds := takeRounds_reads (w := w) h_ok (Nat.le_refl data.length)
  refine SliceReads.after (Nat.le_refl w.allocs) ?_ h_rounds
  exact fun y => rfl

theorem takeSlices_reads {w : ZclWork} {r : ZclRecords} {slices : List Octets}
    (h : RecordsOk c r) (h_room : r.chunkOut + slices.flatten.length ≤ c.limits.maxChunkOut) :
    SliceReads c w r slices.flatten
      ((takeSlices c (w, r) slices).1.1, (takeSlices c (w, r) slices).1.2,
        (takeSlices c (w, r) slices).2) := by
  induction slices generalizing w r with
  | nil => exact .on h (Nat.le_refl _) fun y => rfl
  | cons x slices ih =>
    rw [List.flatten_cons, List.length_append] at h_room
    have h_first : r.chunkOut + x.length ≤ c.limits.maxChunkOut := by omega
    obtain ⟨h_slice, h_out⟩ := takeRecords_reads (w := w) h h_first
    unfold takeSlices whileOk takeSlice
    generalize takeRecords c w r x = out at h_slice h_out ⊢
    dsimp only
    rw [List.flatten_cons]
    cases h_slice with
    | on h_ok h_allocs h_reads =>
      rw [if_pos rfl]
      refine (ih h_ok ?_).after h_allocs fun y => ?_
      · rw [h_out]
        omega
      · rw [List.append_assoc, h_reads]
    | bad h_allocs h_reads =>
      rw [if_neg Bool.false_ne_true]
      refine .bad h_allocs fun y => ?_
      rw [List.append_assoc]
      exact h_reads (slices.flatten ++ y)
    | noMemory h_mem h_first =>
      rw [if_neg Bool.false_ne_true]
      refine .noMemory h_mem fun y => ?_
      rw [List.append_assoc]
      exact h_first (slices.flatten ++ y)

/-! ## Stores -/

variable (c) in
/-- From one head of the loop to the next: the state and the octets still to be taken. -/
def Goes (a b : ZclWork × ZclRecords × Octets) : Prop :=
  ∃ x data, a.2.2 = x :: data ∧ takeRound c a.1 a.2.1 x data = (b.1, b.2.1, some b.2.2)

variable (c) in
/-- The heads of the loop that taking the slices comes by. -/
def AtHead (s : ZclWork × ZclRecords) (slices : List Octets)
    (head : ZclWork × ZclRecords × Octets) : Prop :=
  ∃ before x rest w r, slices = before ++ x :: rest ∧ takeSlices c s before = ((w, r), true) ∧
    Relation.ReflTransGen (Goes c) (w, { r with chunkOut := r.chunkOut + x.length }, x) head

variable (c) in
/-- The octets that a round at this head puts into the record end within its buffer. -/
def StoreFits (head : ZclWork × ZclRecords × Octets) : Prop :=
  ¬ head.2.1.lenBuf.length < zclRecHdrLen →
    (growRec c head.1 head.2.1
      (head.2.1.record.length + takeSize head.2.1 head.2.2.length)).2.2 = true →
    head.2.1.record.length + takeSize head.2.1 head.2.2.length ≤
      (growRec c head.1 head.2.1
        (head.2.1.record.length + takeSize head.2.1 head.2.2.length)).2.1.recCap

theorem RecordsOk.goes {a b : ZclWork × ZclRecords × Octets} (h : RecordsOk c a.2.1)
    (h_goes : Goes c a b) : RecordsOk c b.2.1 := by
  obtain ⟨w', r', data'⟩ := b
  obtain ⟨x, data, h_data, h_round⟩ := h_goes
  have h_reads := takeRound_reads (w := a.1) h x data
  rw [h_round] at h_reads
  cases h_reads with
  | on h_ok h_allocs h_less h_reads => exact h_ok

theorem RecordsOk.storeFits {head : ZclWork × ZclRecords × Octets} (h : RecordsOk c head.2.1) :
    StoreFits c head := by
  intro h_body h_mem
  have h_full : head.2.1.lenBuf.length = zclRecHdrLen := Nat.le_antisymm h.len_le (by omega)
  have h_less := (h.within h_full).2.2
  have h_size := takeSize_eq head.2.1 head.2.2.length
  have h_want : head.2.1.record.length + takeSize head.2.1 head.2.2.length ≤ head.2.1.recLen := by
    omega
  rcases growRec_cases (c := c) h_want head.1 with
    ⟨cap, allocs, h_grow, h_cap, -⟩ | ⟨h_grow, -⟩
  · rw [h_grow]
    exact h_cap
  · rw [h_grow] at h_mem
    cases h_mem

/-! ## The octets of a chunk -/

/-- The stream where a chunk begins; the buffer is that of the chunk before. -/
def chunkStart (recCap : Nat) : ZclRecords := ⟨0, [], 0, [], recCap⟩

theorem RecordsOk.chunkStart (recCap : Nat) : RecordsOk c (chunkStart recCap) := by
  have h_zero : ([] : Octets).length ≠ zclRecHdrLen := by decide
  exact ⟨Nat.zero_le _, fun _ => rfl, fun h_eq => absurd h_eq h_zero, Nat.zero_le _⟩

/-- What was emitted and is held is what the whole buffer holds, and it failed where a count in it
    is wrong. -/
structure ReadsAs (c : ZclCfg) (w : ZclWork) (l : Octets) (out : (ZclWork × ZclRecords) × Bool) :
    Prop where
  emitted : out.1.1.emitted = w.emitted ++ (readRecords c.limits.maxBundle l).state
  goesOn : out.2 = true → (readRecords c.limits.maxBundle l).rest = some out.1.2.held
  failed : out.2 = false → (readRecords c.limits.maxBundle l).rest = none

/-- An allocation failed, so not all of the bundles were emitted. -/
structure RanOut (c : ZclCfg) (w : ZclWork) (l : Octets) (out : (ZclWork × ZclRecords) × Bool) :
    Prop where
  failed : out.2 = false
  noMemory : NoMemory c w out.1.1
  emitted : out.1.1.emitted <+: w.emitted ++ (readRecords c.limits.maxBundle l).state

theorem readsAs_or_ranOut {w : ZclWork} {recCap : Nat} {l : Octets}
    {out : (ZclWork × ZclRecords) × Bool}
    (h : SliceReads c w (chunkStart recCap) l (out.1.1, out.1.2, out.2)) :
    ReadsAs c w l out ∨ RanOut c w l out := by
  obtain ⟨⟨w', r'⟩, ok⟩ := out
  have h_start : ∀ y : Octets, (chunkStart recCap).held ++ (l ++ y) = l ++ y := fun y => rfl
  have h_whole := parse_behind c.limits.maxBundle w.emitted l
  cases h with
  | on h_ok h_allocs h_reads =>
    have h_all := h_reads []
    rw [h_start, List.append_nil, List.append_nil, h_whole,
      FrontParser.parse_more (h_ok.look w'.emitted)] at h_all
    obtain ⟨h_emitted, h_rest⟩ := Parsed.mk.inj h_all
    refine Or.inl ⟨h_emitted.symm, fun _ => h_rest, fun h_false => ?_⟩
    cases h_false
  | bad h_allocs h_reads =>
    have h_all := h_reads []
    rw [h_start, List.append_nil, h_whole] at h_all
    obtain ⟨h_emitted, h_rest⟩ := Parsed.mk.inj h_all
    refine Or.inl ⟨h_emitted.symm, fun h_true => ?_, fun _ => h_rest⟩
    cases h_true
  | noMemory h_mem h_first =>
    have h_all := h_first []
    rw [h_start, List.append_nil, h_whole] at h_all
    exact Or.inr ⟨rfl, h_mem, h_all⟩

/-- However the octets of a chunk are cut, they come to what the whole of them holds, unless memory
    runs out; and every store is within the buffer. -/
theorem takeRecords_slices (w : ZclWork) (recCap : Nat) {slices : List Octets}
    (h_room : slices.flatten.length ≤ c.limits.maxChunkOut) :
    (ReadsAs c w slices.flatten (takeSlices c (w, chunkStart recCap) slices) ∨
      RanOut c w slices.flatten (takeSlices c (w, chunkStart recCap) slices)) ∧
    ∀ head, AtHead c (w, chunkStart recCap) slices head → StoreFits c head := by
  have h_ok : RecordsOk c (chunkStart recCap) := RecordsOk.chunkStart recCap
  have h_start : (chunkStart recCap).chunkOut = 0 := rfl
  refine ⟨readsAs_or_ranOut (takeSlices_reads h_ok (by omega)), ?_⟩
  rintro head ⟨before, x, rest, w', r', rfl, h_before, h_heads⟩
  have h_fits : (chunkStart recCap).chunkOut + before.flatten.length ≤ c.limits.maxChunkOut := by
    rw [List.flatten_append, List.length_append] at h_room
    omega
  have h_reads := takeSlices_reads (w := w) h_ok h_fits
  rw [h_before] at h_reads
  have h_slice : RecordsOk c { r' with chunkOut := r'.chunkOut + x.length } := by
    cases h_reads with
    | on h_ok' => exact ⟨h_ok'.len_le, h_ok'.between, h_ok'.within, h_ok'.stored⟩
  have h_head : RecordsOk c head.2.1 := by
    induction h_heads with
    | refl => exact h_slice
    | tail _ h_goes ih => exact ih.goes h_goes
  exact h_head.storeFits

def noWork : ZclWork := ⟨⟨0, 0, 0, 0, 0, 0, 0, 0, 0, 0, 0, 0⟩, [], 0, 0⟩

/-- A record in three slices, and the beginning of another. -/
theorem takeRecords_slices_three :
    (takeSlices storedCfg (noWork, chunkStart 0) [[0, 0], [0, 2, 7], [8, 0]]).1.1.emitted =
      [[7, 8]] := by
  have h_room : [[0, 0], [0, 2, 7], [8, (0 : UInt8)]].flatten.length ≤
      storedCfg.limits.maxChunkOut := by decide
  rcases (takeRecords_slices noWork 0 h_room).1 with h | h
  · rw [h.emitted]
    rfl
  · obtain ⟨n, -, -, h_mem⟩ := h.noMemory
    cases h_mem

/-- The same receiver without memory. -/
def noMemoryCfg : ZclCfg := { storedCfg with mem := fun _ => false }

/-- Without memory a bundle that is all there is not emitted. -/
theorem takeRecords_noMemory :
    ¬ ∀ (c : ZclCfg) (w : ZclWork) (recCap : Nat) (slices : List Octets),
      slices.flatten.length ≤ c.limits.maxChunkOut →
        ReadsAs c w slices.flatten (takeSlices c (w, chunkStart recCap) slices) := by
  intro h_claim
  have h_reads := h_claim noMemoryCfg noWork 0 [[0, 0, 0, 1, 7]] (by decide)
  have h_rest : (readRecords noMemoryCfg.limits.maxBundle [0, 0, 0, 1, 7]).rest = some [] := by
    decide
  have h_none := h_reads.failed rfl
  rw [show ([[0, 0, 0, 1, 7]] : List Octets).flatten = [0, 0, 0, 1, 7] from rfl, h_rest] at h_none
  cases h_none

end IonContrib.Zcl
