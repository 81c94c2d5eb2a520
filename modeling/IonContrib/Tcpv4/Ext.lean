/-
  IonContrib.Tcpv4.Ext

  What a START segment's extension list makes of its transfer: the two walks over
  it (`segmentHasCriticalExt`, `tcpv4MsgFindXferLength`) and the branch of
  `handleXferSegment` that makes them.

  `ExtList` says what a list of items is, apart from the code: whole items one
  behind the other, and at the end either nothing or a stretch of octets that no
  item begins.  `extItems_iff` is the bridge, and each walk is then a question
  about the items (`any`, `find?`).
-/
import IonContrib.Tcpv4.Codec
import IonContrib.Tcpv4.Rx

namespace IonContrib.Tcpv4

open Octets

/-! ## Items on the wire -/

structure ExtItem.InRange (it : ExtItem) : Prop where
  type : it.type < 256 ^ 2
  length : it.length < 256 ^ 2
  value : it.value.length = it.length

def ExtItem.body (it : ExtItem) : Octets :=
  it.flags :: (beBytes 2 it.type ++ (beBytes 2 it.length ++ it.value))

def extItemFields : Reader → ExtItem × Reader :=
  Reader.andThen rU8 fun flags => Reader.andThen rU16 fun type =>
    Reader.andThen rU16 fun length r =>
      (⟨flags, type, length, (rBytes r length).1.getD []⟩, (rBytes r length).2)

theorem field_extItem : Field extItemFields ExtItem.body ExtItem.InRange := by
  refine Field.congr (Field.u8.andThen ExtItem.flags (fun flags =>
    Field.u16.andThen ExtItem.type (fun type =>
      Field.u16.andThen ExtItem.length (fun length =>
        (Field.octets length).map (ExtItem.mk flags type length) ExtItem.value ?_) ?_) ?_) ?_)
    (fun it _ => rfl) (fun it => ?_)
  · rintro value -
    rfl
  · rintro length it ⟨-, h_it⟩
    rw [← h_it]
  · rintro type it ⟨-, -, h_it⟩
    rw [← h_it]
  · rintro flags it ⟨-, -, -, h_it⟩
    rw [← h_it]
  · constructor
    · rintro ⟨-, h_type, h_length, h_value, -⟩
      exact ⟨h_type, h_length, h_value⟩
    · rintro ⟨h_type, h_length, h_value⟩
      exact ⟨trivial, h_type, h_length, h_value, rfl⟩

theorem tcpv4MsgNextExtItem_eq {list : Octets} (h : list ≠ []) :
    tcpv4MsgNextExtItem list =
      if (extItemFields (rInit list)).2.ok then
        .item (extItemFields (rInit list)).1 (extItemFields (rInit list)).2.rest
      else .bad := by
  have h_some : ¬ list.isEmpty = true := by simpa using h
  rw [tcpv4MsgNextExtItem, if_neg h_some]
  show (if !(extItemFields (rInit list)).2.ok then ExtWalk.bad
    else .item (extItemFields (rInit list)).1 (extItemFields (rInit list)).2.rest) = _
  cases (extItemFields (rInit list)).2.ok <;> rfl

/-- A stretch of octets that no item begins. -/
def Cut (tail : Octets) : Prop :=
  tail ≠ [] ∧ ∀ it : ExtItem, it.InRange → ∀ rest, tail ≠ it.body ++ rest

/-- An item at the front of the list is the one that is found. -/
theorem tcpv4MsgNextExtItem_body {it : ExtItem} (h : it.InRange) (rest : Octets) :
    tcpv4MsgNextExtItem (it.body ++ rest) = .item it rest := by
  have h_reads := field_extItem.reads h rest 0
  rw [tcpv4MsgNextExtItem_eq (by simp [ExtItem.body]), rInit, h_reads]
  rfl

theorem tcpv4MsgNextExtItem_item {list rest : Octets} {it : ExtItem}
    (h : tcpv4MsgNextExtItem list = .item it rest) :
    it.InRange ∧ list = it.body ++ rest := by
  have h_some : list ≠ [] := by
    rintro rfl
    cases h
  rw [tcpv4MsgNextExtItem_eq h_some] at h
  split at h
  · rename_i h_ok
    obtain ⟨-, h_range, h_rest, -⟩ := field_extItem.accepts h_ok
    cases h
    exact ⟨h_range, h_rest⟩
  · cases h

theorem tcpv4MsgNextExtItem_bad_iff (list : Octets) :
    tcpv4MsgNextExtItem list = .bad ↔ Cut list := by
  constructor
  · intro h
    refine ⟨?_, fun it h_it rest h_list => ?_⟩
    · rintro rfl
      cases h
    · rw [h_list, tcpv4MsgNextExtItem_body h_it] at h
      cases h
  · rintro ⟨h_some, h_cut⟩
    cases h : tcpv4MsgNextExtItem list with
    | bad => rfl
    | done =>
      rw [tcpv4MsgNextExtItem_eq h_some] at h
      split at h <;> cases h
    | item it rest =>
      obtain ⟨h_it, h_list⟩ := tcpv4MsgNextExtItem_item h
      exact absurd h_list (h_cut it h_it rest)

/-! ## Lists of items -/

/-- The list holds these items, and is malformed behind them or ends there. -/
inductive ExtList : Octets → List ExtItem → Bool → Prop where
  | done : ExtList [] [] false
  | cut {tail : Octets} : Cut tail → ExtList tail [] true
  | item {it : ExtItem} {rest : Octets} {items : List ExtItem} {malformed : Bool} :
      it.InRange → ExtList rest items malformed →
        ExtList (it.body ++ rest) (it :: items) malformed

/-- The items of a list, one after the other, and whether it is malformed behind them. -/
def extItemsFrom : Nat → Octets → List ExtItem × Bool
  | 0, _ => ([], true)
  | fuel + 1, list =>
    match tcpv4MsgNextExtItem list with
    | .done => ([], false)
    | .bad => ([], true)
    | .item it rest => (it :: (extItemsFrom fuel rest).1, (extItemsFrom fuel rest).2)

def extItems (list : Octets) : List ExtItem × Bool := extItemsFrom (list.length + 1) list

theorem extItemsFrom_list {fuel : Nat} {list : Octets} (h_fuel : list.length < fuel) :
    ExtList list (extItemsFrom fuel list).1 (extItemsFrom fuel list).2 := by
  induction fuel generalizing list with
  | zero => omega
  | succ fuel ih =>
    rw [extItemsFrom]
    cases h_next : tcpv4MsgNextExtItem list with
    | done =>
      have h_nil : list = [] := by
        by_contra h_some
        rw [tcpv4MsgNextExtItem_eq h_some] at h_next
        split at h_next <;> cases h_next
      rw [h_nil]
      exact .done
    | bad => exact .cut ((tcpv4MsgNextExtItem_bad_iff list).mp h_next)
    | item it rest =>
      obtain ⟨h_it, h_list⟩ := tcpv4MsgNextExtItem_item h_next
      rw [h_list] at h_fuel ⊢
      refine .item h_it (ih ?_)
      rw [List.length_append, ExtItem.body, List.length_cons] at h_fuel
      omega

theorem extItemsFrom_eq {fuel : Nat} {list : Octets} {items : List ExtItem} {malformed : Bool}
    (h_fuel : list.length < fuel) (h : ExtList list items malformed) :
    extItemsFrom fuel list = (items, malformed) := by
  induction h generalizing fuel with
  | done =>
    cases fuel with
    | zero => omega
    | succ fuel => rfl
  | cut h_cut =>
    cases fuel with
    | zero => omega
    | succ fuel => rw [extItemsFrom, (tcpv4MsgNextExtItem_bad_iff _).mpr h_cut]
  | item h_it _ ih =>
    cases fuel with
    | zero => omega
    | succ fuel =>
      rw [List.length_append, ExtItem.body, List.length_cons] at h_fuel
      rw [extItemsFrom, tcpv4MsgNextExtItem_body h_it]
      simp only [ih (show _ < fuel by omega)]

/-- Every octet string is a list of items in exactly one way. -/
theorem extItems_iff {list : Octets} {items : List ExtItem} {malformed : Bool} :
    ExtList list items malformed ↔ extItems list = (items, malformed) := by
  constructor
  · exact extItemsFrom_eq (Nat.lt_succ_self _)
  · intro h
    have h_list := extItemsFrom_list (Nat.lt_succ_self list.length)
    rw [← extItems, h] at h_list
    exact h_list

/-! ## The two walks over the list -/

def ExtItem.critical (it : ExtItem) : Bool := hasFlag it.flags tmsgExtCritical

/-- Transfer Length is the one type of item that is implemented. -/
def ExtItem.implemented (it : ExtItem) : Bool := it.type = tmsgXferextLength

/-- A Transfer Length item is well formed if its value is an integer of 64 bits. -/
def ExtItem.givesLength (it : ExtItem) : Bool := it.implemented && it.length = 8

theorem hasCriticalExtFrom_eq (fuel : Nat) (list : Octets) :
    hasCriticalExtFrom fuel list =
      ((extItemsFrom fuel list).1.any ExtItem.critical || (extItemsFrom fuel list).2) := by
  induction fuel generalizing list with
  | zero => rfl
  | succ fuel ih =>
    rw [hasCriticalExtFrom, extItemsFrom]
    cases tcpv4MsgNextExtItem list with
    | done => rfl
    | bad => rfl
    | item it rest =>
      simp only [List.any_cons, ih]
      cases h_critical : it.critical with
      | true => exact if_pos h_critical
      | false => exact if_neg (ne_true_of_eq_false h_critical)

theorem findXferLengthFrom_eq (fuel : Nat) (list : Octets) :
    findXferLengthFrom fuel list =
      ((extItemsFrom fuel list).1.find? ExtItem.givesLength).map fun it => beNat it.value := by
  induction fuel generalizing list with
  | zero => rfl
  | succ fuel ih =>
    rw [findXferLengthFrom, extItemsFrom]
    cases tcpv4MsgNextExtItem list with
    | done => rfl
    | bad => rfl
    | item it rest =>
      simp only [List.find?_cons]
      cases h_gives : it.givesLength with
      | true =>
        simp only [ExtItem.givesLength, ExtItem.implemented, Bool.and_eq_true,
          decide_eq_true_eq] at h_gives
        rw [if_neg (by simp [h_gives.1, h_gives.2])]
        rfl
      | false =>
        simp only [ExtItem.givesLength, ExtItem.implemented, Bool.and_eq_false_iff,
          decide_eq_false_iff_not] at h_gives
        rw [if_pos (by simpa using h_gives), ih]

/-- Any critical item counts, whatever its type. -/
theorem segmentHasCriticalExt_iff (seg : XferSegment) :
    segmentHasCriticalExt seg = true ↔
      (extItems seg.xferExt).2 = true ∨ ∃ it ∈ (extItems seg.xferExt).1, it.critical = true := by
  rw [segmentHasCriticalExt, hasCriticalExtFrom_eq, ← extItems, Bool.or_eq_true, List.any_eq_true]
  exact or_comm

/-- The value of the first well-formed Transfer Length item. -/
theorem tcpv4MsgFindXferLength_eq (list : Octets) :
    tcpv4MsgFindXferLength list =
      ((extItems list).1.find? ExtItem.givesLength).map fun it => beNat it.value :=
  findXferLengthFrom_eq _ _

/-! ## The START segment -/

/-- A START segment that begins a transfer in a session that takes one. -/
structure Begins (cfg : RxCfg) (ending : Bool) (rx : RxSide) (seg : XferSegment) : Prop where
  start : seg.isStart = true
  fits : seg.dataLength ≤ cfg.segmentMru
  idle : rx.rxActive = false
  notEnding : ending = false

/-- The reception side when a transfer has begun. -/
def RxSide.begin (rx : RxSide) (seg : XferSegment) : RxSide :=
  { rx with rxActive := true, rxId := seg.transferId, rxLen := 0, rxRefused := false }

/-- What is done with the total length of a transfer, if it is known. -/
def admitTotal (cfg : RxCfg) (rx : RxSide) (seg : XferSegment) (mem : Bool) :
    Option Nat → RxSide × Admit
  | none => segmentCheckMru cfg rx seg
  | some total =>
    if total > cfg.transferMru then
      ({ rx with rxRefused := true }, .refuse tmsgRefuseNoResources)
    else
      match rxReserve rx total mem with
      | none => (rx, .fail termExhausted)
      | some rx => segmentCheckMru cfg rx seg

theorem segmentAdmit_begins {cfg : RxCfg} {ending : Bool} {rx : RxSide} {seg : XferSegment}
    (h : Begins cfg ending rx seg) (mem : Bool) :
    segmentAdmit cfg ending rx seg mem =
      if segmentHasCriticalExt seg then
        ({ rx.begin seg with rxRefused := true }, .refuse tmsgRefuseExtFailure)
      else admitTotal cfg (rx.begin seg) seg mem (tcpv4MsgFindXferLength seg.xferExt) := by
  rw [segmentAdmit, if_neg (Nat.not_lt.mpr h.fits), if_pos h.start, h.idle, h.notEnding]
  simp only [Bool.false_eq_true, if_false]
  congr 1

/-- A transfer whose total is known is never refused as an extension failure. -/
theorem admitTotal_ne_extFailure (cfg : RxCfg) (rx : RxSide) (seg : XferSegment) (mem : Bool)
    (total : Option Nat) :
    (admitTotal cfg rx seg mem total).2 ≠ .refuse tmsgRefuseExtFailure := by
  have h_ne : Admit.refuse tmsgRefuseNoResources ≠ .refuse tmsgRefuseExtFailure := by decide
  have h_mru : ∀ rx₁, (segmentCheckMru cfg rx₁ seg).2 ≠ .refuse tmsgRefuseExtFailure := by
    intro rx₁
    cases h : segmentCheckMru cfg rx₁ seg with
    | mk rx₂ verdict =>
      rcases segmentCheckMru_cases h with ⟨rfl, -⟩ | ⟨rfl, -⟩
      · exact nofun
      · exact h_ne
  cases total with
  | none => exact h_mru rx
  | some total =>
    rw [admitTotal]
    split
    · exact h_ne
    · split
      · exact nofun
      · exact h_mru _

/-- What a list of extension items asks for: the transfer is to be refused over it. -/
def Objectionable (list : Octets) : Prop :=
  (extItems list).2 = true ∨
    ∃ it ∈ (extItems list).1, it.critical = true ∧ it.implemented = false

/-- The transfer is refused as an extension failure if and only if the list asks for it, and
    else its total is what the first well-formed Transfer Length item says. -/
def ExtHonoured (cfg : RxCfg) (ending : Bool) (rx : RxSide) (seg : XferSegment) (mem : Bool) :
    Prop :=
  ((segmentAdmit cfg ending rx seg mem).2 = .refuse tmsgRefuseExtFailure ↔
      Objectionable seg.xferExt) ∧
    (¬ Objectionable seg.xferExt →
      segmentAdmit cfg ending rx seg mem =
        admitTotal cfg (rx.begin seg) seg mem
          (((extItems seg.xferExt).1.find? ExtItem.givesLength).map fun it => beNat it.value))

/-- The list is refused for another reason, or no Transfer Length item in it is critical. -/
def NoCriticalLength (list : Octets) : Prop :=
  Objectionable list ∨ ∀ it ∈ (extItems list).1, it.implemented = true → it.critical = false

/-- **Extension items of a transfer.**  They are honoured unless a Transfer Length item is
    marked critical in a list that nothing else is wrong with. -/
theorem segmentAdmit_ext {cfg : RxCfg} {ending : Bool} {rx : RxSide} {seg : XferSegment}
    (h : Begins cfg ending rx seg) (mem : Bool) :
    ExtHonoured cfg ending rx seg mem ↔ NoCriticalLength seg.xferExt := by
  rw [ExtHonoured, NoCriticalLength, segmentAdmit_begins h]
  by_cases h_obj : Objectionable seg.xferExt
  · -- Both walks end at the same thing: what is wrong with the list is refused.
    have h_critical : segmentHasCriticalExt seg = true := by
      rw [segmentHasCriticalExt_iff]
      rcases h_obj with h_bad | ⟨it, h_mem, h_it, -⟩
      · exact .inl h_bad
      · exact .inr ⟨it, h_mem, h_it⟩
    rw [if_pos h_critical]
    exact ⟨fun _ => .inl h_obj, fun _ => ⟨⟨fun _ => h_obj, fun _ => rfl⟩, fun h => absurd h_obj h⟩⟩
  · by_cases h_critical : segmentHasCriticalExt seg = true
    · -- The one critical item is a Transfer Length item, and the transfer is refused for it.
      rw [if_pos h_critical]
      constructor
      · intro h_honoured
        exact absurd (h_honoured.1.mp rfl) h_obj
      · rintro (h_obj' | h_none)
        · exact absurd h_obj' h_obj
        · rcases (segmentHasCriticalExt_iff seg).mp h_critical with h_bad | ⟨it, h_mem, h_it⟩
          · exact absurd (.inl h_bad) h_obj
          · cases h_impl : it.implemented with
            | true =>
              rw [h_none it h_mem h_impl] at h_it
              cases h_it
            | false => exact absurd (.inr ⟨it, h_mem, h_it, h_impl⟩) h_obj
    · rw [if_neg h_critical, tcpv4MsgFindXferLength_eq]
      constructor
      · refine fun _ => .inr fun it h_mem _ => ?_
        by_contra h_it
        exact h_critical ((segmentHasCriticalExt_iff seg).mpr
          (.inr ⟨it, h_mem, Bool.eq_true_of_not_eq_false h_it⟩))
      · refine fun _ => ⟨⟨fun h_ext => ?_, fun h => absurd h h_obj⟩, fun _ => rfl⟩
        exact absurd h_ext (admitTotal_ne_extFailure _ _ _ _ _)

/-- A START segment with a Transfer Length item of 100 octets that is only a hint. -/
theorem segmentAdmit_ext_hint :
    ExtHonoured ⟨1024, 1024⟩ false RxSide.init
      ⟨tmsgFlagStart, 1, [0, 0, 1, 0, 8, 0, 0, 0, 0, 0, 0, 0, 100], 100⟩ true :=
  (segmentAdmit_ext ⟨rfl, by decide, rfl, rfl⟩ true).mpr (.inr (by decide))

/-- A START segment with the same item marked critical. -/
def criticalLength : XferSegment :=
  ⟨tmsgFlagStart, 1, [1, 0, 1, 0, 8, 0, 0, 0, 0, 0, 0, 0, 100], 100⟩

/-- It is refused as an extension failure, though the list is well formed and Transfer Length
    is implemented. -/
theorem criticalLength_refused :
    Begins ⟨1024, 1024⟩ false RxSide.init criticalLength ∧
      (segmentAdmit ⟨1024, 1024⟩ false RxSide.init criticalLength true).2 =
        .refuse tmsgRefuseExtFailure ∧
      extItems criticalLength.xferExt = ([⟨1, 1, 8, [0, 0, 0, 0, 0, 0, 0, 100]⟩], false) ∧
      ¬ Objectionable criticalLength.xferExt ∧
      ¬ ExtHonoured ⟨1024, 1024⟩ false RxSide.init criticalLength true := by
  have h_items : extItems criticalLength.xferExt =
      ([⟨1, 1, 8, [0, 0, 0, 0, 0, 0, 0, 100]⟩], false) := by decide
  have h_refused : (segmentAdmit ⟨1024, 1024⟩ false RxSide.init criticalLength true).2 =
      .refuse tmsgRefuseExtFailure := by decide
  have h_obj : ¬ Objectionable criticalLength.xferExt := by
    rw [Objectionable, h_items]
    simp [ExtItem.implemented, tmsgXferextLength]
  exact ⟨⟨rfl, by decide, rfl, rfl⟩, h_refused, h_items, h_obj, fun h => h_obj (h.1.mp h_refused)⟩

end IonContrib.Tcpv4
