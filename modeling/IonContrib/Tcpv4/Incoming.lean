/-
  IonContrib.Tcpv4.Incoming

  The transfers of a session as the peer sends them.

  `watch` looks over the receiver thread's shoulder: it notes the header of
  each segment that is read, and its data once the thread has read that and
  goes on.  A START begins a transfer and every other segment continues it; a
  segment that is too long or out of place (`Admissible`) belongs to none.

  What a transfer is answered with is a matter of its segments alone
  (`Incoming.fits`, `Incoming.refusal`, `Incoming.acks`).
-/
import IonContrib.Tcpv4.Ext
import IonContrib.Tcpv4.Steps
import Mathlib.Data.List.ModifyLast

namespace IonContrib.Tcpv4

/-- A transfer: its START, whether the session was ending when that came, the segments read
    so far, and the header of one whose data has not been read yet. -/
structure Incoming where
  start : XferSegment
  ending : Bool
  segs : List (XferSegment × Octets)
  head : Option XferSegment
  deriving DecidableEq, Repr

namespace Incoming

/-- The octets received. -/
def data (t : Incoming) : Octets := (t.segs.map Prod.snd).flatten

/-- The octets received and those that are coming. -/
def size (t : Incoming) : Nat := t.data.length + (t.head.map XferSegment.dataLength).getD 0

/-- The END has not been read. -/
def active (t : Incoming) : Bool := !t.segs.any fun s => s.1.isEnd

/-- A transfer that has grown to `size` octets is acceptable: it has not begun in an ending
    session, no extension item is in the way, and neither the length it announces nor `size`
    is beyond the Transfer MRU. -/
def fitsAt (cfg : RxCfg) (t : Incoming) (size : Nat) : Bool :=
  !t.ending && !segmentHasCriticalExt t.start &&
    (tcpv4MsgFindXferLength t.start.xferExt).all (fun total => decide (total ≤ cfg.transferMru)) &&
    decide (size ≤ cfg.transferMru)

def fits (cfg : RxCfg) (t : Incoming) : Bool := t.fitsAt cfg t.size

/-- The XFER_REFUSE for a transfer that is not acceptable. -/
def refusal (t : Incoming) : XferRefuse where
  reason :=
    if t.ending then tmsgRefuseSessTerm
    else if segmentHasCriticalExt t.start then tmsgRefuseExtFailure
    else tmsgRefuseNoResources
  transferId := t.start.transferId

/-- The acknowledgements for segments that come after `size` octets of the transfer, as long
    as it is acceptable. -/
def acksFrom (cfg : RxCfg) (t : Incoming) : Nat → List (XferSegment × Octets) → List XferAck
  | _, [] => []
  | size, s :: rest =>
    (if t.fitsAt cfg (size + s.2.length) then
      [⟨s.1.flags, s.1.transferId, size + s.2.length⟩] else []) ++
      acksFrom cfg t (size + s.2.length) rest

def acks (cfg : RxCfg) (t : Incoming) : List XferAck := t.acksFrom cfg 0 t.segs

/-- A bundle for BP: all of it is there, and it is acceptable. -/
def isBundle (cfg : RxCfg) (t : Incoming) : Bool := !t.active && t.fits cfg

end Incoming

/-! ## All transfers of a session -/

abbrev Transfers := List Incoming

namespace Transfers

/-- The transfer that the next segment continues. -/
def current (ts : Transfers) : Option Incoming := ts.getLast?.filter Incoming.active

/-- The segment is not too long, and it begins a transfer where none is active or continues
    the active one. -/
def Admissible (cfg : RxCfg) (ts : Transfers) (seg : XferSegment) : Prop :=
  seg.dataLength ≤ cfg.segmentMru ∧
    if seg.isStart then ts.current = none
    else ∃ t ∈ ts.current, seg.transferId = t.start.transferId

instance (cfg : RxCfg) (ts : Transfers) (seg : XferSegment) : Decidable (Admissible cfg ts seg) :=
  inferInstanceAs (Decidable (seg.dataLength ≤ cfg.segmentMru ∧
    if seg.isStart then ts.current = none
    else ∃ t ∈ ts.current, seg.transferId = t.start.transferId))

/-- With a header that has been read. -/
def addHead (cfg : RxCfg) (ts : Transfers) (seg : XferSegment) (ending : Bool) : Transfers :=
  if Admissible cfg ts seg then
    if seg.isStart then ts ++ [⟨seg, ending, [], some seg⟩]
    else ts.modifyLast fun t => { t with head := some seg }
  else ts

/-- With the data of the last header. -/
def addData (ts : Transfers) (seg : XferSegment) (data : Octets) : Transfers :=
  ts.modifyLast fun t => { t with segs := t.segs ++ [(seg, data)], head := none }

def acks (cfg : RxCfg) (ts : Transfers) : List XferAck := ts.flatMap (Incoming.acks cfg)

def refusals (cfg : RxCfg) (ts : Transfers) : List XferRefuse :=
  (ts.filter fun t => !t.fits cfg).map Incoming.refusal

def bundles (cfg : RxCfg) (ts : Transfers) : List Octets :=
  (ts.filter fun t => t.isBundle cfg).map Incoming.data

end Transfers

/-- The receiver thread takes the session down. -/
def RxPc.givesUp : RxPc → Bool
  | .failing => true
  | .saying _ _ _ => true
  | _ => false

/-- What a step of the receiver thread adds. -/
def observeRecv (cfg : RxCfg) (ts : Transfers) (c c' : Conn) : Transfers :=
  match c.rxPc with
  | .body type =>
    if type = tmsgXferSegment ∧ c'.rxPc ≠ .failing then
      match recvXferSegmentHdr segHdrCap c.inOctets with
      | .got seg _ => ts.addHead cfg seg (decide (c.state = .ending))
      | _ => ts
    else ts
  | .payload seg =>
    if c'.rxPc.givesUp then ts else ts.addData seg (c.inOctets.take seg.dataLength)
  | _ => ts

/-- What a step from `c` to `c'` adds. -/
def watch (cfg : RxCfg) (ts : Transfers) (c : Conn) (a : Act) (c' : Conn) : Transfers :=
  match a with
  | .recv _ => observeRecv cfg ts c c'
  | _ => ts

/-- A session that is watched. -/
def observed (cfg : SessCfg) (v : Conn × Transfers) (a : Act) : Option (Conn × Transfers) :=
  (step cfg v.1 a).map fun c' => (c', watch cfg.rx v.2 v.1 a c')

/-- Watching changes nothing: every run of a session is one of a session that is watched. -/
theorem run_observed {cfg : SessCfg} {as : List Act} {c c' : Conn} (ts : Transfers) :
    Lts.run (step cfg) c as = some c' ↔
      ∃ ts', Lts.run (observed cfg) (c, ts) as = some (c', ts') := by
  induction as generalizing c ts with
  | nil => simp
  | cons a as ih =>
    simp only [Lts.run_cons_eq_some, observed, Option.map_eq_some_iff]
    constructor
    · rintro ⟨d, h_a, h_as⟩
      obtain ⟨ts', h_run⟩ := (ih (watch cfg.rx ts c a d)).mp h_as
      exact ⟨ts', _, ⟨d, h_a, rfl⟩, h_run⟩
    · rintro ⟨ts', v, ⟨d, h_a, rfl⟩, h_run⟩
      exact ⟨d, h_a, (ih _).mpr ⟨ts', h_run⟩⟩

/-! ## What a segment changes -/

namespace Incoming

variable {cfg : RxCfg} {t : Incoming}

theorem data_snoc (s : XferSegment × Octets) :
    data { t with segs := t.segs ++ [s], head := none } = t.data ++ s.2 := by
  simp [data]

/-- A transfer that is acceptable was so before. -/
theorem fitsAt_of_le {size size' : Nat} (h : t.fitsAt cfg size' = true) (h_le : size ≤ size') :
    t.fitsAt cfg size = true := by
  simp only [fitsAt, Bool.and_eq_true, decide_eq_true_eq] at h ⊢
  exact ⟨h.1, Nat.le_trans h_le h.2⟩

theorem size_le_of_fits {size : Nat} (h : t.fitsAt cfg size = true) : size ≤ cfg.transferMru := by
  simp only [fitsAt, Bool.and_eq_true, decide_eq_true_eq] at h
  exact h.2

/-- What is refused only now is refused for want of room. -/
theorem refusal_of_fitsAt {size : Nat} (h : t.fitsAt cfg size = true) :
    t.refusal = ⟨tmsgRefuseNoResources, t.start.transferId⟩ := by
  simp only [fitsAt, Bool.and_eq_true, Bool.not_eq_true'] at h
  simp [refusal, h.1.1.1, h.1.1.2]

/-- The acknowledgements depend on the START and on the segments that are asked about. -/
theorem acksFrom_with (segs' : List (XferSegment × Octets)) (head : Option XferSegment) (size : Nat)
    (segs : List (XferSegment × Octets)) :
    acksFrom cfg { t with segs := segs', head := head } size segs = t.acksFrom cfg size segs := by
  induction segs generalizing size with
  | nil => rfl
  | cons s segs ih =>
    rw [acksFrom, acksFrom, ih]
    rfl

theorem acksFrom_snoc (size : Nat) (segs : List (XferSegment × Octets)) (s : XferSegment × Octets) :
    t.acksFrom cfg size (segs ++ [s]) = t.acksFrom cfg size segs ++
      if t.fitsAt cfg (size + (segs.map Prod.snd).flatten.length + s.2.length) then
        [⟨s.1.flags, s.1.transferId, size + (segs.map Prod.snd).flatten.length + s.2.length⟩]
      else [] := by
  induction segs generalizing size with
  | nil => simp [acksFrom]
  | cons s' segs ih =>
    simp only [List.cons_append, acksFrom, ih, List.map_cons, List.flatten_cons,
      List.length_append, List.append_assoc, Nat.add_assoc]

/-- Every acknowledgement is for a segment, and says how much has been received with it. -/
theorem mem_acksFrom {m : XferAck} {size : Nat} {segs : List (XferSegment × Octets)}
    (h : m ∈ t.acksFrom cfg size segs) :
    ∃ before s after, segs = before ++ s :: after ∧
      m = ⟨s.1.flags, s.1.transferId,
        size + ((before ++ [s]).map Prod.snd).flatten.length⟩ := by
  induction segs generalizing size with
  | nil => cases h
  | cons s' segs ih =>
    rw [acksFrom] at h
    rcases List.mem_append.mp h with h_here | h_later
    · split at h_here
      · obtain rfl := List.mem_singleton.mp h_here
        exact ⟨[], s', segs, rfl, by simp⟩
      · cases h_here
    · obtain ⟨before, s, after, rfl, rfl⟩ := ih h_later
      refine ⟨s' :: before, s, after, rfl, ?_⟩
      simp [Nat.add_assoc]

end Incoming

namespace Transfers

variable {cfg : RxCfg} {init : Transfers} {t : Incoming}

theorem current_snoc (init : Transfers) (t : Incoming) :
    current (init ++ [t]) = if t.active then some t else none := by
  rw [current, List.getLast?_concat, Option.filter_some]

theorem acks_snoc (cfg : RxCfg) (init : Transfers) (t : Incoming) :
    acks cfg (init ++ [t]) = acks cfg init ++ t.acks cfg := by
  simp [acks]

theorem refusals_snoc (cfg : RxCfg) (init : Transfers) (t : Incoming) :
    refusals cfg (init ++ [t]) =
      refusals cfg init ++ if t.fits cfg then [] else [t.refusal] := by
  cases h : t.fits cfg with
  | true => simp [refusals, h]
  | false => simp [refusals, h]

theorem bundles_snoc (cfg : RxCfg) (init : Transfers) (t : Incoming) :
    bundles cfg (init ++ [t]) = bundles cfg init ++ if t.isBundle cfg then [t.data] else [] := by
  cases h : t.isBundle cfg with
  | true => simp [bundles, h]
  | false => simp [bundles, h]

theorem addHead_start {ts : Transfers} {seg : XferSegment} (h : Admissible cfg ts seg)
    (h_start : seg.isStart = true) (ending : Bool) :
    ts.addHead cfg seg ending = ts ++ [⟨seg, ending, [], some seg⟩] := by
  rw [addHead, if_pos h, if_pos h_start]

theorem addHead_next {seg : XferSegment} (h : Admissible cfg (init ++ [t]) seg)
    (h_start : seg.isStart = false) (ending : Bool) :
    addHead cfg (init ++ [t]) seg ending = init ++ [{ t with head := some seg }] := by
  rw [addHead, if_pos h, if_neg (by simp [h_start]), List.modifyLast_concat]

theorem addData_snoc (seg : XferSegment) (data : Octets) :
    addData (init ++ [t]) seg data =
      init ++ [{ t with segs := t.segs ++ [(seg, data)], head := none }] :=
  List.modifyLast_concat _ _ _

/-- An active transfer is no bundle yet, and a header alone is not acknowledged. -/
theorem addHead_acks (ts : Transfers) (seg : XferSegment) (ending : Bool) :
    (ts.addHead cfg seg ending).acks cfg = ts.acks cfg ∧
      (ts.addHead cfg seg ending).bundles cfg = ts.bundles cfg := by
  by_cases h : Admissible cfg ts seg
  · cases h_start : seg.isStart with
    | true =>
      rw [addHead_start h h_start, acks_snoc, bundles_snoc]
      have h_none : Incoming.isBundle cfg ⟨seg, ending, [], some seg⟩ = false := by
        simp [Incoming.isBundle, Incoming.active]
      simp [h_none, Incoming.acks, Incoming.acksFrom]
    | false =>
      have h_cur := h.2
      simp only [h_start, Bool.false_eq_true, if_false] at h_cur
      obtain ⟨t, h_t, -⟩ := h_cur
      obtain ⟨h_last, h_active⟩ := Option.mem_filter_iff.mp h_t
      obtain ⟨init, rfl⟩ := List.getLast?_eq_some_iff.mp h_last
      have h_none : ∀ head, Incoming.isBundle cfg { t with head := head } = false := by
        intro head
        have h_act : Incoming.active { t with head := head } = true := h_active
        simp [Incoming.isBundle, h_act]
      have h_same : t.isBundle cfg = false := h_none t.head
      rw [addHead_next h h_start, acks_snoc, acks_snoc, bundles_snoc, bundles_snoc, h_none, h_same,
        Incoming.acks, Incoming.acksFrom_with]
      exact ⟨rfl, rfl⟩
  · rw [addHead, if_neg h]
    exact ⟨rfl, rfl⟩

/-- Data that are all of their segment leave the verdict on the transfer as it is. -/
theorem fits_addData {seg : XferSegment} {data : Octets} (h_head : t.head = some seg)
    (h_len : data.length = seg.dataLength) :
    Incoming.fits cfg { t with segs := t.segs ++ [(seg, data)], head := none } = t.fits cfg := by
  simp [Incoming.fits, Incoming.size, Incoming.data, Incoming.fitsAt, h_head, h_len]

theorem acks_addData {seg : XferSegment} {data : Octets} (h_head : t.head = some seg)
    (h_len : data.length = seg.dataLength) :
    acks cfg (addData (init ++ [t]) seg data) = acks cfg (init ++ [t]) ++
      if t.fits cfg then [⟨seg.flags, seg.transferId, t.size⟩] else [] := by
  have h_size : 0 + (t.segs.map Prod.snd).flatten.length + data.length = t.size := by
    simp [Incoming.size, Incoming.data, h_head, h_len]
  rw [addData_snoc, acks_snoc, acks_snoc, Incoming.acks, Incoming.acksFrom_with,
    Incoming.acksFrom_snoc, h_size, List.append_assoc]
  rfl

theorem bundles_addData {seg : XferSegment} {data : Octets} (h_head : t.head = some seg)
    (h_len : data.length = seg.dataLength) (h_active : t.active = true) :
    bundles cfg (addData (init ++ [t]) seg data) = bundles cfg (init ++ [t]) ++
      if seg.isEnd && t.fits cfg then [t.data ++ data] else [] := by
  have h_none : t.segs.any (fun s => s.1.isEnd) = false := by
    simpa [Incoming.active] using h_active
  have h_bundle : Incoming.isBundle cfg { t with segs := t.segs ++ [(seg, data)], head := none } =
      (seg.isEnd && t.fits cfg) := by
    rw [Incoming.isBundle, fits_addData h_head h_len]
    simp [Incoming.active, h_none]
  have h_before : t.isBundle cfg = false := by simp [Incoming.isBundle, h_active]
  rw [addData_snoc, bundles_snoc, bundles_snoc, h_bundle, h_before, Incoming.data_snoc]
  simp

theorem refusals_addData {seg : XferSegment} {data : Octets} (h_head : t.head = some seg)
    (h_len : data.length = seg.dataLength) :
    refusals cfg (addData (init ++ [t]) seg data) = refusals cfg (init ++ [t]) := by
  rw [addData_snoc, refusals_snoc, refusals_snoc, fits_addData h_head h_len]
  rfl

/-- All segments of a transfer have its id, and as much data as they announce. -/
def WellFormed (ts : Transfers) : Prop :=
  ∀ t ∈ ts, ∀ s ∈ t.segs, s.1.transferId = t.start.transferId ∧ s.2.length = s.1.dataLength

theorem WellFormed.addHead {ts : Transfers} (h : ts.WellFormed) (seg : XferSegment)
    (ending : Bool) : (ts.addHead cfg seg ending).WellFormed := by
  by_cases h_adm : Admissible cfg ts seg
  · cases h_start : seg.isStart with
    | true =>
      rw [addHead_start h_adm h_start]
      intro t h_t
      rcases List.mem_append.mp h_t with h_old | h_new
      · exact h t h_old
      · obtain rfl := List.mem_singleton.mp h_new
        simp
    | false =>
      have h_cur := h_adm.2
      rw [if_neg (by simp [h_start])] at h_cur
      obtain ⟨t, h_t, -⟩ := h_cur
      obtain ⟨init, rfl⟩ := List.getLast?_eq_some_iff.mp (Option.mem_filter_iff.mp h_t).1
      rw [addHead_next h_adm h_start]
      intro t' h_t'
      rcases List.mem_append.mp h_t' with h_old | h_new
      · exact h t' (List.mem_append_left _ h_old)
      · obtain rfl := List.mem_singleton.mp h_new
        exact h t (List.mem_append_right _ List.mem_cons_self)
  · rwa [Transfers.addHead, if_neg h_adm]

theorem WellFormed.addData (h : WellFormed (init ++ [t])) {seg : XferSegment} {data : Octets}
    (h_id : seg.transferId = t.start.transferId) (h_len : data.length = seg.dataLength) :
    WellFormed (addData (init ++ [t]) seg data) := by
  rw [addData_snoc]
  intro t' h_t'
  rcases List.mem_append.mp h_t' with h_old | h_new
  · exact h t' (List.mem_append_left _ h_old)
  · obtain rfl := List.mem_singleton.mp h_new
    intro s h_s
    rcases List.mem_append.mp h_s with h_seg | h_last
    · exact h t (List.mem_append_right _ List.mem_cons_self) s h_seg
    · obtain rfl := List.mem_singleton.mp h_last
      exact ⟨h_id, h_len⟩

end Transfers

end IonContrib.Tcpv4
