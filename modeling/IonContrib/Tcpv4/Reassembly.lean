/-
  IonContrib.Tcpv4.Reassembly

  The reassembly state and the transfer it is the state of.

  While a transfer is acceptable its octets are in the buffer, which never
  holds more than the Transfer MRU (`Follows`, `RxSide.Bounded`).  The header
  of a segment is let in if the segment is in place, and it is then that a
  refusal falls due (`segmentAdmit_headRuled`).
-/
import IonContrib.Tcpv4.Incoming
import IonContrib.Tcpv4.Received

namespace IonContrib.Tcpv4

/-! ## The reassembly buffer -/

/-- No buffer grows beyond this. -/
def capMax (cfg : RxCfg) : Nat := max 8192 (2 * cfg.transferMru)

structure RxSide.Bounded (cfg : RxCfg) (rx : RxSide) : Prop where
  mru : rx.rxLen ≤ cfg.transferMru
  room : rx.rxLen ≤ rx.rxBundle.length
  cap : rx.rxBundle.length ≤ capMax cfg

/-- The reassembly state is that of `t`: its octets are kept while it is acceptable. -/
structure Follows (cfg : RxCfg) (t : Incoming) (rx : RxSide) : Prop where
  active : rx.rxActive = true
  open_ : t.active = true
  id : rx.rxId = t.start.transferId
  refused : rx.rxRefused = !t.fits cfg
  kept : rx.rxRefused = false → rx.rxBundle.take rx.rxLen = t.data

theorem Follows.len {cfg : RxCfg} {t : Incoming} {rx : RxSide} (h : Follows cfg t rx)
    (h_rx : rx.Bounded cfg) (h_ref : rx.rxRefused = false) : rx.rxLen = t.data.length := by
  rw [← h.kept h_ref, List.length_take, Nat.min_eq_left h_rx.room]

/-- Between two segments there is no transfer, or one that goes on. -/
def Standing (cfg : RxCfg) (ts : Transfers) (rx : RxSide) : Prop :=
  (rx.rxActive = false ∧ ts.current = none) ∨
    ∃ init t, ts = init ++ [t] ∧ t.head = none ∧ Follows cfg t rx

/-- The reassembly state behind the header of a segment. -/
def Within (cfg : RxCfg) (ts : Transfers) (seg : XferSegment) (rx : RxSide) : Prop :=
  ∃ init t, ts = init ++ [t] ∧ t.head = some seg ∧ seg.transferId = t.start.transferId ∧
    Follows cfg t rx

theorem rxReserve_bounded {cfg : RxCfg} {rx rx' : RxSide} {want : Nat} {mem : Bool}
    (h_rx : rx.Bounded cfg) (h_want : want ≤ cfg.transferMru)
    (h : rxReserve rx want mem = some rx') : rx'.Bounded cfg := by
  obtain ⟨h_len, -, -, -, -, -, h_room⟩ := rxReserve_spec h_rx.room h
  refine ⟨by rw [h_len]; exact h_rx.mru, by rw [h_len]; exact h_room, ?_⟩
  unfold rxReserve at h
  split at h
  · rw [← Option.some.inj h]
    exact h_rx.cap
  split at h
  · cases h
  · rw [← Option.some.inj h]
    have h_cap := h_rx.cap
    have h_double := doubleUntil_le want
      (if rx.rxBundle.length = 0 then 8192 else rx.rxBundle.length) want
    have h_first : (if rx.rxBundle.length = 0 then 8192 else rx.rxBundle.length) ≤ capMax cfg := by
      unfold capMax at h_cap ⊢
      split <;> omega
    have h_mru := h_rx.mru
    have h_rxRoom := h_rx.room
    simp only [List.length_append, List.length_take, List.length_replicate,
      Nat.min_eq_left h_rxRoom]
    unfold capMax at h_first ⊢
    omega

/-! ## The header of a segment -/

/-- What is in place when the MRU check is made, and what it decides. -/
theorem segmentCheckMru_fits {cfg : RxCfg} {t : Incoming} {rx rx' : RxSide} {seg : XferSegment}
    {verdict : Admit} (h_head : t.head = some seg)
    (h_ref : rx.rxRefused = !t.fitsAt cfg t.data.length)
    (h_len : rx.rxRefused = false → rx.rxLen = t.data.length)
    (h : segmentCheckMru cfg rx seg = (rx', verdict)) :
    (verdict = .accept ∧ rx' = rx ∧ rx.rxRefused = !t.fits cfg) ∨
      (verdict = .refuse tmsgRefuseNoResources ∧ rx' = { rx with rxRefused := true } ∧
        t.fits cfg = false ∧ t.fitsAt cfg t.data.length = true) := by
  have h_size : t.size = t.data.length + seg.dataLength := by simp [Incoming.size, h_head]
  unfold segmentCheckMru at h
  cases h_r : rx.rxRefused with
  | true =>
    rw [h_r, Bool.not_true, Bool.false_and, if_neg Bool.false_ne_true] at h
    obtain ⟨rfl, rfl⟩ := Prod.mk.inj h
    have h_unfit : t.fitsAt cfg t.data.length = false := by
      rw [h_r] at h_ref
      simpa using h_ref
    refine Or.inl ⟨rfl, rfl, ?_⟩
    cases h_fits : t.fits cfg with
    | false => rfl
    | true =>
      rw [Incoming.fitsAt_of_le h_fits (by omega)] at h_unfit
      cases h_unfit
  | false =>
    have h_fit : t.fitsAt cfg t.data.length = true := by
      rw [h_r] at h_ref
      simpa using h_ref
    rw [h_r, Bool.not_false, Bool.true_and,
      show rx.rxLen + seg.dataLength = t.size by rw [h_len h_r, h_size]] at h
    have h_iff : t.fits cfg = decide (t.size ≤ cfg.transferMru) := by
      rw [Incoming.fits, Incoming.fitsAt]
      rw [Incoming.fitsAt, Bool.and_eq_true] at h_fit
      rw [h_fit.1, Bool.true_and]
    by_cases h_big : t.size > cfg.transferMru
    · rw [decide_eq_true h_big, if_pos rfl] at h
      obtain ⟨rfl, rfl⟩ := Prod.mk.inj h
      exact Or.inr ⟨rfl, rfl, by rw [h_iff]; exact decide_eq_false (by omega), h_fit⟩
    · rw [decide_eq_false h_big, if_neg Bool.false_ne_true] at h
      obtain ⟨rfl, rfl⟩ := Prod.mk.inj h
      refine Or.inl ⟨rfl, rfl, ?_⟩
      rw [h_iff, decide_eq_true (Nat.not_lt.mp h_big)]
      rfl

/-- What admission comes to for the transfers, by its verdict. -/
inductive HeadRuled (cfg : RxCfg) (ts ts' : Transfers) (seg : XferSegment) (rx' : RxSide) :
    Admit → Prop where
  | fail (m : Ctrl) (h_m : m.isReply = false)
      (h_due : ∃ later, ts'.refusals cfg = ts.refusals cfg ++ later) :
      HeadRuled cfg ts ts' seg rx' (.fail m)
  | refuse (reason : UInt8) (h_adm : ts.Admissible cfg seg) (h_within : Within cfg ts' seg rx')
      (h_ref : rx'.rxRefused = true)
      (h_due : ts'.refusals cfg = ts.refusals cfg ++ [⟨reason, seg.transferId⟩]) :
      HeadRuled cfg ts ts' seg rx' (.refuse reason)
  | accept (h_adm : ts.Admissible cfg seg) (h_within : Within cfg ts' seg rx')
      (h_due : ts'.refusals cfg = ts.refusals cfg) : HeadRuled cfg ts ts' seg rx' .accept

/-- The MRU check, made for the transfer `t` that takes the place of `t₀`. -/
theorem headRuled_of_check {cfg : RxCfg} {init ts : Transfers} {t : Incoming} {rx rx' : RxSide}
    {seg : XferSegment} {verdict : Admit} (h_rx : rx.Bounded cfg)
    (h_adm : ts.Admissible cfg seg) (h_head : t.head = some seg)
    (h_id : seg.transferId = t.start.transferId) (h_active : rx.rxActive = true)
    (h_open : t.active = true) (h_rxId : rx.rxId = t.start.transferId)
    (h_ref : rx.rxRefused = !t.fitsAt cfg t.data.length)
    (h_kept : rx.rxRefused = false → rx.rxBundle.take rx.rxLen = t.data)
    (h_ts : ts.refusals cfg = init.refusals cfg ++
      if t.fitsAt cfg t.data.length then [] else [t.refusal])
    (h : segmentCheckMru cfg rx seg = (rx', verdict)) :
    rx'.Bounded cfg ∧ HeadRuled cfg ts (init ++ [t]) seg rx' verdict := by
  have h_len : rx.rxRefused = false → rx.rxLen = t.data.length := by
    intro h_r
    rw [← h_kept h_r, List.length_take, Nat.min_eq_left h_rx.room]
  rcases segmentCheckMru_fits h_head h_ref h_len h with
    ⟨rfl, rfl, h_fits⟩ | ⟨rfl, rfl, h_unfit, h_was⟩
  · have h_same : t.fits cfg = t.fitsAt cfg t.data.length := by
      rw [h_ref] at h_fits
      simpa using h_fits.symm
    refine ⟨h_rx, .accept h_adm
      ⟨init, t, rfl, h_head, h_id, h_active, h_open, h_rxId, h_fits, h_kept⟩ ?_⟩
    rw [Transfers.refusals_snoc, h_ts, h_same]
  · refine ⟨⟨h_rx.mru, h_rx.room, h_rx.cap⟩, .refuse _ h_adm ?_ rfl ?_⟩
    · exact ⟨init, t, rfl, h_head, h_id, h_active, h_open, h_rxId, by rw [h_unfit]; rfl, nofun⟩
    · rw [Transfers.refusals_snoc, h_ts, h_unfit, h_was, Incoming.refusal_of_fitsAt h_was, h_id]
      simp

/-- A START that is refused at once. -/
theorem headRuled_refused {cfg : RxCfg} {ts : Transfers} {rx : RxSide} {seg : XferSegment}
    {ending : Bool} {reason : UInt8} (h_rx : rx.Bounded cfg) (h_adm : ts.Admissible cfg seg)
    (h_unfit : Incoming.fits cfg ⟨seg, ending, [], some seg⟩ = false)
    (h_reason : Incoming.refusal ⟨seg, ending, [], some seg⟩ = ⟨reason, seg.transferId⟩) :
    RxSide.Bounded cfg { rx.begin seg with rxRefused := true } ∧
      HeadRuled cfg ts (ts ++ [⟨seg, ending, [], some seg⟩]) seg
        { rx.begin seg with rxRefused := true } (.refuse reason) := by
  refine ⟨⟨Nat.zero_le _, Nat.zero_le _, h_rx.cap⟩, .refuse reason h_adm ?_ rfl ?_⟩
  · exact ⟨ts, _, rfl, rfl, rfl, rfl, rfl, rfl, by rw [h_unfit]; rfl, nofun⟩
  · rw [Transfers.refusals_snoc, h_unfit, h_reason]
    rfl

/-- A START in a session that has no active transfer. -/
theorem segmentAdmit_start {cfg : RxCfg} {ending mem : Bool} {ts : Transfers} {rx rx' : RxSide}
    {seg : XferSegment} {verdict : Admit} (h_rx : rx.Bounded cfg)
    (h_adm : ts.Admissible cfg seg) (h_start : seg.isStart = true)
    (h_idle : rx.rxActive = false) (h : segmentAdmit cfg ending rx seg mem = (rx', verdict)) :
    rx'.Bounded cfg ∧
      HeadRuled cfg ts (ts ++ [⟨seg, ending, [], some seg⟩]) seg rx' verdict := by
  have h_fits : seg.dataLength ≤ cfg.segmentMru := h_adm.1
  have h_begun : (rx.begin seg).Bounded cfg := ⟨Nat.zero_le _, Nat.zero_le _, h_rx.cap⟩
  cases h_ending : ending with
  | true =>
    rw [segmentAdmit, if_neg (Nat.not_lt.mpr h_fits), if_pos h_start, h_idle, h_ending] at h
    obtain ⟨rfl, rfl⟩ := Prod.mk.inj h
    exact headRuled_refused h_rx h_adm (by simp [Incoming.fits, Incoming.fitsAt])
      (by simp [Incoming.refusal])
  | false =>
    rw [segmentAdmit_begins ⟨h_start, h_fits, h_idle, h_ending⟩] at h
    cases h_critical : segmentHasCriticalExt seg with
    | true =>
      rw [h_critical, if_pos rfl] at h
      obtain ⟨rfl, rfl⟩ := Prod.mk.inj h
      exact headRuled_refused h_rx h_adm (by simp [Incoming.fits, Incoming.fitsAt, h_critical])
        (by simp [Incoming.refusal, h_critical])
    | false =>
      rw [h_critical, if_neg Bool.false_ne_true] at h
      -- The MRU check, once the announced length has been found to fit.
      have h_check : ∀ buf : Octets, buf.length ≤ capMax cfg →
          (tcpv4MsgFindXferLength seg.xferExt).all
            (fun total => decide (total ≤ cfg.transferMru)) = true →
          segmentCheckMru cfg { rx.begin seg with rxBundle := buf } seg = (rx', verdict) →
          rx'.Bounded cfg ∧
            HeadRuled cfg ts (ts ++ [⟨seg, false, [], some seg⟩]) seg rx' verdict := by
        intro buf h_cap h_total h_mru
        have h_fit : Incoming.fitsAt cfg ⟨seg, false, [], some seg⟩ 0 = true := by
          simp [Incoming.fitsAt, h_critical, h_total]
        refine headRuled_of_check ⟨Nat.zero_le _, Nat.zero_le _, h_cap⟩ h_adm rfl rfl rfl rfl rfl ?_
          (fun _ => List.take_zero) ?_ h_mru
        · show false = !Incoming.fitsAt cfg _ 0
          rw [h_fit]
          rfl
        · show _ = _ ++ if Incoming.fitsAt cfg _ 0 then _ else _
          rw [h_fit, if_pos rfl, List.append_nil]
      cases h_find : tcpv4MsgFindXferLength seg.xferExt with
      | none =>
        rw [h_find] at h h_check
        exact h_check rx.rxBundle h_rx.cap rfl h
      | some total =>
        rw [h_find, admitTotal] at h
        rw [h_find] at h_check
        by_cases h_big : total > cfg.transferMru
        · rw [if_pos h_big] at h
          obtain ⟨rfl, rfl⟩ := Prod.mk.inj h
          exact headRuled_refused h_rx h_adm
            (by simp [Incoming.fits, Incoming.fitsAt, h_find, Nat.not_le.mpr h_big])
            (by simp [Incoming.refusal, h_critical])
        · rw [if_neg h_big] at h
          cases h_res : rxReserve (rx.begin seg) total mem with
          | none =>
            rw [h_res] at h
            obtain ⟨rfl, rfl⟩ := Prod.mk.inj h
            exact ⟨h_begun, .fail _ rfl ⟨_, Transfers.refusals_snoc cfg ts _⟩⟩
          | some rx₁ =>
            rw [h_res] at h
            have h_cap := (rxReserve_bounded h_begun (Nat.not_lt.mp h_big) h_res).cap
            obtain ⟨h_len, h_id, h_act, h_ref, -⟩ := rxReserve_spec (Nat.zero_le _) h_res
            obtain ⟨buf, len, id, active, refused⟩ := rx₁
            dsimp only at h_len h_id h_act h_ref h_cap
            subst h_len h_id h_act h_ref
            exact h_check buf h_cap (decide_eq_true (Nat.not_lt.mp h_big)) h

/-- **The header of a segment.**  A segment out of place fails the session; any other is
    refused, and a refusal is due, exactly when its transfer is no longer acceptable with it. -/
theorem segmentAdmit_headRuled {cfg : RxCfg} {ending mem : Bool} {ts : Transfers}
    {rx rx' : RxSide} {seg : XferSegment} {verdict : Admit} (h_stand : Standing cfg ts rx)
    (h_rx : rx.Bounded cfg) (h : segmentAdmit cfg ending rx seg mem = (rx', verdict)) :
    rx'.Bounded cfg ∧ HeadRuled cfg ts (ts.addHead cfg seg ending) seg rx' verdict := by
  -- A segment that is not admissible belongs to no transfer.
  have h_stray : ∀ m : Ctrl, m.isReply = false → ¬ ts.Admissible cfg seg →
      HeadRuled cfg ts (ts.addHead cfg seg ending) seg rx (.fail m) := by
    intro m h_m h_not
    rw [Transfers.addHead, if_neg h_not]
    exact .fail m h_m ⟨[], (List.append_nil _).symm⟩
  by_cases h_long : seg.dataLength > cfg.segmentMru
  · rw [segmentAdmit, if_pos h_long] at h
    obtain ⟨rfl, rfl⟩ := Prod.mk.inj h
    exact ⟨h_rx, h_stray _ rfl fun h_adm => absurd h_adm.1 (Nat.not_le.mpr h_long)⟩
  have h_fits : seg.dataLength ≤ cfg.segmentMru := Nat.not_lt.mp h_long
  cases h_start : seg.isStart with
  | true =>
    rcases h_stand with ⟨h_idle, h_cur⟩ | ⟨init, t, rfl, h_head, h_follows⟩
    · have h_adm : Transfers.Admissible cfg ts seg := ⟨h_fits, by rw [if_pos h_start]; exact h_cur⟩
      rw [Transfers.addHead_start h_adm h_start]
      exact segmentAdmit_start h_rx h_adm h_start h_idle h
    · rw [segmentAdmit, if_neg h_long, if_pos h_start, if_pos h_follows.active] at h
      obtain ⟨rfl, rfl⟩ := Prod.mk.inj h
      refine ⟨h_rx, h_stray _ rfl fun h_adm => ?_⟩
      have h_none := h_adm.2
      rw [if_pos h_start, Transfers.current_snoc, if_pos h_follows.open_] at h_none
      cases h_none
  | false =>
    rw [segmentAdmit, if_neg h_long, if_neg (by simp [h_start])] at h
    by_cases h_out : (!rx.rxActive || seg.transferId != rx.rxId) = true
    · rw [if_pos h_out] at h
      obtain ⟨rfl, rfl⟩ := Prod.mk.inj h
      refine ⟨h_rx, h_stray _ rfl fun h_adm => ?_⟩
      have h_cur := h_adm.2
      rw [if_neg (by simp [h_start])] at h_cur
      obtain ⟨t', h_t', h_id⟩ := h_cur
      rcases h_stand with ⟨-, h_none⟩ | ⟨init, t, rfl, h_head, h_follows⟩
      · rw [h_none] at h_t'
        cases h_t'
      · rw [Transfers.current_snoc, if_pos h_follows.open_] at h_t'
        obtain rfl := Option.some.inj h_t'
        simp [h_follows.active, h_follows.id, h_id] at h_out
    rw [if_neg h_out] at h
    simp only [Bool.or_eq_true, Bool.not_eq_true', bne_iff_ne, not_or, Bool.not_eq_false,
      Decidable.not_not] at h_out
    rcases h_stand with ⟨h_idle, -⟩ | ⟨init, t, rfl, h_head, h_follows⟩
    · rw [h_idle] at h_out
      cases h_out.1
    · have h_id : seg.transferId = t.start.transferId := h_out.2.trans h_follows.id
      have h_adm : Transfers.Admissible cfg (init ++ [t]) seg := by
        refine ⟨h_fits, ?_⟩
        rw [if_neg (by simp [h_start]), Transfers.current_snoc, if_pos h_follows.open_]
        exact ⟨t, rfl, h_id⟩
      have h_size : t.size = t.data.length := by simp [Incoming.size, h_head]
      rw [Transfers.addHead_next h_adm h_start]
      refine headRuled_of_check h_rx h_adm rfl h_id h_follows.active h_follows.open_ h_follows.id ?_
        h_follows.kept ?_ h
      · show rx.rxRefused = !t.fitsAt cfg t.data.length
        rw [h_follows.refused, Incoming.fits, h_size]
      · rw [Transfers.refusals_snoc, Incoming.fits, h_size]
        rfl

end IonContrib.Tcpv4
