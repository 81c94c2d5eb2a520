/-
  IonContrib.Zcl.ZcloLedger

  What becomes of the bundles that zclo has added to a chunk.

  Each is in one hand until it is reported: pending, in the flush thread's or
  the main thread's list (`Accounted`).  The carriers are sent in the order in
  which they were cut, each before the next one is cut (`Outcomes`), and a
  success is reported for the bundles of the carriers that were accepted, in
  their order (`Successful`).
-/
import IonContrib.Zcl.ZcloSteps
import Mathlib.Data.List.Count

namespace IonContrib.Zclo

open Octets Zcl

/-! ## The log -/

def Effect.added? : Effect → Option Pend
  | .added p => some p
  | _ => none

def Effect.settled? : Effect → Option (Pend × Bool)
  | .settled p ok => some (p, ok)
  | _ => none

def Effect.sent? : Effect → Option (Octets × List Pend × Bool)
  | .sent carrier zcos ok => some (carrier, zcos, ok)
  | _ => none

def addedIn (log : List Effect) : List Pend := log.filterMap Effect.added?
def settledIn (log : List Effect) : List (Pend × Bool) := log.filterMap Effect.settled?

/-- The carriers given to `bp_send`, each with its bundles and the outcome. -/
def sendsIn (log : List Effect) : List (Octets × List Pend × Bool) := log.filterMap Effect.sent?

/-- The bundles reported with success. -/
def successes (reports : List (Pend × Bool)) : List Pend := (reports.filter (·.2)).map (·.1)

/-- The bundles of the carriers that were accepted. -/
def accepted (sends : List (Octets × List Pend × Bool)) : List Pend :=
  (sends.filter (·.2.2)).flatMap (·.2.1)

@[simp] theorem addedIn_append (log es : List Effect) :
    addedIn (log ++ es) = addedIn log ++ addedIn es := List.filterMap_append

@[simp] theorem settledIn_append (log es : List Effect) :
    settledIn (log ++ es) = settledIn log ++ settledIn es := List.filterMap_append

@[simp] theorem sendsIn_append (log es : List Effect) :
    sendsIn (log ++ es) = sendsIn log ++ sendsIn es := List.filterMap_append

@[simp] theorem successes_append (reports more : List (Pend × Bool)) :
    successes (reports ++ more) = successes reports ++ successes more := by
  unfold successes
  rw [List.filter_append, List.map_append]

@[simp] theorem accepted_append (sends more : List (Octets × List Pend × Bool)) :
    accepted (sends ++ more) = accepted sends ++ accepted more := by
  unfold accepted
  rw [List.filter_append, List.flatMap_append]

theorem successes_map (zcos : List Pend) (sent : Bool) :
    successes (zcos.map (·, sent)) = if sent then zcos else [] := by
  unfold successes
  cases sent with
  | true =>
    rw [List.filter_eq_self.mpr (by simp), List.map_map]
    exact List.map_id _
  | false =>
    rw [List.filter_eq_nil_iff.mpr (by simp)]
    rfl

theorem aloof_none {e : Effect} (h : e.aloof = true) :
    e.added? = none ∧ e.settled? = none ∧ e.sent? = none := by
  cases e with
  | returned p => exact ⟨rfl, rfl, rfl⟩
  | xmit zco sent => exact ⟨rfl, rfl, rfl⟩
  | added p => cases h
  | sent carrier zcos ok => cases h
  | settled p sent => cases h

theorem aloof_nil {es : List Effect} (h : ∀ e ∈ es, e.aloof = true) :
    addedIn es = [] ∧ settledIn es = [] ∧ sendsIn es = [] := by
  refine ⟨?_, ?_, ?_⟩
  · exact List.filterMap_eq_nil_iff.mpr fun e h_e => (aloof_none (h e h_e)).1
  · exact List.filterMap_eq_nil_iff.mpr fun e h_e => (aloof_none (h e h_e)).2.1
  · exact List.filterMap_eq_nil_iff.mpr fun e h_e => (aloof_none (h e h_e)).2.2

variable {c : ZclEncCfg} {cfg : ZclCloConfig} {d d' : CloState c} {e : Event}

/-! ## Hands -/

/-- The bundles of the carrier in hand. -/
def carried (work : Option (Octets × List Pend) × List (Pend × Bool)) : List Pend :=
  match work.1 with
  | none => []
  | some (_, zcos) => zcos

/-- The bundles that have been added and not been reported. -/
def CloState.hands (d : CloState c) : List Pend :=
  d.main.hands ++ d.pending ++ carried d.flusher.work ++ d.flusher.work.2.map (·.1)

/-- Every bundle added is in one hand or has been reported once. -/
def Accounted (d : CloState c) : Prop :=
  (addedIn d.log).Perm ((settledIn d.log).map (·.1) ++ d.hands)

theorem accounted_iff : Accounted d ↔ ∀ p, (addedIn d.log).count p =
    ((settledIn d.log).map (·.1)).count p + (d.main.hands.count p + d.pending.count p +
      (carried d.flusher.work).count p + (d.flusher.work.2.map (·.1)).count p) := by
  unfold Accounted CloState.hands
  rw [List.perm_iff_count]
  simp only [List.count_append]

theorem accounted_start : Accounted (CloState.start c) := List.Perm.refl _

theorem map_reports (zcos : List Pend) (sent : Bool) :
    (zcos.map (·, sent)).map (·.1) = zcos := by
  rw [List.map_map]
  exact List.map_id _

theorem Stepped.accounted (h : Accounted d) (h_step : Stepped cfg d e d') : Accounted d' := by
  rw [accounted_iff] at h ⊢
  intro p
  have h_p := h p
  cases h_step with
  | idle h_enc h_pending h_main h_work es h_log h_es =>
    obtain ⟨h_added, h_settled, -⟩ := aloof_nil h_es
    rw [h_log, addedIn_append, settledIn_append, h_added, h_settled, List.append_nil,
      List.append_nil, h_pending, h_main, h_work]
    exact h_p
  | added q h_hold h_add h_enc h_pending h_main h_work h_log =>
    have h_none : d.main.hands = [] := by
      rw [h_hold]
      rfl
    have h_added : addedIn [.added q] = [q] := rfl
    have h_settled : settledIn [.added q] = [] := rfl
    rw [h_log, addedIn_append, settledIn_append, h_added, h_settled, List.append_nil, h_pending,
      h_main, h_work, List.count_append, List.count_append]
    rw [h_none] at h_p
    omega
  | addFailed q h_hold h_add h_enc h_pending h_main h_work h_log =>
    have h_none : d.main.hands = [] := by
      rw [h_hold]
      rfl
    rw [h_log, h_pending, h_main, h_work]
    rw [h_none] at h_p
    rw [List.count_nil] at h_p ⊢
    omega
  | dropped q h_enc h_pending h_main h_work h_log =>
    have h_added : addedIn [.settled q false] = [] := rfl
    have h_settled : settledIn [.settled q false] = [(q, false)] := rfl
    rw [h_log, addedIn_append, settledIn_append, h_added, h_settled, List.append_nil, h_pending,
      h_work, List.map_append, List.map_singleton, List.count_append]
    rw [h_main, List.count_cons] at h_p
    rw [List.count_singleton]
    dsimp only
    omega
  | cut endChunk last h_look h_last h_cut h_enc h_pending h_main h_idle h_work h_log =>
    rw [h_log, h_pending, h_main, h_work]
    rw [h_idle] at h_p
    simp only [carried, List.count_nil, List.map_nil] at h_p ⊢
    omega
  | cutFailed endChunk last h_look h_last h_cut h_enc h_pending h_main h_idle h_work h_log =>
    rw [h_log, h_pending, h_main, h_work]
    rw [h_idle] at h_p
    simp only [carried, List.count_nil, List.map_nil, map_reports] at h_p ⊢
    omega
  | sent carrier zcos h_enc h_pending h_main h_sending h_work h_log =>
    have h_added : addedIn [.sent carrier zcos true] = [] := rfl
    have h_settled : settledIn [.sent carrier zcos true] = [] := rfl
    rw [h_log, addedIn_append, settledIn_append, h_added, h_settled, List.append_nil,
      List.append_nil, h_pending, h_main, h_work]
    rw [h_sending] at h_p
    simp only [carried, List.count_nil, List.map_nil, map_reports] at h_p ⊢
    omega
  | sendFailed carrier zcos h_enc h_pending h_main h_sending h_work h_log =>
    have h_added : addedIn [.sent carrier zcos false] = [] := rfl
    have h_settled : settledIn [.sent carrier zcos false] = [] := rfl
    rw [h_log, addedIn_append, settledIn_append, h_added, h_settled, List.append_nil,
      List.append_nil, h_pending, h_main, h_work]
    rw [h_sending] at h_p
    simp only [carried, List.count_nil, List.map_nil, List.map_append, List.count_append,
      map_reports] at h_p ⊢
    omega
  | reported q sent reports h_enc h_pending h_main h_settling h_work h_log =>
    have h_added : addedIn [.settled q sent] = [] := rfl
    have h_settled : settledIn [.settled q sent] = [(q, sent)] := rfl
    rw [h_log, addedIn_append, settledIn_append, h_added, h_settled, List.append_nil, h_pending,
      h_main, h_work, List.map_append, List.map_singleton, List.count_append]
    rw [h_settling, List.map_cons, List.count_cons] at h_p
    rw [List.count_singleton]
    simp only [carried] at h_p ⊢
    omega

/-- When the flush thread has ended, nothing is in hand. -/
theorem CloOk.hands_nil (h : CloOk d) (h_end : d.flusher = .ended) : d.hands = [] := by
  obtain ⟨h_shut, h_pending⟩ := h.last (by rw [h_end]; rfl)
  have h_main : d.main.hands = [] := by
    rcases h.running h_shut with h_main | h_main
    · rw [h_main]
      rfl
    · rw [h_main]
      rfl
  unfold CloState.hands
  rw [h_main, h_pending, h_end]
  rfl

/-! ## Successes -/

/-- What is reported with success, and what the flush thread has yet to report so, are the
    bundles of the carriers accepted. -/
def Successful (d : CloState c) : Prop :=
  successes (settledIn d.log) ++ successes d.flusher.work.2 = accepted (sendsIn d.log)

theorem successful_start : Successful (CloState.start c) := rfl

theorem Stepped.successful (h : Successful d) (h_step : Stepped cfg d e d') : Successful d' := by
  unfold Successful at h ⊢
  cases h_step with
  | idle h_enc h_pending h_main h_work es h_log h_es =>
    obtain ⟨-, h_settled, h_sends⟩ := aloof_nil h_es
    rw [h_log, settledIn_append, sendsIn_append, h_settled, h_sends, List.append_nil,
      List.append_nil, h_work]
    exact h
  | added q h_hold h_add h_enc h_pending h_main h_work h_log =>
    have h_settled : settledIn [.added q] = [] := rfl
    have h_sends : sendsIn [.added q] = [] := rfl
    rw [h_log, settledIn_append, sendsIn_append, h_settled, h_sends, List.append_nil,
      List.append_nil, h_work]
    exact h
  | addFailed q h_hold h_add h_enc h_pending h_main h_work h_log =>
    rw [h_log, h_work]
    exact h
  | dropped q h_enc h_pending h_main h_work h_log =>
    have h_settled : settledIn [.settled q false] = [(q, false)] := rfl
    have h_sends : sendsIn [.settled q false] = [] := rfl
    have h_none : successes [(q, false)] = [] := rfl
    rw [h_log, settledIn_append, sendsIn_append, h_settled, h_sends, successes_append, h_none,
      List.append_nil, List.append_nil, h_work]
    exact h
  | cut endChunk last h_look h_last h_cut h_enc h_pending h_main h_idle h_work h_log =>
    rw [h_log, h_work]
    rwa [h_idle] at h
  | cutFailed endChunk last h_look h_last h_cut h_enc h_pending h_main h_idle h_work h_log =>
    rw [h_log, h_work]
    dsimp only
    rw [successes_map, if_neg Bool.false_ne_true]
    rwa [h_idle] at h
  | sent carrier zcos h_enc h_pending h_main h_sending h_work h_log =>
    have h_settled : settledIn [.sent carrier zcos true] = [] := rfl
    have h_sends : sendsIn [.sent carrier zcos true] = [(carrier, zcos, true)] := rfl
    have h_accepted : accepted [(carrier, zcos, true)] = zcos := List.append_nil zcos
    rw [h_sending] at h
    rw [h_log, settledIn_append, sendsIn_append, h_settled, h_sends, accepted_append, h_accepted,
      List.append_nil, h_work]
    dsimp only
    rw [successes_map, if_pos rfl]
    have h : successes (settledIn d.log) ++ [] = accepted (sendsIn d.log) := h
    rw [← h, List.append_nil]
  | sendFailed carrier zcos h_enc h_pending h_main h_sending h_work h_log =>
    have h_settled : settledIn [.sent carrier zcos false] = [] := rfl
    have h_sends : sendsIn [.sent carrier zcos false] = [(carrier, zcos, false)] := rfl
    have h_accepted : accepted [(carrier, zcos, false)] = [] := rfl
    rw [h_log, settledIn_append, sendsIn_append, h_settled, h_sends, accepted_append, h_accepted,
      List.append_nil, List.append_nil, h_work]
    dsimp only
    rw [successes_append, successes_map, successes_map, if_neg Bool.false_ne_true,
      if_neg Bool.false_ne_true]
    rwa [h_sending] at h
  | reported q sent reports h_enc h_pending h_main h_settling h_work h_log =>
    have h_settled : settledIn [.settled q sent] = [(q, sent)] := rfl
    have h_sends : sendsIn [.settled q sent] = [] := rfl
    have h_split : successes ((q, sent) :: reports) =
        successes [(q, sent)] ++ successes reports := successes_append [(q, sent)] reports
    rw [h_log, settledIn_append, sendsIn_append, h_settled, h_sends, List.append_nil, h_work,
      successes_append, List.append_assoc]
    rw [h_settling] at h
    dsimp only at h ⊢
    rw [← h_split]
    exact h

/-! ## Outcomes -/

/-- The carrier in hand. -/
def inHand (work : Option (Octets × List Pend) × List (Pend × Bool)) : List Octets :=
  match work.1 with
  | none => []
  | some (carrier, _) => [carrier]

/-- All carriers cut have been sent, in their order, but for the one in hand. -/
def Outcomes (d : CloState c) : Prop :=
  d.enc.cut = (sendsIn d.log).map (·.1) ++ inHand d.flusher.work

theorem outcomes_start : Outcomes (CloState.start c) := rfl

theorem Stepped.outcomes (h : Outcomes d) (h_step : Stepped cfg d e d') : Outcomes d' := by
  unfold Outcomes at h ⊢
  cases h_step with
  | idle h_enc h_pending h_main h_work es h_log h_es =>
    rw [h_enc, h_log, sendsIn_append, (aloof_nil h_es).2.2, List.append_nil, h_work]
    exact h
  | added q h_hold h_add h_enc h_pending h_main h_work h_log =>
    have h_sends : sendsIn [.added q] = [] := rfl
    rw [h_enc, (zclEncAdd_same d.enc q.bytes).cut, h_log, sendsIn_append, h_sends, List.append_nil,
      h_work]
    exact h
  | addFailed q h_hold h_add h_enc h_pending h_main h_work h_log =>
    rw [h_enc, abort_cut, (zclEncAdd_same d.enc q.bytes).cut, h_log, h_work]
    exact h
  | dropped q h_enc h_pending h_main h_work h_log =>
    have h_sends : sendsIn [.settled q false] = [] := rfl
    rw [h_enc, h_log, sendsIn_append, h_sends, List.append_nil, h_work]
    exact h
  | cut endChunk last h_look h_last h_cut h_enc h_pending h_main h_idle h_work h_log =>
    obtain ⟨w₁, cut, -, -, h_made⟩ := cut_of_made h_cut
    rw [h_idle] at h
    have h : d.enc.cut = (sendsIn d.log).map (·.1) ++ [] := h
    rw [List.append_nil] at h
    rw [h_enc, h_log, h_work]
    show _ = _ ++ [(zclEncCut c d.enc endChunk).1.cut.getLastD []]
    rw [h_made.cut, h]
    simp
  | cutFailed endChunk last h_look h_last h_cut h_enc h_pending h_main h_idle h_work h_log =>
    rw [h_enc, abort_cut, (cut_of_failed h_cut).cut, h_log, h_work]
    rwa [h_idle] at h
  | sent carrier zcos h_enc h_pending h_main h_sending h_work h_log =>
    have h_sends : sendsIn [.sent carrier zcos true] = [(carrier, zcos, true)] := rfl
    rw [h_sending] at h
    rw [h_enc, h_log, sendsIn_append, h_sends, List.map_append, h_work, List.append_assoc]
    exact h
  | sendFailed carrier zcos h_enc h_pending h_main h_sending h_work h_log =>
    have h_sends : sendsIn [.sent carrier zcos false] = [(carrier, zcos, false)] := rfl
    rw [h_sending] at h
    rw [h_enc, abort_cut, h_log, sendsIn_append, h_sends, List.map_append, h_work,
      List.append_assoc]
    exact h
  | reported q sent reports h_enc h_pending h_main h_settling h_work h_log =>
    have h_sends : sendsIn [.settled q sent] = [] := rfl
    rw [h_enc, h_log, sendsIn_append, h_sends, List.append_nil, h_work]
    rwa [h_settling] at h

end IonContrib.Zclo
