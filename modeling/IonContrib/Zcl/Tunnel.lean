/-
  IonContrib.Zcl.Tunnel

  `zclo` and `zcli` with BP between them.

  BP may lose what `bp_send` has accepted, delay it, reorder it and deliver it
  more than once, and payloads come that are no carriers.  What `zcli` hands on
  is then still what `zclo` has been given, in that order, and only bundles
  that it reports as sent (`tunnel_in_order`); and where BP delivers in order
  and loses nothing, it is all of them (`tunnel_complete`).
-/
import IonContrib.Zcl.InTime
import IonContrib.Zcl.ZcloChunks
import IonContrib.Zcl.ZcloLots
import IonContrib.Zcl.Zcli

namespace IonContrib.ZclTunnel

open Octets Zcl Zclo

variable {c : ZclEncCfg} {r : ZclCfg} {cfg : ZclCloConfig}

/-! ## Due and accepted -/

theorem takeWhile_sublist_filter {α : Type*} (p : α → Bool) (l : List α) :
    (l.takeWhile p).Sublist (l.filter p) := by
  have h_self : (l.takeWhile p).filter p = l.takeWhile p :=
    List.filter_eq_self.mpr fun _ h_x => List.mem_takeWhile_imp h_x
  have h_sub := (List.takeWhile_sublist (l := l) p).filter p
  rwa [h_self] at h_sub

theorem takeWhile_eq_filter {α : Type*} {p : α → Bool} {l : List α}
    (h : ∀ x ∈ l.dropLast, p x = true) : l.takeWhile p = l.filter p := by
  rcases List.eq_nil_or_concat l with rfl | ⟨front, last, rfl⟩
  · rfl
  · rw [List.concat_eq_append, List.dropLast_concat] at h
    rw [List.concat_eq_append, List.takeWhile_append_of_pos h, List.filter_append,
      List.filter_eq_self.mpr h]
    cases h_last : p last with
    | true => rw [List.takeWhile_cons_of_pos h_last, List.filter_cons_of_pos h_last]; rfl
    | false =>
      have h_not : ¬ p last = true := by
        rw [h_last]
        exact Bool.false_ne_true
      rw [List.takeWhile_cons_of_neg h_not, List.filter_cons_of_neg h_not]
      rfl

theorem map_entries_bundles (ch : ZclChunk) (streamId : Nat) :
    (ch.entries streamId).map (·.2) = ch.lots.map (·.bundles) := by
  refine List.ext_getElem? fun k => ?_
  unfold ZclChunk.entries
  rw [List.getElem?_map, List.getElem?_map, List.getElem?_mapIdx, Option.map_map]
  rfl

/-- What can come out of a chunk, by its carriers. -/
theorem bundlesTo_reach (t : Traffic) (ch : ZclChunk) : ch.bundlesTo (t.reach ch) =
    ((ch.entries t.streamId).takeWhile fun x => decide (x.1 ∈ t.arrived)).flatMap (·.2) := by
  have h_reach : t.reach ch =
      ((ch.entries t.streamId).takeWhile fun x => decide (x.1 ∈ t.arrived)).length := by
    unfold Traffic.reach
    rw [← ZclChunk.map_entries, List.takeWhile_map, List.length_map]
    rfl
  rw [List.prefix_iff_eq_take.mp (List.takeWhile_prefix _), ← h_reach, List.flatMap_def,
    List.map_take, map_entries_bundles, ← List.map_take]
  rfl

theorem due_sublist (t : Traffic) : t.due.Sublist
    (((t.chunks.flatMap (·.entries t.streamId)).filter
      fun x => decide (x.1 ∈ t.arrived)).flatMap (·.2)) := by
  rw [List.filter_flatMap, List.flatMap_assoc]
  refine List.Sublist.flatMap_right _ fun ch _ => ?_
  rw [bundlesTo_reach]
  exact (takeWhile_sublist_filter _ _).flatMap _

/-- It is all when only last carriers are lost. -/
theorem due_eq {t : Traffic} (h : ∀ ch ∈ t.chunks, ∀ x ∈ (ch.entries t.streamId).dropLast,
    x.1 ∈ t.arrived) : t.due =
      ((t.chunks.flatMap (·.entries t.streamId)).filter
        fun x => decide (x.1 ∈ t.arrived)).flatMap (·.2) := by
  rw [List.filter_flatMap, List.flatMap_assoc]
  refine List.flatMap_congr fun ch h_ch => ?_
  rw [bundlesTo_reach, takeWhile_eq_filter fun x h_x => decide_eq_true (h ch h_ch x h_x)]

/-! ## The system -/

structure Tunnel (c : ZclEncCfg) (r : ZclCfg) where
  clo : CloState c
  cli : Zcli r

def Tunnel.start (c : ZclEncCfg) {r : ZclCfg} (rx : ZclRx r) : Tunnel c r :=
  ⟨CloState.start c, Zcli.start rx⟩

inductive Event
  | clo (e : Zclo.Event)
  /-- A round of the loop of `zcli`. -/
  | cli (round : Round)

/-- BP delivers what it has accepted, and payloads that are no carriers. -/
def delivers (log : List Effect) : Delivery → Bool
  | .payload adu _ _ _ => (zclHeaderGet adu).isNone || decide (adu ∈ acceptedCarriers log)
  | _ => true

def step (cfg : ZclCloConfig) (t : Tunnel c r) : Event → Option (Tunnel c r)
  | .clo e => (Zclo.step cfg t.clo e).map fun clo => { t with clo := clo }
  | .cli round =>
    if delivers t.clo.log round.delivery then
      (zcliRound t.cli round).map fun cli => { t with cli := cli }
    else none

/-- The receiver has run on what BP had accepted, and on what is no carrier. -/
def Heard (rx : ZclRx r) (log : List Effect) (z : Zcli r) : Prop :=
  ∃ es, z.rx = rx.run es ∧ ∀ octets nowMs, .carrier octets nowMs ∈ es →
    zclHeaderGet octets = none ∨ octets ∈ acceptedCarriers log

theorem acceptedCarriers_mono {log log' : List Effect} (h : log <+: log') :
    ∀ x ∈ acceptedCarriers log, x ∈ acceptedCarriers log' := by
  obtain ⟨es, rfl⟩ := h
  unfold acceptedCarriers
  rw [sendsIn_append, List.filter_append, List.map_append]
  exact fun _ h_x => List.mem_append_left _ h_x

/-- A round of the loop of `zcli` is an event of the receiver, or none. -/
theorem Heard.round {rx : ZclRx r} {log : List Effect} {z z' : Zcli r} (h : Heard rx log z)
    {round : Round} (h_delivers : delivers log round.delivery = true)
    (h_round : zcliRound z round = some z') : Heard rx log z' := by
  obtain ⟨es, h_rx, h_es⟩ := h
  have h_next : ∀ e : RxEvent, z'.rx = z.rx.after e → (∀ octets nowMs, e = .carrier octets nowMs →
      zclHeaderGet octets = none ∨ octets ∈ acceptedCarriers log) → Heard rx log z' := by
    intro e h_after h_e
    refine ⟨es ++ [e], ?_, fun octets nowMs h_mem => ?_⟩
    · rw [h_after, h_rx, run_snoc]
    · rcases List.mem_append.mp h_mem with h_mem | h_mem
      · exact h_es octets nowMs h_mem
      · exact h_e octets nowMs (List.mem_singleton.mp h_mem).symm
  rcases zcliRound_cases h_round with ⟨-, rfl⟩ |
    ⟨adu, begun, mem, whole, h_got, ⟨cap, -, rfl⟩ | ⟨cap, -, -, rfl⟩⟩
  · exact h_next (.tick round.nowMs) rfl fun _ _ h_eq => by cases h_eq
  · exact ⟨es, h_rx, h_es⟩
  · refine h_next (.carrier adu round.nowMs) rfl fun octets nowMs h_eq => ?_
    obtain ⟨rfl, -⟩ := RxEvent.carrier.inj h_eq
    rw [h_got] at h_delivers
    rcases Bool.or_eq_true_iff.mp h_delivers with h_none | h_mem
    · exact Or.inl (Option.isNone_iff_eq_none.mp h_none)
    · exact Or.inr (of_decide_eq_true h_mem)

/-- What holds of the two daemons. -/
structure Ok (rx : ZclRx r) (t : Tunnel c r) : Prop where
  clo : CloOk t.clo
  passing : ∃ chunks lots, Passing t.clo chunks lots
  below : t.clo.enc.enc.chunkId + 1 < 2 ^ 64
  successful : Successful t.clo
  heard : Heard rx t.clo.log t.cli

theorem ok_start (rx : ZclRx r) : Ok rx (Tunnel.start c rx) where
  clo := cloOk_start
  passing := ⟨[], [], passing_start⟩
  below := by
    show 0 + 1 < 2 ^ 64
    decide
  successful := successful_start
  heard := ⟨[], rfl, fun _ _ h => absurd h List.not_mem_nil⟩

theorem Ok.step (h_z : Faithful c.z) {rx : ZclRx r} {t t' : Tunnel c r} (h : Ok rx t)
    (h_numbers : Numbers t.clo) {e : Event} (h_step : step cfg t e = some t') : Ok rx t' := by
  cases e with
  | clo e =>
    obtain ⟨clo, h_e, rfl⟩ := Option.map_eq_some_iff.mp h_step
    obtain ⟨chunks, lots, h_passing⟩ := h.passing
    have h_one := step_stepped h.clo h_e
    obtain ⟨es, h_rx, h_es⟩ := h.heard
    refine ⟨step_cloOk h.clo h_e, h_one.passing h_z h_passing h_numbers, ?_,
      h_one.successful h.successful, es, h_rx, fun octets nowMs h_mem => ?_⟩
    · have h_le := h_one.chunkId_le
      have h_chunk := h_numbers.1
      show clo.enc.enc.chunkId + 1 < 2 ^ 64
      omega
    · exact (h_es octets nowMs h_mem).imp_right (acceptedCarriers_mono h_one.log_prefix octets)
  | cli round =>
    have h_step : (if delivers t.clo.log round.delivery then
        (zcliRound t.cli round).map fun cli => ({ t with cli := cli } : Tunnel c r) else none) =
        some t' := h_step
    by_cases h_delivers : delivers t.clo.log round.delivery = true
    · rw [if_pos h_delivers] at h_step
      obtain ⟨cli, h_round, rfl⟩ := Option.map_eq_some_iff.mp h_step
      exact ⟨h.clo, h.passing, h.below, h.successful, h.heard.round h_delivers h_round⟩
    · rw [if_neg h_delivers] at h_step
      cases h_step

/-- What the two daemons have made of the bundles. -/
structure Carries (t : Tunnel c r) : Prop where
  /-- What `zcli` has handed on was in a carrier that BP has accepted. -/
  inOrder : t.cli.rx.work.emitted.Sublist ((accepted (sendsIn t.clo.log)).map (·.bytes))
  added : (accepted (sendsIn t.clo.log)).Sublist (addedIn t.clo.log)
  /-- And `zclo` reports it as sent, or is about to. -/
  reported : Successful t.clo

/-- The traffic of a run of `zclo`. -/
def traffic (d : CloState c) (chunks : List ZclChunk) (lots : List Lot) : Traffic :=
  ⟨c.streamId, chunks ++ [openChunk d.enc lots], acceptedCarriers d.log⟩

theorem mem_carriers_of_accepted {d : CloState c} {chunks : List ZclChunk} {lots : List Lot}
    (h : Passing d chunks lots) {octets : Octets} (h_mem : octets ∈ acceptedCarriers d.log) :
    ∃ ch ∈ (traffic d chunks lots).chunks, octets ∈ ch.carriers c.streamId := by
  obtain ⟨zcos, h_s⟩ := mem_acceptedCarriers.mp h_mem
  have h_carrier : octets ∈ d.carriers.map (·.1) := by
    unfold CloState.carriers
    rw [List.map_append, List.map_map]
    exact List.mem_append_left _ (List.mem_map_of_mem h_s)
  rw [h.cut_eq] at h_carrier
  exact List.mem_flatMap.mp h_carrier

theorem below_of_passing {d : CloState c} {chunks : List ZclChunk} {lots : List Lot}
    (h : Passing d chunks lots) (h_below : d.enc.enc.chunkId + 1 < 2 ^ 64) :
    ∀ ch ∈ (traffic d chunks lots).chunks, ch.id + 1 < 2 ^ 64 := by
  intro ch h_ch
  rcases List.mem_append.mp h_ch with h_ch | h_ch
  · have h_lt := h.cutting.below h_ch
    omega
  · rw [List.mem_singleton.mp h_ch]
    exact h_below

/-- **The tunnel keeps the order.**  In every interleaving of the threads of `zclo`, the loop of
    `zcli` and BP, whatever BP loses, delays, reorders or repeats, whatever fails and while the
    numbers of the carriers last: the bundles that `zcli` has handed on are among those whose
    carriers BP has accepted, each at most once and in the order in which `zclo` has taken them;
    and these are the bundles that `zclo` reports as sent. -/
theorem tunnel_in_order (h_z : Faithful c.z) (h_dec : Decodes c.z r.z) (h_room : 0 < r.tmpLen)
    {rx : ZclRx r} (h_new : zclRxNew r = some rx) {es : List Event} {t : Tunnel c r}
    (h_meets : Lts.Meets (step cfg) (fun t _ => Numbers t.clo) (Tunnel.start c rx) es)
    (h_run : Lts.run (step cfg) (Tunnel.start c rx) es = some t) : Carries t := by
  have h_ok : Ok rx t := Lts.run_invariant_of_meets
    (fun _ _ _ h_s h_numbers h_e => h_s.step h_z h_numbers h_e) (ok_start rx) h_meets h_run
  obtain ⟨chunks, lots, h_passing⟩ := h_ok.passing
  obtain ⟨es', h_rx, h_es⟩ := h_ok.heard
  refine ⟨?_, h_passing.accepted_sublist, h_ok.successful⟩
  rw [h_rx, ← h_passing.accepted_eq]
  refine List.Sublist.trans ?_ (due_sublist (traffic t.clo chunks lots))
  refine receives_in_order h_dec h_room h_passing.cutting.sent
    (below_of_passing h_passing h_ok.below) c.streamId_lt h_new fun e h_e => ?_
  cases e with
  | tick nowMs => trivial
  | carrier octets nowMs =>
    exact (h_es octets nowMs h_e).imp_right fun h_mem =>
      ⟨h_mem, mem_carriers_of_accepted h_passing h_mem⟩

/-! ## One bundle -/

/-- What the threads of `zclo` do leaves the receiver as it is. -/
theorem run_clo {t : Tunnel c r} {es : List Zclo.Event} {clo : CloState c}
    (h_run : Lts.run (Zclo.step cfg) t.clo es = some clo) :
    Lts.run (step cfg) t (es.map .clo) = some { t with clo := clo } := by
  induction es generalizing t with
  | nil =>
    obtain rfl : t.clo = clo := Option.some.inj h_run
    rfl
  | cons e es ih =>
    obtain ⟨d, h_e, h_es⟩ := Lts.run_cons_eq_some.mp h_run
    exact Lts.run_cons_eq_some.mpr ⟨{ t with clo := d }, by rw [step, h_e]; rfl, ih h_es⟩

theorem meets_clo {t : Tunnel c r} {es : List Zclo.Event}
    (h : Lts.Meets (Zclo.step cfg) (fun d _ => Numbers d) t.clo es) :
    Lts.Meets (step cfg) (fun (t : Tunnel c r) _ => Numbers t.clo) t (es.map .clo) := by
  induction es generalizing t with
  | nil => trivial
  | cons e es ih =>
    refine ⟨h.1, fun t' h_t' => ?_⟩
    obtain ⟨d, h_e, rfl⟩ := Option.map_eq_some_iff.mp h_t'
    exact ih (h.2 d h_e)

def octetClo : List Zclo.Event := octetEvents ++ [.send true, .report]

/-- Its carrier has been accepted, and the success is reported. -/
def octetSent : CloState tagging :=
  ⟨.looping, .settling [] false, false, afterTagged, none, 0, 0, 0, false,
    [.added octetBundle, .sent taggedCarrier [octetBundle] true, .settled octetBundle true]⟩

def octetRead : CloState tagging :=
  ⟨.holding octetBundle, .locking, false, zclEncInit tagging, none, 0, 0, 0, false, []⟩

def octetTaken : CloState tagging :=
  ⟨.looping, .locking, false, withTagged, some [octetBundle], 64, 0, 0, false,
    [.added octetBundle]⟩

def octetCut : CloState tagging :=
  ⟨.looping, .sending taggedCarrier [octetBundle] false, false, afterTagged, none, 0, 0, 0, false,
    [.added octetBundle]⟩

theorem step_octetRead : Zclo.step eagerCfg octetRead (.add true 0) = some octetTaken := by
  have h_grow : growZcos octetRead true = ({ octetRead with zcos := some [], zcoCap := 64 }, true) :=
    rfl
  have h_add : zclEncAdd tagging octetRead.enc octetBundle.bytes = (withTagged, 0) := add_tagged
  show some (addBundle octetRead octetBundle true 0) = _
  unfold addBundle
  rw [h_grow]
  dsimp only
  rw [h_add]
  rfl

theorem step_octetTaken : Zclo.step eagerCfg octetTaken (.look 0) = some octetCut := by
  have h_look : look eagerCfg octetTaken 0 = .cut false := by decide
  have h_cut : zclEncCut tagging octetTaken.enc false = (afterTagged, 1) := cut_tagged
  show some (flushLook eagerCfg octetTaken 0) = _
  unfold flushLook
  rw [h_look]
  dsimp only
  unfold cutAndSend
  rw [h_cut]
  rfl

theorem run_octetClo :
    Lts.run (Zclo.step eagerCfg) (CloState.start tagging) octetClo = some octetSent := by
  have h_read : Lts.run (Zclo.step eagerCfg) (CloState.start tagging)
      [.begin true, .top, .dequeue (.bundle 5 (some [7]) true)] = some octetRead := rfl
  refine Lts.run_append.mpr ⟨octetCut, Lts.run_append.mpr ⟨octetRead, h_read, ?_⟩, rfl⟩
  exact Lts.run_cons_eq_some.mpr
    ⟨_, step_octetRead, Lts.run_cons_eq_some.mpr ⟨_, step_octetTaken, rfl⟩⟩

theorem meets_octetClo : Lts.Meets (Zclo.step eagerCfg) (fun d _ => Numbers d)
    (CloState.start tagging) octetClo := by
  have h_zero : ∀ d : CloState tagging, d.enc.enc.chunkId = 0 → d.enc.enc.seq ≤ 1 → Numbers d := by
    intro d h_chunk h_seq
    unfold Numbers
    omega
  refine .cons (h_zero _ rfl (by decide)) rfl (.cons (h_zero _ rfl (by decide)) rfl
    (.cons (h_zero _ rfl (by decide)) rfl ?_))
  refine .cons (h_zero octetRead rfl (by decide)) step_octetRead ?_
  refine .cons (h_zero octetTaken rfl (by decide)) step_octetTaken ?_
  exact .cons (h_zero _ rfl (by decide)) rfl (.cons (h_zero _ rfl (by decide)) rfl trivial)

theorem zclHeaderGet_length {carrier : Octets} (h : (zclHeaderGet carrier).isSome = true) :
    ¬ (carrier = [] ∨ carrier.length > zclHdrLen + zclMaxCarrier) := by
  rintro (rfl | h_long)
  · cases h
  · unfold zclHeaderGet at h
    rw [if_pos (Or.inr (Or.inl (by omega)))] at h
    cases h

/-- Payloads that are small enough get to the receiver. -/
theorem run_payloads {t : Tunnel c r} {payloads : List (Octets × Nat)}
    (h : ∀ x ∈ payloads, x.1.length ≤ zclHdrLen + zclMaxCarrier ∧
      (zclHeaderGet x.1 = none ∨ x.1 ∈ acceptedCarriers t.clo.log)) :
    ∃ cli, Lts.run (step cfg) t
      (payloads.map fun x => .cli ⟨.payload x.1 true true true, x.2⟩) =
        some { t with cli := cli } := by
  induction payloads generalizing t with
  | nil => exact ⟨t.cli, rfl⟩
  | cons x payloads ih =>
    obtain ⟨⟨h_small, h_from⟩, h_rest⟩ := List.forall_mem_cons.mp h
    have h_delivers : delivers t.clo.log (.payload x.1 true true true) = true := by
      refine Bool.or_eq_true_iff.mpr (h_from.imp (fun h_none => ?_) decide_eq_true)
      rw [h_none]
      rfl
    have h_read : readCarrier t.cli.cap x.1 true true true =
        some (max t.cli.cap x.1.length, x.1) := by
      unfold readCarrier
      rw [if_neg (by decide), if_neg (Nat.not_lt.mpr h_small), if_neg (fun h => by cases h.2),
        if_neg (by decide)]
    have h_round : ∃ cli, zcliRound t.cli ⟨.payload x.1 true true true, x.2⟩ = some cli := by
      unfold zcliRound
      dsimp only
      rw [h_read]
      cases x.1 with
      | nil => exact ⟨_, rfl⟩
      | cons b adu => exact ⟨_, rfl⟩
    obtain ⟨cli, h_round⟩ := h_round
    obtain ⟨cli', h_run⟩ := ih (t := { t with cli := cli }) h_rest
    refine ⟨cli', Lts.run_cons_eq_some.mpr ⟨{ t with cli := cli }, ?_, h_run⟩⟩
    show (if delivers t.clo.log (.payload x.1 true true true) then _ else none) = _
    rw [h_delivers, if_pos rfl, h_round]
    rfl

theorem meets_cli {t : Tunnel c r} (h : Numbers t.clo) (rounds : List Round) :
    Lts.Meets (step cfg) (fun (t : Tunnel c r) _ => Numbers t.clo) t (rounds.map .cli) := by
  induction rounds generalizing t with
  | nil => trivial
  | cons round rounds ih =>
    refine ⟨h, fun t' h_t' => ih ?_⟩
    have h_step : (if delivers t.clo.log round.delivery then
        (zcliRound t.cli round).map fun cli => ({ t with cli := cli } : Tunnel c r) else none) =
        some t' := h_t'
    split at h_step
    · obtain ⟨cli, -, rfl⟩ := Option.map_eq_some_iff.mp h_step
      exact h
    · cases h_step

/-- The rounds in which BP brings these payloads. -/
def payloadRounds (payloads : List (Octets × Nat)) : List Round :=
  payloads.map fun x => ⟨.payload x.1 true true true, x.2⟩

theorem run_octet (rx : ZclRx tagCfg) (payloads : List (Octets × Nat))
    (h : ∀ x ∈ payloads, x.1 = [1, 2] ∨ x.1 = taggedCarrier) :
    ∃ cli, Lts.run (step eagerCfg) (Tunnel.start tagging rx)
      (octetClo.map .clo ++ (payloadRounds payloads).map .cli) = some ⟨octetSent, cli⟩ := by
  have h_small : taggedCarrier.length ≤ zclHdrLen + zclMaxCarrier := by
    have h_some : (zclHeaderGet taggedCarrier).isSome = true := by
      rw [header_taggedCarrier]
      rfl
    exact Nat.not_lt.mp fun h_long => zclHeaderGet_length h_some (Or.inr h_long)
  have h_all : ∀ x ∈ payloads, x.1.length ≤ zclHdrLen + zclMaxCarrier ∧
      (zclHeaderGet x.1 = none ∨ x.1 ∈ acceptedCarriers octetSent.log) := by
    intro x h_x
    rcases h x h_x with h_eq | h_eq
    · rw [h_eq]
      exact ⟨by decide, Or.inl rfl⟩
    · rw [h_eq]
      exact ⟨h_small, Or.inr List.mem_cons_self⟩
  obtain ⟨cli, h_run⟩ := run_payloads (t := ⟨octetSent, Zcli.start rx⟩) h_all
  unfold payloadRounds
  rw [List.map_map]
  exact ⟨cli, Lts.run_append.mpr ⟨_, run_clo run_octetClo, h_run⟩⟩

theorem meets_octetRounds (rx : ZclRx tagCfg) (rounds : List Round) :
    Lts.Meets (step eagerCfg) (fun (t : Tunnel tagging tagCfg) _ => Numbers t.clo)
      (Tunnel.start tagging rx) (octetClo.map .clo ++ rounds.map .cli) := by
  refine .append (meets_clo meets_octetClo) fun t h_run => meets_cli ?_ rounds
  obtain rfl := Option.some.inj ((run_clo run_octetClo).symm.trans h_run)
  exact ⟨(by decide : 0 + 2 < 2 ^ 64), (by decide : 1 + 1 < 2 ^ 32)⟩

/-- The carrier comes twice. -/
theorem tunnel_in_order_octet : ∃ rx t, zclRxNew tagCfg = some rx ∧
    Lts.run (step eagerCfg) (Tunnel.start tagging rx) (octetClo.map .clo ++
      (payloadRounds [([1, 2], 3), (taggedCarrier, 5), (taggedCarrier, 6)]).map .cli) = some t ∧
        Carries t := by
  obtain ⟨rx, h_new⟩ := zclRxNew_tagged
  obtain ⟨cli, h_run⟩ := run_octet rx
    [([1, 2], 3), (taggedCarrier, 5), (taggedCarrier, 6)] (by simp)
  exact ⟨rx, _, h_new, h_run, tunnel_in_order faithful_tagged decodes_tagged (Nat.succ_pos _) h_new
    (meets_octetRounds rx _) h_run⟩

/-! ## Nothing lost -/

def roundsIn (es : List Event) : List Round :=
  es.filterMap fun e =>
    match e with
    | .clo _ => none
    | .cli round => some round

/-- The carriers among the payloads. -/
def Round.carrier? (round : Round) : Option Octets :=
  match round.delivery with
  | .payload adu _ _ _ => if (zclHeaderGet adu).isSome then some adu else none
  | _ => none

/-- What a round is to the receiver. -/
def Round.event? (round : Round) : Option RxEvent :=
  match round.delivery with
  | .payload adu _ _ _ =>
    if adu = [] ∨ adu.length > zclHdrLen + zclMaxCarrier then none
    else some (.carrier adu round.nowMs)
  | .nothing => some (.tick round.nowMs)
  | _ => none

/-- There is memory for a payload that is larger than those before. -/
def Round.HasMemory (round : Round) : Prop :=
  ∀ adu begun mem whole, round.delivery = .payload adu begun mem whole → mem = true

theorem zcliRound_event {z z' : Zcli r} {round : Round} (h_mem : Round.HasMemory round)
    (h_round : zcliRound z round = some z') :
    z'.rx = z.rx.run (Round.event? round).toList := by
  unfold Round.event?
  rcases zcliRound_cases h_round with ⟨h_got, rfl⟩ |
    ⟨adu, begun, mem, whole, h_got, ⟨cap, h_read, rfl⟩ | ⟨cap, h_read, h_some, rfl⟩⟩
  · rw [h_got]
    rfl
  · rw [h_got]
    dsimp only
    obtain rfl := h_mem adu begun mem whole h_got
    have h_none : adu = [] ∨ adu.length > zclHdrLen + zclMaxCarrier := by
      unfold readCarrier at h_read
      split at h_read
      · cases h_read
      split at h_read
      · rename_i h_long
        exact Or.inr h_long
      split at h_read
      · rename_i h_no
        cases h_no.2
      split at h_read
      · cases h_read
      · exact Or.inl (congrArg Prod.snd (Option.some.inj h_read))
    rw [if_pos h_none]
    rfl
  · rw [h_got]
    dsimp only
    have h_short : ¬ (adu = [] ∨ adu.length > zclHdrLen + zclMaxCarrier) := by
      rintro (h_nil | h_long)
      · exact h_some h_nil
      · unfold readCarrier at h_read
        split at h_read
        · cases h_read
        exact h_some (congrArg Prod.snd (Option.some.inj h_read)).symm
    rw [if_neg h_short]
    rfl

/-- The events of the receiver in a run. -/
def eventsIn (es : List Event) : List RxEvent := (roundsIn es).filterMap Round.event?

theorem event_nowMs {round : Round} {e : RxEvent} (h : Round.event? round = some e) :
    e.nowMs = round.nowMs := by
  unfold Round.event? at h
  cases h_got : round.delivery with
  | payload adu begun mem whole =>
    rw [h_got] at h
    dsimp only at h
    split at h
    · cases h
    · rw [← Option.some.inj h]
      rfl
  | nothing =>
    rw [h_got] at h
    rw [← Option.some.inj h]
    rfl
  | failed =>
    rw [h_got] at h
    cases h
  | stopped =>
    rw [h_got] at h
    cases h

/-- The carriers that come are those that the receiver hears. -/
theorem octetsIn_eventsIn (rounds : List Round) :
    (octetsIn (rounds.filterMap Round.event?)).filter (fun octets => (zclHeaderGet octets).isSome) =
      rounds.filterMap Round.carrier? := by
  unfold octetsIn
  rw [List.filterMap_filterMap, List.filter_filterMap]
  refine List.filterMap_congr fun round _ => ?_
  unfold Round.event? Round.carrier?
  cases round.delivery with
  | payload adu begun mem whole =>
    dsimp only
    by_cases h_get : (zclHeaderGet adu).isSome = true
    · rw [if_neg (zclHeaderGet_length h_get), if_pos h_get]
      simp [RxEvent.octets?, Option.filter, h_get]
    · rw [if_neg h_get]
      split
      · rfl
      · simp [RxEvent.octets?, Option.filter, h_get]
  | failed => rfl
  | stopped => rfl
  | nothing => rfl

/-- The carriers are cut in the order of their numbers. -/
theorem pairwise_carriers {zc : ZstdC} {t : Traffic} (h_fit : Fitting r zc t) :
    (t.chunks.flatMap (·.carriers t.streamId)).Pairwise
      fun octets octets' => precedes octets' octets = false := by
  refine List.pairwise_flatMap.mpr ⟨fun ch h_ch => ?_, ?_⟩
  · refine List.pairwise_iff_getElem.mpr fun k k' h_k h_k' h_lt => ?_
    unfold ZclChunk.carriers at h_k h_k' ⊢
    rw [List.length_mapIdx] at h_k h_k'
    rw [List.getElem_mapIdx, List.getElem_mapIdx, precedes_carrier h_fit h_ch h_ch
      (List.getElem?_eq_getElem h_k') (List.getElem?_eq_getElem h_k), decide_eq_false_iff_not]
    omega
  · refine h_fit.sent.increasing.imp_of_mem fun {ch ch'} h_ch h_ch' h_lt octets h_o octets' h_o' => ?_
    obtain ⟨k, lot, h_lot, rfl⟩ := ZclChunk.mem_carriers.mp h_o
    obtain ⟨k', lot', h_lot', rfl⟩ := ZclChunk.mem_carriers.mp h_o'
    rw [precedes_carrier h_fit h_ch' h_ch h_lot' h_lot, decide_eq_false_iff_not]
    omega

/-- What is no carrier is out of the order. -/
theorem inLine_of_filter {es : List RxEvent} (h : ((octetsIn es).filter
    fun octets => (zclHeaderGet octets).isSome).Pairwise
      fun octets octets' => precedes octets' octets = false) : InLine es := by
  unfold InLine
  refine (List.pairwise_filter.mp h).imp fun {octets octets'} h_both => ?_
  cases h_get : zclHeaderGet octets with
  | none =>
    unfold precedes
    rw [h_get]
    cases zclHeaderGet octets' <;> rfl
  | some hdr =>
    cases h_get' : zclHeaderGet octets' with
    | none =>
      unfold precedes
      rw [h_get']
    | some hdr' => exact h_both (by rw [h_get]; rfl) (by rw [h_get']; rfl)

/-- What the receiver has heard in a run. -/
theorem run_eventsIn {rx : ZclRx r} {es : List Event} {t : Tunnel c r}
    (h_run : Lts.run (step cfg) (Tunnel.start c rx) es = some t)
    (h_mem : ∀ round ∈ roundsIn es, Round.HasMemory round) :
    t.cli.rx = rx.run (eventsIn es) := by
  have h_step : ∀ (es : List Event) (t : Tunnel c r) (e : Event) (t' : Tunnel c r),
      ((∀ round ∈ roundsIn es, Round.HasMemory round) → t.cli.rx = rx.run (eventsIn es)) →
      step cfg t e = some t' → (∀ round ∈ roundsIn (es ++ [e]), Round.HasMemory round) →
        t'.cli.rx = rx.run (eventsIn (es ++ [e])) := ?_
  · exact Lts.run_invariant_history h_step (fun _ => rfl) h_run h_mem
  intro es t e t' h h_step h_mem
  unfold eventsIn roundsIn at h h_mem ⊢
  rw [List.filterMap_append] at h_mem ⊢
  have h := h fun round h_round => h_mem round (List.mem_append_left _ h_round)
  cases e with
  | clo e =>
    obtain ⟨clo, -, rfl⟩ := Option.map_eq_some_iff.mp h_step
    exact h.trans (congrArg _ (congrArg _ (List.append_nil _).symm))
  | cli round =>
    have h_step : (if delivers t.clo.log round.delivery then
        (zcliRound t.cli round).map fun cli => ({ t with cli := cli } : Tunnel c r) else none) =
        some t' := h_step
    by_cases h_delivers : delivers t.clo.log round.delivery = true
    · rw [if_pos h_delivers] at h_step
      obtain ⟨cli, h_round, rfl⟩ := Option.map_eq_some_iff.mp h_step
      have h_this := zcliRound_event (h_mem round (List.mem_append_right _ List.mem_cons_self))
        h_round
      rw [h] at h_this
      show cli.rx = _
      rw [h_this, List.filterMap_append]
      unfold ZclRx.run
      rw [List.foldl_append]
      congr 1
    · rw [if_neg h_delivers] at h_step
      cases h_step

/-- **Nothing is lost in the tunnel.**  When BP delivers what it accepts in order, once and all of
    it, with other payloads between, and nothing of the receiver is in the way of the chunks: then
    in a round without a payload that comes late enough, `zcli` has handed on all the bundles
    that `zclo` reports as sent, in the order in which it has taken them. -/
theorem tunnel_complete (h_z : Faithful c.z) (h_dec : Decodes c.z r.z) (h_room : 0 < r.tmpLen)
    (h_guard : GuardSuffices r.limits) {rx : ZclRx r} (h_new : zclRxNew r = some rx)
    {es : List Event} {late : Nat} {t : Tunnel c r}
    (h_meets : Lts.Meets (step cfg) (fun t _ => Numbers t.clo) (Tunnel.start c rx)
      (es ++ [.cli ⟨.nothing, late⟩]))
    (h_run : Lts.run (step cfg) (Tunnel.start c rx) (es ++ [.cli ⟨.nothing, late⟩]) = some t)
    (h_fits : ∀ chunks lots, Passing t.clo chunks lots →
      ∀ ch ∈ (traffic t.clo chunks lots).chunks, Fits r ch)
    (h_mem : ∀ round ∈ roundsIn es, Round.HasMemory round)
    (h_all : (roundsIn es).filterMap Round.carrier? = acceptedCarriers t.clo.log)
    (h_late : ∀ round ∈ roundsIn es, round.nowMs + r.limits.reorderMs ≤ late) :
    t.cli.rx.work.emitted = (accepted (sendsIn t.clo.log)).map (·.bytes) := by
  have h_ok : Ok rx t := Lts.run_invariant_of_meets
    (fun _ _ _ h_s h_numbers h_e => h_s.step h_z h_numbers h_e) (ok_start rx) h_meets h_run
  obtain ⟨chunks, lots, h_passing⟩ := h_ok.passing
  have h_rounds : roundsIn (es ++ [.cli ⟨.nothing, late⟩]) = roundsIn es ++ [⟨.nothing, late⟩] := by
    unfold roundsIn
    rw [List.filterMap_append]
    rfl
  have h_events : eventsIn (es ++ [.cli ⟨.nothing, late⟩]) = eventsIn es ++ [.tick late] := by
    unfold eventsIn
    rw [h_rounds, List.filterMap_append]
    rfl
  have h_rx := run_eventsIn h_run fun round h_round => by
    rw [h_rounds] at h_round
    rcases List.mem_append.mp h_round with h_round | h_round
    · exact h_mem round h_round
    · rw [List.mem_singleton.mp h_round]
      exact fun _ _ _ _ h_eq => by cases h_eq
  rw [h_events] at h_rx
  -- What the receiver has heard of carriers is what has been accepted.
  have h_heard : (octetsIn (eventsIn es)).filter (fun octets => (zclHeaderGet octets).isSome) =
      acceptedCarriers t.clo.log := (octetsIn_eventsIn (roundsIn es)).trans h_all
  have h_fit : Fitting r c.z ⟨c.streamId, chunks ++ [openChunk t.clo.enc lots],
      octetsIn (eventsIn es)⟩ :=
    ⟨h_dec, h_room, h_guard, c.streamId_lt, h_passing.cutting.sent,
      below_of_passing h_passing h_ok.below, h_fits chunks lots h_passing⟩
  have h_of : ∀ e ∈ eventsIn es, e.Of ⟨c.streamId, chunks ++ [openChunk t.clo.enc lots],
      octetsIn (eventsIn es)⟩ := by
    intro e h_e
    cases e with
    | tick nowMs => trivial
    | carrier octets nowMs =>
      have h_in : octets ∈ octetsIn (eventsIn es) := mem_octetsIn.mpr ⟨nowMs, h_e⟩
      cases h_get : zclHeaderGet octets with
      | none => exact Or.inl h_get
      | some hdr =>
        have h_mem : octets ∈ acceptedCarriers t.clo.log := by
          rw [← h_heard]
          exact List.mem_filter.mpr ⟨h_in, by rw [h_get]; rfl⟩
        exact Or.inr ⟨h_in, mem_carriers_of_accepted h_passing h_mem⟩
  have h_line : InLine (eventsIn es) := by
    refine inLine_of_filter ?_
    rw [h_heard]
    exact (pairwise_carriers h_fit).sublist h_passing.accepted_sublist_cut
  have h_times : ∀ octets atMs, .carrier octets atMs ∈ eventsIn es →
      atMs + r.limits.reorderMs ≤ late := by
    intro octets atMs h_e
    obtain ⟨round, h_round, h_event⟩ := List.mem_filterMap.mp h_e
    have h_now : atMs = round.nowMs := event_nowMs h_event
    rw [h_now]
    exact h_late round h_round
  have h_in : ∀ octets ∈ acceptedCarriers t.clo.log, octets ∈ octetsIn (eventsIn es) := by
    rw [← h_heard]
    exact fun octets h_octets => (List.mem_filter.mp h_octets).1
  have h_due := due_eq (t := ⟨c.streamId, chunks ++ [openChunk t.clo.enc lots],
    octetsIn (eventsIn es)⟩) fun ch h_ch x h_x => h_in _ (h_passing.sentBut ch h_ch x h_x)
  rw [h_rx, receives_all_in_order h_fit h_new h_of rfl h_line h_times, ← h_passing.accepted_eq,
    h_due]
  refine congrArg _ (List.filter_congr fun x h_x => ?_)
  rw [decide_eq_decide]
  refine ⟨fun h_mem => ?_, h_in x.1⟩
  obtain ⟨ch, h_ch, h_entry⟩ := List.mem_flatMap.mp h_x
  have h_carrier : x.1 ∈ ch.carriers c.streamId := by
    rw [← ZclChunk.map_entries]
    exact List.mem_map_of_mem h_entry
  obtain ⟨k, lot, h_lot, h_eq⟩ := ZclChunk.mem_carriers.mp h_carrier
  have h_get := ZclChunk.zclHeaderGet_carrier (h_passing.cutting.sent.sound ch h_ch)
    c.streamId_lt h_lot
  rw [← h_heard]
  refine List.mem_filter.mpr ⟨h_mem, ?_⟩
  rw [h_eq, h_get]
  rfl

/-- All that is in the chunks is the bundle. -/
theorem fits_octet {chunks : List ZclChunk} {lots : List Lot} (h : Passing octetSent chunks lots) :
    ∀ ch ∈ chunks ++ [openChunk octetSent.enc lots], Fits tagCfg ch := by
  intro ch h_ch
  have h_entries : (chunks ++ [openChunk octetSent.enc lots]).flatMap (·.entries 9) =
      [(taggedCarrier, [[7]])] := h.entries.symm
  have h_bundles : ch.bundles = (ch.entries 9).flatMap (·.2) := by
    unfold ZclChunk.bundles
    rw [List.flatMap_def, List.flatMap_def, map_entries_bundles]
  have h_sub : ch.bundles.Sublist [[7]] := by
    have h_one := (List.singleton_sublist.mpr h_ch).flatMap fun ch => (ch.entries 9).flatMap (·.2)
    rw [List.flatMap_singleton, ← h_bundles, ← List.flatMap_assoc, h_entries] at h_one
    exact h_one
  unfold Fits
  rcases List.sublist_singleton.mp h_sub with h_none | h_octet
  · rw [h_none]
    exact ⟨fun _ => rfl, by decide, by decide⟩
  · rw [h_octet]
    exact ⟨fun _ => rfl, by decide, by decide⟩

theorem roundsIn_map (es : List Zclo.Event) (rounds : List Round) :
    roundsIn (es.map .clo ++ rounds.map .cli) = rounds := by
  unfold roundsIn
  rw [List.filterMap_append, List.filterMap_map, List.filterMap_map]
  have h_clo : es.filterMap ((fun e : Event => match e with
      | .clo _ => none
      | .cli round => some round) ∘ .clo) = [] := List.filterMap_eq_nil_iff.mpr fun _ _ => rfl
  rw [h_clo, List.nil_append]
  exact List.filterMap_some

theorem tunnel_complete_octet : ∃ rx t, zclRxNew tagCfg = some rx ∧
    Lts.run (step eagerCfg) (Tunnel.start tagging rx) ((octetClo.map .clo ++
      (payloadRounds [([1, 2], 3), (taggedCarrier, 5)]).map .cli) ++
        [.cli ⟨.nothing, 20000⟩]) = some t ∧ t.cli.rx.work.emitted = [[7]] := by
  obtain ⟨rx, h_new⟩ := zclRxNew_tagged
  obtain ⟨cli, h_run⟩ := run_octet rx [([1, 2], 3), (taggedCarrier, 5)] (by simp)
  have h_last := Lts.run_append.mpr ⟨_, h_run, (rfl : Lts.run (step eagerCfg)
    (⟨octetSent, cli⟩ : Tunnel tagging tagCfg) [.cli ⟨.nothing, 20000⟩] = some _)⟩
  have h_meets := meets_octetRounds rx
    (payloadRounds [([1, 2], 3), (taggedCarrier, 5)] ++ [⟨.nothing, 20000⟩])
  rw [List.map_append, ← List.append_assoc] at h_meets
  have h_rounds := roundsIn_map octetClo (payloadRounds [([1, 2], 3), (taggedCarrier, 5)])
  have h_carrier : Round.carrier? ⟨.payload taggedCarrier true true true, 5⟩ =
      some taggedCarrier := by
    show (if (zclHeaderGet taggedCarrier).isSome then some taggedCarrier else none) = _
    rw [header_taggedCarrier]
    rfl
  refine ⟨rx, _, h_new, h_last, tunnel_complete faithful_tagged decodes_tagged (Nat.succ_pos _)
    guardSuffices_defaults h_new h_meets h_last (fun _ _ h_passing => fits_octet h_passing)
    ?_ ?_ ?_⟩
  · rw [h_rounds]
    refine List.forall_mem_cons.mpr ⟨?_, List.forall_mem_singleton.mpr ?_⟩
    · exact fun adu begun mem whole h_eq => (Delivery.payload.inj h_eq).2.2.1.symm
    · exact fun adu begun mem whole h_eq => (Delivery.payload.inj h_eq).2.2.1.symm
  · rw [h_rounds]
    have h_other : Round.carrier? ⟨.payload [1, 2] true true true, 3⟩ = none := rfl
    unfold payloadRounds
    rw [List.map_cons, List.map_singleton, List.filterMap_cons_none h_other,
      List.filterMap_cons_some h_carrier]
    rfl
  · rw [h_rounds]
    exact List.forall_mem_cons.mpr ⟨by decide, List.forall_mem_singleton.mpr (by decide)⟩

end IonContrib.ZclTunnel
