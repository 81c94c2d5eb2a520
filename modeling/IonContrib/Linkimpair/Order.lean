/-
  IonContrib.Linkimpair.Order

  The verdicts of linkimpair: each packet gets one, none that is held is let go
  before its deadline, and the order.

  What has been accepted and what is held, in this order, is one line
  (`State.line`): releasing moves the place between the two, holding adds at the
  end.  Only a packet that is passed at once steps into the line in front of
  those that are held, and then it is in front of them for good.
-/
import IonContrib.Linkimpair.Queue
import Mathlib.Data.List.Nodup
import Mathlib.Data.List.Perm.Basic
import Mathlib.Data.List.TakeWhile

namespace IonContrib.Linkimpair

open Lts

/-- The packets that have been accepted, in the order of their verdicts. -/
def State.accepted (s : State) : List UInt32 := s.verdicts.filterMap Verdict.accepted

/-- Those accepted and behind them those held. -/
def State.line (s : State) : List UInt32 := s.accepted ++ s.held.map Pending.id

/-- Those that have been queued, in the order in which they were. -/
def State.arrivals (s : State) : List UInt32 := s.queued.map Packet.id

/-- Those that have had their verdict, and those that are waiting for it. -/
def State.settled (s : State) : List UInt32 := s.verdicts.map Verdict.id ++ s.held.map Pending.id

/-- A packet may be passed at once only while none is held. -/
def InTurn (cfg : Config) (s : State) : Event → Prop
  | .message (some p) =>
    s.held ≠ [] → p.lost cfg ∨ (0 < packetDelay cfg p.jitterDraw ∧ p.mem = true)
  | _ => True

/-! ## What a step does -/

theorem releaseFrom_eq (now : Clock) (held : List Pending) (verdicts : List Verdict) :
    releaseFrom now held verdicts = (held.dropWhile fun pkt => isDue pkt.due now,
      verdicts ++ (held.takeWhile fun pkt => isDue pkt.due now).map (.release · now)) := by
  induction held generalizing verdicts with
  | nil => simp [releaseFrom]
  | cons pkt rest ih =>
    rw [releaseFrom]
    by_cases h_due : isDue pkt.due now = true
    · rw [if_pos h_due, ih]
      simp [h_due]
    · rw [if_neg h_due]
      simp [h_due]

theorem flushFrom_eq (held : List Pending) (verdicts : List Verdict) :
    flushFrom held verdicts = verdicts ++ held.map .flush := by
  induction held generalizing verdicts with
  | nil => simp [flushFrom]
  | cons pkt rest ih => simp [flushFrom, ih]

/-- Every step but passing a packet at once. -/
inductive Steps (cfg : Config) (s : State) : Event → State → Prop
  | noHeader : Steps cfg s (.message none) s
  | drop {p : Packet} (h_lost : p.lost cfg) :
      Steps cfg s (.message (some p))
        { s with queued := s.queued ++ [p], verdicts := s.verdicts ++ [.drop p.id] }
  | pass {p : Packet} (h_lost : ¬ p.lost cfg)
      (h_pass : packetDelay cfg p.jitterDraw ≤ 0 ∨ p.mem = false) :
      Steps cfg s (.message (some p))
        { s with queued := s.queued ++ [p], verdicts := s.verdicts ++ [.pass p.id] }
  | hold {p : Packet} (h_lost : ¬ p.lost cfg) (h_ms : 0 < packetDelay cfg p.jitterDraw)
      (h_mem : p.mem = true) :
      Steps cfg s (.message (some p))
        { s with
          queued := s.queued ++ [p]
          held := s.held ++ [⟨p.id, addMillis p.now (packetDelay cfg p.jitterDraw)⟩] }
  | due {now : Clock} {gone left : List Pending} (h_split : s.held = gone ++ left)
      (h_due : ∀ pkt ∈ gone, isDue pkt.due now = true) :
      Steps cfg s (.due now)
        { s with held := left, verdicts := s.verdicts ++ gone.map (.release · now) }
  | stop :
      Steps cfg s .stop
        { s with held := [], verdicts := s.verdicts ++ s.held.map .flush, stopped := true }

theorem step_cases {cfg : Config} {s s' : State} {e : Event} (h : step cfg s e = some s') :
    s.stopped = false ∧ Steps cfg s e s' := by
  unfold step at h
  split at h
  · cases h
  rename_i h_over
  refine ⟨by simpa using h_over, ?_⟩
  cases e with
  | message hdr =>
    obtain rfl := Option.some.inj h
    cases hdr with
    | none => exact .noHeader
    | some p =>
      dsimp only [queueCb]
      split
      · rename_i h_lost
        exact .drop h_lost
      rename_i h_lost
      split
      · rename_i h_ms
        exact .pass h_lost (.inl h_ms)
      rename_i h_ms
      split
      · rename_i h_mem
        exact .pass h_lost (.inr (by simpa using h_mem))
      · rename_i h_mem
        exact .hold h_lost (by omega) (by simpa using h_mem)
  | due now =>
    obtain rfl := Option.some.inj h
    rw [releaseDue, releaseFrom_eq]
    exact .due List.takeWhile_append_dropWhile.symm fun pkt h_pkt =>
      List.mem_takeWhile_imp (p := fun pkt : Pending => isDue pkt.due now) h_pkt
  | stop =>
    obtain rfl := Option.some.inj h
    rw [releaseAll, flushFrom_eq]
    exact .stop

/-! ## The line -/

@[simp] theorem accepted_release (gone : List Pending) (now : Clock) :
    (gone.map (Verdict.release · now)).filterMap Verdict.accepted = gone.map Pending.id := by
  rw [List.filterMap_map]
  exact congrFun (List.filterMap_eq_map (f := Pending.id)) gone

@[simp] theorem accepted_flush (gone : List Pending) :
    (gone.map Verdict.flush).filterMap Verdict.accepted = gone.map Pending.id := by
  rw [List.filterMap_map]
  exact congrFun (List.filterMap_eq_map (f := Pending.id)) gone

/-- A step leaves the line as it is, adds a packet that has been queued at its end, or puts one
    between those accepted and those held. -/
theorem line_step {cfg : Config} {s s' : State} {e : Event} (h : Steps cfg s e s') :
    (s'.line = s.line ∧ s.arrivals <+: s'.arrivals) ∨
      ∃ p, s'.arrivals = s.arrivals ++ [p] ∧
        (s'.line = s.line ++ [p] ∨
          s'.line = s.accepted ++ p :: s.held.map Pending.id ∧
            ¬ (InTurn cfg s e ∧ s.held ≠ [])) := by
  unfold State.line State.accepted State.arrivals
  cases h with
  | noHeader => exact .inl ⟨rfl, List.prefix_rfl⟩
  | @drop p h_lost => exact .inl ⟨by simp [Verdict.accepted], by simp⟩
  | @pass p h_lost h_pass =>
    refine .inr ⟨p.id, by simp, .inr ⟨by simp [Verdict.accepted], ?_⟩⟩
    rintro ⟨h_turn, h_held⟩
    rcases h_turn h_held with h | ⟨h_ms, h_mem⟩
    · exact h_lost h
    · rcases h_pass with h_ms' | h_mem'
      · omega
      · rw [h_mem] at h_mem'
        cases h_mem'
  | @hold p h_lost h_ms h_mem => exact .inr ⟨p.id, by simp, .inl (by simp)⟩
  | @due now gone left h_split h_due =>
    refine .inl ⟨?_, List.prefix_rfl⟩
    rw [h_split, List.filterMap_append, accepted_release]
    simp
  | stop =>
    refine .inl ⟨?_, List.prefix_rfl⟩
    rw [List.filterMap_append, accepted_flush]
    simp

/-! ## Order -/

/-- The line is in the order of arrival. -/
theorem line_sublist {cfg : Config} {s s' : State} {e : Event} (h_line : s.line.Sublist s.arrivals)
    (h_turn : InTurn cfg s e) (h : step cfg s e = some s') : s'.line.Sublist s'.arrivals := by
  obtain ⟨h_over, h_step⟩ := step_cases h
  rcases line_step h_step with ⟨h_same, h_more⟩ | ⟨p, h_arrivals, h_end | ⟨h_between, h_not⟩⟩
  · rw [h_same]
    exact h_line.trans h_more.sublist
  · rw [h_end, h_arrivals]
    exact h_line.append (List.Sublist.refl [p])
  · -- None is held, so the place between is the end.
    have h_held : s.held = [] := by
      by_contra h_held
      exact h_not ⟨h_turn, h_held⟩
    rw [h_between, h_arrivals]
    rw [State.line, h_held, List.map_nil, List.append_nil] at h_line
    rw [h_held, List.map_nil]
    exact h_line.append (List.Sublist.refl [p])

/-! ## One verdict each, and none too early -/

/-- What holds at every moment, in order or not. -/
structure Kept (cfg : Config) (s : State) : Prop where
  /-- Each packet has its verdict or is waiting for it, and not both. -/
  once : s.settled.Perm s.arrivals
  /-- In the end none is waiting. -/
  done : s.stopped = true → s.held = []
  /-- Those that are held are so for a delay. -/
  held : ∀ pkt ∈ s.held, ∃ p ∈ s.queued, pkt.id = p.id ∧ 0 < packetDelay cfg p.jitterDraw ∧
    pkt.due = addMillis p.now (packetDelay cfg p.jitterDraw)
  /-- Those that have been released had been held, until their deadline at least. -/
  released : ∀ pkt now, .release pkt now ∈ s.verdicts → ∃ p ∈ s.queued, pkt.id = p.id ∧
    p.now.1.nanos + packetDelay cfg p.jitterDraw * 1000000 ≤ now.1.nanos
  /-- Before the end none is let go otherwise. -/
  flushed : ∀ pkt, .flush pkt ∈ s.verdicts → s.stopped = true

theorem kept_initial (cfg : Config) : Kept cfg .initial where
  once := List.Perm.refl _
  done := by simp [State.initial]
  held := by simp [State.initial]
  released := by simp [State.initial]
  flushed := by simp [State.initial]

theorem perm_between {α : Type*} {front back all : List α} (h : (front ++ back).Perm all) (a : α) :
    (front ++ [a] ++ back).Perm (all ++ [a]) := by
  rw [List.append_assoc, List.singleton_append]
  exact List.perm_middle.trans ((h.cons a).trans (List.perm_append_singleton a all).symm)

theorem settled_perm {cfg : Config} {s s' : State} {e : Event} (h : s.settled.Perm s.arrivals)
    (h_step : Steps cfg s e s') : s'.settled.Perm s'.arrivals := by
  unfold State.settled State.arrivals at h ⊢
  cases h_step with
  | noHeader => exact h
  | @drop p => simpa [Verdict.id] using perm_between h p.id
  | @pass p => simpa [Verdict.id] using perm_between h p.id
  | @hold p => simpa using h.append_right [p.id]
  | @due now gone left h_split =>
    rw [h_split] at h
    simpa [Verdict.id, Function.comp_def] using h
  | stop => simpa [Verdict.id, Function.comp_def] using h

/-- A packet that is not held gets its verdict at once. -/
theorem Kept.verdict {cfg : Config} {s : State} (h : Kept cfg s) {p : Packet} {v : Verdict}
    (h_over : s.stopped = false)
    (h_once : (s.verdicts ++ [v]).map Verdict.id ++ s.held.map Pending.id |>.Perm
      ((s.queued ++ [p]).map Packet.id))
    (h_release : ∀ pkt now, v ≠ .release pkt now) (h_flush : ∀ pkt, v ≠ .flush pkt) :
    Kept cfg { s with queued := s.queued ++ [p], verdicts := s.verdicts ++ [v] } where
  once := h_once
  done h_done := by
    rw [h_over] at h_done
    cases h_done
  held pkt h_pkt := by
    obtain ⟨q, h_q, h_rest⟩ := h.held pkt h_pkt
    exact ⟨q, List.mem_append_left _ h_q, h_rest⟩
  released pkt now h_mem := by
    rcases List.mem_append.mp h_mem with h_mem | h_mem
    · obtain ⟨q, h_q, h_rest⟩ := h.released pkt now h_mem
      exact ⟨q, List.mem_append_left _ h_q, h_rest⟩
    · exact absurd (List.mem_singleton.mp h_mem).symm (h_release pkt now)
  flushed pkt h_mem := by
    rcases List.mem_append.mp h_mem with h_mem | h_mem
    · exact h.flushed pkt h_mem
    · exact absurd (List.mem_singleton.mp h_mem).symm (h_flush pkt)

/-- What holds at every moment is kept by every step. -/
theorem kept_step {cfg : Config} {s s' : State} {e : Event} (h : Kept cfg s)
    (h_step : step cfg s e = some s') : Kept cfg s' := by
  obtain ⟨h_over, h_step⟩ := step_cases h_step
  have h_once := settled_perm h.once h_step
  have ⟨_, _, h_held, h_released, h_flushed⟩ := h
  cases h_step with
  | noHeader => exact ⟨h_once, by simp [h_over], h_held, h_released, h_flushed⟩
  | drop => exact h.verdict h_over h_once (by simp) (by simp)
  | pass => exact h.verdict h_over h_once (by simp) (by simp)
  | @hold p h_lost h_ms h_mem =>
    refine ⟨h_once, by simp [h_over], fun pkt h_pkt => ?_, fun pkt now h_mem => ?_, h_flushed⟩
    · rcases List.mem_append.mp h_pkt with h_pkt | h_pkt
      · obtain ⟨q, h_q, h_rest⟩ := h_held pkt h_pkt
        exact ⟨q, List.mem_append_left _ h_q, h_rest⟩
      · rw [List.mem_singleton.mp h_pkt]
        exact ⟨p, List.mem_append_right _ (List.mem_singleton_self p), rfl, h_ms, rfl⟩
    · obtain ⟨q, h_q, h_rest⟩ := h_released pkt now h_mem
      exact ⟨q, List.mem_append_left _ h_q, h_rest⟩
  | @due now gone left h_split h_due =>
    refine ⟨h_once, by simp [h_over], fun pkt h_pkt => ?_, fun pkt now' h_mem => ?_,
      fun pkt h_mem => h_flushed pkt (by simpa using h_mem)⟩
    · exact h_held pkt (by rw [h_split]; exact List.mem_append_right _ h_pkt)
    · rcases List.mem_append.mp h_mem with h_mem | h_mem
      · exact h_released pkt now' h_mem
      · obtain ⟨pkt', h_pkt, h_eq⟩ := List.mem_map.mp h_mem
        obtain ⟨rfl, rfl⟩ := Verdict.release.inj h_eq
        obtain ⟨p, h_p, h_id, h_ms, h_deadline⟩ :=
          h_held pkt' (by rw [h_split]; exact List.mem_append_left _ h_pkt)
        obtain ⟨h_normal, h_nanos⟩ := addMillis_nanos p.now.2 (Int.le_of_lt h_ms)
        have h_late := h_due pkt' h_pkt
        rw [h_deadline, isDue_iff h_normal now.2, h_nanos] at h_late
        exact ⟨p, h_p, h_id, h_late⟩
  | stop =>
    refine ⟨h_once, fun _ => rfl, by simp, fun pkt now h_mem => ?_, fun _ _ => rfl⟩
    exact h_released pkt now (by simpa using h_mem)

/-! ## Stepping in front -/

/-- `first` has been accepted, and `later` has been or will be after it. -/
def Behind (first later : UInt32) (s : State) : Prop :=
  ∃ front back, s.accepted = front ++ first :: back ∧ later ∈ back ++ s.held.map Pending.id

/-- Packets are accepted behind those that have been, and those held stay so or are accepted. -/
theorem accepted_step {cfg : Config} {s s' : State} {e : Event} (h : Steps cfg s e s') :
    ∃ new, s'.accepted = s.accepted ++ new ∧
      ∀ id ∈ s.held.map Pending.id, id ∈ new ++ s'.held.map Pending.id := by
  unfold State.accepted
  cases h with
  | noHeader => exact ⟨[], by simp, fun id h_id => h_id⟩
  | @drop p => exact ⟨[], by simp [Verdict.accepted], fun id h_id => h_id⟩
  | @pass p =>
    exact ⟨[p.id], by simp [Verdict.accepted], fun id h_id => List.mem_append_right _ h_id⟩
  | @hold p =>
    refine ⟨[], by simp, fun id h_id => ?_⟩
    rw [List.nil_append, List.map_append]
    exact List.mem_append_left _ h_id
  | @due now gone left h_split =>
    refine ⟨gone.map Pending.id, by rw [List.filterMap_append, accepted_release], fun id h_id => ?_⟩
    rwa [h_split, List.map_append] at h_id
  | stop =>
    refine ⟨s.held.map Pending.id, by rw [List.filterMap_append, accepted_flush], fun id h_id => ?_⟩
    exact List.mem_append_left _ h_id

theorem behind_step {cfg : Config} {first later : UInt32} {s s' : State} {e : Event}
    (h : Behind first later s) (h_step : step cfg s e = some s') : Behind first later s' := by
  obtain ⟨front, back, h_accepted, h_later⟩ := h
  obtain ⟨new, h_new, h_held⟩ := accepted_step (step_cases h_step).2
  refine ⟨front, back ++ new, ?_, ?_⟩
  · rw [h_new, h_accepted, List.append_assoc, List.cons_append]
  · rw [List.append_assoc]
    rcases List.mem_append.mp h_later with h_later | h_later
    · exact List.mem_append_left _ h_later
    · exact List.mem_append_right _ (h_held later h_later)

theorem arrivals_step {cfg : Config} {s s' : State} {e : Event} (h : step cfg s e = some s') :
    s.arrivals <+: s'.arrivals := by
  rcases line_step (step_cases h).2 with ⟨-, h_more⟩ | ⟨p, h_arrivals, -⟩
  · exact h_more
  · exact ⟨[p], h_arrivals.symm⟩

theorem arrivals_run {cfg : Config} {s s' : State} {es : List Event}
    (h : run (step cfg) s es = some s') : s.arrivals <+: s'.arrivals := by
  induction es generalizing s with
  | nil =>
    obtain rfl := Option.some.inj h
    exact List.prefix_rfl
  | cons e es ih =>
    obtain ⟨m, h_e, h_es⟩ := run_cons_eq_some.mp h
    exact (arrivals_step h_e).trans (ih h_es)

/-- A packet that is passed out of turn is accepted before one that is held. -/
theorem behind_of_not_inTurn {cfg : Config} {s s' : State} {e : Event} (h : Kept cfg s)
    (h_turn : ¬ InTurn cfg s e) (h_step : step cfg s e = some s') :
    ∃ first later, later ∈ s.arrivals ∧ s'.arrivals = s.arrivals ++ [first] ∧
      Behind first later s' := by
  obtain ⟨-, h_step⟩ := step_cases h_step
  cases h_step with
  | noHeader => exact absurd trivial h_turn
  | drop h_lost => exact absurd (fun _ => .inl h_lost) h_turn
  | hold h_lost h_ms h_mem => exact absurd (fun _ => .inr ⟨h_ms, h_mem⟩) h_turn
  | due => exact absurd trivial h_turn
  | stop => exact absurd trivial h_turn
  | @pass p h_lost h_pass =>
    have h_held : s.held ≠ [] := fun h_nil => h_turn fun h_held => absurd h_nil h_held
    obtain ⟨pkt, rest, h_cons⟩ := List.exists_cons_of_ne_nil h_held
    have h_mem : pkt.id ∈ s.held.map Pending.id := by
      rw [h_cons]
      exact List.mem_cons_self
    refine ⟨p.id, pkt.id, h.once.subset (List.mem_append_right _ h_mem), by
      simp [State.arrivals], s.accepted, [], by simp [State.accepted, Verdict.accepted], ?_⟩
    simpa using h_mem

/-- Two that came in one order are not accepted in the other. -/
theorem not_sublist_of_behind {α : Type*} {first later : α} {front back before after : List α}
    (h_nodup : (before ++ first :: after).Nodup) (h_before : later ∈ before)
    (h_back : later ∈ back) :
    ¬ (front ++ first :: back).Sublist (before ++ first :: after) := by
  intro h_sub
  obtain ⟨h_nodup_before, h_nodup_after, h_disjoint⟩ := List.nodup_append.mp h_nodup
  have h_pair : [first, later].Sublist (before ++ first :: after) := by
    refine List.Sublist.trans ?_ h_sub
    exact (List.Sublist.cons_cons first (List.singleton_sublist.mpr h_back)).trans
      (List.sublist_append_right front _)
  obtain ⟨l₁, l₂, h_eq, h_l₁, h_l₂⟩ := List.sublist_append_iff.mp h_pair
  cases l₁ with
  | nil =>
    rw [List.nil_append] at h_eq
    have h_later : later ∈ first :: after := h_l₂.subset (by rw [← h_eq]; simp)
    exact h_disjoint later h_before later h_later rfl
  | cons c l₁ =>
    obtain ⟨rfl, -⟩ := List.cons.inj h_eq
    exact h_disjoint first (h_l₁.subset List.mem_cons_self) first List.mem_cons_self rfl

/-! ## Runs -/

section

variable {cfg : Config} {es : List Event} {s : State}
  (h_run : run (step cfg) .initial es = some s)
include h_run

theorem kept_of_run : Kept cfg s :=
  run_invariant (fun _ _ _ h h_step => kept_step h h_step) (kept_initial cfg) h_run

/-- In turn at every step, in order at every moment. -/
theorem sublist_of_meets (h_meets : Meets (step cfg) (InTurn cfg) .initial es) :
    s.accepted.Sublist s.arrivals := by
  have h_line : s.line.Sublist s.arrivals :=
    run_invariant_of_meets (fun _ _ _ h h_turn h_step => line_sublist h h_turn h_step)
      (List.Sublist.refl _) h_meets h_run
  exact (List.sublist_append_left _ _).trans h_line

/-- Out of turn once, out of order in the end. -/
theorem meets_of_sublist (h_over : s.stopped = true) (h_nodup : s.arrivals.Nodup)
    (h_order : s.accepted.Sublist s.arrivals) : Meets (step cfg) (InTurn cfg) .initial es := by
  rw [meets_iff]
  rintro pre e rest m rfl h_pre
  by_contra h_turn
  obtain ⟨m₁, h_m₁, h_rest⟩ := run_append.mp h_run
  obtain rfl := Option.some.inj (h_pre.symm.trans h_m₁)
  obtain ⟨m', h_step, h_rest⟩ := run_cons_eq_some.mp h_rest
  obtain ⟨first, later, h_later, h_arrivals, h_behind⟩ :=
    behind_of_not_inTurn (kept_of_run h_pre) h_turn h_step
  obtain ⟨front, back, h_accepted, h_back⟩ :=
    run_invariant (fun _ _ _ h h_a => behind_step h h_a) h_behind h_rest
  obtain ⟨after, h_after⟩ := arrivals_run h_rest
  rw [(kept_of_run h_run).done h_over, List.map_nil, List.append_nil] at h_back
  rw [h_arrivals, List.append_assoc, List.singleton_append] at h_after
  rw [← h_after] at h_nodup h_order
  rw [h_accepted] at h_order
  exact not_sublist_of_behind h_nodup h_later h_back h_order

end

/-- **Order**: in every run each packet gets one verdict and none that is held is accepted before
    its deadline; the packets are accepted in the order of arrival in every run in which no packet
    is passed at once while another is held, and of the runs that have come to an end, with
    packets that can be told apart, in no other.  The daemon is one of these runs. -/
theorem linkimpair_order (cfg : Config) :
    (∀ es s, run (step cfg) .initial es = some s → Kept cfg s) ∧
    (∀ es s, run (step cfg) .initial es = some s →
      Meets (step cfg) (InTurn cfg) .initial es → s.accepted.Sublist s.arrivals) ∧
    (∀ es s, run (step cfg) .initial es = some s → s.stopped = true → s.arrivals.Nodup →
      (s.accepted.Sublist s.arrivals ↔ Meets (step cfg) (InTurn cfg) .initial es)) ∧
    ∀ turns, run (step cfg) .initial (loopEvents turns) = some (mainLoop cfg turns .initial) ∧
      (mainLoop cfg turns .initial).stopped = true := by
  refine ⟨fun es s => kept_of_run, fun es s => sublist_of_meets, ?_, fun turns => ?_⟩
  · intro es s h_run h_over h_nodup
    exact ⟨meets_of_sublist h_run h_over h_nodup, sublist_of_meets h_run⟩
  · exact ⟨run_loopEvents cfg turns .initial rfl, mainLoop_over cfg turns .initial⟩

/-- No delay, up to 5 ms of jitter, no loss. -/
def jitterOnly : Config := ⟨0, 5, 0, by decide, by decide, by decide⟩

/-- The first packet draws 3 ms and is held, the second draws none. -/
theorem linkimpair_overtaken : ∃ s,
    run (step jitterOnly) .initial (loopEvents
      [.woken [some ⟨1, 0, 3, true, ⟨⟨0, 0⟩, by decide⟩⟩, some ⟨2, 0, 0, true, ⟨⟨0, 0⟩, by decide⟩⟩]
        ⟨⟨0, 0⟩, by decide⟩]) = some s ∧
    s.arrivals = [1, 2] ∧ s.accepted = [2, 1] ∧ ¬ s.accepted.Sublist s.arrivals :=
  ⟨_, rfl, by decide, by decide, by decide⟩

end IonContrib.Linkimpair
