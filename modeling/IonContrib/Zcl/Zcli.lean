/-
  IonContrib.Zcl.Zcli

  The main loop of `zcli.c`, around the receiver.

  A round of the loop waits for a delivery for a second.  What `bp_receive`
  gives, what the reading of the payload comes to and the clock at the end of
  the round are in `Round`.  A round that leaves the loop has no state after
  it: the receiver is freed then.

  Only a round without a payload calls `zclRxTick`; one with a payload settles
  at most the stream of its carrier.  So a head whose wait is over is looked at
  in every round if and only if it is never beside the stream that a payload
  settles (`zcli_prompt_iff`), for which it is enough that no payload comes
  more than a second after the last round without one (`zcli_prompt_of_ticks`).
-/
import IonContrib.Lib.Decimal
import IonContrib.Lib.Lts
import IonContrib.Zcl.Settle

namespace IonContrib.Zcl

open Octets

/-! ## Options -/

/-- A non-negative decimal option value, which `strtoll` cuts to 63 bits. -/
def zclParseCount (text : Octets) : Option Nat :=
  if text ≠ [] ∧ text.all isDigit then some (min (decimal text) (2 ^ 63 - 1)) else none

/-- One option of `parseCliArgs`: -r, -B, -X, -W, -S.  The window of -W goes to the decoder. -/
def cliOption (opt : Octets) (v : Nat) (lim : ZclRxLimits) : Option ZclRxLimits :=
  if opt = [0x2d, 0x72] ∧ v ≤ 86400000 then some { lim with reorderMs := v }
  else if opt = [0x2d, 0x42] ∧ v ≥ 1 ∧ v ≤ 0xffffffff then some { lim with maxBundle := v }
  else if opt = [0x2d, 0x58] ∧ v ≥ 1 then some { lim with maxChunkOut := v }
  else if opt = [0x2d, 0x57] ∧ v ≥ 10 ∧ v ≤ 31 then some lim
  else if opt = [0x2d, 0x53] ∧ v ≥ 1 ∧ v ≤ 4096 then some { lim with maxStreams := v }
  else none

/-- The loop of `parseCliArgs` over the arguments between the name and the duct. -/
def cliOptions : List Octets → ZclRxLimits → Option ZclRxLimits
  | [], lim => some lim
  | [_], _ => none
  | opt :: arg :: rest, lim =>
    match zclParseCount arg with
    | none => none
    | some v =>
      match cliOption opt v lim with
      | none => none
      | some lim => cliOptions rest lim

def parseCliArgs (args : List Octets) : Option ZclRxLimits := cliOptions args zclRxDefaults

theorem cliOption_maxCarriers {opt : Octets} {v : Nat} {lim lim' : ZclRxLimits}
    (h : cliOption opt v lim = some lim') : lim'.maxCarriers = lim.maxCarriers := by
  unfold cliOption at h
  split at h
  · exact Option.some.inj h ▸ rfl
  split at h
  · exact Option.some.inj h ▸ rfl
  split at h
  · exact Option.some.inj h ▸ rfl
  split at h
  · exact Option.some.inj h ▸ rfl
  split at h
  · exact Option.some.inj h ▸ rfl
  · cases h

theorem cliOptions_maxCarriers {args : List Octets} {lim lim' : ZclRxLimits}
    (h : cliOptions args lim = some lim') : lim'.maxCarriers = lim.maxCarriers := by
  fun_induction cliOptions args lim with
  | case1 lim => exact Option.some.inj h ▸ rfl
  | case2 => cases h
  | case3 => cases h
  | case4 => cases h
  | case5 lim opt arg rest v _ lim₁ h_opt ih =>
    exact (ih h).trans (cliOption_maxCarriers h_opt)

/-- No option changes what the guard of `settle` has to be enough for. -/
theorem guardSuffices_parseCliArgs {args : List Octets} {lim : ZclRxLimits}
    (h : parseCliArgs args = some lim) : GuardSuffices lim := by
  have h_carriers : lim.maxCarriers = zclRxDefaults.maxCarriers := cliOptions_maxCarriers h
  unfold GuardSuffices
  rw [h_carriers]
  exact guardSuffices_defaults

/-! ## The main loop -/

/-- What `bp_receive` gives.  A payload comes with whether the data base can be read, whether
    there is memory for a larger buffer, and whether all of the payload is read. -/
inductive Delivery
  | failed
  | stopped
  | payload (adu : Octets) (begun mem whole : Bool)
  | nothing
  deriving DecidableEq, Repr

structure Round where
  delivery : Delivery
  /-- `zclNowMs ()` in this round. -/
  nowMs : Nat
  deriving DecidableEq, Repr

structure Zcli (c : ZclCfg) where
  rx : ZclRx c
  cap : Nat

variable {c : ZclCfg}

def Zcli.start (rx : ZclRx c) : Zcli c := ⟨rx, 0⟩

/-- The size of the buffer and the carrier in it, which is empty when the payload is passed
    over; `none` on a database error. -/
def readCarrier (cap : Nat) (adu : Octets) (begun mem whole : Bool) : Option (Nat × Octets) :=
  if !begun then none
  else if adu.length > zclHdrLen + zclMaxCarrier then some (cap, [])
  else if adu.length > cap ∧ mem = false then some (cap, [])
  else if !whole then none
  else some (max cap adu.length, adu)

def zcliRound (z : Zcli c) (r : Round) : Option (Zcli c) :=
  match r.delivery with
  | .failed => none
  | .stopped => none
  | .payload adu begun mem whole =>
    match readCarrier z.cap adu begun mem whole with
    | none => none
    | some (cap, []) => some { z with cap := cap }
    | some (cap, carrier) => some ⟨(zclRxCarrier z.rx carrier r.nowMs).1, cap⟩
  | .nothing => some { z with rx := zclRxTick z.rx r.nowMs }

/-- The carriers that come stay below the last chunk number. -/
def Round.BelowMax (r : Round) : Prop :=
  ∀ adu begun mem whole, r.delivery = .payload adu begun mem whole → Zcl.BelowMax adu

/-- Rounds that last at most a second. -/
def Paced : Nat → List Round → Prop
  | _, [] => True
  | last, r :: rounds => last ≤ r.nowMs ∧ r.nowMs ≤ last + 1000 ∧ Paced r.nowMs rounds

/-! ## Heads that have waited too long -/

/-- The head of the buffer arrived more than the reorder timeout and a second ago. -/
def Late (s : c.Stream) (nowMs : Nat) : Prop :=
  ∃ p ∈ s.buf.head?, p.atMs + c.limits.reorderMs + 1000 < nowMs

theorem Calm.not_late {s : c.Stream} {nowMs : Nat} (h : Calm s nowMs) : ¬ Late s nowMs := by
  rintro ⟨p, h_p, h_late⟩
  have h_head := h.head p h_p
  omega

/-- The streams when the stream of the carrier has been found or made. -/
def lookedUp (rx : ZclRx c) (octets : Octets) : List c.Stream :=
  match zclHeaderGet octets with
  | none => rx.streams
  | some h => (findStream { rx with work := { rx.work with stats := { rx.work.stats with
      carriersIn := rx.work.stats.carriersIn + 1 } } } h.streamId).1.streams

/-- The streams that a round of the loop does not settle. -/
def passedOver (z : Zcli c) (r : Round) : List c.Stream :=
  match r.delivery with
  | .payload adu begun mem whole =>
    match readCarrier z.cap adu begun mem whole with
    | none => []
    | some (_, []) => z.rx.streams
    | some (_, carrier) =>
      match bufferedBy z.rx carrier r.nowMs with
      | none => lookedUp z.rx carrier
      | some (i, _) => (lookedUp z.rx carrier).eraseIdx i
  | _ => []

/-- A carrier settles the stream it is buffered in and leaves the others. -/
theorem zclRxCarrier_streams (rx : ZclRx c) (octets : Octets) (nowMs : Nat) :
    (bufferedBy rx octets nowMs = none ∧
        (zclRxCarrier rx octets nowMs).1.streams = lookedUp rx octets) ∨
      ∃ i s w, bufferedBy rx octets nowMs = some (i, s) ∧ i < (lookedUp rx octets).length ∧
        (zclRxCarrier rx octets nowMs).1.streams =
          (lookedUp rx octets).set i (settle c w s nowMs).2 := by
  unfold bufferedBy zclRxCarrier lookedUp
  cases h_get : zclHeaderGet octets with
  | none => exact Or.inl ⟨rfl, rfl⟩
  | some hd =>
    rw [Option.bind_some]
    dsimp only
    rcases findStream { rx with work := { rx.work with stats := { rx.work.stats with
      carriersIn := rx.work.stats.carriersIn + 1 } } } hd.streamId with ⟨rx₁, found⟩
    cases found with
    | none => exact Or.inl ⟨rfl, rfl⟩
    | some i =>
      rw [Option.bind_some]
      dsimp only
      cases h_s : rx₁.streams[i]? with
      | none => exact Or.inl ⟨rfl, rfl⟩
      | some s =>
        rw [Option.bind_some]
        dsimp only
        unfold takeCarrier
        cases h_stale : staleCarrier s hd with
        | true => exact Or.inl ⟨rfl, rfl⟩
        | false =>
          rw [if_neg Bool.false_ne_true, if_neg Bool.false_ne_true]
          dsimp only
          cases h_ins : insertPending ⟨hd.chunkId, hd.seq, hd.flags &&& zclFlagEnd != 0, nowMs,
              (octets.drop zclHdrLen).take hd.length⟩ s.buf with
          | none => exact Or.inl ⟨rfl, rfl⟩
          | some buf =>
            rw [Option.bind_some]
            dsimp only
            cases h_mem : c.mem rx₁.work.allocs with
            | false => exact Or.inl ⟨rfl, rfl⟩
            | true =>
              exact Or.inr ⟨i, _, _, rfl, (List.getElem?_eq_some_iff.mp h_s).1, rfl⟩

theorem forall_mem_set {α : Type*} {P : α → Prop} {l : List α} {i : Nat} {x : α}
    (h_i : i < l.length) : (∀ y ∈ l.set i x, P y) ↔ P x ∧ ∀ y ∈ l.eraseIdx i, P y := by
  rw [List.set_eq_take_append_cons_drop, if_pos h_i, List.eraseIdx_eq_take_drop_succ]
  simp only [List.mem_append, List.mem_cons]
  constructor
  · intro h
    exact ⟨h x (Or.inr (Or.inl rfl)), fun y h_y => h y (h_y.imp id Or.inr)⟩
  · rintro ⟨h_x, h_rest⟩ y (h_y | rfl | h_y)
    · exact h_rest y (Or.inl h_y)
    · exact h_x
    · exact h_rest y (Or.inr h_y)

/-! ## Rounds -/

/-- What holds of the receiver between rounds. -/
structure Zcli.Ok (z : Zcli c) : Prop where
  rx : RxOk z.rx
  bounded : ∀ s ∈ z.rx.streams, Bounded s

/-- The two ways a round that goes on takes, apart from a payload that is passed over. -/
theorem zcliRound_cases {z z' : Zcli c} {r : Round} (h : zcliRound z r = some z') :
    (r.delivery = .nothing ∧ z' = { z with rx := zclRxTick z.rx r.nowMs }) ∨
      ∃ adu begun mem whole, r.delivery = .payload adu begun mem whole ∧
        ((∃ cap, readCarrier z.cap adu begun mem whole = some (cap, []) ∧
            z' = { z with cap := cap }) ∨
          ∃ cap, readCarrier z.cap adu begun mem whole = some (cap, adu) ∧ adu ≠ [] ∧
            z' = ⟨(zclRxCarrier z.rx adu r.nowMs).1, cap⟩) := by
  unfold zcliRound at h
  cases h_got : r.delivery with
  | failed =>
    rw [h_got] at h
    cases h
  | stopped =>
    rw [h_got] at h
    cases h
  | nothing =>
    rw [h_got] at h
    exact Or.inl ⟨rfl, (Option.some.inj h).symm⟩
  | payload adu begun mem whole =>
    rw [h_got] at h
    refine Or.inr ⟨adu, begun, mem, whole, rfl, ?_⟩
    dsimp only at h
    rcases h_read : readCarrier z.cap adu begun mem whole with - | ⟨cap, carrier⟩
    · rw [h_read] at h
      cases h
    · rw [h_read] at h
      cases carrier with
      | nil => exact Or.inl ⟨cap, rfl, (Option.some.inj h).symm⟩
      | cons b rest =>
        -- What is read is the payload.
        have h_adu : adu = b :: rest := by
          unfold readCarrier at h_read
          split at h_read
          · cases h_read
          split at h_read
          · cases h_read
          split at h_read
          · cases h_read
          split at h_read
          · cases h_read
          · exact congrArg Prod.snd (Option.some.inj h_read)
        subst h_adu
        exact Or.inr ⟨cap, rfl, List.cons_ne_nil _ _, (Option.some.inj h).symm⟩

theorem Zcli.Ok.round {z z' : Zcli c} {r : Round} (h_guard : GuardSuffices c.limits) (h : z.Ok)
    (h_max : r.BelowMax) (h_round : zcliRound z r = some z') : z'.Ok := by
  -- A round is a tick, a carrier or nothing to the receiver.
  have h_after : ∀ e : RxEvent, e.BelowMax → z'.rx = z.rx.after e → z'.Ok := by
    intro e h_e h_eq
    refine ⟨?_, ?_⟩
    · rw [h_eq]
      exact after_ok h.rx h_e
    · rw [h_eq]
      exact (after_bounded h_guard h.rx h.bounded h_e).1
  rcases zcliRound_cases h_round with ⟨-, rfl⟩ |
    ⟨adu, begun, mem, whole, h_got, ⟨cap, -, rfl⟩ | ⟨cap, -, -, rfl⟩⟩
  · exact h_after (.tick r.nowMs) trivial rfl
  · exact ⟨h.rx, h.bounded⟩
  · exact h_after (.carrier adu r.nowMs) (h_max adu begun mem whole h_got) rfl

/-- The step lemma: after a round no head is late exactly if none was that it passes over. -/
theorem zcliRound_late_iff {z z' : Zcli c} {r : Round} (h_guard : GuardSuffices c.limits)
    (h : z.Ok) (h_max : r.BelowMax) (h_round : zcliRound z r = some z') :
    (∀ s ∈ z'.rx.streams, ¬ Late s r.nowMs) ↔ ∀ s ∈ passedOver z r, ¬ Late s r.nowMs := by
  unfold passedOver
  rcases zcliRound_cases h_round with ⟨h_got, rfl⟩ |
    ⟨adu, begun, mem, whole, h_got, ⟨cap, h_read, rfl⟩ | ⟨cap, h_read, h_some, rfl⟩⟩
  · -- A tick settles them all.
    rw [h_got]
    refine iff_of_true (fun s h_s => ?_) (fun s h_s => by cases h_s)
    exact (tickStreams_calm h_guard r.nowMs z.rx.work h.rx.each h.bounded h.rx.unused s
      h_s).not_late
  · rw [h_got]
    dsimp only
    rw [h_read]
  · obtain ⟨b, rest, rfl⟩ := List.exists_cons_of_ne_nil h_some
    rw [h_got]
    dsimp only
    rw [h_read]
    dsimp only
    rcases zclRxCarrier_streams z.rx (b :: rest) r.nowMs with ⟨h_none, h_eq⟩ |
      ⟨i, s, w, h_place, h_i, h_eq⟩
    · rw [h_none, h_eq]
    · rw [h_place, h_eq, forall_mem_set h_i]
      have h_calm : Calm (settle c w s r.nowMs).2 r.nowMs := by
        have h_settles := (after_bounded h_guard h.rx h.bounded
          (show (RxEvent.carrier (b :: rest) r.nowMs).BelowMax from
            h_max _ begun mem whole h_got)).2 s
        exact (h_settles (by simp [settledBy, h_place])).calm w
      exact ⟨And.right, fun h_rest => ⟨h_calm.not_late, h_rest⟩⟩

theorem Zcli.Ok.start {rx : ZclRx c} (h_new : zclRxNew c = some rx) : (Zcli.start rx).Ok :=
  ⟨zclRxNew_ok h_new, zclRxNew_bounded h_new⟩

theorem Zcli.Ok.run {z z' : Zcli c} {rounds : List Round} (h_guard : GuardSuffices c.limits)
    (h : z.Ok) (h_max : ∀ r ∈ rounds, r.BelowMax)
    (h_run : Lts.run zcliRound z rounds = some z') : z'.Ok := by
  induction rounds generalizing z with
  | nil =>
    obtain rfl := Option.some.inj h_run
    exact h
  | cons r rounds ih =>
    obtain ⟨h_r, h_rounds⟩ := List.forall_mem_cons.mp h_max
    obtain ⟨z₁, h_round, h_rest⟩ := Lts.run_cons_eq_some.mp h_run
    exact ih (h.round h_guard h_r h_round) h_rounds h_rest

theorem passedOver_of_none {z : Zcli c} {r : Round} (h : zcliRound z r = none) :
    passedOver z r = [] := by
  unfold zcliRound at h
  unfold passedOver
  cases h_got : r.delivery with
  | failed => rfl
  | stopped => rfl
  | nothing => rfl
  | payload adu begun mem whole =>
    rw [h_got] at h
    dsimp only at h ⊢
    rcases h_read : readCarrier z.cap adu begun mem whole with - | ⟨cap, carrier⟩
    · rfl
    · rw [h_read] at h
      cases carrier with
      | nil => cases h
      | cons b rest => cases h

/-- **The reorder timeout under any traffic.**  After every round no stream has a head that
    arrived more than the reorder timeout and a second ago, if and only if no round with a
    payload passes over such a stream. -/
theorem zcli_prompt_iff {args : List Octets} (h_args : parseCliArgs args = some c.limits)
    {rx : ZclRx c} (h_new : zclRxNew c = some rx) {rounds : List Round}
    (h_max : ∀ r ∈ rounds, r.BelowMax) :
    (∀ pre r rest z, rounds = pre ++ r :: rest →
      Lts.run zcliRound (Zcli.start rx) (pre ++ [r]) = some z →
        ∀ s ∈ z.rx.streams, ¬ Late s r.nowMs) ↔
      Lts.Meets zcliRound (fun z r => ∀ s ∈ passedOver z r, ¬ Late s r.nowMs)
        (Zcli.start rx) rounds := by
  have h_guard := guardSuffices_parseCliArgs h_args
  have h_step : ∀ {pre r rest z z'}, rounds = pre ++ r :: rest →
      Lts.run zcliRound (Zcli.start rx) pre = some z → zcliRound z r = some z' →
        ((∀ s ∈ z'.rx.streams, ¬ Late s r.nowMs) ↔ ∀ s ∈ passedOver z r, ¬ Late s r.nowMs) := by
    rintro pre r rest z z' rfl h_pre h_r
    have h_ok : z.Ok := (Zcli.Ok.start h_new).run h_guard
      (fun q h_q => h_max q (List.mem_append_left _ h_q)) h_pre
    exact zcliRound_late_iff h_guard h_ok (h_max r (by simp)) h_r
  rw [Lts.meets_iff]
  constructor
  · intro h pre r rest z h_rounds h_pre
    cases h_r : zcliRound z r with
    | none =>
      rw [passedOver_of_none h_r]
      exact fun s h_s => absurd h_s List.not_mem_nil
    | some z' =>
      exact (h_step h_rounds h_pre h_r).mp
        (h pre r rest z' h_rounds (Lts.run_snoc.mpr ⟨z, h_pre, h_r⟩))
  · intro h pre r rest z' h_rounds h_run
    obtain ⟨z, h_pre, h_r⟩ := Lts.run_snoc.mp h_run
    exact (h_step h_rounds h_pre h_r).mpr (h pre r rest z h_rounds h_pre)

/-! ## Ticks that come in time -/

/-- No round with a payload ends more than a second after the last one without. -/
def TicksInTime : Nat → List Round → Prop
  | _, [] => True
  | tick, r :: rounds =>
    tick ≤ r.nowMs ∧
      if r.delivery = .nothing then TicksInTime r.nowMs rounds
      else r.nowMs ≤ tick + 1000 ∧ TicksInTime tick rounds

/-- Every head's wait ends after the last tick. -/
def Fresh (streams : List c.Stream) (tick : Nat) : Prop :=
  ∀ s ∈ streams, ∀ p ∈ s.buf.head?, tick < p.atMs + c.limits.reorderMs

theorem Fresh.of_sameBufs {old new : List c.Stream} {tick : Nat} (h : Fresh old tick)
    (h_same : SameBufs old new) : Fresh new tick := by
  intro s h_s p h_p
  rcases h_same s h_s with h_empty | ⟨t, h_t, h_buf⟩
  · rw [h_empty] at h_p
    cases h_p
  · rw [h_buf] at h_p
    exact h t h_t p h_p

theorem Fresh.not_late {streams : List c.Stream} {tick nowMs : Nat} (h : Fresh streams tick)
    (h_now : nowMs ≤ tick + 1000) : ∀ s ∈ streams, ¬ Late s nowMs := by
  rintro s h_s ⟨p, h_p, h_late⟩
  have h_fresh := h s h_s p h_p
  omega

theorem sameBufs_lookedUp (rx : ZclRx c) (octets : Octets) :
    SameBufs rx.streams (lookedUp rx octets) := by
  unfold lookedUp
  cases zclHeaderGet octets with
  | none => exact fun s h_s => Or.inr ⟨s, h_s, rfl⟩
  | some hd =>
    exact findStream_buf { rx with work := { rx.work with stats := { rx.work.stats with
      carriersIn := rx.work.stats.carriersIn + 1 } } } hd.streamId

/-- What is passed over was there before the round. -/
theorem sameBufs_passedOver (z : Zcli c) (r : Round) :
    SameBufs z.rx.streams (passedOver z r) := by
  unfold passedOver
  cases r.delivery with
  | failed => exact fun s h_s => absurd h_s List.not_mem_nil
  | stopped => exact fun s h_s => absurd h_s List.not_mem_nil
  | nothing => exact fun s h_s => absurd h_s List.not_mem_nil
  | payload adu begun mem whole =>
    dsimp only
    rcases readCarrier z.cap adu begun mem whole with - | ⟨cap, carrier⟩
    · exact fun s h_s => absurd h_s List.not_mem_nil
    · cases carrier with
      | nil => exact fun s h_s => Or.inr ⟨s, h_s, rfl⟩
      | cons b rest =>
        have h_looked := sameBufs_lookedUp z.rx (b :: rest)
        dsimp only
        cases bufferedBy z.rx (b :: rest) r.nowMs with
        | none => exact h_looked
        | some p => exact fun s h_s => h_looked s (List.mem_of_mem_eraseIdx h_s)

theorem Fresh.round {z z' : Zcli c} {r : Round} {tick : Nat} (h_guard : GuardSuffices c.limits)
    (h_ok : z.Ok) (h_max : r.BelowMax) (h : Fresh z.rx.streams tick) (h_tick : tick ≤ r.nowMs)
    (h_round : zcliRound z r = some z') :
    Fresh z'.rx.streams (if r.delivery = .nothing then r.nowMs else tick) := by
  rcases zcliRound_cases h_round with ⟨h_got, rfl⟩ |
    ⟨adu, begun, mem, whole, h_got, ⟨cap, -, rfl⟩ | ⟨cap, -, -, rfl⟩⟩
  · rw [if_pos h_got]
    intro s h_s
    exact (tickStreams_calm h_guard r.nowMs z.rx.work h_ok.rx.each h_ok.bounded h_ok.rx.unused s
      h_s).head
  · rw [if_neg (by simp [h_got])]
    exact h
  · rw [if_neg (by simp [h_got])]
    have h_looked := h.of_sameBufs (sameBufs_lookedUp z.rx adu)
    rcases zclRxCarrier_streams z.rx adu r.nowMs with ⟨-, h_eq⟩ | ⟨i, s, w, h_place, h_i, h_eq⟩
    · show Fresh (zclRxCarrier z.rx adu r.nowMs).1.streams tick
      rwa [h_eq]
    · show Fresh (zclRxCarrier z.rx adu r.nowMs).1.streams tick
      rw [h_eq]
      have h_settles := (after_bounded h_guard h_ok.rx h_ok.bounded
        (show (RxEvent.carrier adu r.nowMs).BelowMax from h_max _ begun mem whole h_got)).2 s
      have h_calm : Calm (settle c w s r.nowMs).2 r.nowMs :=
        (h_settles (by simp [settledBy, h_place])).calm w
      refine (forall_mem_set h_i).mpr ⟨fun p h_p => ?_, fun t h_t => ?_⟩
      · exact Nat.lt_of_le_of_lt h_tick (h_calm.head p h_p)
      · exact h_looked t (List.mem_of_mem_eraseIdx h_t)

/-- A tick at most a second before every payload is enough. -/
theorem zcli_prompt_of_ticks {z : Zcli c} {rounds : List Round} {tick : Nat}
    (h_guard : GuardSuffices c.limits) (h_ok : z.Ok) (h_max : ∀ r ∈ rounds, r.BelowMax)
    (h : Fresh z.rx.streams tick) (h_ticked : TicksInTime tick rounds) :
    Lts.Meets zcliRound (fun z r => ∀ s ∈ passedOver z r, ¬ Late s r.nowMs) z rounds := by
  induction rounds generalizing z tick with
  | nil => trivial
  | cons r rounds ih =>
    obtain ⟨h_r, h_rounds⟩ := List.forall_mem_cons.mp h_max
    obtain ⟨h_tick, h_rest⟩ := h_ticked
    refine ⟨?_, fun z' h_round => ?_⟩
    · by_cases h_got : r.delivery = .nothing
      · intro s h_s
        unfold passedOver at h_s
        rw [h_got] at h_s
        cases h_s
      · rw [if_neg h_got] at h_rest
        exact (h.of_sameBufs (sameBufs_passedOver z r)).not_late h_rest.1
    · have h_fresh := h.round h_guard h_ok h_r h_tick h_round
      refine ih (h_ok.round h_guard h_r h_round) h_rounds h_fresh ?_
      by_cases h_got : r.delivery = .nothing
      · rw [if_pos h_got] at h_rest ⊢
        exact h_rest
      · rw [if_neg h_got] at h_rest ⊢
        exact h_rest.2

/-! ## A stream that is passed over -/

/-- A carrier of another stream, the first of a chunk. -/
def otherCarrier : Octets := zclHeaderPut ⟨0, 8, 0, 0, 1⟩ [7] ++ [7]

def payloadAt (octets : Octets) (nowMs : Nat) : Round := ⟨.payload octets true true true, nowMs⟩

/-- A carrier without a chunk start, and a carrier of another stream every second after it. -/
def denseRounds : List Round :=
  payloadAt (sampleCarrier 3 1) 0 ::
    (List.range 12).map fun k => payloadAt otherCarrier (1000 * (k + 1))

theorem denseRounds_late : ∃ rx : ZclRx storedCfg, zclRxNew storedCfg = some rx ∧
    ∃ z, Lts.run zcliRound (Zcli.start rx) denseRounds = some z ∧
      ∃ s ∈ z.rx.streams, Late s 12000 := by
  refine ⟨_, rfl, ?_⟩
  generalize h_run : Lts.run zcliRound _ denseRounds = out
  have h_view : (out.bind fun z => z.rx.streams[15]?.map fun s => s.buf) =
      some [⟨3, 1, false, 0, [7]⟩] := by
    rw [← h_run]
    decide +kernel
  obtain ⟨z, h_z, h_s⟩ := Option.bind_eq_some_iff.mp h_view
  obtain ⟨s, h_s, h_buf⟩ := Option.map_eq_some_iff.mp h_s
  refine ⟨z, h_z, s, List.mem_of_getElem? h_s, ⟨3, 1, false, 0, [7]⟩, ?_, by decide⟩
  rw [h_buf]
  rfl

theorem belowMax_put {h : ZclHeader} (h_ok : zclHeaderGet (zclHeaderPut h [7] ++ [7]) = some h)
    (h_chunk : h.chunkId + 1 < 2 ^ 64) (nowMs : Nat) :
    (payloadAt (zclHeaderPut h [7] ++ [7]) nowMs).BelowMax := by
  intro adu begun mem whole h_got hd h_get
  cases h_got
  rw [h_ok] at h_get
  obtain rfl := Option.some.inj h_get
  exact h_chunk

theorem denseRounds_belowMax : ∀ r ∈ denseRounds, r.BelowMax := by
  intro r h_r
  rcases List.mem_cons.mp h_r with rfl | h_r
  · exact belowMax_put (zclHeaderGet_sample (by decide) (by decide)) (by decide) 0
  · obtain ⟨k, -, rfl⟩ := List.mem_map.mp h_r
    refine belowMax_put (h := ⟨0, 8, 0, 0, 1⟩) (zclHeaderGet_put ?_) (by decide) _
    exact ⟨UInt8.zero_and, by decide, by decide, by decide, rfl, by decide⟩

/-- Rounds of at most a second, none of which comes to a tick. -/
theorem denseRounds_pass :
    ¬ ∀ (c : ZclCfg) (args : List Octets) (rx : ZclRx c) (rounds : List Round) (r : Round)
      (z : Zcli c), parseCliArgs args = some c.limits → zclRxNew c = some rx →
        (∀ q ∈ rounds ++ [r], q.BelowMax) → Paced 0 (rounds ++ [r]) →
          Lts.run zcliRound (Zcli.start rx) (rounds ++ [r]) = some z →
            ∀ s ∈ z.rx.streams, ¬ Late s r.nowMs := by
  intro h_claim
  obtain ⟨rx, h_new, z, h_run, s, h_s, h_late⟩ := denseRounds_late
  have h_split : denseRounds = denseRounds.take 12 ++ [payloadAt otherCarrier 12000] := rfl
  have h_max := denseRounds_belowMax
  rw [h_split] at h_run h_max
  exact h_claim storedCfg [] rx _ _ z rfl h_new h_max
    (by rw [← h_split]; simp [denseRounds, List.range_succ, Paced, payloadAt]) h_run s h_s h_late

/-- A round without a payload settles the stream. -/
theorem zcli_prompt_sample : ∃ rx : ZclRx storedCfg, zclRxNew storedCfg = some rx ∧
    ((∀ pre r rest z, [payloadAt (sampleCarrier 3 1) 0, ⟨.nothing, 12000⟩] = pre ++ r :: rest →
      Lts.run zcliRound (Zcli.start rx) (pre ++ [r]) = some z →
        ∀ s ∈ z.rx.streams, ¬ Late s r.nowMs) ↔
      Lts.Meets zcliRound (fun z r => ∀ s ∈ passedOver z r, ¬ Late s r.nowMs)
        (Zcli.start rx) [payloadAt (sampleCarrier 3 1) 0, ⟨.nothing, 12000⟩]) := by
  refine ⟨_, rfl, @zcli_prompt_iff storedCfg [] rfl _ rfl _ fun r h_r => ?_⟩
  rcases List.mem_cons.mp h_r with rfl | h_r
  · exact denseRounds_belowMax _ List.mem_cons_self
  · rw [List.mem_singleton.mp h_r]
    intro adu begun mem whole h_got
    cases h_got

end IonContrib.Zcl
