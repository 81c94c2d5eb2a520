/-
  IonContrib.Zcl.ZcloChunks

  What the carriers that zclo sends hold, and what becomes of their chunks.

  The bundles that go with a carrier are those whose records end in it
  (`HoldsEnds`), so a success is reported for a bundle only if a carrier with
  the end of its record was accepted (`zclo_settles`).  And the chunk of a
  carrier that could not be sent is not gone on with, as long as no counter
  wraps round (`zclo_givesUp`).
-/
import IonContrib.Zcl.EncText
import IonContrib.Zcl.ZcloLedger

namespace IonContrib.Zclo

open Octets Zcl

variable {c : ZclEncCfg} {cfg : ZclCloConfig} {d d' : CloState c} {e : Event}

/-! ## Carriers of a chunk -/

def payloadOf (carrier : Octets) : Octets := carrier.drop zclHdrLen

/-- The first carriers of a chunk, in order. -/
def InOrder (chunkId : Nat) (carriers : List Octets) : Prop :=
  ∀ i carrier, carriers[i]? = some carrier →
    ∃ h, zclHeaderGet carrier = some h ∧ h.chunkId = chunkId ∧ h.seq = i % 2 ^ 32

theorem inOrder_nil (chunkId : Nat) : InOrder chunkId [] := by
  intro i carrier h
  cases h

theorem InOrder.snoc {chunkId : Nat} {front : List Octets} (h : InOrder chunkId front)
    {carrier : Octets} {hdr : ZclHeader} (h_hdr : zclHeaderGet carrier = some hdr)
    (h_chunk : hdr.chunkId = chunkId) (h_seq : hdr.seq = front.length % 2 ^ 32) :
    InOrder chunkId (front ++ [carrier]) := by
  intro i carrier' h_i
  rcases Nat.lt_or_ge i front.length with h_lt | h_ge
  · rw [List.getElem?_append_left h_lt] at h_i
    exact h i carrier' h_i
  · rw [List.getElem?_append_right h_ge, List.getElem?_singleton] at h_i
    split at h_i
    · rename_i h_last
      obtain rfl := Option.some.inj h_i
      obtain rfl : i = front.length := by omega
      exact ⟨hdr, h_hdr, h_chunk, h_seq⟩
    · cases h_i

/-- The carriers of its chunk that were cut before it hold other bundles, and with `carrier` they
    hold `zcos` besides: the records of `zcos` end in it. -/
def HoldsEnds (z : ZstdC) (cut : List Octets) (carrier : Octets) (zcos : List Pend) : Prop :=
  ∃ earlier front later chunkId held ended, cut = earlier ++ front ++ carrier :: later ∧
    InOrder chunkId (front ++ [carrier]) ∧ Holds z (front.map payloadOf) held ∧
    Wrote z ((front ++ [carrier]).map payloadOf).flatten
      (zclRecords (held ++ zcos.map (·.bytes))) ended

theorem HoldsEnds.append {cut : List Octets} {carrier : Octets} {zcos : List Pend}
    (h : HoldsEnds c.z cut carrier zcos) (more : List Octets) :
    HoldsEnds c.z (cut ++ more) carrier zcos := by
  obtain ⟨earlier, front, later, chunkId, held, ended, h_cut, h_rest⟩ := h
  refine ⟨earlier, front, later ++ more, chunkId, held, ended, ?_, h_rest⟩
  rw [h_cut, List.append_assoc, List.cons_append]

/-! ## The open chunk -/

/-- Of the open chunk the last carriers are cut, and what is pending has been fed since. -/
def Framed (d : CloState c) : Prop :=
  ∃ earlier front held, d.enc.cut = earlier ++ front ∧ InOrder d.enc.enc.chunkId front ∧
    d.enc.enc.seq = front.length % 2 ^ 32 ∧
    InFrame d.enc (front.map payloadOf) held (d.pending.map (·.bytes))

/-- An aborted chunk leaves nothing open. -/
theorem framed_abort {w : ZclEncRun c} (h_enc : d'.enc = zclEncAbort c w) (h_pending : d'.pending = []) : Framed d' := by
  refine ⟨w.cut, [], [], ?_, inOrder_nil _, ?_, ?_⟩
  · rw [h_enc, List.append_nil]
    rfl
  · rw [h_enc]
    rfl
  · rw [h_enc, h_pending]
    exact InFrame.abort w

theorem payloadOf_put (hdr : ZclHeader) (payload : Octets) :
    payloadOf (zclHeaderPut hdr payload ++ payload) = payload := by
  unfold payloadOf
  exact List.drop_left' (length_zclHeaderPut hdr payload)

/-- Of a carrier that is cut, the records are those of what was pending. -/
theorem framed_cut (h_range : InRange d.enc) (h : Framed d)
    {endChunk : Bool} (h_cut : (zclEncCut c d.enc endChunk).2 = 1)
    (h_enc : d'.enc = (zclEncCut c d.enc endChunk).1) (h_pending : d'.pending = []) :
    Framed d' ∧ HoldsEnds c.z d'.enc.cut
      ((zclEncCut c d.enc endChunk).1.cut.getLastD []) d.pending := by
  obtain ⟨earlier, front, held, h_front, h_order, h_seq, h_frame⟩ := h
  obtain ⟨w₁, cut, h_out, h_made, h_step⟩ := cut_of_made h_cut
  obtain ⟨h_wrote, h_next⟩ := h_frame.cut h_out cut
  rw [← h_made] at h_next
  generalize h_payload : w₁.enc.out.getD [] = payload at h_step h_wrote h_next
  have h_hdr : zclHeaderGet (zclHeaderPut (nextHeader d.enc.enc endChunk payload) payload ++
      payload) = some (nextHeader d.enc.enc endChunk payload) := h_range.header h_step.small
  generalize h_carrier : zclHeaderPut (nextHeader d.enc.enc endChunk payload) payload ++ payload =
    carrier at h_hdr
  have h_payloadOf : payloadOf carrier = payload := by
    rw [← h_carrier]
    exact payloadOf_put _ _
  have h_all : d'.enc.cut = earlier ++ front ++ [carrier] := by
    rw [h_enc, h_step.cut, h_carrier, h_front]
  have h_last : (zclEncCut c d.enc endChunk).1.cut.getLastD [] = carrier := by
    rw [h_step.cut, h_carrier]
    simp
  have h_more : InOrder d.enc.enc.chunkId (front ++ [carrier]) := h_order.snoc h_hdr rfl h_seq
  have h_map : (front ++ [carrier]).map payloadOf = front.map payloadOf ++ [payload] := by
    rw [List.map_append, List.map_singleton, h_payloadOf]
  refine ⟨?_, ?_⟩
  · cases endChunk with
    | true =>
      refine ⟨d'.enc.cut, [], [], (List.append_nil _).symm, inOrder_nil _, ?_, ?_⟩
      · rw [h_enc, h_step.seq]
        rfl
      · rw [h_enc, h_pending]
        exact h_next
    | false =>
      refine ⟨earlier, front ++ [carrier], held ++ d.pending.map (·.bytes), ?_, ?_, ?_, ?_⟩
      · rw [h_all, List.append_assoc]
      · rw [h_enc, h_step.chunkId]
        exact h_more
      · rw [h_enc, h_step.seq, if_neg Bool.false_ne_true, h_seq, List.length_append,
          List.length_singleton, Nat.mod_add_mod]
      · rw [h_enc, h_pending, h_map]
        exact h_next
  · rw [h_last]
    refine ⟨earlier, front, [], d.enc.enc.chunkId, held, endChunk, h_all, h_more, h_frame.held, ?_⟩
    rw [h_map]
    exact h_wrote

/-- The encoder and what the log says of the carriers. -/
structure Carried (d : CloState c) : Prop where
  range : InRange d.enc
  framed : Framed d
  sent : ∀ carrier zcos ok, (carrier, zcos, ok) ∈ sendsIn d.log →
    HoldsEnds c.z d.enc.cut carrier zcos
  sending : ∀ carrier zcos, d.flusher.work.1 = some (carrier, zcos) →
    HoldsEnds c.z d.enc.cut carrier zcos

theorem carried_start : Carried (CloState.start c) where
  range := inRange_init
  framed := ⟨[], [], [], rfl, inOrder_nil _, rfl, InFrame.init⟩
  sent := by
    intro carrier zcos ok h
    cases h
  sending := by
    intro carrier zcos h
    cases h

/-- Nothing is cut and nothing is sent. -/
theorem Carried.quiet (h : Carried d) (h_range : InRange d'.enc) (h_framed : Framed d')
    (h_cut : d'.enc.cut = d.enc.cut) (h_sends : sendsIn d'.log = sendsIn d.log)
    (h_work : d'.flusher.work.1 = d.flusher.work.1 ∨ d'.flusher.work.1 = none) :
    Carried d' where
  range := h_range
  framed := h_framed
  sent := by
    intro carrier zcos ok h_mem
    rw [h_sends] at h_mem
    rw [h_cut]
    exact h.sent carrier zcos ok h_mem
  sending := by
    intro carrier zcos h_some
    rw [h_cut]
    rcases h_work with h_same | h_none
    · exact h.sending carrier zcos (h_same ▸ h_some)
    · rw [h_none] at h_some
      cases h_some

/-- The carrier in hand has been sent. -/
theorem Carried.sendOff (h : Carried d) {carrier : Octets} {zcos : List Pend} {ok : Bool}
    (h_range : InRange d'.enc) (h_framed : Framed d') (h_cut : d'.enc.cut = d.enc.cut)
    (h_sending : d.flusher.work.1 = some (carrier, zcos))
    (h_sends : sendsIn d'.log = sendsIn d.log ++ [(carrier, zcos, ok)])
    (h_work : d'.flusher.work.1 = none) : Carried d' where
  range := h_range
  framed := h_framed
  sent := by
    intro carrier' zcos' ok' h_mem
    rw [h_sends, List.mem_append, List.mem_singleton] at h_mem
    rw [h_cut]
    rcases h_mem with h_mem | h_mem
    · exact h.sent carrier' zcos' ok' h_mem
    · obtain ⟨h_carrier, h_rest⟩ := Prod.mk.inj h_mem
      rw [h_carrier, (Prod.mk.inj h_rest).1]
      exact h.sending _ _ h_sending
  sending := by
    intro carrier' zcos' h_some
    rw [h_work] at h_some
    cases h_some

theorem Stepped.carried (h : Carried d)
    (h_step : Stepped cfg d e d') : Carried d' := by
  cases h_step with
  | idle h_enc h_pending h_main h_work es h_log h_es =>
    refine h.quiet (h_enc ▸ h.range) ?_ (by rw [h_enc]) ?_ (Or.inl (by rw [h_work]))
    · unfold Framed
      rw [h_enc, h_pending]
      exact h.framed
    · rw [h_log, sendsIn_append, (aloof_nil h_es).2.2, List.append_nil]
  | added q h_hold h_add h_enc h_pending h_main h_work h_log =>
    have h_same := zclEncAdd_same d.enc q.bytes
    refine h.quiet (h_enc ▸ h.range.same h_same) ?_ (by rw [h_enc, h_same.cut]) ?_
      (Or.inl (by rw [h_work]))
    · obtain ⟨earlier, front, held, h_front, h_order, h_seq, h_frame⟩ := h.framed
      refine ⟨earlier, front, held, ?_, ?_, ?_, ?_⟩
      · rw [h_enc, h_same.cut]
        exact h_front
      · rw [h_enc, h_same.chunkId]
        exact h_order
      · rw [h_enc, h_same.seq]
        exact h_seq
      · rw [h_enc, h_pending, List.map_append]
        exact h_frame.add h_add
    · rw [h_log, sendsIn_append]
      exact List.append_nil _
  | addFailed q h_hold h_add h_enc h_pending h_main h_work h_log =>
    have h_same := zclEncAdd_same d.enc q.bytes
    refine h.quiet (h_enc ▸ (h.range.same h_same).abort) (framed_abort h_enc h_pending) ?_
      (by rw [h_log]) (Or.inl (by rw [h_work]))
    rw [h_enc, abort_cut, h_same.cut]
  | dropped q h_enc h_pending h_main h_work h_log =>
    refine h.quiet (h_enc ▸ h.range) ?_ (by rw [h_enc]) ?_ (Or.inl (by rw [h_work]))
    · unfold Framed
      rw [h_enc, h_pending]
      exact h.framed
    · rw [h_log, sendsIn_append]
      exact List.append_nil _
  | cut endChunk last h_look h_last h_cut h_enc h_pending h_main h_idle h_work h_log =>
    obtain ⟨w₁, cut, -, -, h_made⟩ := cut_of_made h_cut
    obtain ⟨h_framed, h_holds⟩ := framed_cut h.range h.framed h_cut h_enc h_pending
    refine ⟨h_enc ▸ h.range.cut h_made, h_framed, ?_, ?_⟩
    · intro carrier zcos ok h_mem
      rw [h_log] at h_mem
      rw [h_enc, h_made.cut]
      exact (h.sent carrier zcos ok h_mem).append _
    · intro carrier zcos h_some
      rw [h_work] at h_some
      obtain ⟨rfl, rfl⟩ := Prod.mk.inj (Option.some.inj h_some)
      exact h_holds
  | cutFailed endChunk last h_look h_last h_cut h_enc h_pending h_main h_idle h_work h_log =>
    have h_same := cut_of_failed h_cut
    refine h.quiet (h_enc ▸ (h.range.same h_same).abort) (framed_abort h_enc h_pending) ?_
      (by rw [h_log]) (Or.inr (by rw [h_work]))
    rw [h_enc, abort_cut, h_same.cut]
  | sent carrier zcos h_enc h_pending h_main h_sending h_work h_log =>
    have h_sends : sendsIn d'.log = sendsIn d.log ++ [(carrier, zcos, true)] := by
      rw [h_log, sendsIn_append]
      rfl
    refine h.sendOff (h_enc ▸ h.range) ?_ (by rw [h_enc]) (by rw [h_sending]) h_sends
      (by rw [h_work])
    unfold Framed
    rw [h_enc, h_pending]
    exact h.framed
  | sendFailed carrier zcos h_enc h_pending h_main h_sending h_work h_log =>
    have h_sends : sendsIn d'.log = sendsIn d.log ++ [(carrier, zcos, false)] := by
      rw [h_log, sendsIn_append]
      rfl
    refine h.sendOff (h_enc ▸ h.range.abort) (framed_abort h_enc h_pending) ?_
      (by rw [h_sending]) h_sends (by rw [h_work])
    rw [h_enc, abort_cut]
  | reported q sent reports h_enc h_pending h_main h_settling h_work h_log =>
    refine h.quiet (h_enc ▸ h.range) ?_ (by rw [h_enc]) ?_ (Or.inr (by rw [h_work]))
    · unfold Framed
      rw [h_enc, h_pending]
      exact h.framed
    · rw [h_log, sendsIn_append]
      exact List.append_nil _

/-! ## Settlement -/

/-- Everything that is known of the bundles of a state that was reached. -/
structure Settles (d : CloState c) : Prop where
  /-- What was added is in one hand or has been reported once, and nothing else has. -/
  accounted : Accounted d
  /-- In the end everything that was added has been reported. -/
  once : d.flusher = .ended → (addedIn d.log).Perm ((settledIn d.log).map (·.1))
  success : Successful d
  holds : ∀ carrier zcos ok, (carrier, zcos, ok) ∈ sendsIn d.log →
    HoldsEnds c.z d.enc.cut carrier zcos

/-- A success is reported for a bundle only if a carrier with the end of its record was
    accepted. -/
theorem Settles.accepted (h : Settles d) {p : Pend} (h_p : (p, true) ∈ settledIn d.log) :
    ∃ carrier zcos, (carrier, zcos, true) ∈ sendsIn d.log ∧ p ∈ zcos ∧
      HoldsEnds c.z d.enc.cut carrier zcos := by
  have h_success : p ∈ successes (settledIn d.log) :=
    List.mem_map.mpr ⟨(p, true), List.mem_filter.mpr ⟨h_p, rfl⟩, rfl⟩
  have h_accepted : p ∈ Zclo.accepted (sendsIn d.log) := by
    rw [← h.success]
    exact List.mem_append_left _ h_success
  obtain ⟨⟨carrier, zcos, ok⟩, h_mem, h_in⟩ := List.mem_flatMap.mp h_accepted
  obtain ⟨h_mem, h_ok⟩ := List.mem_filter.mp h_mem
  obtain rfl : ok = true := h_ok
  exact ⟨carrier, zcos, h_mem, h_in, h.holds carrier zcos true h_mem⟩

/-- **Settlement.**  In every interleaving of the two threads, with any failures of the
    compressor, of the memory and of `bp_send`, every bundle that `addBundle` has taken is
    reported once by the time the flush thread has ended; and the successes are the bundles of
    the accepted carriers, in their order, whose records end in these carriers. -/
theorem zclo_settles {es : List Event}
    (h_run : Lts.run (step cfg) (CloState.start c) es = some d) : Settles d := by
  have h_step : ∀ (s : CloState c) e s', (CloOk s ∧ Accounted s ∧ Successful s ∧ Carried s) →
      step cfg s e = some s' → CloOk s' ∧ Accounted s' ∧ Successful s' ∧ Carried s' := by
    rintro s e s' ⟨h_ok, h_acc, h_succ, h_carried⟩ h_e
    have h_one := step_stepped h_ok h_e
    exact ⟨step_cloOk h_ok h_e, h_one.accounted h_acc, h_one.successful h_succ,
      h_one.carried h_carried⟩
  obtain ⟨h_ok, h_acc, h_succ, h_carried⟩ := Lts.run_invariant h_step
    ⟨cloOk_start, accounted_start, successful_start, carried_start⟩ h_run
  refine ⟨h_acc, fun h_end => ?_, h_succ, h_carried.sent⟩
  have h_all : (addedIn d.log).Perm ((settledIn d.log).map (·.1) ++ d.hands) := h_acc
  rwa [h_ok.hands_nil h_end, List.append_nil] at h_all

/-! ## One bundle -/

/-- Each bundle goes into a carrier of its own. -/
def eagerCfg : ZclCloConfig := ⟨0, 1, 1000, 1000⟩

def octetBundle : Pend := ⟨5, [7]⟩

def octetEvents : List Event :=
  [.begin true, .top, .dequeue (.bundle 5 (some [7]) true), .add true 0, .look 0]

/-- The bundle has been read, it is in the chunk, and its carrier is on its way. -/
def octetHeld : CloState storing :=
  ⟨.holding octetBundle, .locking, false, afterCarriers 0, none, 0, 0, 0, false, []⟩

def octetAdded : CloState storing :=
  ⟨.looping, .locking, false, withOctet 0, some [octetBundle], 64, 0, 0, false,
    [.added octetBundle]⟩

def octetSending : CloState storing :=
  ⟨.looping, .sending (oneOctet 0) [octetBundle] false, false, afterCarriers 1, none, 0, 0, 0, false,
    [.added octetBundle]⟩

theorem step_octetHeld : step eagerCfg octetHeld (.add true 0) = some octetAdded := by
  have h_grow : growZcos octetHeld true = ({ octetHeld with zcos := some [], zcoCap := 64 }, true) :=
    rfl
  have h_add : zclEncAdd storing octetHeld.enc octetBundle.bytes = (withOctet 0, 0) :=
    add_oneOctet 0
  show some (addBundle octetHeld octetBundle true 0) = _
  unfold addBundle
  rw [h_grow]
  dsimp only
  rw [h_add]
  rfl

theorem step_octetAdded : step eagerCfg octetAdded (.look 0) = some octetSending := by
  have h_look : look eagerCfg octetAdded 0 = .cut false := by decide
  have h_cut : zclEncCut storing octetAdded.enc false = (afterCarriers 1, 1) := cut_oneOctet 0
  show some (flushLook eagerCfg octetAdded 0) = _
  unfold flushLook
  rw [h_look]
  dsimp only
  unfold cutAndSend
  rw [h_cut]
  rfl

theorem run_octetEvents :
    Lts.run (step eagerCfg) (CloState.start storing) octetEvents = some octetSending := by
  have h_held : Lts.run (step eagerCfg) (CloState.start storing)
      [.begin true, .top, .dequeue (.bundle 5 (some [7]) true)] = some octetHeld := rfl
  refine Lts.run_append.mpr ⟨octetHeld, h_held, ?_⟩
  exact Lts.run_cons_eq_some.mpr
    ⟨_, step_octetHeld, Lts.run_cons_eq_some.mpr ⟨_, step_octetAdded, rfl⟩⟩

/-- It is accepted, and the success is reported. -/
theorem zclo_settles_octet : ∃ d, Lts.run (step eagerCfg) (CloState.start storing)
    (octetEvents ++ [.send true, .report]) = some d ∧ settledIn d.log = [(octetBundle, true)] ∧
      Settles d := by
  have h_run : Lts.run (step eagerCfg) (CloState.start storing)
      (octetEvents ++ [.send true, .report]) = some { octetSending with
        flusher := .settling [] false
        log := [.added octetBundle, .sent (oneOctet 0) [octetBundle] true,
          .settled octetBundle true] } :=
    Lts.run_append.mpr ⟨octetSending, run_octetEvents, rfl⟩
  exact ⟨_, h_run, rfl, zclo_settles h_run⟩

/-! ## A chunk that is given up -/

/-- A cut takes no chunk number back to 0, and neither does the abort that follows a failed
    one. -/
def CutRoomy (w : ZclEncRun c) (endChunk : Bool) : Prop :=
  (endChunk = true → Roomy w (.cut true)) ∧ ((zclEncCut c w endChunk).2 = -1 → Roomy w .abort)

/-- No step takes the chunk number back to 0, and no send fails when the 32 bits of the sequence
    number have just wrapped round in the chunk of the carrier. -/
def Sound (cfg : ZclCloConfig) (d : CloState c) : Event → Prop
  | .add _ _ => ∀ p, d.main = .holding p →
    (zclEncAdd c d.enc p.bytes).2 = 0 ∨ Roomy d.enc .abort
  | .look now =>
    match look cfg d now with
    | .over => CutRoomy d.enc true
    | .wait _ => True
    | .cut endChunk => CutRoomy d.enc endChunk
  | .send false => Roomy d.enc .abort ∧ ∀ carrier zcos hdr,
    d.flusher.work.1 = some (carrier, zcos) → zclHeaderGet carrier = some hdr →
    hdr.chunkId = d.enc.enc.chunkId → d.enc.enc.seq ≠ 0
  | _ => True

/-- No carrier that is cut after one that could not be sent is of its chunk. -/
def GivesUp (d : CloState c) : Prop :=
  ∀ (i j : Nat) (failed carrier : Octets) (zcos : List Pend) (hdr hdr' : ZclHeader),
    (sendsIn d.log)[i]? = some (failed, zcos, false) → i < j → d.enc.cut[j]? = some carrier →
    zclHeaderGet failed = some hdr →
    zclHeaderGet carrier = some hdr' → hdr.chunkId < hdr'.chunkId

/-- The chunks so far: none has a number above that of the open one, and of a chunk given up it
    is below. -/
structure Numbering (d : CloState c) : Prop where
  range : InRange d.enc
  le : ∀ carrier ∈ d.enc.cut, ∀ hdr, zclHeaderGet carrier = some hdr →
    hdr.chunkId ≤ d.enc.enc.chunkId
  failed : ∀ carrier zcos hdr, (carrier, zcos, false) ∈ sendsIn d.log →
    zclHeaderGet carrier = some hdr → hdr.chunkId < d.enc.enc.chunkId
  later : GivesUp d

theorem numbering_start : Numbering (CloState.start c) where
  range := inRange_init
  le := by
    intro carrier h
    cases h
  failed := by
    intro carrier zcos hdr h
    cases h
  later := by
    intro i j failed carrier zcos hdr hdr' h
    cases h

/-- Nothing is cut and no send fails; the chunk number does not go back. -/
theorem Numbering.quiet (h : Numbering d) (h_range : InRange d'.enc)
    (h_cut : d'.enc.cut = d.enc.cut) (h_chunk : d.enc.enc.chunkId ≤ d'.enc.enc.chunkId)
    {more : List (Octets × List Pend × Bool)} (h_sends : sendsIn d'.log = sendsIn d.log ++ more)
    (h_more : ∀ s ∈ more, s.2.2 = true) : Numbering d' where
  range := h_range
  le := by
    intro carrier h_mem hdr h_hdr
    rw [h_cut] at h_mem
    exact (h.le carrier h_mem hdr h_hdr).trans h_chunk
  failed := by
    intro carrier zcos hdr h_mem h_hdr
    rw [h_sends, List.mem_append] at h_mem
    rcases h_mem with h_mem | h_mem
    · exact (h.failed carrier zcos hdr h_mem h_hdr).trans_le h_chunk
    · exact absurd (h_more _ h_mem) Bool.false_ne_true
  later := by
    intro i j failed carrier zcos hdr hdr' h_i h_lt h_j h_hdr h_hdr'
    rw [h_cut] at h_j
    rw [h_sends] at h_i
    rcases Nat.lt_or_ge i (sendsIn d.log).length with h_old | h_new
    · rw [List.getElem?_append_left h_old] at h_i
      exact h.later i j failed carrier zcos hdr hdr' h_i h_lt h_j h_hdr h_hdr'
    · rw [List.getElem?_append_right h_new] at h_i
      exact absurd (h_more _ (List.mem_of_getElem? h_i)) Bool.false_ne_true

/-- The chunk that an abort leaves to the next bundles. -/
theorem chunkId_abort {w : ZclEncRun c} (h_roomy : Roomy w .abort) :
    (zclEncAbort c w).enc.chunkId =
      if 0 < w.enc.seq then w.enc.chunkId + 1 else w.enc.chunkId := by
  show (if w.enc.seq > 0 then (w.enc.chunkId + 1) % 2 ^ 64 else w.enc.chunkId) = _
  split
  · rename_i h_out
    exact Nat.mod_eq_of_lt (h_roomy h_out)
  · rfl

theorem chunkId_le_abort {w : ZclEncRun c} (h_roomy : Roomy w .abort) :
    w.enc.chunkId ≤ (zclEncAbort c w).enc.chunkId := by
  rw [chunkId_abort h_roomy]
  split <;> omega

/-- A call that failed has left the numbers alone, so the abort finds them as they were. -/
theorem roomy_of_same {w w' : ZclEncRun c} (h_same : SameCut w w') (h : Roomy w .abort) :
    Roomy w' .abort := by
  unfold Roomy at h ⊢
  rw [h_same.seq, h_same.chunkId]
  exact h

/-- A carrier with the number of the open chunk is above all that was given up. -/
theorem Numbering.cut (h : Numbering d) {endChunk : Bool}
    (h_cut : (zclEncCut c d.enc endChunk).2 = 1)
    (h_roomy : endChunk = true → Roomy d.enc (.cut true))
    (h_enc : d'.enc = (zclEncCut c d.enc endChunk).1) (h_log : d'.log = d.log) :
    Numbering d' := by
  obtain ⟨w₁, cut, -, -, h_made⟩ := cut_of_made h_cut
  have h_hdr := @InRange.header c d.enc h.range endChunk _ h_made.small
  generalize h_carrier : zclHeaderPut (nextHeader d.enc.enc endChunk (w₁.enc.out.getD []))
    (w₁.enc.out.getD []) ++ w₁.enc.out.getD [] = carrier at h_hdr
  have h_all : d'.enc.cut = d.enc.cut ++ [carrier] := by
    rw [h_enc, h_made.cut, h_carrier]
  have h_chunk : d.enc.enc.chunkId ≤ d'.enc.enc.chunkId := by
    rw [h_enc, h_made.chunkId]
    split
    · rename_i h_end
      rw [Nat.mod_eq_of_lt (h_roomy h_end h_made.going.1)]
      exact Nat.le_succ _
    · exact Nat.le_refl _
  refine ⟨h_enc ▸ h.range.cut h_made, ?_, ?_, ?_⟩
  · intro carrier' h_mem hdr h_hdr'
    rw [h_all, List.mem_append, List.mem_singleton] at h_mem
    rcases h_mem with h_mem | rfl
    · exact (h.le carrier' h_mem hdr h_hdr').trans h_chunk
    · rw [h_hdr] at h_hdr'
      rw [← Option.some.inj h_hdr']
      exact h_chunk
  · intro carrier' zcos hdr h_mem h_hdr'
    rw [h_log] at h_mem
    exact (h.failed carrier' zcos hdr h_mem h_hdr').trans_le h_chunk
  · intro i j failed carrier' zcos hdr hdr' h_i h_lt h_j h_hdr₁ h_hdr₂
    rw [h_log] at h_i
    rw [h_all] at h_j
    rcases Nat.lt_or_ge j d.enc.cut.length with h_old | h_new
    · rw [List.getElem?_append_left h_old] at h_j
      exact h.later i j failed carrier' zcos hdr hdr' h_i h_lt h_j h_hdr₁ h_hdr₂
    · rw [List.getElem?_append_right h_new, List.getElem?_singleton] at h_j
      split at h_j
      · obtain rfl := Option.some.inj h_j
        rw [h_hdr] at h_hdr₂
        rw [← Option.some.inj h_hdr₂]
        exact h.failed failed zcos hdr (List.mem_of_getElem? h_i) h_hdr₁
      · cases h_j

/-- The chunk of the carrier that could not be sent is left. -/
theorem Numbering.sendFailed (h : Numbering d) (h_outcomes : Outcomes d) {carrier : Octets}
    {zcos : List Pend} (h_sending : d.flusher.work = (some (carrier, zcos), []))
    (h_roomy : Roomy d.enc .abort)
    (h_seq : ∀ hdr, zclHeaderGet carrier = some hdr → hdr.chunkId = d.enc.enc.chunkId →
      d.enc.enc.seq ≠ 0)
    (h_enc : d'.enc = zclEncAbort c d.enc)
    (h_log : d'.log = d.log ++ [.sent carrier zcos false]) : Numbering d' := by
  have h_chunk := chunkId_le_abort h_roomy
  have h_sends : sendsIn d'.log = sendsIn d.log ++ [(carrier, zcos, false)] := by
    rw [h_log, sendsIn_append]
    rfl
  have h_cut : d.enc.cut = (sendsIn d.log).map (·.1) ++ [carrier] := by
    have h_out : d.enc.cut = (sendsIn d.log).map (·.1) ++ inHand d.flusher.work := h_outcomes
    rwa [h_sending] at h_out
  have h_le := h.le carrier (by rw [h_cut]; exact List.mem_append_right _ List.mem_cons_self)
  have h_left : ∀ hdr, zclHeaderGet carrier = some hdr →
      hdr.chunkId < (zclEncAbort c d.enc).enc.chunkId := by
    intro hdr h_hdr
    have h_le_hdr := h_le hdr h_hdr
    rw [chunkId_abort h_roomy]
    split
    · exact Nat.lt_succ_of_le h_le_hdr
    · rename_i h_zero
      exact Nat.lt_of_le_of_ne h_le_hdr fun h_eq => h_seq hdr h_hdr h_eq (by omega)
  refine ⟨h_enc ▸ h.range.abort, ?_, ?_, ?_⟩
  · intro carrier' h_mem hdr h_hdr
    rw [h_enc] at h_mem ⊢
    exact (h.le carrier' h_mem hdr h_hdr).trans h_chunk
  · intro carrier' zcos' hdr h_mem h_hdr
    rw [h_enc]
    rw [h_sends, List.mem_append, List.mem_singleton] at h_mem
    rcases h_mem with h_mem | h_mem
    · exact (h.failed carrier' zcos' hdr h_mem h_hdr).trans_le h_chunk
    · exact h_left hdr ((Prod.mk.inj h_mem).1 ▸ h_hdr)
  · intro i j failed carrier' zcos' hdr hdr' h_i h_lt h_j h_hdr h_hdr'
    rw [h_enc, abort_cut] at h_j
    rw [h_sends] at h_i
    rcases Nat.lt_or_ge i (sendsIn d.log).length with h_old | h_new
    · rw [List.getElem?_append_left h_old] at h_i
      exact h.later i j failed carrier' zcos' hdr hdr' h_i h_lt h_j h_hdr h_hdr'
    · -- It is the last carrier cut.
      have h_len := (List.getElem?_eq_some_iff.mp h_j).1
      rw [h_cut, List.length_append, List.length_map, List.length_singleton] at h_len
      omega

theorem cutRoomy_of_sound {now : Nat} (h : Sound cfg d (.look now)) {endChunk last : Bool}
    (h_look : look cfg d now = if last then .over else .cut endChunk)
    (h_last : last = true → endChunk = true) : CutRoomy d.enc endChunk := by
  simp only [Sound] at h
  rw [h_look] at h
  cases last with
  | true =>
    rw [h_last rfl]
    exact h
  | false => exact h

theorem Stepped.numbering (h_outcomes : Outcomes d) (h : Numbering d) (h_sound : Sound cfg d e)
    (h_step : Stepped cfg d e d') : Numbering d' := by
  have h_none : ∀ s ∈ ([] : List (Octets × List Pend × Bool)), s.2.2 = true := by
    intro s h_s
    cases h_s
  cases h_step with
  | idle h_enc h_pending h_main h_work es h_log h_es =>
    refine h.quiet (h_enc ▸ h.range) (by rw [h_enc]) (by rw [h_enc]) ?_ h_none
    rw [h_log, sendsIn_append, (aloof_nil h_es).2.2]
  | added q h_hold h_add h_enc h_pending h_main h_work h_log =>
    have h_same := zclEncAdd_same d.enc q.bytes
    refine h.quiet (h_enc ▸ h.range.same h_same) (by rw [h_enc, h_same.cut])
      (by rw [h_enc, h_same.chunkId]) ?_ h_none
    rw [h_log, sendsIn_append]
    rfl
  | addFailed q h_hold h_add h_enc h_pending h_main h_work h_log =>
    have h_same := zclEncAdd_same d.enc q.bytes
    have h_roomy : Roomy (zclEncAdd c d.enc q.bytes).1 .abort :=
      roomy_of_same h_same ((h_sound q h_hold).resolve_left h_add)
    refine h.quiet (h_enc ▸ (h.range.same h_same).abort) ?_ ?_ ?_ h_none
    · rw [h_enc, abort_cut, h_same.cut]
    · rw [h_enc, ← h_same.chunkId]
      exact chunkId_le_abort h_roomy
    · rw [h_log, List.append_nil]
  | dropped q h_enc h_pending h_main h_work h_log =>
    refine h.quiet (h_enc ▸ h.range) (by rw [h_enc]) (by rw [h_enc]) ?_ h_none
    rw [h_log, sendsIn_append]
    rfl
  | cut endChunk last h_look h_last h_cut h_enc h_pending h_main h_idle h_work h_log =>
    exact h.cut h_cut (cutRoomy_of_sound h_sound h_look h_last).1 h_enc h_log
  | cutFailed endChunk last h_look h_last h_cut h_enc h_pending h_main h_idle h_work h_log =>
    have h_same := cut_of_failed h_cut
    have h_roomy : Roomy (zclEncCut c d.enc endChunk).1 .abort :=
      roomy_of_same h_same ((cutRoomy_of_sound h_sound h_look h_last).2 h_cut)
    refine h.quiet (h_enc ▸ (h.range.same h_same).abort) ?_ ?_ ?_ h_none
    · rw [h_enc, abort_cut, h_same.cut]
    · rw [h_enc, ← h_same.chunkId]
      exact chunkId_le_abort h_roomy
    · rw [h_log, List.append_nil]
  | sent carrier zcos h_enc h_pending h_main h_sending h_work h_log =>
    have h_sends : sendsIn d'.log = sendsIn d.log ++ [(carrier, zcos, true)] := by
      rw [h_log, sendsIn_append]
      rfl
    exact h.quiet (h_enc ▸ h.range) (by rw [h_enc]) (by rw [h_enc]) h_sends (by simp)
  | sendFailed carrier zcos h_enc h_pending h_main h_sending h_work h_log =>
    exact h.sendFailed h_outcomes h_sending h_sound.1
      (fun hdr h_hdr => h_sound.2 carrier zcos hdr (by rw [h_sending]) h_hdr) h_enc h_log
  | reported q sent reports h_enc h_pending h_main h_settling h_work h_log =>
    refine h.quiet (h_enc ▸ h.range) (by rw [h_enc]) (by rw [h_enc]) ?_ h_none
    rw [h_log, sendsIn_append]
    rfl

/-- **A chunk is given up for good.**  The carriers are sent in the order in which they were cut,
    and in every run that wraps no counter round where it matters, all carriers that are cut after
    one that could not be sent are of chunks with higher numbers. -/
theorem zclo_givesUp {es : List Event}
    (h_meets : Lts.Meets (step cfg) (Sound cfg) (CloState.start c) es)
    (h_run : Lts.run (step cfg) (CloState.start c) es = some d) : Outcomes d ∧ GivesUp d := by
  have h_step : ∀ (s : CloState c) e s', (CloOk s ∧ Outcomes s ∧ Numbering s) → Sound cfg s e →
      step cfg s e = some s' → CloOk s' ∧ Outcomes s' ∧ Numbering s' := by
    rintro s e s' ⟨h_ok, h_outcomes, h_num⟩ h_sound h_e
    have h_one := step_stepped h_ok h_e
    exact ⟨step_cloOk h_ok h_e, h_one.outcomes h_outcomes,
      h_one.numbering h_outcomes h_num h_sound⟩
  obtain ⟨-, h_outcomes, h_num⟩ := Lts.run_invariant_of_meets h_step
    ⟨cloOk_start, outcomes_start, numbering_start⟩ h_meets h_run
  exact ⟨h_outcomes, h_num.later⟩

/-- The carrier is refused: the chunk is left for the next one. -/
theorem zclo_givesUp_octet : ∃ d, Lts.run (step eagerCfg) (CloState.start storing)
    (octetEvents ++ [.send false]) = some d ∧ d.enc.enc.chunkId = 1 ∧ Outcomes d ∧ GivesUp d := by
  have h_run : Lts.run (step eagerCfg) (CloState.start storing)
      (octetEvents ++ [.send false]) = some { octetSending with
        flusher := .settling [(octetBundle, false)] false
        enc := zclEncAbort storing (afterCarriers 1)
        log := [.added octetBundle, .sent (oneOctet 0) [octetBundle] false] } :=
    Lts.run_append.mpr ⟨octetSending, run_octetEvents, rfl⟩
  have h_meets : Lts.Meets (step eagerCfg) (Sound eagerCfg) (CloState.start storing)
      (octetEvents ++ [.send false]) := by
    have h_add : Sound eagerCfg octetHeld (.add true 0) := by
      intro p h_p
      obtain rfl := MainPc.holding.inj h_p
      exact Or.inl (congrArg Prod.snd (add_oneOctet 0))
    have h_cut : Sound eagerCfg octetAdded (.look 0) := by
      have h_look : look eagerCfg octetAdded 0 = .cut false := by decide
      have h_rc : (zclEncCut storing octetAdded.enc false).2 = 1 :=
        congrArg Prod.snd (cut_oneOctet 0)
      simp only [Sound]
      rw [h_look]
      refine ⟨fun h => absurd h Bool.false_ne_true, fun h => ?_⟩
      rw [h_rc] at h
      cases h
    have h_send : Sound eagerCfg octetSending (.send false) :=
      ⟨fun _ => by decide, fun _ _ _ _ _ _ => by decide⟩
    refine .cons trivial rfl (.cons trivial rfl (.cons trivial rfl ?_))
    exact .cons h_add step_octetHeld (.cons h_cut step_octetAdded (.cons h_send rfl trivial))
  exact ⟨_, h_run, rfl, zclo_givesUp h_meets h_run⟩

end IonContrib.Zclo
