/-
  IonContrib.Tcpv4.Term

  No new transfer after a SESS_TERM.

  `tcpv4TxStop` keeps the transmit thread from taking another transfer off the
  queue.  It does not reach a transfer the thread has already taken: between
  the take (under `txMutex`) and the write of the START segment (under
  `sendMutex`) the thread reads the bundle, and a SESS_TERM of another thread
  can go out in between.  The SESS_TERM by which the receiver thread reports
  that it has no memory goes out without any `tcpv4TxStop`.
-/
import IonContrib.Tcpv4.TxReport

namespace IonContrib.Tcpv4

/-! ## The segments of a write -/

/-- The segments `sendSegments` puts into one write, in order, with their data. -/
def cutSegs (mtu : Nat) (x : Xfer) (len off : Nat) : Nat → Nat → List (XferSegment × Octets)
  | 0, _ => []
  | segs + 1, consumed =>
    if consumed < len then
      match cutSegment mtu x len off consumed with
      | none => []
      | some (seg, data) => (seg, data) :: cutSegs mtu x len off segs (consumed + seg.dataLength)
    else []

/-- A segment on the wire, as `sendSegments` gathers it. -/
def segmentOctets (p : XferSegment × Octets) : Octets :=
  (tcpv4MsgEncodeXferSegmentHdr sendHdrCap p.1).getD [] ++ p.2

-- The encoder is sealed: unfolding it would make Lean look at every octet of the header.
seal tcpv4MsgEncodeXferSegmentHdr in
theorem cutRun_succ (mtu : Nat) (x : Xfer) (len off segs consumed : Nat) :
    cutRun mtu x len off (segs + 1) consumed =
      if consumed < len then
        match cutSegment mtu x len off consumed with
        | none => none
        | some (seg, data) =>
          match tcpv4MsgEncodeXferSegmentHdr sendHdrCap seg,
              cutRun mtu x len off segs (consumed + seg.dataLength) with
          | some hdr, some (rest, consumed) => some (hdr ++ data ++ rest, consumed)
          | _, _ => none
      else some ([], consumed) := rfl

/-- What one more segment adds to a run. -/
theorem cutRun_succ_eq {mtu : Nat} {x : Xfer} {len off segs consumed consumed' : Nat}
    {data : Octets} (h : cutRun mtu x len off (segs + 1) consumed = some (data, consumed')) :
    (¬ consumed < len ∧ data = [] ∧ consumed' = consumed) ∨
      ∃ seg chunk hdr rest, consumed < len ∧ cutSegment mtu x len off consumed = some (seg, chunk) ∧
        tcpv4MsgEncodeXferSegmentHdr sendHdrCap seg = some hdr ∧
        cutRun mtu x len off segs (consumed + seg.dataLength) = some (rest, consumed') ∧
        data = hdr ++ chunk ++ rest := by
  rw [cutRun_succ] at h
  by_cases h_more : consumed < len
  · rw [if_pos h_more] at h
    cases h_cut : cutSegment mtu x len off consumed with
    | none => rw [h_cut] at h; cases h
    | some p =>
      obtain ⟨seg, chunk⟩ := p
      simp only [h_cut] at h
      split at h
      · rename_i hdr rest k h_hdr h_rest
        obtain ⟨rfl, rfl⟩ := Prod.mk.inj (Option.some.inj h)
        exact Or.inr ⟨seg, chunk, hdr, rest, h_more, rfl, h_hdr, h_rest, rfl⟩
      · cases h
  · rw [if_neg h_more] at h
    obtain ⟨rfl, rfl⟩ := Prod.mk.inj (Option.some.inj h)
    exact Or.inl ⟨h_more, rfl, rfl⟩

/-- A write is made of its segments and nothing else. -/
theorem cutRun_segs {mtu : Nat} {x : Xfer} {len off segs consumed consumed' : Nat} {data : Octets}
    (h : cutRun mtu x len off segs consumed = some (data, consumed')) :
    data = (cutSegs mtu x len off segs consumed).flatMap segmentOctets := by
  induction segs generalizing consumed data with
  | zero =>
    obtain ⟨rfl, -⟩ := Prod.mk.inj (Option.some.inj h)
    rfl
  | succ segs ih =>
    rcases cutRun_succ_eq h with ⟨h_done, rfl, -⟩ | ⟨seg, chunk, hdr, rest, h_more, h_cut, h_hdr,
        h_rest, rfl⟩
    · rw [cutSegs, if_neg h_done]
      rfl
    · rw [cutSegs, if_pos h_more, h_cut]
      simp only [List.flatMap_cons, segmentOctets, h_hdr, Option.getD_some, ← ih h_rest]

/-- A segment carries data of the bufferful, and begins the transfer only at its start. -/
theorem cutSegment_spec {mtu : Nat} {x : Xfer} {len off consumed : Nat} {seg : XferSegment}
    {data : Octets} (h : cutSegment mtu x len off consumed = some (seg, data)) :
    seg.dataLength ≤ len - consumed ∧ (seg.isStart = true → off + consumed = 0) := by
  have h_last : ∀ (p : Prop) [Decidable p], hasFlag (if p then tmsgFlagEnd else 0) tmsgFlagStart =
      false := by
    intro p _
    split <;> rfl
  have h_chunk : (if len - consumed > mtu then mtu else len - consumed) ≤ len - consumed := by
    split <;> omega
  unfold cutSegment at h
  by_cases h_first : off + consumed = 0
  · rw [if_pos h_first] at h
    obtain ⟨ext, -, h_seg⟩ := Option.map_eq_some_iff.mp h
    obtain ⟨rfl, -⟩ := Prod.mk.inj h_seg
    exact ⟨h_chunk, fun _ => h_first⟩
  · rw [if_neg h_first] at h
    obtain ⟨rfl, -⟩ := Prod.mk.inj (Option.some.inj h)
    refine ⟨h_chunk, fun h_start => ?_⟩
    rw [XferSegment.isStart, h_last] at h_start
    cases h_start

/-- So no segment of a write that starts within a transfer begins it. -/
theorem isStart_cutSegs {mtu : Nat} {x : Xfer} {len off segs consumed : Nat}
    (h_within : off + consumed ≠ 0) :
    ∀ p ∈ cutSegs mtu x len off segs consumed, p.1.isStart = false := by
  induction segs generalizing consumed with
  | zero => exact fun p h_p => absurd h_p List.not_mem_nil
  | succ segs ih =>
    intro p h_p
    unfold cutSegs at h_p
    split at h_p
    · split at h_p
      · cases h_p
      rename_i seg data h_cut
      rcases List.mem_cons.mp h_p with rfl | h_p
      · exact Bool.eq_false_iff.mpr fun h_start => h_within ((cutSegment_spec h_cut).2 h_start)
      · exact ih (by omega) p h_p
    · cases h_p

/-- A run takes the bufferful on, and not past its end. -/
theorem cutRun_consumed {mtu : Nat} {x : Xfer} {len off segs consumed consumed' : Nat}
    {data : Octets} (h_le : consumed ≤ len)
    (h : cutRun mtu x len off segs consumed = some (data, consumed')) :
    consumed ≤ consumed' ∧ consumed' ≤ len := by
  induction segs generalizing consumed data with
  | zero =>
    obtain ⟨-, rfl⟩ := Prod.mk.inj (Option.some.inj h)
    exact ⟨Nat.le_refl _, h_le⟩
  | succ segs ih =>
    rcases cutRun_succ_eq h with ⟨-, -, rfl⟩ | ⟨seg, chunk, hdr, rest, h_more, h_cut, -, h_rest, -⟩
    · exact ⟨Nat.le_refl _, h_le⟩
    · have h_len := (cutSegment_spec h_cut).1
      have h_next := ih (by omega) h_rest
      omega

/-! ## SESS_TERM and START -/

/-- The transmit thread holds no transfer whose START it may still have to write. -/
def XmitPc.begun : XmitPc → Prop
  | .opening _ => False
  | .reading _ off => off ≠ 0
  | .writing _ off len consumed => off ≠ 0 ∨ (consumed ≠ 0 ∧ len ≠ 0)
  | .checking _ off => off ≠ 0
  | _ => True

instance : DecidablePred XmitPc.begun
  | .opening _ => inferInstanceAs (Decidable False)
  | .reading _ off => inferInstanceAs (Decidable (off ≠ 0))
  | .writing _ off len consumed =>
    inferInstanceAs (Decidable (off ≠ 0 ∨ (consumed ≠ 0 ∧ len ≠ 0)))
  | .checking _ off => inferInstanceAs (Decidable (off ≠ 0))
  | .starting | .idle | .lettingGo _ _ | .reporting _ _ | .failing | .ended =>
    inferInstanceAs (Decidable True)

def Ctrl.isTerm : Ctrl → Bool
  | .sessTerm _ => true
  | _ => false

namespace Conn

/-- The segments the transmit thread writes next. -/
def segments (cfg : SessCfg) (c : Conn) : List (XferSegment × Octets) :=
  match c.xmitPc with
  | .writing x off len consumed =>
    cutSegs cfg.segmentMtu x len off tcpv4TxSegsPerWrite consumed
  | _ => []

/-- The step puts octets of a write on the wire that has a START segment in it. -/
def WritesStart (cfg : SessCfg) (c : Conn) (a : Act) (c' : Conn) : Prop :=
  (∃ o, a = .xmit o) ∧ c'.outOctets ≠ c.outOctets ∧ ∃ p ∈ c.segments cfg, p.1.isStart = true

/-- This end has put a SESS_TERM on the wire. -/
def TermOnWire (c : Conn) : Prop := ∃ m : Ctrl, m.isTerm = true ∧ .sent m ∈ c.log

/-- The thread is about to put a SESS_TERM on the wire. -/
def saysTerm (c : Conn) : Act → Bool
  | .recv _ => match c.rxPc with
    | .saying m _ _ => m.isTerm
    | _ => false
  | .clock _ => c.clockPc == .termSay
  | .stop _ => c.stopPc == .say
  | _ => false

/-- A SESS_TERM goes out only when the transmit thread has been stopped and is not about to
    begin a transfer. -/
def TermReady (c : Conn) (a : Act) : Prop :=
  c.saysTerm a = true → c.tx.txStopped = true ∧ c.xmitPc.begun

instance (c : Conn) (a : Act) : Decidable (c.TermReady a) :=
  inferInstanceAs (Decidable (_ → _))

/-- What holds from the SESS_TERM on. -/
def TermOk (c : Conn) : Prop := c.TermOnWire → c.tx.txStopped = true ∧ c.xmitPc.begun

end Conn

/-! ## The log -/

namespace Conn

variable {cfg : SessCfg} {c c' : Conn}

/-- The step says no SESS_TERM. -/
def NoTerm (c c' : Conn) : Prop := c'.TermOnWire → c.TermOnWire

theorem NoTerm.of_log (h : c'.log = c.log) : NoTerm c c' := by
  rintro ⟨m, h_m, h_mem⟩
  exact ⟨m, h_m, h ▸ h_mem⟩

theorem NoTerm.snoc {e : Event} (h_e : ∀ m : Ctrl, e = .sent m → m.isTerm = false)
    (h : c'.log = c.log ++ [e]) : NoTerm c c' := by
  rintro ⟨m, h_m, h_mem⟩
  rw [h, List.mem_append] at h_mem
  rcases h_mem with h_mem | h_mem
  · exact ⟨m, h_m, h_mem⟩
  · rw [h_e m (List.mem_singleton.mp h_mem).symm] at h_m
    cases h_m

/-- A short message other than a SESS_TERM. -/
theorem NoTerm.sendCtrl {m : Ctrl} {o : Outcome} {d : Conn} {b : Bool}
    (h_m : m.isTerm = false) (h : c.sendCtrl m o = some (d, b)) (h_log : c'.log = d.log) :
    NoTerm c c' := by
  rcases sendCtrl_cases h with ⟨-, -, rfl⟩ | ⟨-, n, rfl⟩
  · refine NoTerm.snoc (e := .sent m) ?_ h_log
    intro m' h_eq
    cases h_eq
    exact h_m
  · exact NoTerm.of_log h_log

theorem goOn_log (c : Conn) (next : RxNext) : (c.goOn next).log = c.log := by
  cases next <;> rfl

theorem call_noTerm {bundle : Octets} {o : Outcome} (h : c.call cfg bundle o = some c') :
    NoTerm c c' := by
  have h_away : NoTerm c ({ c with nextRef := c.nextRef + 1 }.note (.returned c.nextRef false)) :=
    NoTerm.snoc (by simp) rfl
  unfold call at h
  split at h
  · cases h
  simp only at h
  split at h
  · exact Option.some.inj h ▸ h_away
  · rcases Outcome.noMem_or h with h | h
    · exact Option.some.inj h ▸ h_away
    · exact Option.some.inj h ▸ NoTerm.of_log rfl

theorem leave_noTerm (r : Nat) (ok : Bool) {d : Conn} (h_log : d.log = c.log) :
    NoTerm c (d.leave r ok) := by
  refine NoTerm.snoc (e := .returned r ok) (by simp) ?_
  show d.log ++ [.returned r ok] = _
  rw [h_log]

theorem room_noTerm {r : Nat} (h : c.room cfg r = some c') : NoTerm c c' := by
  unfold room at h
  split at h
  · cases h
  split at h
  · cases h
  simp only at h
  split at h
  · exact Option.some.inj h ▸ leave_noTerm r true rfl
  · exact Option.some.inj h ▸ leave_noTerm r false rfl

theorem timeout_noTerm {r : Nat} (h : c.timeout cfg r = some c') : NoTerm c c' := by
  unfold timeout at h
  split at h
  · cases h
  split at h
  · exact Option.some.inj h ▸ leave_noTerm r false rfl
  · cases h

theorem xmit_noTerm (h : XmitStep cfg c c') : NoTerm c c' := by
  cases h with
  | took x tx h_pc h_take => exact NoTerm.snoc (e := .took x) (by simp) rfl
  | reported x failed h_pc =>
    exact NoTerm.snoc (e := .reported x.ref x.bundle (tcpv4XferSucceeded x)) (by simp) rfl
  | wrote x off len consumed data consumed' o d b h_pc h_more h_run h_send =>
    rcases send_cases h_send with ⟨-, -, rfl⟩ | ⟨-, n, rfl⟩
    · exact NoTerm.of_log rfl
    · exact NoTerm.of_log rfl
  | _ => exact NoTerm.of_log rfl

theorem recv_noTerm {o : Outcome} (h_say : c.saysTerm (.recv o) = false)
    (h : RecvStep cfg c c') : NoTerm c c' := by
  cases h with
  | quit clean h_pc h_clean => exact NoTerm.of_log rfl
  | segment seg rest o h_pc h_in =>
    obtain ⟨rx, pc, h_eq, -⟩ := handleSegmentHdr_shape cfg { c with inOctets := rest } seg o
    exact NoTerm.of_log (by rw [h_eq])
  | ack m rest h_pc h_in =>
    obtain ⟨tx, pc, h_eq, -⟩ := handleAck_shape { c with inOctets := rest } m
    exact NoTerm.of_log (by rw [h_eq])
  | refuse m rest h_pc h_in =>
    obtain ⟨tx, pc, h_eq, -⟩ := handleRefuse_shape { c with inOctets := rest } m
    exact NoTerm.of_log (by rw [h_eq])
  | reject m rest h_pc h_in =>
    obtain ⟨term, state, pc, h_eq, -⟩ := handleReject_shape { c with inOctets := rest } m
    exact NoTerm.of_log (by rw [h_eq])
  | refuseSaid reason seg o d b h_pc h_busy h_bad h_send =>
    exact NoTerm.sendCtrl rfl h_send rfl
  | drained seg data rest h_pc h_ref h_len h_in =>
    obtain ⟨rx, pc, h_eq, -⟩ := finishSegment_shape { c with inOctets := rest } seg
    exact NoTerm.of_log (by rw [h_eq])
  | stored seg rx mem data rest h_pc h_ref h_rx h_len h_in =>
    obtain ⟨rx', pc, h_eq, -⟩ := finishSegment_shape { c with
      rx := segmentStore rx data, inOctets := rest } seg
    exact NoTerm.of_log (by rw [h_eq])
  | acked m o d b h_pc h_busy h_bad h_send =>
    exact NoTerm.sendCtrl rfl h_send (goOn_log d _)
  | reported x reject h_pc =>
    exact NoTerm.snoc (e := .reported x.ref x.bundle (tcpv4XferSucceeded x)) (by simp) rfl
  | stopped say ok bad h_pc =>
    cases say with
    | none => exact NoTerm.of_log (goOn_log { c with tx := tcpv4TxStop c.tx } ok)
    | some m => exact NoTerm.of_log rfl
  | said m ok bad o d b h_pc h_send =>
    have h_m : m.isTerm = false := by simpa [saysTerm, h_pc] using h_say
    exact NoTerm.sendCtrl h_m h_send (goOn_log d _)
  | _ => exact NoTerm.of_log rfl

theorem dlv_noTerm {o : Outcome} (h : c.dlvStep o = some c') : NoTerm c c' := by
  unfold dlvStep at h
  split at h
  · split at h
    · exact Option.some.inj h ▸ NoTerm.of_log rfl
    · split at h
      · exact Option.some.inj h ▸ NoTerm.of_log rfl
      · cases h
  · rcases Outcome.err_or h with h | h
    · exact Option.some.inj h ▸ NoTerm.of_log rfl
    · exact Option.some.inj h ▸ NoTerm.snoc (e := .delivered c.dlv.bundle) (by simp) rfl
  · obtain ⟨⟨d, b⟩, h_send, rfl⟩ := Option.map_eq_some_iff.mp h
    exact NoTerm.sendCtrl rfl h_send rfl
  · exact Option.some.inj h ▸ NoTerm.of_log rfl
  · exact Option.some.inj h ▸ NoTerm.of_log rfl
  · cases h

theorem clockTick_noTerm (cfg : SessCfg) (c : Conn) : NoTerm c (c.clockTick cfg) := by
  unfold clockTick
  split
  · exact NoTerm.of_log rfl
  · simp only
    split
    · exact NoTerm.snoc (e := .idleTerm) (by simp) rfl
    · exact NoTerm.of_log rfl

theorem clock_noTerm {o : Outcome} (h_say : c.saysTerm (.clock o) = false)
    (h : c.clockStep cfg o = some c') : NoTerm c c' := by
  unfold clockStep at h
  split at h
  · split at h
    · exact Option.some.inj h ▸ clockTick_noTerm cfg c
    · cases h
  · exact Option.some.inj h ▸ NoTerm.of_log rfl
  · exact Option.some.inj h ▸ NoTerm.of_log rfl
  · rename_i h_pc
    simp [saysTerm, h_pc] at h_say
  · obtain ⟨⟨d, b⟩, h_send, rfl⟩ := Option.map_eq_some_iff.mp h
    exact NoTerm.sendCtrl rfl h_send rfl
  · exact Option.some.inj h ▸ NoTerm.of_log rfl

theorem stop_noTerm {o : Outcome} (h_say : c.saysTerm (.stop o) = false)
    (h : c.stopStep o = some c') : NoTerm c c' := by
  unfold stopStep at h
  split at h
  · split at h
    · exact Option.some.inj h ▸ NoTerm.of_log rfl
    · cases h
  · exact Option.some.inj h ▸ NoTerm.of_log rfl
  · exact Option.some.inj h ▸ NoTerm.of_log rfl
  · exact Option.some.inj h ▸ NoTerm.of_log rfl
  · rename_i h_pc
    simp [saysTerm, h_pc] at h_say
  · exact Option.some.inj h ▸ NoTerm.of_log rfl
  · cases h

theorem free_noTerm (h : c.freeStep = some c') : NoTerm c c' := by
  unfold freeStep at h
  split at h
  · split at h
    · cases h
    · rename_i x rest h_dead
      exact Option.some.inj h ▸
        NoTerm.snoc (e := .reported x.ref x.bundle (tcpv4XferSucceeded x)) (by simp) rfl
  · split at h
    · exact Option.some.inj h ▸ NoTerm.of_log rfl
    · cases h

/-- A SESS_TERM gets on the wire only in a step that says one. -/
theorem step_noTerm {a : Act} (h_say : c.saysTerm a = false) (h : step cfg c a = some c') :
    NoTerm c c' := by
  cases a with
  | call bundle o => exact call_noTerm h
  | room r => exact room_noTerm h
  | timeout r => exact timeout_noTerm h
  | xmit o => exact xmit_noTerm (xmitStep_cases h)
  | recv o => exact recv_noTerm h_say (recvStep_cases h)
  | dlv o => exact dlv_noTerm h
  | clock o => exact clock_noTerm h_say h
  | stop o => exact stop_noTerm h_say h
  | free => exact free_noTerm h
  | arrive data => exact Option.some.inj h ▸ NoTerm.of_log rfl

/-! ## From the SESS_TERM on -/

end Conn

/-- Transmission that has been stopped stays so, and nothing is taken off the queue. -/
theorem Ledger.stopped_step {w : TxWindow} {l l' : Ledger} (h_stop : l.tx.txStopped = true)
    (h : Ledger.Step w l l') : l'.tx.txStopped = true := by
  cases h with
  | stop => rfl
  | drain held h_held => rfl
  | accept x h_mem h_room h_open => simp [h_stop] at h_open
  | take x t h_take =>
    obtain ⟨-, -, -, h_open, -⟩ := xmitTake_cases h_take
    simp [h_stop] at h_open
  | retire t done held h_tx h_held => exact h_tx.stopped.trans h_stop
  | _ => exact h_stop

namespace Conn

variable {cfg : SessCfg} {c c' : Conn}

/-- A stopped transmit thread that is not about to begin a transfer does not get there. -/
theorem xmit_begun (h_stop : c.tx.txStopped = true) (h_begun : c.xmitPc.begun)
    (h : XmitStep cfg c c') : c'.xmitPc.begun := by
  cases h with
  | took x tx h_pc h_take =>
    obtain ⟨-, -, -, h_open, -⟩ := xmitTake_cases h_take
    simp [h_stop] at h_open
  | opened x h_pc =>
    -- An opened transfer has no octet on the wire, so this was ruled out before.
    rw [h_pc] at h_begun
    exact absurd h_begun id
  | read x off h_pc h_off =>
    rw [h_pc] at h_begun
    exact Or.inl h_begun
  | wrote x off len consumed data consumed' o d b h_pc h_more h_run h_send =>
    rw [h_pc] at h_begun
    cases b with
    | false => trivial
    | true =>
      have h_on := cutRun_consumed (Nat.le_of_lt h_more) h_run
      rcases h_begun with h_off | ⟨h_consumed, h_len⟩
      · exact Or.inl h_off
      · refine Or.inr ⟨?_, h_len⟩
        omega
  | bufferDone x off len consumed h_pc h_done =>
    rw [h_pc] at h_begun
    show off + len ≠ 0
    rcases h_begun with h_off | ⟨-, h_len⟩
    · omega
    · omega
  | wentOn x off h_pc h_ref =>
    rw [h_pc] at h_begun
    exact h_begun
  | letGo x failed tx done h_pc h_go =>
    cases done with
    | none => cases failed <;> trivial
    | some y => trivial
  | reported x failed h_pc => cases failed <;> trivial
  | _ => trivial

/-- The other threads do not move the transmit thread. -/
theorem step_xmitPc {a : Act} (h_other : ∀ o, a ≠ .xmit o) (h : step cfg c a = some c') :
    c'.xmitPc = c.xmitPc := by
  have h_of_place : c'.place = c.place → c'.xmitPc = c.xmitPc := by
    intro h_place
    simp only [place, Prod.mk.injEq] at h_place
    exact h_place.2.1
  cases a with
  | call bundle o => exact h_of_place (call_place h)
  | room r => exact h_of_place (room_place h)
  | timeout r => exact h_of_place (timeout_place h)
  | xmit o => exact absurd rfl (h_other o)
  | recv o => exact (recvStep_frame (recvStep_cases h)).1.xmitPc
  | dlv o => exact h_of_place (dlv_place h)
  | clock o => exact h_of_place (clock_place h)
  | stop o => exact h_of_place (stop_place h)
  | free =>
    simp only [step, freeStep] at h
    split at h
    · split at h
      · cases h
      · exact Option.some.inj h ▸ rfl
    · split at h
      · exact Option.some.inj h ▸ rfl
      · cases h
  | arrive data => exact Option.some.inj h ▸ rfl

theorem termOk_step {a : Act} (h_down : c.DownOk) (h_ok : c.TermOk) (h_ready : c.TermReady a)
    (h : step cfg c a = some c') : c'.TermOk := by
  intro h_term
  -- The SESS_TERM was there before, or goes out in this step; either way all was ready for it.
  have h_before : c.tx.txStopped = true ∧ c.xmitPc.begun := by
    cases h_say : c.saysTerm a with
    | true => exact h_ready h_say
    | false => exact h_ok (step_noTerm h_say h h_term)
  obtain ⟨h_stop, h_begun⟩ := h_before
  refine ⟨Ledger.stopped_step (l := c.ledger) h_stop (step_ledger h_down h), ?_⟩
  by_cases h_xmit : ∃ o, a = .xmit o
  · obtain ⟨o, rfl⟩ := h_xmit
    exact xmit_begun h_stop h_begun (xmitStep_cases h)
  · rw [step_xmitPc (fun o h_a => h_xmit ⟨o, h_a⟩) h]
    exact h_begun

/-- The invariant of a session whose SESS_TERMs all find it ready. -/
structure TermInv (cfg : SessCfg) (c : Conn) : Prop where
  ledger : c.ledger.Ok cfg.window
  down : c.DownOk
  term : c.TermOk

theorem termInv_init : Conn.init.TermInv cfg where
  ledger := Ledger.ok_init
  down := downOk_init
  term := by
    rintro ⟨m, -, h_mem⟩
    cases h_mem

theorem termInv_step {a : Act} (h_inv : c.TermInv cfg) (h_ready : c.TermReady a)
    (h : step cfg c a = some c') : c'.TermInv cfg where
  ledger := Ledger.ok_step h_inv.ledger (step_ledger h_inv.down h)
  down := downOk_step h_inv.ledger h_inv.down h
  term := termOk_step h_inv.down h_inv.term h_ready h

/-- No START is left in what a thread writes that is not about to begin a transfer. -/
theorem not_writesStart {a : Act} (h_begun : c.xmitPc.begun) : ¬ WritesStart cfg c a c' := by
  rintro ⟨-, -, p, h_p, h_start⟩
  unfold segments at h_p
  split at h_p
  · rename_i x off len consumed h_pc
    rw [h_pc] at h_begun
    have h_within : off + consumed ≠ 0 := by
      rcases h_begun with h_off | ⟨h_consumed, -⟩
      · omega
      · omega
    rw [isStart_cutSegs h_within p h_p] at h_start
    cases h_start
  · cases h_p

/-! ## A transfer under way finishes -/

/-- The session with its transmission stopped. -/
def stopTx (c : Conn) : Conn := { c with tx := tcpv4TxStop c.tx }

theorem tcpv4TxFinished_stop (t : TxSide) (x : Option Xfer) :
    tcpv4TxFinished (tcpv4TxStop t) x =
      (tcpv4TxStop (tcpv4TxFinished t x).1, (tcpv4TxFinished t x).2) := by
  cases x with
  | none => rfl
  | some x =>
    unfold tcpv4TxFinished tcpv4TxStop
    by_cases h_open : (x.inFlight || (!x.acked && !x.refused)) = true
    · simp only [h_open, if_true]
    · simp only [h_open, if_false, Bool.false_eq_true]
      by_cases h_head : t.txWindow.items.head?.map Xfer.ref = some x.ref
      · simp only [h_head, if_true]
        cases txUnlink t.txWindow x.ref <;> rfl
      · simp only [h_head, if_false]
        cases txUnlink t.txWindow x.ref <;> rfl

theorem xmitLetGo_stop (t : TxSide) (r : Nat) (failed : Bool) :
    xmitLetGo (tcpv4TxStop t) r failed =
      (tcpv4TxStop (xmitLetGo t r failed).1, (xmitLetGo t r failed).2) := by
  unfold xmitLetGo
  exact tcpv4TxFinished_stop (t.touch r fun x =>
    { x with inFlight := false, refused := if failed then true else x.refused }) _

theorem send_stopTx (c : Conn) (data : Octets) (o : Outcome) :
    c.stopTx.send data o = (c.send data o).map fun p => (p.1.stopTx, p.2) := by
  have h_broken : c.stopTx.broken = c.broken := rfl
  cases o with
  | ok =>
    simp only [send, h_broken]
    by_cases h : c.broken = true
    · simp [h]
    · simp [h, stopTx]
  | _ => rfl

/-- Stopping transmission does not change what the transmit thread does with the transfer
    it has. -/
theorem xmitStep_stopTx (h_busy : c.xmitPc ≠ .idle) (o : Outcome) :
    c.stopTx.xmitStep cfg o = (c.xmitStep cfg o).map stopTx := by
  unfold xmitStep
  cases h_pc : c.xmitPc with
  | idle => exact absurd h_pc h_busy
  | starting => cases o <;> simp [stopTx, h_pc]
  | opening x => cases o <;> simp [stopTx, h_pc]
  | reading x off =>
    simp only [stopTx, h_pc]
    split
    · cases o <;> rfl
    · rfl
  | writing x off len consumed =>
    have h_pc' : c.stopTx.xmitPc = .writing x off len consumed := h_pc
    simp only [h_pc']
    split
    · split
      · rfl
      · rename_i data consumed' h_run
        rw [send_stopTx]
        cases c.send data o with
        | none => rfl
        | some p =>
          obtain ⟨d, b⟩ := p
          cases b <;> rfl
    · rfl
  | checking x off =>
    have h_pc' : c.stopTx.xmitPc = .checking x off := h_pc
    have h_ref : c.stopTx.refusedNow x = c.refusedNow x := rfl
    simp only [h_pc', h_ref]
    split <;> rfl
  | lettingGo x failed =>
    have h_pc' : c.stopTx.xmitPc = .lettingGo x failed := h_pc
    have h_tx : c.stopTx.tx = tcpv4TxStop c.tx := rfl
    simp only [h_pc', h_tx, xmitLetGo_stop]
    cases h_done : (xmitLetGo c.tx x.ref failed).2 with
    | none =>
      have h_pair : xmitLetGo c.tx x.ref failed = ((xmitLetGo c.tx x.ref failed).1, none) := by
        rw [← h_done]
      rw [h_pair]
      rfl
    | some y =>
      have h_pair : xmitLetGo c.tx x.ref failed = ((xmitLetGo c.tx x.ref failed).1, some y) := by
        rw [← h_done]
      rw [h_pair]
      rfl
  | reporting x failed => simp [stopTx, h_pc, report, note]
  | failing => simp [stopTx, h_pc, tcpv4ConnFail]
  | ended => simp [stopTx, h_pc]

/-! ## The claim over runs -/

/-- **In every run in which each SESS_TERM finds the transmit thread stopped and not about to
    begin a transfer, no START goes out after a SESS_TERM**, and the transmit thread does
    with a transfer it has what it would do without the stop. -/
theorem run_noStart (cfg : SessCfg) {as : List Act} {c : Conn}
    (h_run : Lts.run (step cfg) Conn.init as = some c)
    (h_ready : Lts.Meets (step cfg) TermReady Conn.init as) :
    (c.TermOnWire → ∀ a c', step cfg c a = some c' → ¬ WritesStart cfg c a c') ∧
      (c.xmitPc ≠ .idle → ∀ o, c.stopTx.xmitStep cfg o = (c.xmitStep cfg o).map stopTx) := by
  have h_step : ∀ c a c', TermInv cfg c → TermReady c a → step cfg c a = some c' →
      TermInv cfg c' := fun _ _ _ h_inv h_rdy h => termInv_step h_inv h_rdy h
  have h_inv := Lts.run_invariant_of_meets h_step termInv_init h_ready h_run
  refine ⟨fun h_term a c' _ => ?_, fun h_busy o => xmitStep_stopTx h_busy o⟩
  exact not_writesStart (h_inv.term h_term).2

/-! ## A SESS_TERM in the middle of a transfer, and one just before -/

def termCfg : SessCfg := ⟨⟨64, 64⟩, ⟨0, 0⟩, 64, 64, 0, 0⟩

/-- A bundle of one octet is taken off the queue. -/
def takenRun : List Act := [.call [5] .ok, .room 0, .xmit .ok, .xmit .ok]

/-- The peer's SESS_TERM is read and answered. -/
def answeredRun : List Act :=
  [.arrive [tmsgSessTerm, 0, tmsgTermUnknown], .recv .ok, .recv .ok, .recv .ok, .recv .ok]

/-- The START is written before the answer, and the rest of the transfer after it. -/
def startedRun : List Act :=
  takenRun ++ [.xmit .ok, .xmit .ok, .xmit .ok] ++ answeredRun ++ [.xmit .ok]

/-- The transmit thread reads the bundle while the answer goes out. -/
def racedRun : List Act := takenRun ++ answeredRun ++ [.xmit .ok, .xmit .ok]

theorem run_noStart_started :
    ∃ c, Lts.run (step termCfg) Conn.init startedRun = some c ∧ c.TermOnWire ∧
      (c.TermOnWire → ∀ a c', step termCfg c a = some c' → ¬ WritesStart termCfg c a c') ∧
      (c.xmitPc ≠ .idle → ∀ o, c.stopTx.xmitStep termCfg o = (c.xmitStep termCfg o).map stopTx) := by
  have h_end : (Lts.run (step termCfg) Conn.init startedRun).map
      (fun c => decide (.sent (.sessTerm ⟨tmsgTermFlagReply, tmsgTermUnknown⟩) ∈ c.log)) =
        some true := by decide +kernel
  obtain ⟨c, h_run, h_term⟩ := Option.map_eq_some_iff.mp h_end
  have h_ready : Lts.Meets (step termCfg) TermReady Conn.init startedRun := by decide +kernel
  obtain ⟨h_none, h_finish⟩ := run_noStart termCfg h_run h_ready
  exact ⟨c, h_run, ⟨_, rfl, of_decide_eq_true h_term⟩, h_none, h_finish⟩

/-- The START of a transfer follows a SESS_TERM on the wire: the transmit thread had taken
    the transfer when transmission was stopped. -/
theorem raced_start :
    ∃ c, Lts.run (step termCfg) Conn.init racedRun = some c ∧ c.TermOnWire ∧
      ∃ a c', step termCfg c a = some c' ∧ WritesStart termCfg c a c' := by
  have h_end : (Lts.run (step termCfg) Conn.init racedRun).map
      (fun c => (decide (.sent (.sessTerm ⟨tmsgTermFlagReply, tmsgTermUnknown⟩) ∈ c.log),
        (step termCfg c (.xmit .ok)).map fun d => decide (d.outOctets ≠ c.outOctets),
        (c.segments termCfg).any fun p => p.1.isStart)) = some (true, some true, true) := by
    decide +kernel
  obtain ⟨c, h_run, h_c⟩ := Option.map_eq_some_iff.mp h_end
  simp only [Prod.mk.injEq] at h_c
  obtain ⟨h_term, h_step, h_seg⟩ := h_c
  obtain ⟨d, h_step, h_out⟩ := Option.map_eq_some_iff.mp h_step
  obtain ⟨p, h_p, h_start⟩ := List.any_eq_true.mp h_seg
  exact ⟨c, h_run, ⟨_, rfl, of_decide_eq_true h_term⟩, .xmit .ok, d, h_step, ⟨.ok, rfl⟩,
    of_decide_eq_true h_out, p, h_p, h_start⟩

end Conn

end IonContrib.Tcpv4
