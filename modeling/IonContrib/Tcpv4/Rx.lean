/-
  IonContrib.Tcpv4.Rx

  The reception side of a session (`tcpv4rx.c`): reassembly of one transfer and
  the hand-off to the delivery thread.

  `handleXferSegment` is cut where it can block: `segmentAdmit` (header to the
  Transfer MRU check), `segmentStore` (the payload), `segmentDone` (the END
  branch).  Between the cuts it waits for the delivery thread or for octets.
-/
import IonContrib.Lib.Doubling
import IonContrib.Tcpv4.Msg

namespace IonContrib.Tcpv4

/-- The MRUs a node advertises (`e->cfg`). -/
structure RxCfg where
  segmentMru : Nat
  transferMru : Nat
  deriving DecidableEq, Repr

/-- The short messages, written by `tcpv4Send...` in one piece. -/
inductive Ctrl where
  | ack (m : XferAck)
  | refuse (m : XferRefuse)
  | sessTerm (m : SessTerm)
  | msgReject (m : MsgReject)
  | keepalive
  deriving DecidableEq, Repr

def Ctrl.encode : Ctrl → Option Octets
  | .ack m => tcpv4MsgEncodeXferAck 18 m
  | .refuse m => tcpv4MsgEncodeXferRefuse 10 m
  | .sessTerm m => tcpv4MsgEncodeSessTerm 3 m
  | .msgReject m => tcpv4MsgEncodeMsgReject 3 m
  | .keepalive => tcpv4MsgEncodeKeepalive 1

/-- The octets of a short message, type octet first. -/
def Ctrl.octets : Ctrl → Octets
  | .ack m => tmsgXferAck :: m.body
  | .refuse m => tmsgXferRefuse :: m.body
  | .sessTerm m => [tmsgSessTerm, m.flags, m.reason]
  | .msgReject m => [tmsgMsgReject, m.reason, m.rejectedType]
  | .keepalive => [tmsgKeepalive]

/-- No encoder runs out of the buffer its caller has. -/
theorem Ctrl.encode_eq (m : Ctrl) : m.encode = some m.octets := by
  cases m with
  | ack m => exact tcpv4MsgEncodeXferAck_eq m
  | refuse m => exact tcpv4MsgEncodeXferRefuse_eq m
  | sessTerm m => rfl
  | msgReject m => rfl
  | keepalive => rfl

/-! ## Reassembly -/

/-- The receiver thread's fields of `Tcpv4Conn`; `rxCap` is the length of `rxBundle`. -/
structure RxSide where
  rxBundle : Octets
  rxLen : Nat
  rxId : Nat
  rxActive : Bool
  rxRefused : Bool
  deriving DecidableEq, Repr

def RxSide.init : RxSide := ⟨[], 0, 0, false, false⟩

/-- `none` when there is no memory for a larger buffer. -/
def rxReserve (rx : RxSide) (want : Nat) (mem : Bool) : Option RxSide :=
  if want ≤ rx.rxBundle.length then some rx
  else if !mem then none
  else
    let cap := if rx.rxBundle.length = 0 then 8192 else rx.rxBundle.length
    let cap := doubleUntil want cap want
    some { rx with
      rxBundle := rx.rxBundle.take rx.rxLen ++ List.replicate (cap - rx.rxLen) 0 }

/-- How the first part of `handleXferSegment` ends: the session fails after `m`, the
    transfer is refused for `reason`, or the payload can be read. -/
inductive Admit where
  | fail (m : Ctrl)
  | refuse (reason : UInt8)
  | accept
  deriving DecidableEq, Repr

def termExhausted : Ctrl := .sessTerm ⟨0, tmsgTermResourceExhaustion⟩

def rejectUnexpected (type : UInt8) : Ctrl := .msgReject ⟨tmsgRejectUnexpected, type⟩

/-- The Transfer MRU check, made for every segment of a transfer that is not refused. -/
def segmentCheckMru (cfg : RxCfg) (rx : RxSide) (seg : XferSegment) : RxSide × Admit :=
  if !rx.rxRefused && decide (rx.rxLen + seg.dataLength > cfg.transferMru) then
    ({ rx with rxRefused := true }, .refuse tmsgRefuseNoResources)
  else (rx, .accept)

def segmentAdmit (cfg : RxCfg) (ending : Bool) (rx : RxSide) (seg : XferSegment)
    (mem : Bool) : RxSide × Admit :=
  if seg.dataLength > cfg.segmentMru then (rx, .fail termExhausted)
  else if seg.isStart then
    if rx.rxActive then (rx, .fail (rejectUnexpected tmsgXferSegment))
    else
      let rx := { rx with
        rxActive := true, rxId := seg.transferId, rxLen := 0, rxRefused := false }
      if ending then ({ rx with rxRefused := true }, .refuse tmsgRefuseSessTerm)
      else if segmentHasCriticalExt seg then
        ({ rx with rxRefused := true }, .refuse tmsgRefuseExtFailure)
      else
        match tcpv4MsgFindXferLength seg.xferExt with
        | none => segmentCheckMru cfg rx seg
        | some total =>
          if total > cfg.transferMru then
            ({ rx with rxRefused := true }, .refuse tmsgRefuseNoResources)
          else
            match rxReserve rx total mem with
            | none => (rx, .fail termExhausted)
            | some rx => segmentCheckMru cfg rx seg
  else if !rx.rxActive || seg.transferId != rx.rxId then
    (rx, .fail (rejectUnexpected tmsgXferSegment))
  else segmentCheckMru cfg rx seg

/-- The payload of a transfer that is not refused, read into the reassembly buffer. -/
def segmentStore (rx : RxSide) (data : Octets) : RxSide :=
  { rx with
    rxBundle := rx.rxBundle.splice rx.rxLen data
    rxLen := rx.rxLen + data.length }

/-- What is left to do for a segment whose payload has been read. -/
inductive SegNext where
  | next
  | ack (m : XferAck)
  | handOver
  deriving DecidableEq, Repr

def segmentDone (rx : RxSide) (seg : XferSegment) : RxSide × SegNext :=
  if seg.isEnd then
    ({ rx with rxActive := false }, if rx.rxRefused then .next else .handOver)
  else (rx, if rx.rxRefused then .next else .ack ⟨seg.flags, seg.transferId, rx.rxLen⟩)

/-! ## The hand-off -/

/-- The fields `dlvMutex` guards; `dlvCap` is the length of `dlvBundle`. -/
structure DlvSide where
  dlvBundle : Octets
  dlvLen : Nat
  dlvId : Nat
  dlvFlags : UInt8
  dlvPending : Bool
  dlvStopped : Bool
  dlvFailed : Bool
  deriving DecidableEq, Repr

def DlvSide.init : DlvSide := ⟨[], 0, 0, 0, false, false, false⟩

/-- The condition the receiver thread waits on before it says anything about a
    transfer (`rxAwaitDelivery`) and before it hands one over. -/
def DlvSide.busy (d : DlvSide) : Bool := d.dlvPending && !d.dlvStopped && !d.dlvFailed

/-- What `rxAwaitDelivery` answers -1 for. -/
def DlvSide.bad (d : DlvSide) : Bool := d.dlvStopped || d.dlvFailed

/-- The locked end of `handOverTransfer`: the two buffers are swapped. -/
def handOverTransfer (rx : RxSide) (d : DlvSide) (seg : XferSegment) : RxSide × DlvSide :=
  ({ rx with rxBundle := d.dlvBundle, rxLen := 0 },
   { d with
      dlvBundle := rx.rxBundle
      dlvLen := rx.rxLen
      dlvId := seg.transferId
      dlvFlags := seg.flags
      dlvPending := true })

/-- The octets the delivery thread hands to BP. -/
def DlvSide.bundle (d : DlvSide) : Octets := d.dlvBundle.take d.dlvLen

/-- The acknowledgement the delivery thread sends once BP has the bundle. -/
def DlvSide.ack (d : DlvSide) : XferAck := ⟨d.dlvFlags, d.dlvId, d.dlvLen⟩

/-! ## What the pieces do -/

/-- Growing the buffer keeps what has been reassembled and makes the room asked for. -/
theorem rxReserve_spec {rx rx' : RxSide} {want : Nat} {mem : Bool}
    (h_len : rx.rxLen ≤ rx.rxBundle.length) (h : rxReserve rx want mem = some rx') :
    rx'.rxLen = rx.rxLen ∧ rx'.rxId = rx.rxId ∧ rx'.rxActive = rx.rxActive ∧
      rx'.rxRefused = rx.rxRefused ∧
      rx'.rxBundle.take rx.rxLen = rx.rxBundle.take rx.rxLen ∧
      want ≤ rx'.rxBundle.length ∧ rx.rxLen ≤ rx'.rxBundle.length := by
  unfold rxReserve at h
  by_cases h_want : want ≤ rx.rxBundle.length
  · rw [if_pos h_want] at h
    obtain rfl : rx = rx' := by simpa using h
    exact ⟨rfl, rfl, rfl, rfl, rfl, h_want, h_len⟩
  · rw [if_neg h_want] at h
    cases mem with
    | false => simp at h
    | true =>
      simp only [Bool.not_true, Bool.false_eq_true, if_false, Option.some.injEq] at h
      subst h
      have h_pos : 0 < (if rx.rxBundle.length = 0 then 8192 else rx.rxBundle.length) := by
        split <;> omega
      have h_cap := le_doubleUntil h_pos (show want ≤ _ + want from Nat.le_add_left _ _)
      have h_take : (rx.rxBundle.take rx.rxLen).length = rx.rxLen := by
        rw [List.length_take]
        omega
      refine ⟨rfl, rfl, rfl, rfl, ?_, ?_, ?_⟩
      · exact List.take_left' h_take
      · simp only [List.length_append, List.length_replicate, h_take]
        omega
      · simp only [List.length_append, h_take]
        omega

/-- Storing a payload the buffer has room for extends what has been reassembled. -/
theorem segmentStore_spec {rx : RxSide} {data : Octets}
    (h_room : rx.rxLen + data.length ≤ rx.rxBundle.length) :
    (segmentStore rx data).rxBundle.take (segmentStore rx data).rxLen =
        rx.rxBundle.take rx.rxLen ++ data ∧
      (segmentStore rx data).rxLen ≤ (segmentStore rx data).rxBundle.length := by
  refine ⟨Octets.take_splice h_room, ?_⟩
  simpa [segmentStore, Octets.length_splice h_room] using h_room

/-- The END branch as a whole: the transfer ends with its END segment, and only one that is
    not refused is acknowledged or handed over. -/
theorem segmentDone_eq (rx : RxSide) (seg : XferSegment) :
    segmentDone rx seg =
      (if seg.isEnd then { rx with rxActive := false } else rx,
        if rx.rxRefused then .next
        else if seg.isEnd then .handOver
        else .ack ⟨seg.flags, seg.transferId, rx.rxLen⟩) := by
  unfold segmentDone
  cases seg.isEnd with
  | true => rfl
  | false => rfl

/-- The reassembly state after a segment has been let in: a START begins afresh, any
    other segment goes on with what there is. -/
structure Admitted (rx rx' : RxSide) (seg : XferSegment) : Prop where
  active : rx'.rxActive = true
  id : rx'.rxId = seg.transferId
  room : rx'.rxLen ≤ rx'.rxBundle.length
  kept : rx'.rxBundle.take rx'.rxLen = if seg.isStart then [] else rx.rxBundle.take rx.rxLen
  refused : seg.isStart = false → rx.rxRefused = true → rx'.rxRefused = true

/-- Why a segment fails the session: it is too long, a START comes while a transfer is
    active, another comes outside of the active transfer, or there is no memory. -/
def Unfit (cfg : RxCfg) (rx : RxSide) (seg : XferSegment) (mem : Bool) : Prop :=
  seg.dataLength > cfg.segmentMru ∨ (seg.isStart = true ∧ rx.rxActive = true) ∨
    (seg.isStart = false ∧ (rx.rxActive = false ∨ seg.transferId ≠ rx.rxId)) ∨ mem = false

theorem segmentCheckMru_cases {cfg : RxCfg} {rx rx' : RxSide} {seg : XferSegment}
    {verdict : Admit} (h : segmentCheckMru cfg rx seg = (rx', verdict)) :
    (verdict = .accept ∧ rx' = rx) ∨
      (verdict = .refuse tmsgRefuseNoResources ∧ rx' = { rx with rxRefused := true }) := by
  unfold segmentCheckMru at h
  split at h
  · obtain ⟨rfl, rfl⟩ := Prod.mk.inj h
    exact Or.inr ⟨rfl, rfl⟩
  · obtain ⟨rfl, rfl⟩ := Prod.mk.inj h
    exact Or.inl ⟨rfl, rfl⟩

/-- **All that admission can do.** -/
theorem segmentAdmit_cases {cfg : RxCfg} {ending mem : Bool} {rx rx' : RxSide}
    {seg : XferSegment} {verdict : Admit} (h_room : rx.rxLen ≤ rx.rxBundle.length)
    (h : segmentAdmit cfg ending rx seg mem = (rx', verdict)) :
    (∃ m, verdict = .fail m ∧ Unfit cfg rx seg mem) ∨
      ((verdict = .accept ∨ ∃ reason, verdict = .refuse reason ∧ rx'.rxRefused = true) ∧
        Admitted rx rx' seg) := by
  -- Once a state is admitted, the MRU check can only refuse it.
  have h_mru : ∀ {rx₁ : RxSide}, Admitted rx rx₁ seg →
      segmentCheckMru cfg rx₁ seg = (rx', verdict) →
      (verdict = .accept ∨ ∃ reason, verdict = .refuse reason ∧ rx'.rxRefused = true) ∧
        Admitted rx rx' seg := by
    intro rx₁ h_adm h_check
    rcases segmentCheckMru_cases h_check with ⟨rfl, rfl⟩ | ⟨rfl, rfl⟩
    · exact ⟨Or.inl rfl, h_adm⟩
    · exact ⟨Or.inr ⟨_, rfl, rfl⟩, ⟨h_adm.active, h_adm.id, h_adm.room, h_adm.kept, fun _ _ => rfl⟩⟩
  unfold segmentAdmit at h
  by_cases h_big : seg.dataLength > cfg.segmentMru
  · rw [if_pos h_big] at h
    exact Or.inl ⟨_, (Prod.mk.inj h).2.symm, Or.inl h_big⟩
  rw [if_neg h_big] at h
  cases h_start : seg.isStart with
  | true =>
    simp only [h_start, if_true] at h
    by_cases h_active : rx.rxActive = true
    · rw [if_pos h_active] at h
      exact Or.inl ⟨_, (Prod.mk.inj h).2.symm, Or.inr (Or.inl ⟨h_start, h_active⟩)⟩
    rw [if_neg h_active] at h
    -- Whatever is decided now, the transfer has begun with an empty buffer.
    have h_begun : ∀ (refused : Bool) (buf : Octets), Admitted rx
        ⟨buf, 0, seg.transferId, true, refused⟩ seg := by
      intro refused buf
      exact ⟨rfl, rfl, Nat.zero_le _, by simp [h_start], by simp [h_start]⟩
    split at h
    · obtain ⟨rfl, rfl⟩ := Prod.mk.inj h
      exact Or.inr ⟨Or.inr ⟨_, rfl, rfl⟩, h_begun true _⟩
    split at h
    · obtain ⟨rfl, rfl⟩ := Prod.mk.inj h
      exact Or.inr ⟨Or.inr ⟨_, rfl, rfl⟩, h_begun true _⟩
    split at h
    · exact Or.inr (h_mru (h_begun false _) h)
    · split at h
      · obtain ⟨rfl, rfl⟩ := Prod.mk.inj h
        exact Or.inr ⟨Or.inr ⟨_, rfl, rfl⟩, h_begun true _⟩
      · split at h
        · rename_i total h_total h_fits h_none
          refine Or.inl ⟨_, (Prod.mk.inj h).2.symm, Or.inr (Or.inr (Or.inr ?_))⟩
          unfold rxReserve at h_none
          split at h_none
          · simp at h_none
          · cases mem with
            | false => rfl
            | true => simp at h_none
        · rename_i rx₁ h_some
          obtain ⟨h_len, h_id, h_act, h_ref, -, -, -⟩ := rxReserve_spec (Nat.zero_le _) h_some
          obtain ⟨buf, len, id, active, refused⟩ := rx₁
          simp only at h_len h_id h_act h_ref
          subst h_len h_id h_act h_ref
          exact Or.inr (h_mru (h_begun false buf) h)
  | false =>
    simp only [h_start, Bool.false_eq_true, if_false] at h
    by_cases h_out : (!rx.rxActive || seg.transferId != rx.rxId) = true
    · rw [if_pos h_out] at h
      refine Or.inl ⟨_, (Prod.mk.inj h).2.symm, Or.inr (Or.inr (Or.inl ⟨h_start, ?_⟩))⟩
      rcases Bool.or_eq_true_iff.mp h_out with h_out | h_out
      · exact Or.inl (by simpa using h_out)
      · exact Or.inr (by simpa using h_out)
    · rw [if_neg h_out] at h
      simp only [Bool.or_eq_true, Bool.not_eq_true', bne_iff_ne, not_or, Bool.not_eq_false,
        Decidable.not_not] at h_out
      exact Or.inr (h_mru ⟨h_out.1, h_out.2.symm, h_room, by simp [h_start], fun _ h => h⟩ h)

end IonContrib.Tcpv4
