/-
  IonContrib.Tcpv4.Received

  What the log of a session says of the transfers it receives, and the steps
  that say nothing of them.

  Only the receiver and the delivery thread work on reception.  `Elsewhere` is
  all that a step of another thread can do to it: the session can be failed,
  and delivery can be stopped.
-/
import IonContrib.Tcpv4.Steps

namespace IonContrib.Tcpv4

/-! ## The log -/

/-- An answer to a segment. -/
def Ctrl.isReply : Ctrl → Bool
  | .ack _ => true
  | .refuse _ => true
  | _ => false

def Event.acked? : Event → Option XferAck
  | .sent (.ack m) => some m
  | _ => none

def Event.refused? : Event → Option XferRefuse
  | .sent (.refuse m) => some m
  | _ => none

def Event.delivered? : Event → Option Octets
  | .delivered b => some b
  | _ => none

/-- Neither an answer to a segment nor a delivery. -/
def Event.aloof (e : Event) : Bool := e.acked?.isNone && e.refused?.isNone && e.delivered?.isNone

theorem aloof_sent {m : Ctrl} (h : m.isReply = false) : (Event.sent m).aloof = true := by
  cases m with
  | ack m => cases h
  | refuse m => cases h
  | sessTerm m => rfl
  | msgReject m => rfl
  | keepalive => rfl

namespace Conn

/-- The XFER_ACKs that have gone out, oldest first, and likewise the XFER_REFUSEs and the
    bundles that BP has taken. -/
def acked (c : Conn) : List XferAck := c.log.filterMap Event.acked?

def refused (c : Conn) : List XferRefuse := c.log.filterMap Event.refused?

def delivered (c : Conn) : List Octets := c.log.filterMap Event.delivered?

variable {cfg : SessCfg} {c c' : Conn}

/-- The log goes on, with nothing about reception. -/
def LogAloof (c c' : Conn) : Prop := ∃ es, c'.log = c.log ++ es ∧ ∀ e ∈ es, e.aloof = true

theorem LogAloof.same (h : c'.log = c.log) : LogAloof c c' :=
  ⟨[], by rw [h, List.append_nil], by simp⟩

theorem LogAloof.one {e : Event} (h : c'.log = c.log ++ [e]) (h_e : e.aloof = true) :
    LogAloof c c' :=
  ⟨[e], h, by simpa using h_e⟩

theorem LogAloof.received (h : LogAloof c c') :
    c'.acked = c.acked ∧ c'.refused = c.refused ∧ c'.delivered = c.delivered := by
  obtain ⟨es, h_log, h_es⟩ := h
  have h_none : ∀ e ∈ es, e.acked? = none ∧ e.refused? = none ∧ e.delivered? = none := by
    intro e h_e
    have h_aloof := h_es e h_e
    simp only [Event.aloof, Bool.and_eq_true, Option.isNone_iff_eq_none] at h_aloof
    exact ⟨h_aloof.1.1, h_aloof.1.2, h_aloof.2⟩
  simp only [acked, refused, delivered, h_log, List.filterMap_append]
  rw [List.filterMap_eq_nil_iff.mpr fun e h_e => (h_none e h_e).1,
    List.filterMap_eq_nil_iff.mpr fun e h_e => (h_none e h_e).2.1,
    List.filterMap_eq_nil_iff.mpr fun e h_e => (h_none e h_e).2.2]
  simp

/-- What the log gains by an acknowledgement, a refusal, a delivery. -/
theorem log_ack {m : XferAck} (h : c'.log = c.log ++ [.sent (.ack m)]) :
    c'.acked = c.acked ++ [m] ∧ c'.refused = c.refused ∧ c'.delivered = c.delivered := by
  simp [acked, refused, delivered, h, Event.acked?, Event.refused?, Event.delivered?]

theorem log_refuse {m : XferRefuse} (h : c'.log = c.log ++ [.sent (.refuse m)]) :
    c'.acked = c.acked ∧ c'.refused = c.refused ++ [m] ∧ c'.delivered = c.delivered := by
  simp [acked, refused, delivered, h, Event.acked?, Event.refused?, Event.delivered?]

theorem log_delivered {b : Octets} (h : c'.log = c.log ++ [.delivered b]) :
    c'.acked = c.acked ∧ c'.refused = c.refused ∧ c'.delivered = c.delivered ++ [b] := by
  simp [acked, refused, delivered, h, Event.acked?, Event.refused?, Event.delivered?]

/-! ## Steps of the other threads -/

/-- Nothing happens to reception, but the session may be failed and delivery stopped. -/
structure Beside (c c' : Conn) : Prop where
  rx : c'.rx = c.rx
  dlvPc : c'.dlvPc = c.dlvPc
  dlv : c'.dlv = c.dlv ∨ c'.dlv = { c.dlv with dlvStopped := true }
  broken : c.broken = true → c'.broken = true
  log : LogAloof c c'

structure Elsewhere (c c' : Conn) : Prop extends Beside c c' where
  rxPc : c'.rxPc = c.rxPc

theorem Beside.of_same (h : (c'.rx, c'.dlvPc, c'.dlv) = (c.rx, c.dlvPc, c.dlv))
    (h_broken : c.broken = true → c'.broken = true) (h_log : LogAloof c c') : Beside c c' := by
  simp only [Prod.mk.injEq] at h
  exact ⟨h.1, h.2.1, Or.inl h.2.2, h_broken, h_log⟩

theorem Elsewhere.of_same (h : (c'.rx, c'.rxPc, c'.dlvPc, c'.dlv) = (c.rx, c.rxPc, c.dlvPc, c.dlv))
    (h_broken : c.broken = true → c'.broken = true) (h_log : LogAloof c c') : Elsewhere c c' := by
  simp only [Prod.mk.injEq] at h
  exact ⟨⟨h.1, h.2.2.1, Or.inl h.2.2.2, h_broken, h_log⟩, h.2.1⟩

theorem Elsewhere.sendCtrl {m : Ctrl} {o : Outcome} {d : Conn} {b : Bool}
    (h : c.sendCtrl m o = some (d, b)) (h_m : m.isReply = false) : Elsewhere c d := by
  rcases sendCtrl_cases h with ⟨-, -, rfl⟩ | ⟨-, n, rfl⟩
  · exact .of_same rfl (fun h => h) (.one rfl (aloof_sent h_m))
  · exact .of_same rfl (fun _ => rfl) (.same rfl)

theorem call_elsewhere {bundle : Octets} {o : Outcome} (h : c.call cfg bundle o = some c') :
    Elsewhere c c' := by
  unfold call at h
  split at h
  · cases h
  dsimp only at h
  split at h
  · rw [← Option.some.inj h]
    exact .of_same rfl (fun h => h) (.one rfl rfl)
  · rcases Outcome.noMem_or h with h | h
    · rw [← Option.some.inj h]
      exact .of_same rfl (fun h => h) (.one rfl rfl)
    · rw [← Option.some.inj h]
      exact .of_same rfl (fun h => h) (.same rfl)

theorem room_elsewhere {r : Nat} (h : c.room cfg r = some c') : Elsewhere c c' := by
  unfold room at h
  split at h
  · cases h
  split at h
  · cases h
  dsimp only at h
  split at h
  · rw [← Option.some.inj h]
    exact .of_same rfl (fun h => h) (.one rfl rfl)
  · rw [← Option.some.inj h]
    exact .of_same rfl (fun h => h) (.one rfl rfl)

theorem timeout_elsewhere {r : Nat} (h : c.timeout cfg r = some c') : Elsewhere c c' := by
  unfold timeout at h
  split at h
  · cases h
  split at h
  · rw [← Option.some.inj h]
    exact .of_same rfl (fun h => h) (.one rfl rfl)
  · cases h

theorem xmit_elsewhere (h : XmitStep cfg c c') : Elsewhere c c' := by
  have h_frame := (xmitStep_frame h).1
  have h_rest : (c.broken = true → c'.broken = true) ∧ LogAloof c c' := by
    cases h with
    | took x tx h_pc h_take => exact ⟨fun h => h, .one rfl rfl⟩
    | reported x failed h_pc => exact ⟨fun h => h, .one rfl rfl⟩
    | failed h_pc => exact ⟨fun _ => rfl, .same rfl⟩
    | wrote x off len consumed data consumed' o d b h_pc h_more h_run h_send =>
      rcases send_cases h_send with ⟨-, -, rfl⟩ | ⟨-, n, rfl⟩
      · exact ⟨fun h => h, .same rfl⟩
      · exact ⟨fun _ => rfl, .same rfl⟩
    | noBuffer h_pc => exact ⟨fun h => h, .same rfl⟩
    | started h_pc => exact ⟨fun h => h, .same rfl⟩
    | stopped h_pc => exact ⟨fun h => h, .same rfl⟩
    | unreadable x h_pc => exact ⟨fun h => h, .same rfl⟩
    | opened x h_pc => exact ⟨fun h => h, .same rfl⟩
    | read x off h_pc h_off => exact ⟨fun h => h, .same rfl⟩
    | complete x off h_pc h_off => exact ⟨fun h => h, .same rfl⟩
    | uncut x off len consumed h_pc h_more h_run => exact ⟨fun h => h, .same rfl⟩
    | bufferDone x off len consumed h_pc h_done => exact ⟨fun h => h, .same rfl⟩
    | abandoned x off h_pc h_ref => exact ⟨fun h => h, .same rfl⟩
    | wentOn x off h_pc h_ref => exact ⟨fun h => h, .same rfl⟩
    | letGo x failed tx done h_pc h_go => exact ⟨fun h => h, .same rfl⟩
  exact ⟨⟨h_frame.rx, h_frame.dlvPc, Or.inl h_frame.dlv, h_rest.1, h_rest.2⟩, h_frame.rxPc⟩

theorem clockTick_elsewhere (cfg : SessCfg) (c : Conn) : Elsewhere c (c.clockTick cfg) := by
  unfold clockTick
  split
  · exact .of_same rfl (fun h => h) (.same rfl)
  · dsimp only
    split
    · exact .of_same rfl (fun h => h) (.one rfl rfl)
    · exact .of_same rfl (fun h => h) (.same rfl)

theorem clock_elsewhere {o : Outcome} (h : c.clockStep cfg o = some c') : Elsewhere c c' := by
  unfold clockStep at h
  split at h
  · split at h
    · rw [← Option.some.inj h]
      exact clockTick_elsewhere cfg c
    · cases h
  · rw [← Option.some.inj h]
    exact .of_same rfl (fun _ => rfl) (.same rfl)
  · rw [← Option.some.inj h]
    exact .of_same rfl (fun h => h) (.same rfl)
  · obtain ⟨⟨d, b⟩, h_send, rfl⟩ := Option.map_eq_some_iff.mp h
    obtain ⟨⟨h₁, h₂, h₃, h₄, h₅⟩, h₆⟩ := Elsewhere.sendCtrl h_send rfl
    exact ⟨⟨h₁, h₂, h₃, h₄, h₅⟩, h₆⟩
  · obtain ⟨⟨d, b⟩, h_send, rfl⟩ := Option.map_eq_some_iff.mp h
    obtain ⟨⟨h₁, h₂, h₃, h₄, h₅⟩, h₆⟩ := Elsewhere.sendCtrl h_send rfl
    exact ⟨⟨h₁, h₂, h₃, h₄, h₅⟩, h₆⟩
  · rw [← Option.some.inj h]
    exact .of_same rfl (fun _ => rfl) (.same rfl)

theorem stop_elsewhere {o : Outcome} (h : c.stopStep o = some c') : Elsewhere c c' := by
  unfold stopStep at h
  split at h
  · split at h
    · rw [← Option.some.inj h]
      exact .of_same rfl (fun h => h) (.same rfl)
    · cases h
  · rw [← Option.some.inj h]
    exact .of_same rfl (fun h => h) (.same rfl)
  · rw [← Option.some.inj h]
    exact ⟨⟨rfl, rfl, Or.inr rfl, fun h => h, .same rfl⟩, rfl⟩
  · rw [← Option.some.inj h]
    exact .of_same rfl (fun h => h) (.same rfl)
  · obtain ⟨⟨d, b⟩, h_send, rfl⟩ := Option.map_eq_some_iff.mp h
    obtain ⟨⟨h₁, h₂, h₃, h₄, h₅⟩, h₆⟩ := Elsewhere.sendCtrl h_send rfl
    exact ⟨⟨h₁, h₂, h₃, h₄, h₅⟩, h₆⟩
  · rw [← Option.some.inj h]
    exact .of_same rfl (fun _ => rfl) (.same rfl)
  · cases h

theorem free_elsewhere (h : c.freeStep = some c') : Elsewhere c c' := by
  unfold freeStep at h
  split at h
  · split at h
    · cases h
    · rw [← Option.some.inj h]
      exact .of_same rfl (fun h => h) (.one rfl rfl)
  split at h
  · rw [← Option.some.inj h]
    exact .of_same rfl (fun h => h) (.same rfl)
  · cases h

/-- **Only two threads work on reception.** -/
theorem step_elsewhere {a : Act} (h_recv : ∀ o, a ≠ .recv o) (h_dlv : ∀ o, a ≠ .dlv o)
    (h : step cfg c a = some c') : Elsewhere c c' := by
  cases a with
  | recv o => exact absurd rfl (h_recv o)
  | dlv o => exact absurd rfl (h_dlv o)
  | call bundle o => exact call_elsewhere h
  | room r => exact room_elsewhere h
  | timeout r => exact timeout_elsewhere h
  | xmit o => exact xmit_elsewhere (xmitStep_cases h)
  | clock o => exact clock_elsewhere h
  | stop o => exact stop_elsewhere h
  | free => exact free_elsewhere h
  | arrive data =>
    rw [← Option.some.inj h]
    exact .of_same rfl (fun h => h) (.same rfl)

end Conn

end IonContrib.Tcpv4
