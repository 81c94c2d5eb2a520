/-
  IonContrib.Tcpv4.Answered

  What one end of a session answers to the segments of its peer.

  The acknowledgements on the wire are those the received transfers call for,
  in their order (`Answers.front`), and there are never more ENDs among them
  than BP has taken bundles (`Answers.ends`): the receiver thread acknowledges
  no END, and the delivery thread does so behind the delivery.
-/
import IonContrib.Tcpv4.RxTracks
import IonContrib.Tcpv4.Sent

namespace IonContrib.Tcpv4

open Conn

variable {cfg : SessCfg} {c c' : Conn} {said ms : List Wire} {es : List Event} {ts : Transfers}

/-! ## What the receiver thread says -/

def RxPc.utters : RxPc → Option Ctrl
  | .refusing reason seg => some (.refuse ⟨reason, seg.transferId⟩)
  | .acking m => some (.ack m)
  | .saying m _ _ => some m
  | _ => none

inductive RecvSpoke (c c' : Conn) : List Wire → List Event → Prop where
  | silent (h : Spoke c c' [] []) : RecvSpoke c c' [] []
  | reported (x : Xfer) (reject : Option Ctrl) (h_pc : c.rxPc = .reporting x reject)
      (h : Spoke c c' [] [.reported x.ref x.bundle (tcpv4XferSucceeded x)]) :
      RecvSpoke c c' [] [.reported x.ref x.bundle (tcpv4XferSucceeded x)]
  | said (m : Ctrl) (es : List Event) (h_m : c.rxPc.utters = some m)
      (h_free : ∀ a, m = .ack a → c.dlv.busy = false ∧ c.dlv.bad = false)
      (h_open : c.broken = false) (h_es : es = [.sent m] ∨ es = [] ∧ c'.broken = true)
      (h : Spoke c c' [.ctrl m] es) : RecvSpoke c c' [.ctrl m] es

theorem RecvSpoke.spoke (h : RecvSpoke c c' ms es) : Spoke c c' ms es := by
  cases h with
  | silent h => exact h
  | reported x reject h_pc h => exact h
  | said m es h_m h_free h_open h_es h => exact h

/-- A short message, sent or cut short. -/
theorem sendCtrl_told {d : Conn} {m : Ctrl} {o : Outcome} {b : Bool}
    (h : c.sendCtrl m o = some (d, b)) :
    Spoke c d [] [] ∨ c.broken = false ∧ ∃ es, (es = [.sent m] ∨ es = [] ∧ d.broken = true) ∧
      Spoke c d [.ctrl m] es := by
  have h_wired : wired [.ctrl m] = m.octets := List.append_nil _
  rcases Conn.sendCtrl_cases h with ⟨-, h_open, rfl⟩ | ⟨-, n, rfl⟩
  · exact Or.inr ⟨h_open, [.sent m], Or.inl rfl, .whole _ _ h_open (by rw [h_wired]) rfl⟩
  · cases h_broken : c.broken with
    | false =>
      refine Or.inr ⟨rfl, [], Or.inr ⟨rfl, rfl⟩, .cut _ (m.octets.take n) h_broken rfl ?_ ?_ rfl⟩
      · rw [h_wired]
        exact List.take_prefix _ _
      · simp
    | true => exact Or.inl (.silent [] (by simp) (fun _ => rfl) (by simp))

theorem goOn_same (d : Conn) (next : RxNext) :
    ((d.goOn next).outOctets, (d.goOn next).broken, (d.goOn next).log) =
      (d.outOctets, d.broken, d.log) := by
  cases next <;> rfl

theorem recvSpoke_told {d : Conn} {m : Ctrl} {o : Outcome} {b : Bool}
    (h : c.sendCtrl m o = some (d, b)) (h_m : c.rxPc.utters = some m)
    (h_free : ∀ a, m = .ack a → c.dlv.busy = false ∧ c.dlv.bad = false)
    (h_same : (c'.outOctets, c'.broken, c'.log) = (d.outOctets, d.broken, d.log)) :
    ∃ ms es, RecvSpoke c c' ms es := by
  have h_broken : c'.broken = d.broken := (Prod.mk.inj (Prod.mk.inj h_same).2).1
  rcases sendCtrl_told h with h_s | ⟨h_open, es, h_es, h_s⟩
  · exact ⟨[], [], .silent (h_s.congr h_same)⟩
  · exact ⟨_, es, .said m es h_m h_free h_open (by rw [h_broken]; exact h_es) (h_s.congr h_same)⟩

/-- **A step of the receiver thread** says what the thread has to say, or nothing. -/
theorem recv_spoke (h_plain : c.rxPc.plain) (h_step : RecvStep cfg c c') :
    ∃ ms es, RecvSpoke c c' ms es := by
  have h_silent : Spoke c c' [] [] → ∃ ms es, RecvSpoke c c' ms es := fun h => ⟨[], [], .silent h⟩
  cases h_step with
  | quit clean h_pc h_clean => exact h_silent (.same (goOn_same c _))
  | type type rest h_pc h_in => exact h_silent (.same rfl)
  | segment seg rest o h_pc h_in =>
    obtain ⟨rx, pc, h_eq, -⟩ := handleSegmentHdr_shape cfg { c with inOctets := rest } seg o
    exact h_silent (.same (by rw [h_eq]))
  | ack m rest h_pc h_in =>
    obtain ⟨tx, pc, h_eq, -⟩ := handleAck_shape { c with inOctets := rest } m
    exact h_silent (.same (by rw [h_eq]))
  | refuse m rest h_pc h_in =>
    obtain ⟨tx, pc, h_eq, -⟩ := handleRefuse_shape { c with inOctets := rest } m
    exact h_silent (.same (by rw [h_eq]))
  | keepalive h_pc => exact h_silent (.same rfl)
  | reject m rest h_pc h_in =>
    obtain ⟨term, state, pc, h_eq, -⟩ := handleReject_shape { c with inOctets := rest } m
    exact h_silent (.same (by rw [h_eq]))
  | sessTerm m rest h_pc h_in => exact h_silent (.same rfl)
  | unknown type m h_pc h_type h_m => exact h_silent (.same rfl)
  | refuseUnsaid reason seg h_pc h_bad => exact h_silent (.same rfl)
  | refuseSaid reason seg o d b h_pc h_busy h_bad h_send =>
    exact recvSpoke_told h_send (by rw [h_pc]; rfl) (by simp) rfl
  | drained seg data rest h_pc h_ref h_len h_in =>
    obtain ⟨rx, pc, h_eq, -⟩ := finishSegment_shape { c with inOctets := rest } seg
    exact h_silent (.same (by rw [h_eq]))
  | exhausted seg h_pc h_ref => exact h_silent (.same rfl)
  | stored seg rx mem data rest h_pc h_ref h_rx h_len h_in =>
    obtain ⟨rx', pc, h_eq, -⟩ := finishSegment_shape { c with
      rx := segmentStore rx data, inOctets := rest } seg
    exact h_silent (.same (by rw [h_eq]))
  | storeFailed seg rx mem h_pc h_ref h_rx => exact h_silent (.same rfl)
  | acked m o d b h_pc h_busy h_bad h_send =>
    exact recvSpoke_told h_send (by rw [h_pc]; rfl) (fun _ _ => ⟨h_busy, h_bad⟩) (goOn_same d _)
  | handed seg h_pc h_busy h_bad => exact h_silent (.same rfl)
  | reported x reject h_pc =>
    exact ⟨[], _, .reported x reject h_pc (.silent _ rfl (fun h => h) rfl)⟩
  | stopped say ok bad h_pc =>
    cases say with
    | none => exact h_silent (.same (goOn_same { c with tx := tcpv4TxStop c.tx } ok))
    | some m => exact h_silent (.same rfl)
  | said m ok bad o d b h_pc h_send =>
    rw [h_pc] at h_plain
    refine recvSpoke_told h_send (by rw [h_pc]; rfl) ?_ (goOn_same d _)
    rintro a rfl
    cases h_plain
  | failed h_pc => exact h_silent (.silent [] rfl (fun _ => rfl) (by simp [tcpv4ConnFail]))
  | txStopped h_pc => exact h_silent (.same rfl)
  | joinedXmit h_pc h_xmit => exact h_silent (.same rfl)
  | dlvStopped h_pc => exact h_silent (.same rfl)
  | joinedDlv h_pc h_dlv => exact h_silent (.same rfl)
  | closed h_pc => exact h_silent (.silent [] rfl (fun _ => rfl) (by simp [tcpv4ConnFail]))

/-! ## Acknowledgements and refusals -/

/-- The acknowledgements that end a transfer. -/
def endAcks (as : List XferAck) : List XferAck := as.filter fun m => hasFlag m.flags tmsgFlagEnd

theorem endAcks_append (as bs : List XferAck) : endAcks (as ++ bs) = endAcks as ++ endAcks bs :=
  List.filter_append as bs

/-- What the receiver thread is about to answer: it acknowledges no END, and refuses nothing as
    complete. -/
def RxPc.answering : RxPc → Prop
  | .refusing reason seg => reason ≠ tmsgRefuseCompleted ∧ seg.transferId < 256 ^ 8
  | .acking m => hasFlag m.flags tmsgFlagEnd = false
  | _ => True

structure Answers (cfg : RxCfg) (c : Conn) (said : List Wire) (ts : Transfers) : Prop where
  acks : c.broken = false → acksOf said = c.acked
  told : c.acked <+: acksOf said
  front : acksOf said <+: ts.acks cfg
  ends : (endAcks (acksOf said)).length ≤ c.delivered.length
  owing : c.broken = false → c.dlvPc = .acking →
    (endAcks (acksOf said)).length < c.delivered.length
  refusals : ∀ m ∈ refusalsOf said, m.reason ≠ tmsgRefuseCompleted ∧ m.InRange
  pc : c.rxPc.answering

theorem answers_init (cfg : RxCfg) : Answers cfg Conn.init [] [] where
  acks _ := rfl
  told := List.prefix_rfl
  front := List.prefix_rfl
  ends := Nat.zero_le _
  owing _ h := by cases h
  refusals := by simp [refusalsOf]
  pc := trivial

theorem acksOf_append (ms ms' : List Wire) : acksOf (ms ++ ms') = acksOf ms ++ acksOf ms' :=
  List.filterMap_append

theorem refusalsOf_append (ms ms' : List Wire) :
    refusalsOf (ms ++ ms') = refusalsOf ms ++ refusalsOf ms' := List.filterMap_append

/-- What has been observed of the transfers calls for no fewer acknowledgements later. -/
theorem Transfers.acks_prefix_addData (cfg : RxCfg) (ts : Transfers) (seg : XferSegment)
    (data : Octets) : ts.acks cfg <+: (ts.addData seg data).acks cfg := by
  rcases List.eq_nil_or_concat ts with rfl | ⟨init, t, rfl⟩
  · exact List.prefix_rfl
  · rw [List.concat_eq_append, addData_snoc, acks_snoc, acks_snoc]
    refine (List.prefix_append_right_inj _).mpr ?_
    show t.acksFrom cfg 0 t.segs <+: Incoming.acksFrom cfg _ 0 (t.segs ++ [(seg, data)])
    rw [Incoming.acksFrom_with (t.segs ++ [(seg, data)]) none, Incoming.acksFrom_snoc]
    exact List.prefix_append _ _

theorem observeRecv_acks (cfg : RxCfg) (ts : Transfers) (c c' : Conn) :
    ts.acks cfg <+: (observeRecv cfg ts c c').acks cfg := by
  unfold observeRecv
  split
  · split
    · split
      · exact (Transfers.addHead_acks ts _ _).1.symm ▸ List.prefix_rfl
      · exact List.prefix_rfl
    · exact List.prefix_rfl
  · split
    · exact List.prefix_rfl
    · exact Transfers.acks_prefix_addData cfg ts _ _
  · exact List.prefix_rfl

/-- A step that adds no answer, no delivery and no debt. -/
theorem Answers.keep {cfg : RxCfg} {ts' : Transfers} (h : Answers cfg c said ts)
    (h_s : Spoke c c' ms es) (h_acks : acksOf ms = []) (h_refusals : refusalsOf ms = [])
    (h_es : ∀ e ∈ es, e.aloof = true) (h_ts : ts.acks cfg <+: ts'.acks cfg)
    (h_dlvPc : c'.dlvPc = .acking → c.dlvPc = .acking) (h_pc : c'.rxPc.answering) :
    Answers cfg c' (said ++ ms) ts' := by
  have h_log : c'.acked = c.acked ∧ c'.refused = c.refused ∧ c'.delivered = c.delivered :=
    LogAloof.received ⟨es, h_s.log, h_es⟩
  have h_open : c'.broken = false → c.broken = false := by
    intro h_open
    cases h_s with
    | silent es h_out h_broken h_log =>
      refine Bool.eq_false_iff.mpr fun h_b => ?_
      rw [h_broken h_b] at h_open
      cases h_open
    | whole ms es h_open h_out h_log => exact h_open
    | cut ms part h_open h_broken h_part h_out h_log => exact h_open
  have h_said : acksOf (said ++ ms) = acksOf said := by rw [acksOf_append, h_acks, List.append_nil]
  refine ⟨?_, ?_, ?_, ?_, ?_, ?_, h_pc⟩
  · rw [h_said, h_log.1]
    exact fun h_o => h.acks (h_open h_o)
  · rw [h_said, h_log.1]
    exact h.told
  · rw [h_said]
    exact h.front.trans h_ts
  · rw [h_said, h_log.2.2]
    exact h.ends
  · rw [h_said, h_log.2.2]
    exact fun h_o h_a => h.owing (h_open h_o) (h_dlvPc h_a)
  · rw [refusalsOf_append, h_refusals, List.append_nil]
    exact h.refusals

/-- The places the receiver thread gets to. -/
theorem segmentAdmit_reason {cfg : RxCfg} {ending mem : Bool} {rx rx' : RxSide}
    {seg : XferSegment} {reason : UInt8}
    (h : segmentAdmit cfg ending rx seg mem = (rx', .refuse reason)) :
    reason ≠ tmsgRefuseCompleted := by
  have h_mru : ∀ {rx₁ : RxSide}, segmentCheckMru cfg rx₁ seg = (rx', .refuse reason) →
      reason ≠ tmsgRefuseCompleted := by
    intro rx₁ h_check
    rcases segmentCheckMru_cases h_check with ⟨h_v, -⟩ | ⟨h_v, -⟩
    · cases h_v
    · rw [Admit.refuse.inj h_v]
      decide
  unfold segmentAdmit at h
  split at h
  · cases (Prod.mk.inj h).2
  split at h
  · split at h
    · cases (Prod.mk.inj h).2
    split at h
    · rw [← Admit.refuse.inj (Prod.mk.inj h).2]
      decide
    split at h
    · rw [← Admit.refuse.inj (Prod.mk.inj h).2]
      decide
    split at h
    · exact h_mru h
    split at h
    · rw [← Admit.refuse.inj (Prod.mk.inj h).2]
      decide
    dsimp only at h
    split at h
    · cases (Prod.mk.inj h).2
    · exact h_mru h
  split at h
  · cases (Prod.mk.inj h).2
  · exact h_mru h

theorem goOn_answering (d : Conn) (next : RxNext) : (d.goOn next).rxPc.answering := by
  cases next <;> trivial

theorem afterTxSection_answering (c : Conn) (tx : TxSide) (done : Option Xfer)
    (reject : Option Ctrl) : (c.afterTxSection tx done reject).rxPc.answering := by
  cases done with
  | some x => trivial
  | none => cases reject <;> trivial

theorem finishSegment_answering (c : Conn) (seg : XferSegment) :
    (c.finishSegment seg).rxPc.answering := by
  rcases finishSegment_cases c seg with ⟨-, h_eq⟩ | ⟨-, -, h_eq⟩ | ⟨-, h_end, h_eq⟩
  · rw [h_eq]
    trivial
  · rw [h_eq]
    trivial
  · rw [h_eq]
    exact h_end

theorem recv_answering (h_step : RecvStep cfg c c') : c'.rxPc.answering := by
  cases h_step with
  | segment seg rest o h_pc h_in =>
    unfold handleSegmentHdr
    split
    · trivial
    · rename_i h_adm
      exact ⟨segmentAdmit_reason h_adm, (recvXferSegmentHdr_exact h_in).2.id_lt⟩
    · trivial
  | quit clean h_pc h_clean => exact goOn_answering c _
  | ack m rest h_pc h_in => exact afterTxSection_answering _ _ _ _
  | refuse m rest h_pc h_in => exact afterTxSection_answering _ _ _ _
  | keepalive h_pc => exact goOn_answering c _
  | reject m rest h_pc h_in =>
    unfold handleReject
    split <;> trivial
  | sessTerm m rest h_pc h_in =>
    unfold handleSessTerm
    dsimp only
    split <;> trivial
  | drained seg data rest h_pc h_ref h_len h_in => exact finishSegment_answering _ seg
  | stored seg rx mem data rest h_pc h_ref h_rx h_len h_in => exact finishSegment_answering _ seg
  | storeFailed seg rx mem h_pc h_ref h_rx => exact goOn_answering { c with rx := rx } _
  | acked m o d b h_pc h_busy h_bad h_send => exact goOn_answering d _
  | reported x reject h_pc => cases reject <;> trivial
  | stopped say ok bad h_pc =>
    cases say with
    | none => exact goOn_answering { c with tx := tcpv4TxStop c.tx } ok
    | some m => trivial
  | said m ok bad o d b h_pc h_send => exact goOn_answering d _
  | type type rest h_pc h_in => trivial
  | unknown type m h_pc h_type h_m => trivial
  | refuseUnsaid reason seg h_pc h_bad => trivial
  | refuseSaid reason seg o d b h_pc h_busy h_bad h_send => trivial
  | exhausted seg h_pc h_ref => trivial
  | handed seg h_pc h_busy h_bad => trivial
  | failed h_pc => trivial
  | txStopped h_pc => trivial
  | joinedXmit h_pc h_xmit => trivial
  | dlvStopped h_pc => trivial
  | joinedDlv h_pc h_dlv => trivial
  | closed h_pc => trivial

/-- A reply goes out behind those that went out before. -/
theorem Answers.say_ack {cfg : RxCfg} {ts' : Transfers} {m : XferAck} (h : Answers cfg c said ts)
    (h_s : Spoke c c' [.ctrl (.ack m)] es) (h_open : c.broken = false)
    (h_es : es = [.sent (.ack m)] ∨ es = [] ∧ c'.broken = true)
    (h_next : c.acked ++ [m] <+: ts.acks cfg) (h_ts : ts.acks cfg <+: ts'.acks cfg)
    (h_end : hasFlag m.flags tmsgFlagEnd = true → c.dlvPc = .acking)
    (h_dlvPc : c'.dlvPc = .acking → c.dlvPc = .acking ∧ hasFlag m.flags tmsgFlagEnd = false)
    (h_pc : c'.rxPc.answering) : Answers cfg c' (said ++ [.ctrl (.ack m)]) ts' := by
  have h_said : acksOf (said ++ [.ctrl (.ack m)]) = c.acked ++ [m] := by
    rw [acksOf_append, h.acks h_open]
    rfl
  have h_delivered : c'.delivered = c.delivered := by
    rw [Conn.delivered, h_s.log, List.filterMap_append]
    rcases h_es with rfl | ⟨rfl, -⟩
    · exact List.append_nil _
    · exact List.append_nil _
  have h_ends := h.ends
  have h_owing := h.owing h_open
  rw [h.acks h_open] at h_ends h_owing
  have h_count : (endAcks (c.acked ++ [m])).length = (endAcks c.acked).length +
      if hasFlag m.flags tmsgFlagEnd then 1 else 0 := by
    rw [endAcks_append, List.length_append]
    cases h_m : hasFlag m.flags tmsgFlagEnd <;> simp [endAcks, h_m]
  refine ⟨?_, ?_, ?_, ?_, ?_, ?_, h_pc⟩
  · rw [h_said]
    intro h_o
    rcases h_es with rfl | ⟨-, h_b⟩
    · rw [(log_ack h_s.log).1]
    · rw [h_b] at h_o
      cases h_o
  · rw [h_said]
    rcases h_es with rfl | ⟨rfl, -⟩
    · exact (log_ack h_s.log).1.symm ▸ List.prefix_rfl
    · rw [Conn.acked, h_s.log, List.append_nil]
      exact List.prefix_append _ _
  · rw [h_said]
    exact h_next.trans h_ts
  · rw [h_said, h_count, h_delivered]
    split
    · rename_i h_m
      exact h_owing (h_end h_m)
    · exact h_ends
  · rw [h_said, h_count, h_delivered]
    intro _ h_a
    obtain ⟨h_was, h_m⟩ := h_dlvPc h_a
    rw [h_m, if_neg Bool.false_ne_true]
    exact h_owing h_was
  · rw [refusalsOf_append]
    exact fun a h_a => h.refusals a (by simpa [refusalsOf, Wire.refuse?] using h_a)

theorem Answers.say_refuse {cfg : RxCfg} {ts' : Transfers} {m : XferRefuse}
    (h : Answers cfg c said ts) (h_s : Spoke c c' [.ctrl (.refuse m)] es)
    (h_es : es = [.sent (.refuse m)] ∨ es = [] ∧ c'.broken = true)
    (h_open : c.broken = false) (h_m : m.reason ≠ tmsgRefuseCompleted ∧ m.InRange)
    (h_ts : ts.acks cfg <+: ts'.acks cfg) (h_dlvPc : c'.dlvPc = c.dlvPc)
    (h_pc : c'.rxPc.answering) : Answers cfg c' (said ++ [.ctrl (.refuse m)]) ts' := by
  have h_said : acksOf (said ++ [.ctrl (.refuse m)]) = acksOf said := by
    rw [acksOf_append]
    exact List.append_nil _
  have h_log : c'.acked = c.acked ∧ c'.delivered = c.delivered := by
    rw [Conn.acked, Conn.delivered, h_s.log, List.filterMap_append, List.filterMap_append]
    rcases h_es with rfl | ⟨rfl, -⟩
    · exact ⟨List.append_nil _, List.append_nil _⟩
    · exact ⟨List.append_nil _, List.append_nil _⟩
  refine ⟨?_, ?_, ?_, ?_, ?_, ?_, h_pc⟩
  · rw [h_said, h_log.1]
    exact fun _ => h.acks h_open
  · rw [h_said, h_log.1]
    exact h.told
  · rw [h_said]
    exact h.front.trans h_ts
  · rw [h_said, h_log.2]
    exact h.ends
  · rw [h_said, h_log.2, h_dlvPc]
    exact fun _ => h.owing h_open
  · rw [refusalsOf_append]
    intro a h_a
    rcases List.mem_append.mp h_a with h_a | h_a
    · exact h.refusals a h_a
    · rw [List.mem_singleton.mp h_a]
      exact h_m

/-! ## Steps -/

/-- A short message that answers nothing. -/
theorem noReply {m : Ctrl} (h : m.isReply = false) :
    acksOf [.ctrl m] = [] ∧ refusalsOf [.ctrl m] = [] := by
  cases m with
  | ack m => cases h
  | refuse m => cases h
  | sessTerm m => exact ⟨rfl, rfl⟩
  | msgReject m => exact ⟨rfl, rfl⟩
  | keepalive => exact ⟨rfl, rfl⟩

theorem recv_answers (h_tracks : Tracks cfg.rx c ts) (h : Answers cfg.rx c said ts)
    (h_step : RecvStep cfg c c') : ∃ ms es, RecvSpoke c c' ms es ∧
      Answers cfg.rx c' (said ++ ms) (observeRecv cfg.rx ts c c') := by
  obtain ⟨ms, es, h_spoke⟩ := recv_spoke h_tracks.plain h_step
  have h_ts := observeRecv_acks cfg.rx ts c c'
  have h_pc := recv_answering h_step
  have h_dlvPc : c'.dlvPc = c.dlvPc := (recvStep_frame h_step).1.dlvPc
  refine ⟨ms, es, h_spoke, ?_⟩
  cases h_spoke with
  | silent h_s => exact h.keep h_s rfl rfl (by simp) h_ts (by rw [h_dlvPc]; exact fun h => h) h_pc
  | reported x reject h_at h_s =>
    exact h.keep h_s rfl rfl (List.forall_mem_singleton.mpr rfl) h_ts
      (by rw [h_dlvPc]; exact fun h => h) h_pc
  | said m es h_m h_free h_open h_es h_s =>
    have h_plain := h_tracks.plain
    have h_answering := h.pc
    cases h_at : c.rxPc with
    | refusing reason seg =>
      rw [h_at] at h_m h_answering
      obtain rfl := Option.some.inj h_m
      exact h.say_refuse h_s h_es h_open h_answering h_ts h_dlvPc h_pc
    | acking a =>
      rw [h_at] at h_m h_answering
      obtain rfl := Option.some.inj h_m
      obtain ⟨h_busy, h_bad⟩ := h_free a rfl
      obtain ⟨h_pending, h_idle⟩ := idle_of_free h_tracks.dlv h_busy h_bad
      have h_acks := h_tracks.acks
      rw [h_at] at h_acks
      simp only [h_idle, DlvPc.ackDue, h_pending, Bool.false_eq_true, if_false] at h_acks
      -- Nothing is shut, so the acknowledgement that is due is the next one.
      have h_first : ¬ (c.rxShut ∨ c.broken = true) := by
        simp [rxShut, h_bad, h_open, h_at, RxPc.quitting, RxPc.leaving]
      have h_second : ¬ (c.dlvShut ∨ c.broken = true) := by
        simp only [DlvSide.bad, Bool.or_eq_false_iff] at h_bad
        simp [dlvShut, h_bad.2, h_open, h_idle]
      have h_all := h_acks.out_all h_first h_second
      refine h.say_ack h_s h_open h_es ⟨[], by simpa [RxPc.ackDue] using h_all⟩ h_ts ?_ ?_ h_pc
      · rw [h_answering]
        exact fun h => absurd h Bool.false_ne_true
      · rw [h_dlvPc, h_idle]
        exact fun h => by cases h
    | saying m' ok bad =>
      rw [h_at] at h_m h_plain
      obtain rfl := Option.some.inj h_m
      have h_aloof : ∀ e ∈ es, e.aloof = true := by
        rcases h_es with rfl | ⟨rfl, -⟩
        · exact List.forall_mem_singleton.mpr (aloof_sent h_plain)
        · simp
      exact h.keep h_s (noReply h_plain).1 (noReply h_plain).2 h_aloof h_ts
        (by rw [h_dlvPc]; exact fun h => h) h_pc
    | _ => rw [h_at] at h_m; cases h_m

/-- BP takes a bundle; its END is not acknowledged yet. -/
theorem Answers.deliver {cfg : RxCfg} {b : Octets} (h : Answers cfg c said ts)
    (h_s : Spoke c c' [] [.delivered b]) (h_broken : c'.broken = c.broken)
    (h_pc : c'.rxPc = c.rxPc) : Answers cfg c' said ts := by
  obtain ⟨h_acked, -, h_delivered⟩ := log_delivered h_s.log
  have h_len : c'.delivered.length = c.delivered.length + 1 := by
    rw [h_delivered, List.length_append, List.length_singleton]
  refine ⟨?_, ?_, h.front, ?_, ?_, h.refusals, ?_⟩
  · rw [h_broken, h_acked]
    exact h.acks
  · rw [h_acked]
    exact h.told
  · rw [h_len]
    exact Nat.le_succ_of_le h.ends
  · rw [h_len]
    exact fun _ _ => Nat.lt_succ_of_le h.ends
  · rw [h_pc]
    exact h.pc

inductive DlvSpoke (c c' : Conn) : List Wire → List Event → Prop where
  | silent (h : Spoke c c' [] []) : DlvSpoke c c' [] []
  | delivered (b : Octets) (h : Spoke c c' [] [.delivered b]) : DlvSpoke c c' [] [.delivered b]
  | acked (m : XferAck) (es : List Event) (h_es : es = [.sent (.ack m)] ∨ es = [])
      (h : Spoke c c' [.ctrl (.ack m)] es) : DlvSpoke c c' [.ctrl (.ack m)] es

/-- **A step of the delivery thread** acknowledges the END of what BP has taken, or says
    nothing. -/
theorem dlv_answers {cfg : RxCfg} (h_tracks : Tracks cfg c ts) (h : Answers cfg c said ts)
    {o : Outcome} (h_step : c.dlvStep o = some c') : ∃ ms es, DlvSpoke c c' ms es ∧
      Answers cfg c' (said ++ ms) ts := by
  have h_silent : Spoke c c' [] [] → c'.rxPc = c.rxPc → c'.dlvPc ≠ .acking →
      ∃ ms es, DlvSpoke c c' ms es ∧ Answers cfg c' (said ++ ms) ts := by
    intro h_s h_rxPc h_pc
    refine ⟨[], [], .silent h_s, ?_⟩
    exact h.keep h_s rfl rfl (by simp) List.prefix_rfl (fun h => absurd h h_pc)
      (by rw [h_rxPc]; exact h.pc)
  unfold dlvStep at h_step
  split at h_step
  · split at h_step
    · rw [← Option.some.inj h_step] at h_silent ⊢
      exact h_silent (.same rfl) rfl (by simp)
    split at h_step
    · rw [← Option.some.inj h_step] at h_silent ⊢
      exact h_silent (.same rfl) rfl (by simp)
    · cases h_step
  · rcases Outcome.err_or h_step with h_step | h_step
    · rw [← Option.some.inj h_step] at h_silent ⊢
      exact h_silent (.same rfl) rfl (by simp)
    · rw [← Option.some.inj h_step]
      have h_s : Spoke c ({ c with dlvPc := .acking }.note (.delivered c.dlv.bundle)) []
          [.delivered c.dlv.bundle] := .silent _ rfl (fun h => h) rfl
      exact ⟨[], _, .delivered _ h_s, by rw [List.append_nil]; exact h.deliver h_s rfl rfl⟩
  · rename_i h_pc
    obtain ⟨⟨d, b⟩, h_send, rfl⟩ := Option.map_eq_some_iff.mp h_step
    have h_rxPc : d.rxPc = c.rxPc := (ledger_sendCtrl h_send).2.2.1
    rcases sendCtrl_told h_send with h_s | ⟨h_open, es, h_es, h_s⟩
    · exact h_silent (h_s.congr rfl) h_rxPc (by simp)
    · have h_s' : Spoke c { d with dlvPc := .finishing (!b) } [.ctrl (.ack c.dlv.ack)] es :=
        h_s.congr rfl
      refine ⟨_, es, .acked _ es (h_es.imp_right And.left) h_s', ?_⟩
      have h_acks := h_tracks.acks
      simp only [h_pc, DlvPc.ackDue] at h_acks
      have h_ok := DlvOk.unfailed h_tracks.dlv (by simp [h_pc])
      have h_next : c.acked ++ [c.dlv.ack] <+: ts.acks cfg := by
        cases h_acks with
        | whole h_all => exact ⟨_, h_all⟩
        | behind _ h_front => exact h_front
        | lost h_shut _ =>
          have h_not : ¬ (c.dlvShut ∨ c.broken = true) := by simp [dlvShut, h_ok, h_pc, h_open]
          exact absurd h_shut h_not
      refine h.say_ack h_s' h_open h_es h_next List.prefix_rfl (fun _ => h_pc)
        (fun h => by cases h) ?_
      show d.rxPc.answering
      rw [h_rxPc]
      exact h.pc
  · rw [← Option.some.inj h_step] at h_silent ⊢
    refine h_silent (.same rfl) rfl ?_
    split <;> simp
  · rw [← Option.some.inj h_step] at h_silent ⊢
    exact h_silent (.silent [] rfl (fun _ => rfl) (by simp [tcpv4ConnFail])) rfl (by simp)
  · cases h_step

end IonContrib.Tcpv4
