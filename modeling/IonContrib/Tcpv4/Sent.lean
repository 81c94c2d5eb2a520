/-
  IonContrib.Tcpv4.Sent

  What one end of a session puts on the wire.

  `Writes` says that the octets on the wire are the messages whose writing has
  begun, as far as they got before the socket broke.  `Sends` says which
  segments these are: for each transfer that has been taken off the queue, the
  front of it, one transfer behind the other.
-/
import IonContrib.Tcpv4.Cut
import IonContrib.Tcpv4.Received
import IonContrib.Tcpv4.TxLedger

namespace IonContrib.Tcpv4

open Conn

def Event.took? : Event → Option Xfer
  | .took x => some x
  | _ => none

/-- The transfers the transmit thread has taken off the queue, in order. -/
def Conn.took (c : Conn) : List Xfer := c.log.filterMap Event.took?

/-! ## What a step writes -/

/-- From `c` to `c'` the writing of the messages `ms` is begun, and `es` is logged. -/
inductive Spoke (c c' : Conn) : List Wire → List Event → Prop where
  | silent (es : List Event) (h_out : c'.outOctets = c.outOctets)
      (h_broken : c.broken = true → c'.broken = true) (h_log : c'.log = c.log ++ es) :
      Spoke c c' [] es
  | whole (ms : List Wire) (es : List Event) (h_open : c.broken = false)
      (h_out : c'.outOctets = c.outOctets ++ wired ms) (h_log : c'.log = c.log ++ es) :
      Spoke c c' ms es
  | cut (ms : List Wire) (part : Octets) (h_open : c.broken = false) (h_broken : c'.broken = true)
      (h_part : part <+: wired ms) (h_out : c'.outOctets = c.outOctets ++ part)
      (h_log : c'.log = c.log) : Spoke c c' ms []

namespace Spoke

variable {c c' d : Conn} {ms : List Wire} {es : List Event}

theorem congr (h : Spoke c d ms es)
    (h_same : (c'.outOctets, c'.broken, c'.log) = (d.outOctets, d.broken, d.log)) :
    Spoke c c' ms es := by
  simp only [Prod.mk.injEq] at h_same
  obtain ⟨h_out', h_broken', h_log'⟩ := h_same
  cases h with
  | silent es h_out h_broken h_log =>
    exact .silent es (h_out'.trans h_out) (by rw [h_broken']; exact h_broken) (h_log'.trans h_log)
  | whole ms es h_open h_out h_log =>
    exact .whole ms es h_open (h_out'.trans h_out) (h_log'.trans h_log)
  | cut ms part h_open h_broken h_part h_out h_log =>
    exact .cut ms part h_open (h_broken'.trans h_broken) h_part (h_out'.trans h_out)
      (h_log'.trans h_log)

/-- A step that leaves the socket and the log alone. -/
theorem same (h : (c'.outOctets, c'.broken, c'.log) = (c.outOctets, c.broken, c.log)) :
    Spoke c c' [] [] := by
  simp only [Prod.mk.injEq] at h
  exact .silent [] h.1 (by rw [h.2.1]; exact fun h => h) (by rw [h.2.2, List.append_nil])

theorem log (h : Spoke c c' ms es) : c'.log = c.log ++ es := by
  cases h with
  | silent es h_out h_broken h_log => exact h_log
  | whole ms es h_open h_out h_log => exact h_log
  | cut ms part h_open h_broken h_part h_out h_log => rw [h_log, List.append_nil]

/-- Nothing that has been written is taken back. -/
theorem out_prefix (h : Spoke c c' ms es) : c.outOctets <+: c'.outOctets := by
  cases h with
  | silent es h_out h_broken h_log => exact h_out ▸ List.prefix_rfl
  | whole ms es h_open h_out h_log => exact ⟨_, h_out.symm⟩
  | cut ms part h_open h_broken h_part h_out h_log => exact ⟨_, h_out.symm⟩

end Spoke

/-- A short message goes out whole, or breaks the socket; on a broken socket there is no more
    to break. -/
theorem sendCtrl_spoke {c d : Conn} {m : Ctrl} {o : Outcome} {b : Bool}
    (h : c.sendCtrl m o = some (d, b)) :
    Spoke c d [.ctrl m] [.sent m] ∨ Spoke c d [.ctrl m] [] ∨ Spoke c d [] [] := by
  have h_wired : wired [.ctrl m] = m.octets := List.append_nil _
  rcases Conn.sendCtrl_cases h with ⟨-, h_open, rfl⟩ | ⟨-, n, rfl⟩
  · exact Or.inl (.whole _ _ h_open (by rw [h_wired]) rfl)
  · cases h_broken : c.broken with
    | false =>
      refine Or.inr (Or.inl (.cut _ (m.octets.take n) h_broken rfl ?_ ?_ rfl))
      · rw [h_wired]
        exact List.take_prefix _ _
      · simp
    | true => exact Or.inr (Or.inr (.silent [] (by simp) (fun _ => rfl) (by simp)))

/-- Likewise for the segments of a write. -/
theorem send_spoke {c d : Conn} {ms : List Wire} {o : Outcome} {b : Bool}
    (h : c.send (wired ms) o = some (d, b)) :
    d.tx = c.tx ∧ d.log = c.log ∧
      (c.broken = false ∧ Spoke c d ms [] ∨ b = false ∧ Spoke c d [] []) := by
  rcases send_cases h with ⟨-, h_open, rfl⟩ | ⟨rfl, n, rfl⟩
  · exact ⟨rfl, rfl, Or.inl ⟨h_open, .whole _ _ h_open rfl (by simp)⟩⟩
  · refine ⟨rfl, rfl, ?_⟩
    cases h_broken : c.broken with
    | false =>
      exact Or.inl ⟨rfl, .cut _ ((wired ms).take n) h_broken rfl (List.take_prefix _ _) (by simp) rfl⟩
    | true => exact Or.inr ⟨rfl, .silent [] (by simp) (fun _ => rfl) (by simp)⟩

/-! ## The octets on the wire -/

structure Writes (c : Conn) (said : List Wire) : Prop where
  out : c.outOctets <+: wired said
  all : c.broken = false → c.outOctets = wired said
  fits : ∀ w ∈ said, w.Fits

theorem writes_init : Writes Conn.init [] := ⟨List.prefix_rfl, fun _ => rfl, by simp⟩

theorem Writes.spoke {c c' : Conn} {said ms : List Wire} {es : List Event} (h : Writes c said)
    (h_s : Spoke c c' ms es) (h_fits : ∀ w ∈ ms, w.Fits) : Writes c' (said ++ ms) := by
  have h_all : ∀ w ∈ said ++ ms, w.Fits := by
    intro w h_w
    rcases List.mem_append.mp h_w with h_w | h_w
    · exact h.fits w h_w
    · exact h_fits w h_w
  cases h_s with
  | silent es h_out h_broken h_log =>
    rw [List.append_nil] at h_all ⊢
    refine ⟨by rw [h_out]; exact h.out, fun h_open => ?_, h_all⟩
    rw [h_out]
    refine h.all (Bool.eq_false_iff.mpr fun h_b => ?_)
    rw [h_broken h_b] at h_open
    cases h_open
  | whole ms es h_open h_out h_log =>
    have h_eq : c'.outOctets = wired (said ++ ms) := by rw [h_out, h.all h_open, wired_append]
    exact ⟨h_eq ▸ List.prefix_rfl, fun _ => h_eq, h_all⟩
  | cut ms part h_open h_broken h_part h_out h_log =>
    refine ⟨?_, fun h_o => ?_, h_all⟩
    · rw [h_out, h.all h_open, wired_append]
      exact (List.prefix_append_right_inj _).mpr h_part
    · rw [h_broken] at h_o
      cases h_o

/-! ## The segments on the wire -/

/-- The transfers that have been taken, each with the segments of it whose writing has begun. -/
abbrev Parts := List (Xfer × List Segment)

/-- The last transfer is `x`, and it has been written up to octet `off`. -/
def Parts.Upto (parts : Parts) (broken : Bool) (x : Xfer) (off : Nat) : Prop :=
  ∃ front segs, parts = front ++ [(x, segs)] ∧ (broken = true ∨ CutTo x 0 segs off)

/-- How what has been sent fits the place of the transmit thread. -/
def XmitPc.sending (parts : Parts) (broken : Bool) : XmitPc → Prop
  | .opening x => parts.Upto broken x 0
  | .reading x off => parts.Upto broken x off
  | .writing x off len consumed =>
    off + len ≤ x.length ∧ len ≤ tcpv4TxbufSize ∧ consumed ≤ len ∧
      parts.Upto broken x (off + consumed)
  | .checking x off => parts.Upto broken x off
  | _ => True

theorem Parts.Upto.mono {parts : Parts} {broken broken' : Bool} {x : Xfer} {off : Nat}
    (h : parts.Upto broken x off) (h_b : broken = true → broken' = true) :
    parts.Upto broken' x off := by
  obtain ⟨front, segs, h_eq, h_cut⟩ := h
  exact ⟨front, segs, h_eq, h_cut.imp_left h_b⟩

theorem XmitPc.sending_mono {parts : Parts} {broken broken' : Bool} {pc : XmitPc}
    (h : pc.sending parts broken) (h_b : broken = true → broken' = true) :
    pc.sending parts broken' := by
  cases pc with
  | opening x => exact Parts.Upto.mono h h_b
  | reading x off => exact Parts.Upto.mono h h_b
  | writing x off len consumed =>
    obtain ⟨h_buf, h_len, h_le, h_upto⟩ := h
    exact ⟨h_buf, h_len, h_le, h_upto.mono h_b⟩
  | checking x off => exact Parts.Upto.mono h h_b
  | starting => trivial
  | idle => trivial
  | lettingGo x failed => trivial
  | reporting x failed => trivial
  | failing => trivial
  | ended => trivial

structure Sends (c : Conn) (said : List Wire) (parts : Parts) : Prop where
  took : parts.map Prod.fst = c.took
  segs : segmentsOf said = (parts.map Prod.snd).flatten
  cut : ∀ p ∈ parts, ∃ off, CutTo p.1 0 p.2 off
  ids : parts.map (fun p => p.1.transferId) = (List.range parts.length).map (· % 2 ^ 64)
  next : c.tx.nextTxId = parts.length % 2 ^ 64
  pc : c.xmitPc.sending parts c.broken

theorem sends_init : Sends Conn.init [] [] := ⟨rfl, rfl, by simp, rfl, rfl, trivial⟩

/-- A step of another thread. -/
structure NotSending (c c' : Conn) : Prop where
  xmitPc : c'.xmitPc = c.xmitPc
  nextTxId : c'.tx.nextTxId = c.tx.nextTxId

theorem Sends.other {c c' : Conn} {said ms : List Wire} {es : List Event} {parts : Parts}
    (h : Sends c said parts) (h_not : NotSending c c') (h_s : Spoke c c' ms es)
    (h_ms : segmentsOf ms = []) (h_es : es.filterMap Event.took? = []) :
    Sends c' (said ++ ms) parts := by
  refine ⟨?_, ?_, h.cut, h.ids, h_not.nextTxId.trans h.next, ?_⟩
  · rw [h.took, Conn.took, Conn.took, h_s.log, List.filterMap_append, h_es, List.append_nil]
  · rw [segmentsOf, List.filterMap_append]
    show segmentsOf said ++ segmentsOf ms = _
    rw [h_ms, List.append_nil, h.segs]
  · rw [h_not.xmitPc]
    refine XmitPc.sending_mono h.pc ?_
    cases h_s with
    | silent es h_out h_broken h_log => exact h_broken
    | whole ms es h_open h_out h_log => simp [h_open]
    | cut ms part h_open h_broken h_part h_out h_log => exact fun _ => h_broken

/-! ## The transmit thread -/

theorem CutTo.small {x : Xfer} {off off' : Nat} {segs : List Segment} (h : CutTo x off segs off')
    {s : Segment} (h_s : s ∈ segs) : s.2.length ≤ off' - off := by
  induction h with
  | nil => cases h_s
  | @cons off off' s' segs h_p h ih =>
    have h_le := h.le.1
    rcases List.mem_cons.mp h_s with rfl | h_s
    · omega
    · have := ih h_s
      omega

/-- What the transmit thread's moves have in common: nothing is written, and what is taken is
    taken already. -/
theorem Sends.move {c c' : Conn} {said : List Wire} {parts : Parts} (h : Sends c said parts)
    (h_tx : c'.tx.nextTxId = c.tx.nextTxId) (h_took : c'.took = c.took)
    (h_pc : c'.xmitPc.sending parts c'.broken) : Sends c' said parts :=
  ⟨h.took.trans h_took.symm, h.segs, h.cut, h.ids, h_tx.trans h.next, h_pc⟩

theorem tcpv4TxFinished_nextTxId (t : TxSide) (x : Option Xfer) :
    (tcpv4TxFinished t x).1.nextTxId = t.nextTxId := by
  rcases tcpv4TxFinished_cases (Prod.eta (tcpv4TxFinished t x)).symm with
    ⟨-, n, h_eq⟩ | ⟨y, l, -, -, -, -, -, h_eq⟩
  · rw [h_eq]
  · rw [h_eq]

theorem xmitLetGo_nextTxId {t t' : TxSide} {r : Nat} {failed : Bool} {done : Option Xfer}
    (h : xmitLetGo t r failed = (t', done)) : t'.nextTxId = t.nextTxId := by
  have h_eq : t' = (xmitLetGo t r failed).1 := by rw [h]
  rw [h_eq]
  exact tcpv4TxFinished_nextTxId _ _

theorem xmitTake_next {t t' : TxSide} {x : Xfer} (h : xmitTake t = .took x t') :
    x.transferId = t.nextTxId ∧ t'.nextTxId = (t.nextTxId + 1) % 2 ^ 64 := by
  obtain ⟨y, rest, -, -, rfl, rfl⟩ := xmitTake_cases h
  exact ⟨rfl, rfl⟩

/-- What a step of the transmit thread writes and logs. -/
structure XmitSpoke (c c' : Conn) (ms : List Wire) (es : List Event) : Prop where
  spoke : Spoke c c' ms es
  segments : ∃ segs, ms = segmentWires segs
  aloof : ∀ e ∈ es, e.aloof = true
  fits : ∀ w ∈ ms, w.Fits

theorem XmitSpoke.silent {c c' : Conn} {es : List Event} (h : Spoke c c' [] es)
    (h_es : ∀ e ∈ es, e.aloof = true) : XmitSpoke c c' [] es :=
  ⟨h, ⟨[], rfl⟩, h_es, by simp⟩

theorem Sends.took_new {c c' : Conn} {said : List Wire} {parts : Parts} (h : Sends c said parts)
    {x : Xfer} {tx : TxSide} (h_take : xmitTake c.tx = .took x tx)
    (h_log : c'.log = c.log ++ [.took x]) (h_tx : c'.tx = tx) (h_pc : c'.xmitPc = .opening x) :
    Sends c' said (parts ++ [(x, [])]) := by
  obtain ⟨h_id, h_next⟩ := xmitTake_next h_take
  refine ⟨?_, ?_, ?_, ?_, ?_, ?_⟩
  · rw [List.map_append, h.took, Conn.took, Conn.took, h_log, List.filterMap_append]
    rfl
  · rw [h.segs]
    simp
  · intro p h_p
    rcases List.mem_append.mp h_p with h_p | h_p
    · exact h.cut p h_p
    · rw [List.mem_singleton.mp h_p]
      exact ⟨0, .nil 0⟩
  · rw [List.map_append, h.ids, List.length_append, List.length_singleton, List.range_succ,
      List.map_append]
    simp [h_id, h.next]
  · rw [h_tx, h_next, h.next, List.length_append, List.length_singleton]
    omega
  · rw [h_pc]
    exact ⟨parts, [], rfl, Or.inr (.nil 0)⟩

/-- More of the last transfer. -/
theorem Sends.more {c c' : Conn} {said : List Wire} {parts : Parts} (h : Sends c said parts)
    {x : Xfer} {off off' : Nat} (h_upto : parts.Upto false x off) {segs : List Segment}
    (h_segs : CutTo x off segs off') (h_tx : c'.tx = c.tx) (h_log : c'.log = c.log)
    (h_pc : ∀ parts' : Parts, parts'.Upto false x off' → c'.xmitPc.sending parts' c'.broken) :
    ∃ parts', Sends c' (said ++ segmentWires segs) parts' := by
  obtain ⟨front, segs₀, rfl, h_cut⟩ := h_upto
  have h_cut : CutTo x 0 (segs₀ ++ segs) off' := (h_cut.resolve_left Bool.false_ne_true).append h_segs
  refine ⟨front ++ [(x, segs₀ ++ segs)], ?_, ?_, ?_, ?_, ?_, ?_⟩
  · have h_took := h.took
    rw [List.map_append] at h_took ⊢
    rw [Conn.took, h_log]
    exact h_took
  · rw [segmentsOf, List.filterMap_append]
    show segmentsOf said ++ segmentsOf (segmentWires segs) = _
    rw [h.segs, segmentsOf_segmentWires]
    simp
  · intro p h_p
    rcases List.mem_append.mp h_p with h_p | h_p
    · exact h.cut p (List.mem_append_left _ h_p)
    · rw [List.mem_singleton.mp h_p]
      exact ⟨off', h_cut⟩
  · have h_ids := h.ids
    simp only [List.map_append, List.length_append, List.map_cons, List.map_nil,
      List.length_cons, List.length_nil] at h_ids ⊢
    exact h_ids
  · rw [h_tx, h.next]
    simp
  · exact h_pc _ ⟨front, _, rfl, Or.inr h_cut⟩

theorem Sends.id_lt {c : Conn} {said : List Wire} {parts : Parts} (h : Sends c said parts)
    {x : Xfer} {segs : List Segment} (h_p : (x, segs) ∈ parts) : x.transferId < 2 ^ 64 := by
  have h_mem : x.transferId ∈ (List.range parts.length).map (· % 2 ^ 64) := by
    rw [← h.ids]
    exact List.mem_map_of_mem (f := fun p : Xfer × List Segment => p.1.transferId) h_p
  obtain ⟨n, -, h_n⟩ := List.mem_map.mp h_mem
  rw [← h_n]
  exact Nat.mod_lt _ (by decide)

/-- **A step of the transmit thread** writes the next segments of the transfer it has taken. -/
theorem xmit_sends {cfg : SessCfg} {c c' : Conn} {said : List Wire} {parts : Parts}
    (h_mtu : 0 < cfg.segmentMtu) (h : Sends c said parts) (h_step : XmitStep cfg c c') :
    ∃ ms es parts', XmitSpoke c c' ms es ∧ Sends c' (said ++ ms) parts' := by
  have h_silent : ∀ {es : List Event} {parts' : Parts}, Spoke c c' [] es →
      (∀ e ∈ es, e.aloof = true) → Sends c' said parts' →
      ∃ ms es parts', XmitSpoke c c' ms es ∧ Sends c' (said ++ ms) parts' := by
    intro es parts' h_s h_es h_sends
    exact ⟨[], es, parts', .silent h_s h_es, by rwa [List.append_nil]⟩
  have h_pc := h.pc
  cases h_step with
  | noBuffer h_at => exact h_silent (.same rfl) (by simp) (h.move rfl rfl trivial)
  | started h_at => exact h_silent (.same rfl) (by simp) (h.move rfl rfl trivial)
  | stopped h_at => exact h_silent (.same rfl) (by simp) (h.move rfl rfl trivial)
  | took x tx h_at h_take =>
    exact h_silent (.silent [.took x] rfl (fun h => h) rfl) (List.forall_mem_singleton.mpr rfl)
      (h.took_new h_take rfl rfl rfl)
  | unreadable x h_at => exact h_silent (.same rfl) (by simp) (h.move rfl rfl trivial)
  | opened x h_at =>
    rw [h_at] at h_pc
    exact h_silent (.same rfl) (by simp) (h.move rfl rfl h_pc)
  | read x off h_at h_off =>
    rw [h_at] at h_pc
    refine h_silent (.same rfl) (by simp) (h.move rfl rfl ⟨?_, ?_, Nat.zero_le _, h_pc⟩)
    · split <;> omega
    · split <;> omega
  | complete x off h_at h_off => exact h_silent (.same rfl) (by simp) (h.move rfl rfl trivial)
  | uncut x off len consumed h_at h_more h_run =>
    exact h_silent (.same rfl) (by simp) (h.move rfl rfl trivial)
  | wrote x off len consumed data consumed' o d b h_at h_more h_run h_send =>
    rw [h_at] at h_pc
    obtain ⟨h_buf, h_len, h_le, h_upto⟩ := h_pc
    obtain ⟨segs, rfl, h_cut, h_le'⟩ := cutRun_cut h_mtu h_buf h_le h_run
    obtain ⟨front, segs₀, h_parts, -⟩ := id h_upto
    have h_id : x.transferId < 2 ^ 64 := by
      rw [h_parts] at h
      exact h.id_lt (List.mem_append_right _ List.mem_cons_self)
    have h_fits : ∀ w ∈ segmentWires segs, w.Fits := by
      intro w h_w
      obtain ⟨s, h_s, rfl⟩ := List.mem_map.mp h_w
      obtain ⟨mid, h_piece⟩ := h_cut.piece h_s
      have h_small := h_cut.small h_s
      refine h_piece.fits h_id ?_
      unfold tcpv4TxbufSize at h_len
      omega
    obtain ⟨h_tx, h_log, h_spoke⟩ := send_spoke h_send
    rcases h_spoke with ⟨h_open, h_s⟩ | ⟨rfl, h_s⟩
    · rw [h_open] at h_upto
      have h_on : ∀ parts' : Parts, parts'.Upto false x (off + consumed') →
          (if b then XmitPc.writing x off len consumed' else .lettingGo x true).sending parts'
            d.broken := by
        intro parts' h_upto'
        cases b with
        | true => exact ⟨h_buf, h_len, h_le', h_upto'.mono (by simp)⟩
        | false => trivial
      obtain ⟨parts', h_sends⟩ := @Sends.more c { d with
        xmitPc := if b then .writing x off len consumed' else .lettingGo x true } said parts h x _ _
          h_upto segs h_cut h_tx h_log h_on
      exact ⟨_, [], parts', ⟨h_s.congr rfl, ⟨segs, rfl⟩, by simp, h_fits⟩, h_sends⟩
    · refine h_silent (h_s.congr rfl) (by simp) (h.move ?_ ?_ trivial)
      · exact congrArg TxSide.nextTxId h_tx
      · exact congrArg (List.filterMap Event.took?) h_log
  | bufferDone x off len consumed h_at h_done =>
    rw [h_at] at h_pc
    obtain ⟨h_buf, h_len, h_le, h_upto⟩ := h_pc
    obtain rfl : consumed = len := Nat.le_antisymm h_le h_done
    exact h_silent (.same rfl) (by simp) (h.move rfl rfl h_upto)
  | abandoned x off h_at h_ref => exact h_silent (.same rfl) (by simp) (h.move rfl rfl trivial)
  | wentOn x off h_at h_ref =>
    rw [h_at] at h_pc
    exact h_silent (.same rfl) (by simp) (h.move rfl rfl h_pc)
  | letGo x failed tx done h_at h_go =>
    refine h_silent (.same rfl) (by simp) (h.move (xmitLetGo_nextTxId h_go) rfl ?_)
    cases done with
    | none => cases failed <;> trivial
    | some y => trivial
  | reported x failed h_at =>
    refine h_silent (.silent [.reported x.ref x.bundle (tcpv4XferSucceeded x)] rfl (fun h => h) rfl)
      (List.forall_mem_singleton.mpr rfl) (h.move rfl ?_ ?_)
    · simp [Conn.took, Conn.report, Conn.note, Event.took?]
    · cases failed <;> trivial
  | failed h_at =>
    exact h_silent (.silent [] rfl (fun _ => rfl) (by simp [tcpv4ConnFail])) (by simp)
      (h.move rfl rfl trivial)

/-! ## The threads that carry no transfer -/

/-- Such a thread neither sends nor receives. -/
structure NotCarrying (c c' : Conn) : Prop where
  xmitPc : c'.xmitPc = c.xmitPc
  nextTxId : c'.tx.nextTxId = c.tx.nextTxId
  inOctets : c'.inOctets = c.inOctets

/-- A step that can say a short message which answers nothing. -/
structure AsideSpoke (c c' : Conn) (ms : List Wire) (es : List Event) : Prop where
  spoke : Spoke c c' ms es
  plain : ms = [] ∨ ∃ m, ms = [.ctrl m] ∧ m.isReply = false
  aloof : ∀ e ∈ es, e.aloof = true ∧ e.took? = none
  other : NotCarrying c c'

theorem AsideSpoke.silent {c c' : Conn} {es : List Event} (h : Spoke c c' [] es)
    (h_es : ∀ e ∈ es, e.aloof = true ∧ e.took? = none) (h_other : NotCarrying c c') :
    ∃ ms es, AsideSpoke c c' ms es :=
  ⟨[], es, h, Or.inl rfl, h_es, h_other⟩

theorem AsideSpoke.told {c c' d : Conn} {m : Ctrl} {o : Outcome} {b : Bool}
    (h : c.sendCtrl m o = some (d, b)) (h_m : m.isReply = false)
    (h_same : (c'.outOctets, c'.broken, c'.log) = (d.outOctets, d.broken, d.log))
    (h_other : NotCarrying c c') : ∃ ms es, AsideSpoke c c' ms es := by
  have h_es : ∀ e ∈ [Event.sent m], e.aloof = true ∧ e.took? = none :=
    List.forall_mem_singleton.mpr ⟨aloof_sent h_m, rfl⟩
  rcases sendCtrl_spoke h with h_s | h_s | h_s
  · exact ⟨_, _, h_s.congr h_same, Or.inr ⟨m, rfl, h_m⟩, h_es, h_other⟩
  · exact ⟨_, _, h_s.congr h_same, Or.inr ⟨m, rfl, h_m⟩, by simp, h_other⟩
  · exact ⟨_, _, h_s.congr h_same, Or.inl rfl, by simp, h_other⟩

theorem NotCarrying.of_sendCtrl {c d : Conn} {m : Ctrl} {o : Outcome} {b : Bool}
    (h : c.sendCtrl m o = some (d, b)) : NotCarrying c d := by
  obtain ⟨out, t, br, l, rfl⟩ := sendCtrl_shape h
  exact ⟨rfl, rfl, rfl⟩

variable {cfg : SessCfg} {c c' : Conn}

theorem call_aside {bundle : Octets} {o : Outcome} (h : c.call cfg bundle o = some c') :
    ∃ ms es, AsideSpoke c c' ms es := by
  have h_away : Spoke c ({ c with nextRef := c.nextRef + 1 }.note (.returned c.nextRef false)) []
      [.returned c.nextRef false] := .silent _ rfl (fun h => h) rfl
  have h_es : ∀ e ∈ [Event.returned c.nextRef false], e.aloof = true ∧ e.took? = none :=
    List.forall_mem_singleton.mpr ⟨rfl, rfl⟩
  unfold call at h
  split at h
  · cases h
  dsimp only at h
  split at h
  · rw [← Option.some.inj h]
    exact AsideSpoke.silent h_away h_es ⟨rfl, rfl, rfl⟩
  · rcases Outcome.noMem_or h with h | h
    · rw [← Option.some.inj h]
      exact AsideSpoke.silent h_away h_es ⟨rfl, rfl, rfl⟩
    · rw [← Option.some.inj h]
      exact AsideSpoke.silent (.same rfl) (by simp) ⟨rfl, rfl, rfl⟩

theorem leave_aside (r : Nat) (ok : Bool) : ∃ ms es, AsideSpoke c (c.leave r ok) ms es :=
  AsideSpoke.silent (.silent [.returned r ok] rfl (fun h => h) rfl)
    (List.forall_mem_singleton.mpr ⟨rfl, rfl⟩) ⟨rfl, rfl, rfl⟩

theorem room_aside {r : Nat} (h : c.room cfg r = some c') : ∃ ms es, AsideSpoke c c' ms es := by
  unfold room at h
  split at h
  · cases h
  rename_i x h_find
  split at h
  · cases h
  dsimp only at h
  split at h
  · rw [← Option.some.inj h]
    refine AsideSpoke.silent (.silent [.returned r true] rfl (fun h => h) rfl)
      (List.forall_mem_singleton.mpr ⟨rfl, rfl⟩) ⟨rfl, ?_, rfl⟩
    show (queueXferAdd c.tx x).1.nextTxId = c.tx.nextTxId
    unfold queueXferAdd
    split <;> rfl
  · rw [← Option.some.inj h]
    exact leave_aside r false

theorem timeout_aside {r : Nat} (h : c.timeout cfg r = some c') :
    ∃ ms es, AsideSpoke c c' ms es := by
  unfold timeout at h
  split at h
  · cases h
  split at h
  · rw [← Option.some.inj h]
    exact leave_aside r false
  · cases h

theorem clockTick_aside (cfg : SessCfg) (c : Conn) : ∃ ms es, AsideSpoke c (c.clockTick cfg) ms es := by
  unfold clockTick
  split
  · exact AsideSpoke.silent (.same rfl) (by simp) ⟨rfl, rfl, rfl⟩
  · dsimp only
    split
    · exact AsideSpoke.silent (.silent [.idleTerm] rfl (fun h => h) rfl)
        (List.forall_mem_singleton.mpr ⟨rfl, rfl⟩) ⟨rfl, rfl, rfl⟩
    · exact AsideSpoke.silent (.same rfl) (by simp) ⟨rfl, rfl, rfl⟩

theorem failed_aside {d : Conn} (h : (d.outOctets, d.broken, d.log) = (c.outOctets, true, c.log))
    (h_other : NotCarrying c d) : ∃ ms es, AsideSpoke c d ms es := by
  simp only [Prod.mk.injEq] at h
  exact AsideSpoke.silent (.silent [] h.1 (fun _ => h.2.1) (by rw [h.2.2, List.append_nil])) (by simp)
    h_other

theorem clock_aside {o : Outcome} (h : c.clockStep cfg o = some c') :
    ∃ ms es, AsideSpoke c c' ms es := by
  unfold clockStep at h
  split at h
  · split at h
    · rw [← Option.some.inj h]
      exact clockTick_aside cfg c
    · cases h
  · rw [← Option.some.inj h]
    exact failed_aside rfl ⟨rfl, rfl, rfl⟩
  · rw [← Option.some.inj h]
    exact AsideSpoke.silent (.same rfl) (by simp) ⟨rfl, rfl, rfl⟩
  · obtain ⟨⟨d, b⟩, h_send, rfl⟩ := Option.map_eq_some_iff.mp h
    obtain ⟨h₁, h₂, h₃⟩ := NotCarrying.of_sendCtrl h_send
    exact AsideSpoke.told h_send rfl rfl ⟨h₁, h₂, h₃⟩
  · obtain ⟨⟨d, b⟩, h_send, rfl⟩ := Option.map_eq_some_iff.mp h
    obtain ⟨h₁, h₂, h₃⟩ := NotCarrying.of_sendCtrl h_send
    exact AsideSpoke.told h_send rfl rfl ⟨h₁, h₂, h₃⟩
  · rw [← Option.some.inj h]
    exact failed_aside rfl ⟨rfl, rfl, rfl⟩

theorem stop_aside {o : Outcome} (h : c.stopStep o = some c') : ∃ ms es, AsideSpoke c c' ms es := by
  unfold stopStep at h
  split at h
  · split at h
    · rw [← Option.some.inj h]
      exact AsideSpoke.silent (.same rfl) (by simp) ⟨rfl, rfl, rfl⟩
    · cases h
  · rw [← Option.some.inj h]
    exact AsideSpoke.silent (.same rfl) (by simp) ⟨rfl, rfl, rfl⟩
  · rw [← Option.some.inj h]
    exact AsideSpoke.silent (.same rfl) (by simp) ⟨rfl, rfl, rfl⟩
  · rw [← Option.some.inj h]
    exact AsideSpoke.silent (.same rfl) (by simp) ⟨rfl, rfl, rfl⟩
  · obtain ⟨⟨d, b⟩, h_send, rfl⟩ := Option.map_eq_some_iff.mp h
    obtain ⟨h₁, h₂, h₃⟩ := NotCarrying.of_sendCtrl h_send
    exact AsideSpoke.told h_send rfl rfl ⟨h₁, h₂, h₃⟩
  · rw [← Option.some.inj h]
    exact failed_aside rfl ⟨rfl, rfl, rfl⟩
  · cases h

theorem free_aside (h : c.freeStep = some c') : ∃ ms es, AsideSpoke c c' ms es := by
  unfold freeStep at h
  split at h
  · split at h
    · cases h
    · rename_i x rest h_dead
      rw [← Option.some.inj h]
      exact AsideSpoke.silent
        (.silent [.reported x.ref x.bundle (tcpv4XferSucceeded x)] rfl (fun h => h) rfl)
        (List.forall_mem_singleton.mpr ⟨rfl, rfl⟩) ⟨rfl, rfl, rfl⟩
  split at h
  · rw [← Option.some.inj h]
    exact AsideSpoke.silent (.same rfl) (by simp) ⟨rfl, rfl, rfl⟩
  · cases h

/-- **The other threads say nothing about transfers.** -/
theorem step_aside {a : Act} (h_recv : ∀ o, a ≠ .recv o) (h_dlv : ∀ o, a ≠ .dlv o)
    (h_xmit : ∀ o, a ≠ .xmit o) (h_arrive : ∀ data, a ≠ .arrive data)
    (h : step cfg c a = some c') : ∃ ms es, AsideSpoke c c' ms es := by
  cases a with
  | recv o => exact absurd rfl (h_recv o)
  | dlv o => exact absurd rfl (h_dlv o)
  | xmit o => exact absurd rfl (h_xmit o)
  | call bundle o => exact call_aside h
  | room r => exact room_aside h
  | timeout r => exact timeout_aside h
  | clock o => exact clock_aside h
  | stop o => exact stop_aside h
  | free => exact free_aside h
  | arrive data => exact absurd rfl (h_arrive data)

/-! ## The threads that receive -/

theorem afterTxSection_tx (c : Conn) (tx : TxSide) (done : Option Xfer) (reject : Option Ctrl) :
    (c.afterTxSection tx done reject).tx = tx := by
  cases done with
  | some x => rfl
  | none => cases reject <;> rfl

theorem xferAckSection_nextTxId (t : TxSide) (m : XferAck) :
    (xferAckSection t m).1.nextTxId = t.nextTxId := by
  unfold xferAckSection
  split
  · rfl
  split
  · rfl
  split
  · exact tcpv4TxFinished_nextTxId _ _
  dsimp only
  split
  · exact tcpv4TxFinished_nextTxId _ _
  · rfl

theorem xferRefuseSection_nextTxId (t : TxSide) (m : XferRefuse) :
    (xferRefuseSection t m).1.nextTxId = t.nextTxId := by
  unfold xferRefuseSection
  split
  · rfl
  · exact tcpv4TxFinished_nextTxId _ _

theorem NotSending.of_sendCtrl {d : Conn} {m : Ctrl} {o : Outcome} {b : Bool}
    (h : c.sendCtrl m o = some (d, b)) : NotSending c d :=
  ⟨(NotCarrying.of_sendCtrl h).xmitPc, (NotCarrying.of_sendCtrl h).nextTxId⟩

theorem recv_notSending (h_step : RecvStep cfg c c') : NotSending c c' := by
  refine ⟨(recvStep_frame h_step).1.xmitPc, ?_⟩
  cases h_step with
  | quit clean h_pc h_clean => rfl
  | type type rest h_pc h_in => rfl
  | segment seg rest o h_pc h_in =>
    obtain ⟨rx, pc, h_eq, -⟩ := handleSegmentHdr_shape cfg { c with inOctets := rest } seg o
    rw [h_eq]
  | ack m rest h_pc h_in =>
    rw [handleAck, afterTxSection_tx]
    exact xferAckSection_nextTxId c.tx m
  | refuse m rest h_pc h_in =>
    rw [handleRefuse, afterTxSection_tx]
    exact xferRefuseSection_nextTxId c.tx m
  | keepalive h_pc => rfl
  | reject m rest h_pc h_in =>
    obtain ⟨term, state, pc, h_eq, -⟩ := handleReject_shape { c with inOctets := rest } m
    rw [h_eq]
  | sessTerm m rest h_pc h_in => rfl
  | unknown type m h_pc h_type h_m => rfl
  | refuseUnsaid reason seg h_pc h_bad => rfl
  | refuseSaid reason seg o d b h_pc h_busy h_bad h_send => exact (NotSending.of_sendCtrl h_send).2
  | drained seg data rest h_pc h_ref h_len h_in =>
    obtain ⟨rx, pc, h_eq, -⟩ := finishSegment_shape { c with inOctets := rest } seg
    rw [h_eq]
  | exhausted seg h_pc h_ref => rfl
  | stored seg rx mem data rest h_pc h_ref h_rx h_len h_in =>
    obtain ⟨rx', pc, h_eq, -⟩ := finishSegment_shape { c with
      rx := segmentStore rx data, inOctets := rest } seg
    rw [h_eq]
  | storeFailed seg rx mem h_pc h_ref h_rx => rfl
  | acked m o d b h_pc h_busy h_bad h_send =>
    have h_tx : (d.goOn (if b then .loop else .ret false)).tx = d.tx := by cases b <;> rfl
    rw [h_tx]
    exact (NotSending.of_sendCtrl h_send).2
  | handed seg h_pc h_busy h_bad => rfl
  | reported x reject h_pc => rfl
  | stopped say ok bad h_pc =>
    cases say with
    | none => cases ok <;> rfl
    | some m => rfl
  | said m ok bad o d b h_pc h_send =>
    have h_tx : ∀ next, (d.goOn next).tx = d.tx := fun next => by cases next <;> rfl
    rw [h_tx]
    exact (NotSending.of_sendCtrl h_send).2
  | failed h_pc => rfl
  | txStopped h_pc => rfl
  | joinedXmit h_pc h_xmit => rfl
  | dlvStopped h_pc => rfl
  | joinedDlv h_pc h_dlv => rfl
  | closed h_pc => rfl

theorem dlv_notSending {o : Outcome} (h : c.dlvStep o = some c') : NotSending c c' := by
  unfold dlvStep at h
  split at h
  · split at h
    · rw [← Option.some.inj h]
      exact ⟨rfl, rfl⟩
    split at h
    · rw [← Option.some.inj h]
      exact ⟨rfl, rfl⟩
    · cases h
  · rcases Outcome.err_or h with h | h
    · rw [← Option.some.inj h]
      exact ⟨rfl, rfl⟩
    · rw [← Option.some.inj h]
      exact ⟨rfl, rfl⟩
  · obtain ⟨⟨d, b⟩, h_send, rfl⟩ := Option.map_eq_some_iff.mp h
    obtain ⟨h₁, h₂⟩ := NotSending.of_sendCtrl h_send
    exact ⟨h₁, h₂⟩
  · rw [← Option.some.inj h]
    exact ⟨rfl, rfl⟩
  · rw [← Option.some.inj h]
    exact ⟨rfl, rfl⟩
  · cases h

end IonContrib.Tcpv4
