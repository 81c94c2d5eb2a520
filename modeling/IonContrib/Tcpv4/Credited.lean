/-
  IonContrib.Tcpv4.Credited

  What one end of a session tells its senders about their bundles.

  A transfer keeps the bundle `queueXfer` was called with and is taken off the
  queue once at most, and it is credited only on the word of the peer
  (`Credit`): an acknowledgement of its whole length, or a refusal of a
  transfer that is complete already.  `Hands` is all that a step can do to the
  transfers of a session.
-/
import IonContrib.Tcpv4.Answered
import IonContrib.Tcpv4.Heard
import IonContrib.Tcpv4.TxReport

namespace IonContrib.Tcpv4

open Conn

def Xfer.credited (x : Xfer) : Bool := x.acked || x.completed

theorem credited_of_succeeded {x : Xfer} (h : tcpv4XferSucceeded x = true) :
    x.credited = true := by
  unfold tcpv4XferSucceeded at h
  unfold Xfer.credited
  revert h
  cases x.acked <;> cases x.completed <;> simp

/-- The peer's word for a transfer. -/
def Credit (heard : List Wire) (x : Xfer) : Prop :=
  (∃ m ∈ acksOf heard, m.transferId = x.transferId ∧ m.ackLength = x.length ∧ 0 < m.ackLength) ∨
    ∃ m ∈ refusalsOf heard, m.reason = tmsgRefuseCompleted

namespace Conn

/-- The transfers that have not been taken off the queue. -/
def waiting (c : Conn) : List Xfer := c.senders ++ c.tx.txQueue.items

/-- The transfers that have not been reported. -/
def pool (c : Conn) : List Xfer := c.waiting ++ c.tx.txWindow.items ++ c.held

end Conn

/-- `called` are the bundles `queueXfer` was called with. -/
structure Credits (c : Conn) (heard : List Wire) (called : List Octets) : Prop where
  next : c.nextRef = called.length
  named : ∀ y ∈ c.pool ++ c.took, called[y.ref]? = some y.bundle
  credited : ∀ y ∈ c.pool, y.credited = true → ∃ x ∈ c.took, x.ref = y.ref ∧ Credit heard x
  window : ∀ y ∈ c.tx.txWindow.items, ∃ x ∈ c.took, x.ref = y.ref ∧ x.transferId = y.transferId
  reported : ∀ r b, .reported r b true ∈ c.log → called[r]? = some b ∧
    ∃ x ∈ c.took, x.ref = r ∧ Credit heard x
  once : ((c.waiting ++ c.took).map Xfer.ref).Nodup

theorem credits_init : Credits Conn.init [] [] where
  next := rfl
  named := by simp [Conn.pool, Conn.waiting, Conn.held, Conn.took, Conn.init, TxSide.init,
    TailList.empty, XmitPc.held, RxPc.held]
  credited := by simp [Conn.pool, Conn.waiting, Conn.held, Conn.init, TxSide.init, TailList.empty,
    XmitPc.held, RxPc.held]
  window := by simp [Conn.init, TxSide.init, TailList.empty]
  reported := by simp [Conn.init]
  once := List.nodup_nil

/-- What a step does to the transfers.  `seen` is what it has heard, `taken` what it takes off
    the queue. -/
structure Hands (seen : List Wire) (c c' : Conn) (taken : List Xfer) : Prop where
  next : c'.nextRef = c.nextRef
  took : c'.took = c.took ++ taken
  pool : ∀ y ∈ c'.pool ++ taken, ∃ x ∈ c.pool, x.ref = y.ref ∧ x.bundle = y.bundle ∧
    (y.credited = true → x.credited = true ∨ x ∈ c.tx.txWindow.items ∧ Credit seen x)
  window : ∀ y ∈ c'.tx.txWindow.items, y ∈ taken ∨
    ∃ x ∈ c.tx.txWindow.items, x.ref = y.ref ∧ x.transferId = y.transferId
  reported : ∀ r b, .reported r b true ∈ c'.log → .reported r b true ∈ c.log ∨
    ∃ x ∈ c.pool, x.ref = r ∧ x.bundle = b ∧ x.credited = true
  waiting : ((c'.waiting ++ taken).map Xfer.ref).Subperm (c.waiting.map Xfer.ref)

variable {cfg : SessCfg} {c c' : Conn} {heard seen : List Wire} {called : List Octets}
  {taken : List Xfer}

theorem Credit.mono {x : Xfer} (h : Credit heard x ∨ Credit seen x) : Credit (heard ++ seen) x := by
  unfold Credit
  simp only [acksOf_append, refusalsOf_append, List.mem_append]
  rcases h with (⟨m, h_m, h_x⟩ | ⟨m, h_m, h_r⟩) | (⟨m, h_m, h_x⟩ | ⟨m, h_m, h_r⟩)
  · exact Or.inl ⟨m, Or.inl h_m, h_x⟩
  · exact Or.inr ⟨m, Or.inl h_m, h_r⟩
  · exact Or.inl ⟨m, Or.inr h_m, h_x⟩
  · exact Or.inr ⟨m, Or.inr h_m, h_r⟩

theorem mem_pool_window {y : Xfer} (h : y ∈ c.tx.txWindow.items) : y ∈ c.pool :=
  List.mem_append_left _ (List.mem_append_right _ h)

theorem mem_pool_held {y : Xfer} (h : y ∈ c.held) : y ∈ c.pool := List.mem_append_right _ h

theorem mem_pool_waiting {y : Xfer} (h : y ∈ c.waiting) : y ∈ c.pool :=
  List.mem_append_left _ (List.mem_append_left _ h)

/-- **A step keeps the account.** -/
theorem Credits.hands (h : Credits c heard called) (h_h : Hands seen c c' taken) :
    Credits c' (heard ++ seen) called := by
  have h_took : ∀ {x}, x ∈ c.took → x ∈ c'.took := by
    intro x h_x
    rw [h_h.took]
    exact List.mem_append_left _ h_x
  -- What is on the window has been taken, so it is credited as what was taken.
  have h_credit : ∀ x ∈ c.pool, (x.credited = true ∨ x ∈ c.tx.txWindow.items ∧ Credit seen x) →
      ∃ x₀ ∈ c'.took, x₀.ref = x.ref ∧ Credit (heard ++ seen) x₀ := by
    intro x h_x h_or
    rcases h_or with h_old | ⟨h_win, h_new⟩
    · obtain ⟨x₀, h_x₀, h_ref, h_c⟩ := h.credited x h_x h_old
      exact ⟨x₀, h_took h_x₀, h_ref, .mono (Or.inl h_c)⟩
    · obtain ⟨x₀, h_x₀, h_ref, h_id⟩ := h.window x h_win
      have h_bundle : x₀.bundle = x.bundle := by
        have h₁ := h.named x₀ (List.mem_append_right _ h_x₀)
        have h₂ := h.named x (List.mem_append_left _ h_x)
        rw [h_ref, h₂] at h₁
        exact (Option.some.inj h₁).symm
      refine ⟨x₀, h_took h_x₀, h_ref, .mono (Or.inr ?_)⟩
      unfold Credit Xfer.length at h_new ⊢
      rwa [h_id, h_bundle]
  refine ⟨h_h.next.trans h.next, ?_, ?_, ?_, ?_, ?_⟩
  · intro y h_y
    rw [h_h.took, ← List.append_assoc] at h_y
    have h_y' : y ∈ c'.pool ++ taken ∨ y ∈ c.took := by
      simp only [List.mem_append] at h_y ⊢
      tauto
    rcases h_y' with h_y | h_y
    · obtain ⟨x, h_x, h_ref, h_bundle, -⟩ := h_h.pool y h_y
      rw [← h_ref, ← h_bundle]
      exact h.named x (List.mem_append_left _ h_x)
    · exact h.named y (List.mem_append_right _ h_y)
  · intro y h_y h_c
    obtain ⟨x, h_x, h_ref, -, h_or⟩ := h_h.pool y (List.mem_append_left _ h_y)
    rw [← h_ref]
    exact h_credit x h_x (h_or h_c)
  · intro y h_y
    rcases h_h.window y h_y with h_new | ⟨x, h_x, h_ref, h_id⟩
    · exact ⟨y, by rw [h_h.took]; exact List.mem_append_right _ h_new, rfl, rfl⟩
    · obtain ⟨x₀, h_x₀, h_ref₀, h_id₀⟩ := h.window x h_x
      exact ⟨x₀, h_took h_x₀, h_ref₀.trans h_ref, h_id₀.trans h_id⟩
  · intro r b h_r
    rcases h_h.reported r b h_r with h_old | ⟨x, h_x, rfl, rfl, h_c⟩
    · obtain ⟨h_called, x, h_x, h_ref, h_c⟩ := h.reported r b h_old
      exact ⟨h_called, x, h_took h_x, h_ref, .mono (Or.inl h_c)⟩
    · exact ⟨h.named x (List.mem_append_left _ h_x), h_credit x h_x (Or.inl h_c)⟩
  · have h_perm : ((c'.waiting ++ c'.took).map Xfer.ref).Perm
        ((c'.waiting ++ taken).map Xfer.ref ++ c.took.map Xfer.ref) := by
      rw [h_h.took]
      simp only [List.map_append, List.append_assoc]
      exact List.perm_append_comm.append_left _
    obtain ⟨l, h_l, h_sub⟩ := h_h.waiting
    have h_nodup : (l ++ c.took.map Xfer.ref).Nodup := by
      have h_once := h.once
      rw [List.map_append] at h_once
      exact (h_sub.append_right _).nodup h_once
    exact h_perm.nodup_iff.mpr ((h_l.append_right _).nodup_iff.mp h_nodup)

/-- `queueXfer` is called. -/
theorem call_credits {bundle : Octets} {o : Outcome} (h : Credits c heard called)
    (h_step : c.call cfg bundle o = some c') : Credits c' heard (called ++ [bundle]) := by
  have h_named : ∀ {r : Nat} {b : Octets}, called[r]? = some b →
      (called ++ [bundle])[r]? = some b := by
    intro r b h_r
    obtain ⟨h_lt, -⟩ := List.getElem?_eq_some_iff.mp h_r
    rw [List.getElem?_append_left h_lt, h_r]
  have h_reported : ∀ r b, .reported r b true ∈ c.log → (called ++ [bundle])[r]? = some b ∧
      ∃ x ∈ c.took, x.ref = r ∧ Credit heard x := by
    intro r b h_r
    obtain ⟨h_called, h_x⟩ := h.reported r b h_r
    exact ⟨h_named h_called, h_x⟩
  have h_away : Credits ({ c with nextRef := c.nextRef + 1 }.note (.returned c.nextRef false)) heard
      (called ++ [bundle]) := by
    have h_took : ({ c with nextRef := c.nextRef + 1 }.note (.returned c.nextRef false)).took =
        c.took := by
      simp [Conn.took, note, Event.took?]
    refine ⟨?_, ?_, ?_, ?_, ?_, ?_⟩
    · rw [List.length_append, ← h.next]
      rfl
    · rw [h_took]
      exact fun y h_y => h_named (h.named y h_y)
    · rw [h_took]
      exact h.credited
    · rw [h_took]
      exact h.window
    · rw [h_took]
      intro r b h_r
      exact h_reported r b (by simpa [note] using h_r)
    · rw [h_took]
      exact h.once
  have h_wait : Credits { c with
      nextRef := c.nextRef + 1
      senders := c.senders ++ [newXfer c.nextRef bundle] } heard (called ++ [bundle]) := by
    have h_new : (called ++ [bundle])[(newXfer c.nextRef bundle).ref]? = some bundle := by
      show (called ++ [bundle])[c.nextRef]? = _
      rw [h.next, List.getElem?_concat_length]
    have h_mem : ∀ y ∈ Conn.pool { c with
        nextRef := c.nextRef + 1
        senders := c.senders ++ [newXfer c.nextRef bundle] },
        y ∈ c.pool ∨ y = newXfer c.nextRef bundle := by
      intro y h_y
      have h_held : Conn.held { c with
          nextRef := c.nextRef + 1
          senders := c.senders ++ [newXfer c.nextRef bundle] } = c.held := rfl
      simp only [Conn.pool, Conn.waiting, h_held, List.mem_append, List.mem_singleton] at h_y ⊢
      tauto
    refine ⟨?_, ?_, ?_, h.window, h_reported, ?_⟩
    · rw [List.length_append, ← h.next]
      rfl
    · intro y h_y
      rcases List.mem_append.mp h_y with h_y | h_y
      · rcases h_mem y h_y with h_y | rfl
        · exact h_named (h.named y (List.mem_append_left _ h_y))
        · exact h_new
      · exact h_named (h.named y (List.mem_append_right _ h_y))
    · intro y h_y h_c
      rcases h_mem y h_y with h_y | rfl
      · exact h.credited y h_y h_c
      · cases h_c
    · have h_perm : ((c.senders ++ [newXfer c.nextRef bundle] ++ c.tx.txQueue.items ++
          c.took).map Xfer.ref).Perm (c.nextRef :: (c.waiting ++ c.took).map Xfer.ref) := by
        simp only [Conn.waiting, List.append_assoc, List.map_append]
        exact List.perm_middle
      refine h_perm.nodup_iff.mpr (List.nodup_cons.mpr ⟨fun h_mem => ?_, h.once⟩)
      obtain ⟨y, h_y, h_ref⟩ := List.mem_map.mp h_mem
      have h_y' : y ∈ c.pool ++ c.took := by
        rcases List.mem_append.mp h_y with h_y | h_y
        · exact List.mem_append_left _ (mem_pool_waiting h_y)
        · exact List.mem_append_right _ h_y
      obtain ⟨h_lt, -⟩ := List.getElem?_eq_some_iff.mp (h.named y h_y')
      rw [h_ref, h.next] at h_lt
      exact Nat.lt_irrefl _ h_lt
  unfold call at h_step
  split at h_step
  · cases h_step
  dsimp only at h_step
  split at h_step
  · exact Option.some.inj h_step ▸ h_away
  · rcases Outcome.noMem_or h_step with h_step | h_step
    · exact Option.some.inj h_step ▸ h_away
    · exact Option.some.inj h_step ▸ h_wait

/-! ## What a step can do to the transfers -/

/-- Neither a taking nor a report. -/
def Event.neutral (e : Event) : Bool := e.took?.isNone && e.reported?.isNone

/-- The log goes on, with nothing about transfers. -/
def LogNeutral (c c' : Conn) : Prop := ∃ es, c'.log = c.log ++ es ∧ ∀ e ∈ es, e.neutral = true

theorem LogNeutral.same (h : c'.log = c.log) : LogNeutral c c' :=
  ⟨[], by rw [h, List.append_nil], by simp⟩

theorem LogNeutral.one {e : Event} (h : c'.log = c.log ++ [e]) (h_e : e.neutral = true) :
    LogNeutral c c' :=
  ⟨[e], h, List.forall_mem_singleton.mpr h_e⟩

theorem LogNeutral.sendCtrl {m : Ctrl} {o : Outcome} {d : Conn} {b : Bool}
    (h : c.sendCtrl m o = some (d, b)) : LogNeutral c d := by
  rcases sendCtrl_cases h with ⟨-, -, rfl⟩ | ⟨-, n, rfl⟩
  · exact .one rfl rfl
  · exact .same rfl

theorem LogNeutral.took (h : LogNeutral c c') : c'.took = c.took := by
  obtain ⟨es, h_log, h_es⟩ := h
  have h_none : es.filterMap Event.took? = [] := by
    refine List.filterMap_eq_nil_iff.mpr fun e h_e => ?_
    have h_neutral := h_es e h_e
    simp only [Event.neutral, Bool.and_eq_true, Option.isNone_iff_eq_none] at h_neutral
    exact h_neutral.1
  rw [Conn.took, h_log, List.filterMap_append, h_none, List.append_nil, Conn.took]

theorem LogNeutral.reported (h : LogNeutral c c') {r : Nat} {b : Octets} {ok : Bool}
    (h_r : .reported r b ok ∈ c'.log) : .reported r b ok ∈ c.log := by
  obtain ⟨es, h_log, h_es⟩ := h
  rw [h_log] at h_r
  rcases List.mem_append.mp h_r with h_r | h_r
  · exact h_r
  · have h_neutral := h_es _ h_r
    simp [Event.neutral, Event.reported?] at h_neutral

/-- From `t` to `t'` transfers leave the window for `done` at most, and are credited only with
    what has been heard. -/
structure Retired (seen : List Wire) (t t' : TxSide) (done : Option Xfer) : Prop where
  queue : t'.txQueue = t.txQueue
  kept : ∀ y ∈ t'.txWindow.items ++ done.toList, ∃ x ∈ t.txWindow.items, x.ref = y.ref ∧
    x.bundle = y.bundle ∧ x.transferId = y.transferId ∧
    (y.credited = true → x.credited = true ∨ Credit seen x)

theorem Retired.same {t t' : TxSide} (h_queue : t'.txQueue = t.txQueue)
    (h_window : t'.txWindow = t.txWindow) : Retired seen t t' none := by
  refine ⟨h_queue, fun y h_y => ?_⟩
  rw [h_window, Option.toList_none, List.append_nil] at h_y
  exact ⟨y, h_y, rfl, rfl, rfl, Or.inl⟩

/-- The counters do not matter. -/
theorem Retired.of_same {t t₀ t' : TxSide} {done : Option Xfer} (h : Retired seen t₀ t' done)
    (h_queue : t₀.txQueue = t.txQueue) (h_window : t₀.txWindow = t.txWindow) :
    Retired seen t t' done :=
  ⟨h.queue.trans h_queue, by rw [← h_window]; exact h.kept⟩

theorem Retired.finished {t t' : TxSide} {r : Nat} {done : Option Xfer}
    (h : tcpv4TxFinished t (t.windowed r) = (t', done)) : Retired seen t t' done := by
  rcases tcpv4TxFinished_cases h with ⟨rfl, n, rfl⟩ | ⟨y, l, h_y, rfl, -, -, h_unlink, rfl⟩
  · exact .same rfl rfl
  · refine ⟨rfl, fun z h_z => ?_⟩
    rcases List.mem_append.mp h_z with h_z | h_z
    · rw [TailList.unlink_items h_unlink] at h_z
      exact ⟨z, List.mem_of_mem_eraseP h_z, rfl, rfl, rfl, Or.inl⟩
    · obtain rfl : z = y := by simpa using h_z
      exact ⟨z, (windowed_mem h_y).1, rfl, rfl, rfl, Or.inl⟩

theorem Retired.of_touch {t t' : TxSide} {r : Nat} {f : Xfer → Xfer} {done : Option Xfer}
    (h_f : KeepsXfer f) (h_id : ∀ x, (f x).transferId = x.transferId)
    (h_credit : ∀ x ∈ t.txWindow.items, x.ref = r → (f x).credited = true →
      x.credited = true ∨ Credit seen x)
    (h : Retired seen (t.touch r f) t' done) : Retired seen t t' done := by
  refine ⟨h.queue, fun y h_y => ?_⟩
  obtain ⟨x', h_x', h_ref, h_bundle, h_id', h_c⟩ := h.kept y h_y
  obtain ⟨x, h_x, rfl⟩ := List.mem_map.mp h_x'
  by_cases h_r : x.ref = r
  · rw [if_pos h_r] at h_ref h_bundle h_id' h_c
    rw [h_f.ref] at h_ref
    rw [h_f.bundle] at h_bundle
    rw [h_id] at h_id'
    refine ⟨x, h_x, h_ref, h_bundle, h_id', fun h_y => ?_⟩
    rcases h_c h_y with h_c | h_c
    · exact h_credit x h_x h_r h_c
    · refine Or.inr ?_
      unfold Credit Xfer.length at h_c ⊢
      rwa [h_id, h_f.bundle] at h_c
  · rw [if_neg h_r] at h_ref h_bundle h_id' h_c
    exact ⟨x, h_x, h_ref, h_bundle, h_id', h_c⟩

theorem letGo_retired {t t' : TxSide} {r : Nat} {failed : Bool} {done : Option Xfer}
    (h : xmitLetGo t r failed = (t', done)) : Retired seen t t' done := by
  refine Retired.of_touch ?_ ?_ ?_ (Retired.finished h)
  · exact ⟨fun _ => rfl, fun _ => rfl⟩
  · exact fun _ => rfl
  · exact fun x _ _ h_c => Or.inl h_c

/-- An acknowledgement credits the oldest transfer, when it is for all of it. -/
theorem ack_retired {t t' : TxSide} {m : XferAck} {done : Option Xfer} {unexpected : Bool}
    (h_nodup : (t.txWindow.items.map Xfer.ref).Nodup)
    (h : xferAckSection t m = (t', done, unexpected)) :
    Retired [.ctrl (.ack m)] t t' done := by
  unfold xferAckSection at h
  split at h
  · simp only [Prod.mk.injEq] at h
    obtain ⟨rfl, rfl, -⟩ := h
    exact .same rfl rfl
  rename_i head h_head
  split at h
  · simp only [Prod.mk.injEq] at h
    obtain ⟨rfl, rfl, -⟩ := h
    exact .same rfl rfl
  rename_i h_id
  split at h
  · simp only [Prod.mk.injEq] at h
    obtain ⟨rfl, rfl, -⟩ := h
    refine Retired.of_touch ?_ ?_ ?_ (Retired.finished (Prod.eta _).symm)
    · exact ⟨fun _ => rfl, fun _ => rfl⟩
    · exact fun _ => rfl
    · exact fun x _ _ h_c => Or.inl h_c
  rename_i h_range
  dsimp only at h
  split at h
  · rename_i h_all
    simp only [Prod.mk.injEq] at h
    obtain ⟨rfl, rfl, -⟩ := h
    have h_new : ∀ x ∈ t.txWindow.items, x.ref = head.ref → Credit [.ctrl (.ack m)] x := by
      intro x h_x h_ref
      obtain rfl : x = head :=
        List.inj_on_of_nodup_map h_nodup h_x (List.mem_of_head? h_head) h_ref
      refine Or.inl ⟨m, List.mem_cons_self, by simpa using h_id, h_all, ?_⟩
      omega
    refine @Retired.of_same _ t { t with txAckedLen := m.ackLength } _ _ ?_ rfl rfl
    refine Retired.of_touch ?_ ?_ ?_ (Retired.finished (Prod.eta _).symm)
    · exact ⟨fun _ => rfl, fun _ => rfl⟩
    · exact fun _ => rfl
    · exact fun x h_x h_ref _ => Or.inr (h_new x h_x h_ref)
  · simp only [Prod.mk.injEq] at h
    obtain ⟨rfl, rfl, -⟩ := h
    exact .same rfl rfl

/-- A refusal credits the transfer it names, when that is complete. -/
theorem refuse_retired {t t' : TxSide} {m : XferRefuse} {done : Option Xfer} {known : Bool}
    (h : xferRefuseSection t m = (t', done, known)) :
    Retired [.ctrl (.refuse m)] t t' done := by
  unfold xferRefuseSection at h
  split at h
  · simp only [Prod.mk.injEq] at h
    obtain ⟨rfl, rfl, -⟩ := h
    exact .same rfl rfl
  · simp only [Prod.mk.injEq] at h
    obtain ⟨rfl, rfl, -⟩ := h
    refine Retired.of_touch ?_ ?_ ?_ (Retired.finished (Prod.eta _).symm)
    · exact ⟨fun _ => rfl, fun _ => rfl⟩
    · exact fun _ => rfl
    intro x _ _ h_c
    by_cases h_reason : m.reason = tmsgRefuseCompleted
    · exact Or.inr (Or.inr ⟨m, List.mem_cons_self, h_reason⟩)
    · simp only [Xfer.credited, if_neg h_reason] at h_c
      exact Or.inl h_c

/-- A step that leaves all transfers alone but those of senders. -/
theorem Hands.sender (h_waiting : c'.waiting.Subperm c.waiting)
    (h : (c'.tx.txWindow, c'.held, c'.nextRef) = (c.tx.txWindow, c.held, c.nextRef))
    (h_log : LogNeutral c c') : Hands seen c c' [] := by
  simp only [Prod.mk.injEq] at h
  obtain ⟨h_window, h_held, h_next⟩ := h
  refine ⟨h_next, by rw [h_log.took, List.append_nil], ?_, ?_, ?_, ?_⟩
  · intro y h_y
    rw [List.append_nil, Conn.pool, h_window, h_held] at h_y
    refine ⟨y, ?_, rfl, rfl, Or.inl⟩
    rcases List.mem_append.mp h_y with h_y | h_y
    · rcases List.mem_append.mp h_y with h_y | h_y
      · exact mem_pool_waiting (h_waiting.subset h_y)
      · exact mem_pool_window h_y
    · exact mem_pool_held h_y
  · rw [h_window]
    exact fun y h_y => Or.inr ⟨y, h_y, rfl, rfl⟩
  · exact fun r b h_r => Or.inl (h_log.reported h_r)
  · obtain ⟨l, h_l, h_sub⟩ := h_waiting
    rw [List.append_nil]
    exact ⟨l.map Xfer.ref, h_l.map _, h_sub.map _⟩

/-- A step that leaves them all alone. -/
theorem Hands.quiet
    (h : (c'.senders, c'.tx.txQueue, c'.tx.txWindow, c'.held, c'.nextRef) =
      (c.senders, c.tx.txQueue, c.tx.txWindow, c.held, c.nextRef))
    (h_log : LogNeutral c c') : Hands seen c c' [] := by
  simp only [Prod.mk.injEq] at h
  obtain ⟨h_senders, h_queue, h_rest⟩ := h
  have h_waiting : c'.waiting = c.waiting := by rw [Conn.waiting, h_senders, h_queue, Conn.waiting]
  exact .sender (h_waiting ▸ List.Subperm.refl _) (by simp only [Prod.mk.injEq]; exact h_rest) h_log

/-- A step that reports a transfer. -/
theorem Hands.report {x : Xfer} (h_held : c.held.Perm (x :: c'.held))
    (h : (c'.senders, c'.tx.txQueue, c'.tx.txWindow, c'.nextRef) =
      (c.senders, c.tx.txQueue, c.tx.txWindow, c.nextRef))
    (h_log : c'.log = c.log ++ [.reported x.ref x.bundle (tcpv4XferSucceeded x)]) :
    Hands seen c c' [] := by
  simp only [Prod.mk.injEq] at h
  obtain ⟨h_senders, h_queue, h_window, h_next⟩ := h
  have h_waiting : c'.waiting = c.waiting := by rw [Conn.waiting, h_senders, h_queue, Conn.waiting]
  refine ⟨h_next, ?_, ?_, ?_, ?_, ?_⟩
  · rw [Conn.took, h_log, List.filterMap_append]
    rfl
  · intro y h_y
    rw [List.append_nil, Conn.pool, h_waiting, h_window] at h_y
    refine ⟨y, ?_, rfl, rfl, Or.inl⟩
    rcases List.mem_append.mp h_y with h_y | h_y
    · exact List.mem_append_left _ h_y
    · exact mem_pool_held (h_held.symm.subset (List.mem_cons_of_mem _ h_y))
  · rw [h_window]
    exact fun y h_y => Or.inr ⟨y, h_y, rfl, rfl⟩
  · intro r b h_r
    rw [h_log] at h_r
    rcases List.mem_append.mp h_r with h_r | h_r
    · exact Or.inl h_r
    · have h_eq := List.mem_singleton.mp h_r
      rw [Event.reported.injEq] at h_eq
      obtain ⟨rfl, rfl, h_ok⟩ := h_eq
      exact Or.inr ⟨x, mem_pool_held (h_held.symm.subset List.mem_cons_self), rfl, rfl,
        credited_of_succeeded h_ok.symm⟩
  · rw [h_waiting, List.append_nil]

/-- A step that takes a transfer off the window, or writes to it there. -/
theorem Hands.retire {done : Option Xfer} (h_tx : Retired seen c.tx c'.tx done)
    (h_held : ∀ y ∈ c'.held, y ∈ done.toList ∨ y ∈ c.held)
    (h : (c'.senders, c'.nextRef) = (c.senders, c.nextRef)) (h_log : LogNeutral c c') :
    Hands seen c c' [] := by
  rw [Prod.mk.injEq] at h
  obtain ⟨h_senders, h_next⟩ := h
  have h_waiting : c'.waiting = c.waiting := by
    rw [Conn.waiting, h_senders, h_tx.queue, Conn.waiting]
  have h_kept : ∀ y ∈ c'.tx.txWindow.items ++ done.toList, ∃ x ∈ c.pool, x.ref = y.ref ∧
      x.bundle = y.bundle ∧
      (y.credited = true → x.credited = true ∨ x ∈ c.tx.txWindow.items ∧ Credit seen x) := by
    intro y h_y
    obtain ⟨x, h_x, h_ref, h_bundle, -, h_c⟩ := h_tx.kept y h_y
    exact ⟨x, mem_pool_window h_x, h_ref, h_bundle, fun h_y => (h_c h_y).imp_right (⟨h_x, ·⟩)⟩
  refine ⟨h_next, by rw [h_log.took, List.append_nil], ?_, ?_, ?_, ?_⟩
  · intro y h_y
    rw [List.append_nil, Conn.pool, h_waiting] at h_y
    rcases List.mem_append.mp h_y with h_y | h_y
    · rcases List.mem_append.mp h_y with h_y | h_y
      · exact ⟨y, mem_pool_waiting h_y, rfl, rfl, Or.inl⟩
      · exact h_kept y (List.mem_append_left _ h_y)
    · rcases h_held y h_y with h_y | h_y
      · exact h_kept y (List.mem_append_right _ h_y)
      · exact ⟨y, mem_pool_held h_y, rfl, rfl, Or.inl⟩
  · intro y h_y
    obtain ⟨x, h_x, h_ref, -, h_id, -⟩ := h_tx.kept y (List.mem_append_left _ h_y)
    exact Or.inr ⟨x, h_x, h_ref, h_id⟩
  · exact fun r b h_r => Or.inl (h_log.reported h_r)
  · rw [h_waiting, List.append_nil]

/-- A step that takes a transfer off the queue. -/
theorem Hands.take {w : TxWindow} {x : Xfer} {tx : TxSide} (h_ok : TxOk w c.tx)
    (h_take : xmitTake c.tx = .took x tx) (h_held : c'.held = c.held)
    (h : (c'.senders, c'.tx, c'.nextRef) = (c.senders, tx, c.nextRef))
    (h_log : c'.log = c.log ++ [.took x]) : Hands seen c c' [x] := by
  simp only [Prod.mk.injEq] at h
  obtain ⟨h_senders, rfl, h_next⟩ := h
  obtain ⟨x₀, rest, h_queue, h_queue', h_window', h_x, -, -⟩ := xmitTake_lists h_ok h_take
  have h_old : x₀ ∈ c.pool ∧ x₀.ref = x.ref ∧ x₀.bundle = x.bundle ∧ x.credited = x₀.credited := by
    rw [h_x]
    refine ⟨mem_pool_waiting (List.mem_append_right _ ?_), rfl, rfl, rfl⟩
    rw [h_queue]
    exact List.mem_cons_self
  refine ⟨h_next, ?_, ?_, ?_, ?_, ?_⟩
  · rw [Conn.took, h_log, List.filterMap_append]
    rfl
  · intro y h_y
    have h_y' : y ∈ c.pool ∨ y = x := by
      simp only [Conn.pool, Conn.waiting, h_senders, h_queue', h_window', h_held, h_queue,
        List.mem_append, List.mem_cons, List.not_mem_nil, or_false] at h_y ⊢
      tauto
    rcases h_y' with h_y | rfl
    · exact ⟨y, h_y, rfl, rfl, Or.inl⟩
    · obtain ⟨h_mem, h_ref, h_bundle, h_c⟩ := h_old
      exact ⟨x₀, h_mem, h_ref, h_bundle, fun h_y => Or.inl (h_c ▸ h_y)⟩
  · intro y h_y
    rw [h_window'] at h_y
    rcases List.mem_append.mp h_y with h_y | h_y
    · exact Or.inr ⟨y, h_y, rfl, rfl⟩
    · exact Or.inl h_y
  · intro r b h_r
    rw [h_log] at h_r
    refine Or.inl ((List.mem_append.mp h_r).resolve_right ?_)
    simp
  · have h_perm : ((c'.waiting ++ [x]).map Xfer.ref).Perm (c.waiting.map Xfer.ref) := by
      simp only [Conn.waiting, h_senders, h_queue', h_queue, List.map_append, List.map_cons,
        List.map_nil, List.append_assoc, h_old.2.1]
      exact (List.perm_append_singleton _ _).append_left _
    exact h_perm.subperm

/-! ## The threads -/

theorem leave_hands (r : Nat) (ok : Bool) : Hands [] c (c.leave r ok) [] :=
  .sender ((List.eraseP_sublist).append_right _).subperm rfl (.one rfl rfl)

theorem room_hands {w : TxWindow} {r : Nat} (h_ok : TxOk w c.tx)
    (h_nodup : (c.senders.map Xfer.ref).Nodup) (h : c.room cfg r = some c') :
    Hands [] c c' [] := by
  unfold room at h
  split at h
  · cases h
  rename_i x h_find
  obtain ⟨h_mem, rfl⟩ := sender_mem h_find
  split at h
  · cases h
  dsimp only at h
  split at h
  · rename_i h_add
    rw [← Option.some.inj h]
    have h_open : c.tx.txStopped = false := by
      unfold queueXferAdd at h_add
      cases h_stopped : c.tx.txStopped with
      | true => simp [h_stopped] at h_add
      | false => rfl
    have h_tx : (queueXferAdd c.tx x).1 = { c.tx with
        txQueue := txAppend c.tx.txQueue x
        txCount := c.tx.txCount + 1
        txBytes := c.tx.txBytes + x.length
        txActive := true } := by
      rw [queueXferAdd, if_neg (by simp [h_open])]
    have h_queue : (txAppend c.tx.txQueue x).items = c.tx.txQueue.items ++ [x] :=
      TailList.append_items h_ok.queue x
    rw [h_tx]
    refine .sender ?_ rfl (.one rfl rfl)
    -- What the sender had is what the queue gains.
    have h_perm : ((c.senders.eraseP fun y => y.ref = x.ref) ++
        (txAppend c.tx.txQueue x).items).Perm c.waiting := by
      rw [h_queue, ← List.append_assoc]
      refine (List.perm_append_singleton _ _).trans ?_
      exact ((TailList.perm_cons_eraseP h_mem h_nodup).append_right _).symm
    exact h_perm.subperm
  · rw [← Option.some.inj h]
    exact leave_hands x.ref false

theorem timeout_hands {r : Nat} (h : c.timeout cfg r = some c') : Hands [] c c' [] := by
  unfold timeout at h
  split at h
  · cases h
  split at h
  · rw [← Option.some.inj h]
    exact leave_hands r false
  · cases h

theorem xmit_hands {w : TxWindow} (h_ok : TxOk w c.tx) (h_step : XmitStep cfg c c') :
    ∃ taken, Hands [] c c' taken := by
  -- Between two states that hold nothing.
  have h_quiet : (c'.senders, c'.tx.txQueue, c'.tx.txWindow, c'.rxPc, c'.dead, c'.nextRef) =
      (c.senders, c.tx.txQueue, c.tx.txWindow, c.rxPc, c.dead, c.nextRef) →
      c.xmitPc.held = [] → c'.xmitPc.held = [] → LogNeutral c c' →
      ∃ taken, Hands [] c c' taken := by
    intro h h_nil h_nil' h_log
    simp only [Prod.mk.injEq] at h
    obtain ⟨h₁, h₂, h₃, h₄, h₅, h₆⟩ := h
    refine ⟨[], .quiet ?_ h_log⟩
    rw [h₁, h₂, h₃, h₆, held, held, h_nil, h_nil', h₄, h₅]
  cases h_step with
  | noBuffer h_pc => exact h_quiet rfl (by rw [h_pc]; rfl) rfl (.same rfl)
  | started h_pc => exact h_quiet rfl (by rw [h_pc]; rfl) rfl (.same rfl)
  | stopped h_pc => exact h_quiet rfl (by rw [h_pc]; rfl) rfl (.same rfl)
  | took x tx h_pc h_take =>
    refine ⟨[x], .take h_ok h_take ?_ rfl rfl⟩
    rw [held, held, h_pc]
    rfl
  | unreadable x h_pc =>
    refine h_quiet rfl ?_ rfl (.same rfl)
    rcases h_pc with h_pc | ⟨off, h_pc⟩
    · rw [h_pc]
      rfl
    · rw [h_pc]
      rfl
  | opened x h_pc => exact h_quiet rfl (by rw [h_pc]; rfl) rfl (.same rfl)
  | read x off h_pc h_off => exact h_quiet rfl (by rw [h_pc]; rfl) rfl (.same rfl)
  | complete x off h_pc h_off => exact h_quiet rfl (by rw [h_pc]; rfl) rfl (.same rfl)
  | uncut x off len consumed h_pc h_more h_run =>
    exact h_quiet rfl (by rw [h_pc]; rfl) rfl (.same rfl)
  | wrote x off len consumed data consumed' o d b h_pc h_more h_run h_send =>
    rcases send_cases h_send with ⟨rfl, -, rfl⟩ | ⟨rfl, n, rfl⟩
    · exact h_quiet rfl (by rw [h_pc]; rfl) rfl (.same rfl)
    · exact h_quiet rfl (by rw [h_pc]; rfl) rfl (.same rfl)
  | bufferDone x off len consumed h_pc h_done =>
    exact h_quiet rfl (by rw [h_pc]; rfl) rfl (.same rfl)
  | abandoned x off h_pc h_ref => exact h_quiet rfl (by rw [h_pc]; rfl) rfl (.same rfl)
  | wentOn x off h_pc h_ref => exact h_quiet rfl (by rw [h_pc]; rfl) rfl (.same rfl)
  | letGo x failed tx done h_pc h_go =>
    refine ⟨[], .retire (letGo_retired h_go) ?_ rfl (.same rfl)⟩
    intro y h_y
    have h_held : ∀ {pc : XmitPc}, y ∈ pc.held ++ c.rxPc.held ++ c.dead →
        y ∈ pc.held ∨ y ∈ c.held := by
      intro pc h_y
      simp only [held, List.mem_append] at h_y ⊢
      tauto
    refine (h_held h_y).imp_left fun h_y => ?_
    cases done with
    | none =>
      have h_none : (afterXfer failed).held = [] := held_afterXfer failed
      simp [afterLetGo, h_none] at h_y
    | some z => exact h_y
  | reported x failed h_pc =>
    have h_next : (afterXfer failed).held = [] := held_afterXfer failed
    refine ⟨[], .report (x := x) ?_ rfl rfl⟩
    simp [held, h_pc, Conn.report, note, h_next]
  | failed h_pc => exact h_quiet rfl (by rw [h_pc]; rfl) rfl (.same rfl)

theorem afterTxSection_held (c : Conn) (tx : TxSide) (done : Option Xfer) (reject : Option Ctrl) :
    (c.afterTxSection tx done reject).rxPc.held = done.toList := by
  cases done with
  | some x => rfl
  | none => cases reject <;> rfl

theorem recv_hands (h_nodup : (c.tx.txWindow.items.map Xfer.ref).Nodup) (h_plain : c.rxPc.plain)
    (h_step : RecvStep cfg c c') : Hands (hears c c') c c' [] := by
  obtain ⟨ms, es, h_spoke⟩ := recv_spoke h_plain h_step
  have h_frame := (recvStep_frame h_step).1
  have h_log : c.rxPc.held = [] → LogNeutral c c' := by
    intro h_nil
    cases h_spoke with
    | silent h_s => exact ⟨[], h_s.log, by simp⟩
    | reported x reject h_pc h_s => simp [h_pc] at h_nil
    | said m es h_m h_free h_open h_es h_s =>
      refine ⟨es, h_s.log, ?_⟩
      rcases h_es with rfl | ⟨rfl, -⟩
      · exact List.forall_mem_singleton.mpr rfl
      · simp
  -- Between two states that hold nothing.
  have h_quiet : (c'.tx.txQueue, c'.tx.txWindow) = (c.tx.txQueue, c.tx.txWindow) →
      c.rxPc.held = [] → c'.rxPc.held = [] → Hands (hears c c') c c' [] := by
    intro h h_nil h_nil'
    simp only [Prod.mk.injEq] at h
    refine .quiet ?_ (h_log h_nil)
    rw [h.1, h.2, h_frame.senders, h_frame.nextRef, held, held, h_nil, h_nil', h_frame.xmitPc,
      h_frame.dead]
  -- A message about a transfer.
  have h_section : ∀ {d : Conn} {w : Wire} {tx : TxSide} {done : Option Xfer}
      {reject : Option Ctrl}, c' = d.afterTxSection tx done reject → c.rxPc.held = [] →
      Retired [w] c.tx tx done → hears c c' = [w] → Hands (hears c c') c c' [] := by
    intro d w tx done reject h_c' h_nil h_tx h_hears
    rw [h_hears]
    have h_tx' : c'.tx = tx := by rw [h_c', afterTxSection_tx]
    refine .retire (h_tx' ▸ h_tx) ?_ ?_ (h_log h_nil)
    · intro y h_y
      rw [held, h_frame.xmitPc, h_frame.dead, h_c', afterTxSection_held] at h_y
      simp only [held, List.mem_append] at h_y ⊢
      tauto
    · rw [h_frame.senders, h_frame.nextRef]
  cases h_step with
  | quit clean h_pc h_clean =>
    refine h_quiet rfl ?_ rfl
    revert h_pc
    cases c.rxPc <;> simp [RxPc.canQuit, RxPc.held]
  | type type rest h_pc h_in => exact h_quiet rfl (by rw [h_pc]; rfl) rfl
  | segment seg rest o h_pc h_in =>
    refine h_quiet ?_ (by rw [h_pc]; rfl) ?_
    · obtain ⟨rx, pc, h_eq, -⟩ := handleSegmentHdr_shape cfg { c with inOctets := rest } seg o
      rw [h_eq]
    · unfold handleSegmentHdr
      split <;> rfl
  | ack m rest h_pc h_in =>
    obtain ⟨h_octets, h_range⟩ := recvXferAck_exact h_in
    have h_read : recvWire (tmsgXferAck :: c.inOctets) = .got (.ctrl (.ack m)) rest := by
      rw [h_octets]
      exact @recvWire_octets (.ctrl (.ack m)) h_range rest
    exact h_section rfl (by rw [h_pc]; rfl) (ack_retired h_nodup rfl)
      (hears_body h_pc (by decide) (afterTxSection_place _ _ _ _).1 h_read)
  | refuse m rest h_pc h_in =>
    obtain ⟨h_octets, h_range⟩ := recvXferRefuse_exact h_in
    have h_read : recvWire (tmsgXferRefuse :: c.inOctets) = .got (.ctrl (.refuse m)) rest := by
      rw [h_octets]
      exact @recvWire_octets (.ctrl (.refuse m)) h_range rest
    exact h_section rfl (by rw [h_pc]; rfl) (refuse_retired rfl)
      (hears_body h_pc (by decide) (afterTxSection_place _ _ _ _).1 h_read)
  | keepalive h_pc => exact h_quiet rfl (by rw [h_pc]; rfl) rfl
  | reject m rest h_pc h_in =>
    refine h_quiet ?_ (by rw [h_pc]; rfl) ?_
    · obtain ⟨term, state, pc, h_eq, -⟩ := handleReject_shape { c with inOctets := rest } m
      rw [h_eq]
    · unfold handleReject
      split <;> rfl
  | sessTerm m rest h_pc h_in =>
    refine h_quiet rfl (by rw [h_pc]; rfl) ?_
    unfold handleSessTerm
    dsimp only
    split <;> rfl
  | unknown type m h_pc h_type h_m => exact h_quiet rfl (by rw [h_pc]; rfl) rfl
  | refuseUnsaid reason seg h_pc h_bad => exact h_quiet rfl (by rw [h_pc]; rfl) rfl
  | refuseSaid reason seg o d b h_pc h_busy h_bad h_send =>
    obtain ⟨out, t, br, l, rfl⟩ := sendCtrl_shape h_send
    exact h_quiet rfl (by rw [h_pc]; rfl) rfl
  | drained seg data rest h_pc h_ref h_len h_in =>
    refine h_quiet ?_ (by rw [h_pc]; rfl) ?_
    · obtain ⟨rx, pc, h_eq, -⟩ := finishSegment_shape { c with inOctets := rest } seg
      rw [h_eq]
    · unfold finishSegment
      split <;> rfl
  | exhausted seg h_pc h_ref => exact h_quiet rfl (by rw [h_pc]; rfl) rfl
  | stored seg rx mem data rest h_pc h_ref h_rx h_len h_in =>
    refine h_quiet ?_ (by rw [h_pc]; rfl) ?_
    · obtain ⟨rx', pc, h_eq, -⟩ := finishSegment_shape { c with
        rx := segmentStore rx data, inOctets := rest } seg
      rw [h_eq]
    · unfold finishSegment
      split <;> rfl
  | storeFailed seg rx mem h_pc h_ref h_rx => exact h_quiet rfl (by rw [h_pc]; rfl) rfl
  | acked m o d b h_pc h_busy h_bad h_send =>
    obtain ⟨out, t, br, l, rfl⟩ := sendCtrl_shape h_send
    cases b with
    | true => exact h_quiet rfl (by rw [h_pc]; rfl) rfl
    | false => exact h_quiet rfl (by rw [h_pc]; rfl) rfl
  | handed seg h_pc h_busy h_bad => exact h_quiet rfl (by rw [h_pc]; rfl) rfl
  | reported x reject h_pc =>
    have h_next : (afterReport reject).held = [] := by cases reject <;> rfl
    refine .report (x := x) ?_ rfl rfl
    have h_perm : c.held.Perm (x :: (c.xmitPc.held ++ c.dead)) := by
      rw [held, h_pc, RxPc.held_reporting, List.append_assoc]
      exact List.perm_middle
    simpa [held, Conn.report, note, h_next] using h_perm
  | stopped say ok bad h_pc =>
    cases say with
    | some m => exact h_quiet rfl (by rw [h_pc]; rfl) rfl
    | none =>
      cases ok with
      | loop => exact h_quiet rfl (by rw [h_pc]; rfl) rfl
      | ret clean => exact h_quiet rfl (by rw [h_pc]; rfl) rfl
  | said m ok bad o d b h_pc h_send =>
    obtain ⟨out, t, br, l, rfl⟩ := sendCtrl_shape h_send
    refine h_quiet ?_ (by rw [h_pc]; rfl) ?_
    · generalize (if b then ok else bad) = next
      cases next <;> rfl
    · generalize (if b then ok else bad) = next
      cases next <;> rfl
  | failed h_pc => exact h_quiet rfl (by rw [h_pc]; rfl) rfl
  | txStopped h_pc => exact h_quiet rfl (by rw [h_pc]; rfl) rfl
  | joinedXmit h_pc h_xmit => exact h_quiet rfl (by rw [h_pc]; rfl) rfl
  | dlvStopped h_pc => exact h_quiet rfl (by rw [h_pc]; rfl) rfl
  | joinedDlv h_pc h_dlv => exact h_quiet rfl (by rw [h_pc]; rfl) rfl
  | closed h_pc => exact h_quiet rfl (by rw [h_pc]; rfl) rfl

/-- A message that the thread sends and that is about no transfer. -/
theorem told_hands {d : Conn} {m : Ctrl} {o : Outcome} {b : Bool}
    (h : c.sendCtrl m o = some (d, b))
    (h_same : (c'.senders, c'.tx.txQueue, c'.tx.txWindow, c'.held, c'.nextRef, c'.log) =
      (d.senders, d.tx.txQueue, d.tx.txWindow, d.held, d.nextRef, d.log)) :
    Hands seen c c' [] := by
  simp only [Prod.mk.injEq] at h_same
  obtain ⟨h₁, h₂, h₃, h₄, h₅, h_log⟩ := h_same
  obtain ⟨es, h_es, h_neutral⟩ := LogNeutral.sendCtrl h
  refine .quiet ?_ ⟨es, h_log.trans h_es, h_neutral⟩
  rw [h₁, h₂, h₃, h₄, h₅]
  obtain ⟨out, t, br, l, rfl⟩ := sendCtrl_shape h
  rfl

theorem dlv_hands {o : Outcome} (h : c.dlvStep o = some c') : Hands [] c c' [] := by
  unfold dlvStep at h
  split at h
  · split at h
    · rw [← Option.some.inj h]
      exact .quiet rfl (.same rfl)
    split at h
    · rw [← Option.some.inj h]
      exact .quiet rfl (.same rfl)
    · cases h
  · rcases Outcome.err_or h with h | h
    · rw [← Option.some.inj h]
      exact .quiet rfl (.same rfl)
    · rw [← Option.some.inj h]
      exact .quiet rfl (.one rfl rfl)
  · obtain ⟨⟨d, b⟩, h_send, rfl⟩ := Option.map_eq_some_iff.mp h
    exact told_hands h_send rfl
  · rw [← Option.some.inj h]
    exact .quiet rfl (.same rfl)
  · rw [← Option.some.inj h]
    exact .quiet rfl (.same rfl)
  · cases h

theorem clockTick_hands (cfg : SessCfg) (c : Conn) : Hands [] c (c.clockTick cfg) [] := by
  unfold clockTick
  split
  · exact .quiet rfl (.same rfl)
  · dsimp only
    split
    · exact .quiet rfl (.one rfl rfl)
    · exact .quiet rfl (.same rfl)

theorem clock_hands {o : Outcome} (h : c.clockStep cfg o = some c') : Hands [] c c' [] := by
  unfold clockStep at h
  split at h
  · split at h
    · rw [← Option.some.inj h]
      exact clockTick_hands cfg c
    · cases h
  · rw [← Option.some.inj h]
    exact .quiet rfl (.same rfl)
  · rw [← Option.some.inj h]
    exact .quiet rfl (.same rfl)
  · obtain ⟨⟨d, b⟩, h_send, rfl⟩ := Option.map_eq_some_iff.mp h
    exact told_hands h_send rfl
  · obtain ⟨⟨d, b⟩, h_send, rfl⟩ := Option.map_eq_some_iff.mp h
    exact told_hands h_send rfl
  · rw [← Option.some.inj h]
    exact .quiet rfl (.same rfl)

theorem stop_hands {o : Outcome} (h : c.stopStep o = some c') : Hands [] c c' [] := by
  unfold stopStep at h
  split at h
  · split at h
    · rw [← Option.some.inj h]
      exact .quiet rfl (.same rfl)
    · cases h
  · rw [← Option.some.inj h]
    exact .quiet rfl (.same rfl)
  · rw [← Option.some.inj h]
    exact .quiet rfl (.same rfl)
  · rw [← Option.some.inj h]
    exact .quiet rfl (.same rfl)
  · obtain ⟨⟨d, b⟩, h_send, rfl⟩ := Option.map_eq_some_iff.mp h
    exact told_hands h_send rfl
  · rw [← Option.some.inj h]
    exact .quiet rfl (.same rfl)
  · cases h

/-- What is drained is what was on the lists. -/
theorem Hands.drain (h_queue : c'.tx.txQueue.items = []) (h_window : c'.tx.txWindow.items = [])
    (h_held : ∀ y ∈ c'.held, y ∈ c.tx.live ++ c.held)
    (h : (c'.senders, c'.nextRef) = (c.senders, c.nextRef)) (h_log : LogNeutral c c') :
    Hands seen c c' [] := by
  simp only [Prod.mk.injEq] at h
  obtain ⟨h_senders, h_next⟩ := h
  have h_waiting : c'.waiting.Sublist c.waiting := by
    rw [Conn.waiting, h_senders, h_queue, List.append_nil]
    exact List.sublist_append_left _ _
  refine ⟨h_next, by rw [h_log.took, List.append_nil], ?_, ?_, ?_, ?_⟩
  · intro y h_y
    refine ⟨y, ?_, rfl, rfl, Or.inl⟩
    rw [List.append_nil, Conn.pool, h_window, List.append_nil] at h_y
    rcases List.mem_append.mp h_y with h_y | h_y
    · exact mem_pool_waiting (h_waiting.subset h_y)
    · have h_y := h_held y h_y
      simp only [TxSide.live, Conn.pool, Conn.waiting, List.mem_append] at h_y ⊢
      tauto
  · rw [h_window]
    exact fun y h_y => absurd h_y List.not_mem_nil
  · exact fun r b h_r => Or.inl (h_log.reported h_r)
  · rw [List.append_nil]
    exact (h_waiting.map Xfer.ref).subperm

theorem free_hands (h : c.freeStep = some c') : Hands [] c c' [] := by
  unfold freeStep at h
  split at h
  · split at h
    · cases h
    · rename_i x rest h_dead
      rw [← Option.some.inj h]
      refine .report (x := x) ?_ rfl rfl
      rw [held, h_dead]
      exact List.perm_middle
  split at h
  · rw [← Option.some.inj h]
    refine .drain rfl rfl ?_ rfl (.same rfl)
    intro y h_y
    simp only [held, TxSide.live, List.mem_append, List.mem_reverse] at h_y ⊢
    tauto
  · cases h

/-! ## Steps -/

/-- What a step hears. -/
def heardIn (c : Conn) : Act → Conn → List Wire
  | .recv _, c' => hears c c'
  | _, _ => []

/-- The bundle `queueXfer` is called with in a step. -/
def Act.calls : Act → List Octets
  | .call bundle _ => [bundle]
  | _ => []

/-- **A step credits a transfer only with what it has heard.** -/
theorem step_credits {a : Act} (h_ok : c.ledger.Ok cfg.window) (h_plain : c.rxPc.plain)
    (h : Credits c heard called) (h_step : step cfg c a = some c') :
    Credits c' (heard ++ heardIn c a c') (called ++ a.calls) := by
  have h_other : Hands [] c c' [] → Credits c' (heard ++ []) (called ++ []) := by
    intro h_h
    rw [List.append_nil called]
    exact h.hands h_h
  cases a with
  | call bundle o =>
    show Credits c' (heard ++ []) (called ++ [bundle])
    rw [List.append_nil]
    exact call_credits h h_step
  | room r =>
    exact h_other (room_hands h_ok.tx h_ok.nodup.of_append_left h_step)
  | timeout r => exact h_other (timeout_hands h_step)
  | xmit o =>
    obtain ⟨taken, h_h⟩ := xmit_hands h_ok.tx (xmitStep_cases h_step)
    show Credits c' (heard ++ []) (called ++ [])
    rw [List.append_nil called]
    exact h.hands h_h
  | recv o =>
    show Credits c' (heard ++ hears c c') (called ++ [])
    rw [List.append_nil called]
    exact h.hands (recv_hands h_ok.tx.window.nodup h_plain (recvStep_cases h_step))
  | dlv o => exact h_other (dlv_hands h_step)
  | clock o => exact h_other (clock_hands h_step)
  | stop o => exact h_other (stop_hands h_step)
  | free => exact h_other (free_hands h_step)
  | arrive data =>
    rw [← Option.some.inj h_step] at h_other ⊢
    exact h_other (.quiet rfl (.same rfl))

end IonContrib.Tcpv4
