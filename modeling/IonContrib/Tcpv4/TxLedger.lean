/-
  IonContrib.Tcpv4.TxLedger

  The transmission side as a ledger: who has called `queueXfer`, what it
  returned, which transfers a session still carries, which are in the hands of
  a thread that is about to report them, and which have been reported.

  * `TxOk` is what holds of the two lists and the counters whenever `txMutex`
    is free; every function of `Tx` keeps it.
  * `Ledger.Step` lists all that can happen to a ledger, and `LedgerOk` is kept
    by it (`ledgerOk_step`).
-/
import IonContrib.Tcpv4.Tx
import Mathlib.Data.List.Perm.Basic
import Mathlib.Algebra.BigOperators.Group.List.Basic

namespace IonContrib.Tcpv4

open TailList

/-- The transfers a session carries: on the queue or on the window. -/
def TxSide.live (t : TxSide) : List Xfer := t.txQueue.items ++ t.txWindow.items

/-- The lists are sound and the counters are theirs; the configured window is exceeded
    only by a single transfer. -/
structure TxOk (w : TxWindow) (t : TxSide) : Prop where
  queue : t.txQueue.Wf Xfer.ref
  window : t.txWindow.Wf Xfer.ref
  nodup : (t.live.map Xfer.ref).Nodup
  count : t.txCount = t.live.length
  bytes : t.txBytes = ((t.live.map Xfer.length).sum : Nat)
  active : t.txActive = decide (t.txCount ≠ 0)
  countBound : 0 < w.txWindow → t.txCount ≤ w.txWindow ∨ t.txCount ≤ 1
  bytesBound : 0 < w.txWindowBytes → t.txBytes ≤ w.txWindowBytes ∨ t.txCount ≤ 1

variable {w : TxWindow} {t t' : TxSide}

theorem txOk_init : TxOk w TxSide.init where
  queue := wf_empty
  window := wf_empty
  nodup := List.nodup_nil
  count := rfl
  bytes := rfl
  active := rfl
  countBound := by intro _; exact Or.inr (by decide)
  bytesBound := by intro _; exact Or.inr (by decide)

theorem TxOk.stop (h : TxOk w t) : TxOk w (tcpv4TxStop t) :=
  ⟨h.queue, h.window, h.nodup, h.count, h.bytes, h.active, h.countBound, h.bytesBound⟩

theorem TxOk.ackedLen (h : TxOk w t) (n : Nat) : TxOk w { t with txAckedLen := n } :=
  ⟨h.queue, h.window, h.nodup, h.count, h.bytes, h.active, h.countBound, h.bytesBound⟩

/-! ## Writing to a transfer on the window -/

/-- `f` changes neither what the transfer is nor where it is. -/
structure KeepsXfer (f : Xfer → Xfer) : Prop where
  ref : ∀ x, (f x).ref = x.ref
  bundle : ∀ x, (f x).bundle = x.bundle

theorem touch_live {f : Xfer → Xfer} (hf : KeepsXfer f) (t : TxSide) (r : Nat) :
    (t.touch r f).live.map Xfer.ref = t.live.map Xfer.ref ∧
      (t.touch r f).live.map Xfer.length = t.live.map Xfer.length := by
  have h_ref := map_addr_modify t.txWindow r hf.ref
  have h_len : (t.txWindow.modify Xfer.ref r f).items.map Xfer.length =
      t.txWindow.items.map Xfer.length := by
    simp only [TailList.modify, List.map_map]
    refine List.map_congr_left fun y _ => ?_
    by_cases h : y.ref = r <;> simp [Xfer.length, h, hf.bundle]
  constructor
  · simp only [TxSide.live, TxSide.touch, List.map_append, h_ref]
  · simp only [TxSide.live, TxSide.touch, List.map_append, h_len]

theorem TxOk.touch (h : TxOk w t) {f : Xfer → Xfer} (hf : KeepsXfer f) (r : Nat) :
    TxOk w (t.touch r f) := by
  obtain ⟨h_ref, h_len⟩ := touch_live hf t r
  have h_count : (t.touch r f).live.length = t.live.length := by
    simpa using congrArg List.length h_ref
  exact
    { queue := h.queue
      window := wf_modify h.window r hf.ref
      nodup := h_ref ▸ h.nodup
      count := h_count ▸ h.count
      bytes := h_len ▸ h.bytes
      active := h.active
      countBound := h.countBound
      bytesBound := h.bytesBound }

theorem windowed_mem {r : Nat} {x : Xfer} (h : t.windowed r = some x) :
    x ∈ t.txWindow.items ∧ x.ref = r :=
  ⟨List.mem_of_find?_eq_some h, by simpa using List.find?_some h⟩

/-! ## Retiring -/

/-- All that `tcpv4TxFinished` can do. -/
theorem tcpv4TxFinished_cases {x done : Option Xfer} (h : tcpv4TxFinished t x = (t', done)) :
    (done = none ∧ ∃ n, t' = { t with txAckedLen := n }) ∨
      ∃ y l, x = some y ∧ done = some y ∧ y.inFlight = false ∧
        (y.acked = true ∨ y.refused = true) ∧ txUnlink t.txWindow y.ref = some l ∧
        t' = { t with
          txAckedLen :=
            if t.txWindow.items.head?.map Xfer.ref = some y.ref then 0 else t.txAckedLen
          txWindow := l
          txCount := t.txCount - 1
          txBytes := t.txBytes - y.length
          txActive := decide (t.txCount - 1 ≠ 0) } := by
  cases x with
  | none =>
    obtain ⟨rfl, rfl⟩ := Prod.mk.injEq .. ▸ h
    exact Or.inl ⟨rfl, t.txAckedLen, rfl⟩
  | some y =>
    by_cases h_open : (y.inFlight || (!y.acked && !y.refused)) = true
    · rw [tcpv4TxFinished, if_pos h_open, Prod.mk.injEq] at h
      exact Or.inl ⟨h.2.symm, t.txAckedLen, h.1.symm⟩
    · have h_flags : y.inFlight = false ∧ (y.acked = true ∨ y.refused = true) := by
        revert h_open
        cases y.inFlight <;> cases y.acked <;> cases y.refused <;> simp
      rw [tcpv4TxFinished, if_neg h_open] at h
      by_cases h_head : t.txWindow.items.head?.map Xfer.ref = some y.ref
      · simp only [h_head, if_true] at h ⊢
        cases h_unlink : txUnlink t.txWindow y.ref with
        | none =>
          rw [h_unlink, Prod.mk.injEq] at h
          exact Or.inl ⟨h.2.symm, 0, h.1.symm⟩
        | some l =>
          rw [h_unlink, Prod.mk.injEq] at h
          exact Or.inr ⟨y, l, rfl, h.2.symm, h_flags.1, h_flags.2, h_unlink, by simp [← h.1]⟩
      · simp only [h_head, if_false] at h ⊢
        cases h_unlink : txUnlink t.txWindow y.ref with
        | none =>
          rw [h_unlink, Prod.mk.injEq] at h
          exact Or.inl ⟨h.2.symm, t.txAckedLen, h.1.symm⟩
        | some l =>
          rw [h_unlink, Prod.mk.injEq] at h
          exact Or.inr ⟨y, l, rfl, h.2.symm, h_flags.1, h_flags.2, h_unlink, by
            simp only [← h.1, h_head, if_false]⟩

/-- From `t` to `t'` nothing is lost but `done`, and that is off the lists. -/
structure Retires (w : TxWindow) (t t' : TxSide) (done : Option Xfer) : Prop where
  ok : TxOk w t → TxOk w t'
  live : TxOk w t → (t.live.map Xfer.ref).Perm
    (done.toList.map Xfer.ref ++ t'.live.map Xfer.ref)
  stopped : t'.txStopped = t.txStopped

theorem Retires.of_touch {f : Xfer → Xfer} (hf : KeepsXfer f) {r : Nat} {done : Option Xfer}
    (h : Retires w (t.touch r f) t' done) : Retires w t t' done where
  ok h_ok := h.ok (h_ok.touch hf r)
  live h_ok := (touch_live hf t r).1 ▸ h.live (h_ok.touch hf r)
  stopped := h.stopped

/-- Taking a transfer off the window takes it off the counters. -/
theorem TxOk.unlink (h : TxOk w t) {x : Xfer} (h_mem : x ∈ t.txWindow.items) {l : XferList}
    (h_unlink : txUnlink t.txWindow x.ref = some l) :
    t.live.Perm (x :: (t.txQueue.items ++ l.items)) ∧
      TxOk w { t with
        txWindow := l
        txCount := t.txCount - 1
        txBytes := t.txBytes - x.length
        txActive := decide (t.txCount - 1 ≠ 0) } := by
  have h_perm : t.txWindow.items.Perm (x :: l.items) :=
    unlink_items h_unlink ▸ perm_cons_eraseP h_mem h.window.nodup
  have h_live : t.live.Perm (x :: (t.txQueue.items ++ l.items)) :=
    (h_perm.append_left _).trans List.perm_middle
  have h_len := h_live.length_eq
  have h_sum := (h_live.map Xfer.length).sum_eq
  have h_count := h.count
  have h_bytes := h.bytes
  simp only [List.length_cons, List.map_cons, List.sum_cons] at h_len h_sum
  refine ⟨h_live, ?_⟩
  exact
    { queue := h.queue
      window := wf_unlink h.window h_unlink
      nodup := (List.nodup_cons.mp ((h_live.map Xfer.ref).nodup_iff.mp h.nodup)).2
      count := by
        simp only [TxSide.live]
        omega
      bytes := by
        simp only [TxSide.live]
        omega
      active := rfl
      countBound := by
        intro h_pos
        have := h.countBound h_pos
        simp only
        omega
      bytesBound := by
        intro h_pos
        have := h.bytesBound h_pos
        simp only
        omega }

/-- `tcpv4TxFinished` on a transfer of the window. -/
theorem retires_finished {r : Nat} {done : Option Xfer}
    (h : tcpv4TxFinished t (t.windowed r) = (t', done)) : Retires w t t' done := by
  rcases tcpv4TxFinished_cases h with ⟨rfl, n, rfl⟩ | ⟨y, l, h_y, rfl, -, -, h_unlink, rfl⟩
  · exact ⟨fun h_ok => h_ok.ackedLen n, fun _ => List.Perm.refl _, rfl⟩
  · have h_mem := (windowed_mem h_y).1
    refine ⟨fun h_ok => ?_, fun h_ok => ?_, rfl⟩
    · exact (h_ok.unlink h_mem h_unlink).2.ackedLen _
    · exact (h_ok.unlink h_mem h_unlink).1.map Xfer.ref

theorem retires_letGo {r : Nat} {failed : Bool} {done : Option Xfer}
    (h : xmitLetGo t r failed = (t', done)) : Retires w t t' done := by
  refine Retires.of_touch ?_ (retires_finished h)
  exact ⟨fun _ => rfl, fun _ => rfl⟩

theorem retires_none (n : Nat) : Retires w t { t with txAckedLen := n } none :=
  ⟨fun h_ok => h_ok.ackedLen n, fun _ => List.Perm.refl _, rfl⟩

theorem Retires.of_ackedLen (n : Nat) {done : Option Xfer}
    (h : Retires w { t with txAckedLen := n } t' done) : Retires w t t' done :=
  ⟨fun h_ok => h.ok (h_ok.ackedLen n), fun h_ok => h.live (h_ok.ackedLen n), h.stopped⟩

/-- Whatever a peer acknowledges, at most the oldest transfer is retired. -/
theorem retires_ack {ack : XferAck} {done : Option Xfer} {unexpected : Bool}
    (h : xferAckSection t ack = (t', done, unexpected)) : Retires w t t' done := by
  unfold xferAckSection at h
  cases h_head : t.txWindow.items.head? with
  | none =>
    simp only [h_head, Prod.mk.injEq] at h
    obtain ⟨rfl, rfl, -⟩ := h
    exact retires_none t.txAckedLen
  | some head =>
    simp only [h_head] at h
    by_cases h_id : ack.transferId ≠ head.transferId
    · rw [if_pos h_id, Prod.mk.injEq, Prod.mk.injEq] at h
      obtain ⟨rfl, rfl, -⟩ := h
      exact retires_none t.txAckedLen
    rw [if_neg h_id] at h
    by_cases h_bad : ack.ackLength ≤ t.txAckedLen ∨ ack.ackLength > head.length
    · rw [if_pos h_bad, Prod.mk.injEq, Prod.mk.injEq] at h
      obtain ⟨rfl, rfl, -⟩ := h
      refine Retires.of_touch ?_ (retires_finished (Prod.mk.eta).symm)
      exact ⟨fun _ => rfl, fun _ => rfl⟩
    rw [if_neg h_bad] at h
    by_cases h_all : ack.ackLength = head.length
    · rw [if_pos h_all, Prod.mk.injEq, Prod.mk.injEq] at h
      obtain ⟨rfl, rfl, -⟩ := h
      refine Retires.of_ackedLen _ (Retires.of_touch ?_ (retires_finished (Prod.mk.eta).symm))
      exact ⟨fun _ => rfl, fun _ => rfl⟩
    · rw [if_neg h_all, Prod.mk.injEq, Prod.mk.injEq] at h
      obtain ⟨rfl, rfl, -⟩ := h
      exact retires_none _

/-- ... and whatever it refuses, at most the transfer it names. -/
theorem retires_refuse {refuse : XferRefuse} {done : Option Xfer} {known : Bool}
    (h : xferRefuseSection t refuse = (t', done, known)) : Retires w t t' done := by
  unfold xferRefuseSection at h
  cases h_find : t.txWindow.items.find? fun y => y.transferId = refuse.transferId with
  | none =>
    simp only [h_find, Prod.mk.injEq] at h
    obtain ⟨rfl, rfl, -⟩ := h
    exact retires_none t.txAckedLen
  | some x =>
    simp only [h_find, Prod.mk.injEq] at h
    obtain ⟨rfl, rfl, -⟩ := h
    refine Retires.of_touch ?_ (retires_finished (Prod.mk.eta).symm)
    exact ⟨fun _ => rfl, by intro y; simp only⟩

/-! ## Taking, adding, draining -/

theorem xmitTake_cases {x' : Xfer} (h : xmitTake t = .took x' t') :
    ∃ x rest, t.txQueue.items = x :: rest ∧ t.txStopped = false ∧
      x' = { x with transferId := t.nextTxId, inFlight := true } ∧
      t' = { t with
        txQueue := (txUnlink t.txQueue x.ref).getD t.txQueue
        nextTxId := (t.nextTxId + 1) % 2 ^ 64
        txWindow := txAppend t.txWindow x' } := by
  unfold xmitTake at h
  cases h_items : t.txQueue.items with
  | nil =>
    simp only [h_items, List.head?_nil] at h
    split at h <;> cases h
  | cons x rest =>
    simp only [h_items, List.head?_cons] at h
    cases h_stop : t.txStopped with
    | true => simp [h_stop] at h
    | false =>
      simp only [h_stop, Bool.false_eq_true, if_false, Taken.took.injEq] at h
      obtain ⟨rfl, rfl⟩ := h
      exact ⟨x, rest, rfl, rfl, rfl, by simp⟩

/-- The head of the queue moves to the end of the window. -/
theorem xmitTake_lists (h_ok : TxOk w t) {x' : Xfer} (h : xmitTake t = .took x' t') :
    ∃ x rest, t.txQueue.items = x :: rest ∧ t'.txQueue.items = rest ∧
      t'.txWindow.items = t.txWindow.items ++ [x'] ∧
      x' = { x with transferId := t.nextTxId, inFlight := true } ∧
      t'.txQueue.Wf Xfer.ref ∧ t'.txWindow.Wf Xfer.ref := by
  obtain ⟨x, rest, h_items, -, h_x', rfl⟩ := xmitTake_cases h
  have h_ref : x'.ref = x.ref := by rw [h_x']
  have h_new : x'.ref ∉ t.txWindow.items.map Xfer.ref := by
    have h_nodup := h_ok.nodup
    rw [TxSide.live, h_items, List.map_append, List.map_cons, List.cons_append] at h_nodup
    intro h_mem
    exact (List.nodup_cons.mp h_nodup).1
      (List.mem_append_right _ (by rwa [h_ref] at h_mem))
  obtain ⟨q, h_q⟩ : ∃ q, txUnlink t.txQueue x.ref = some q := by
    rw [← Option.ne_none_iff_exists', Ne, txUnlink, unlink_eq_none, h_items]
    simp
  have h_qItems : q.items = rest := by
    rw [unlink_items h_q, h_items, List.eraseP_cons_of_pos (by simp)]
  refine ⟨x, rest, h_items, ?_, append_items h_ok.window x', h_x', ?_,
    wf_append h_ok.window h_new⟩
  · rw [h_q]
    exact h_qItems
  · rw [h_q]
    exact wf_unlink h_ok.queue h_q

theorem xmitTake_live (h_ok : TxOk w t) {x' : Xfer} (h : xmitTake t = .took x' t') :
    (t.live.map Xfer.ref).Perm (t'.live.map Xfer.ref) ∧
      (t.live.map Xfer.length).Perm (t'.live.map Xfer.length) := by
  obtain ⟨x, rest, h_q, h_q', h_w', rfl, -, -⟩ := xmitTake_lists h_ok h
  have h_move : ∀ f : Xfer → Nat, f { x with transferId := t.nextTxId, inFlight := true } = f x →
      (t.live.map f).Perm (t'.live.map f) := by
    intro f hf
    have h_eq : t'.live.map f = rest.map f ++ t.txWindow.items.map f ++ [f x] := by
      simp [TxSide.live, h_q', h_w', hf]
    rw [h_eq, TxSide.live, h_q, List.cons_append, List.map_cons, List.map_append]
    exact (List.perm_append_singleton _ _).symm
  exact ⟨h_move _ rfl, h_move _ rfl⟩

theorem TxOk.take (h_ok : TxOk w t) {x' : Xfer} (h : xmitTake t = .took x' t') : TxOk w t' := by
  obtain ⟨h_refs, h_lens⟩ := xmitTake_live h_ok h
  obtain ⟨-, -, -, -, -, -, h_qwf, h_wwf⟩ := xmitTake_lists h_ok h
  obtain ⟨_, _, -, -, -, h_t'⟩ := xmitTake_cases h
  have h_count : t'.txCount = t.txCount := by rw [h_t']
  have h_bytes : t'.txBytes = t.txBytes := by rw [h_t']
  have h_active : t'.txActive = t.txActive := by rw [h_t']
  have h_len : t.live.length = t'.live.length := by simpa using h_lens.length_eq
  exact
    { queue := h_qwf
      window := h_wwf
      nodup := h_refs.nodup_iff.mp h_ok.nodup
      count := by rw [h_count, h_ok.count, h_len]
      bytes := by rw [h_bytes, h_ok.bytes, h_lens.sum_eq]
      active := by rw [h_active, h_ok.active, h_count]
      countBound := by rw [h_count]; exact h_ok.countBound
      bytesBound := by rw [h_bytes, h_count]; exact h_ok.bytesBound }

/-- A bundle is added only when the window has room for it or nothing else is outstanding. -/
theorem TxOk.add (h_ok : TxOk w t) {x : Xfer} (h_new : x.ref ∉ t.live.map Xfer.ref)
    (h_room : queueXferWaits w t x.length = false) (h_open : t.txStopped = false) :
    TxOk w (queueXferAdd t x).1 ∧
      ((queueXferAdd t x).1.live.map Xfer.ref).Perm (x.ref :: t.live.map Xfer.ref) := by
  have h_add : (queueXferAdd t x).1 = { t with
      txQueue := txAppend t.txQueue x
      txCount := t.txCount + 1
      txBytes := t.txBytes + x.length
      txActive := true } := by simp [queueXferAdd, h_open]
  have h_items : (txAppend t.txQueue x).items = t.txQueue.items ++ [x] :=
    append_items h_ok.queue x
  have h_live : (queueXferAdd t x).1.live.Perm (x :: t.live) := by
    rw [h_add, TxSide.live, h_items, List.append_assoc]
    exact List.perm_middle
  have h_len := h_live.length_eq
  have h_sum := (h_live.map Xfer.length).sum_eq
  have h_count := h_ok.count
  have h_bytes := h_ok.bytes
  simp only [List.length_cons, List.map_cons, List.sum_cons] at h_len h_sum
  refine ⟨?_, h_live.map Xfer.ref⟩
  have h_nodup : ((queueXferAdd t x).1.live.map Xfer.ref).Nodup :=
    (h_live.map Xfer.ref).nodup_iff.mpr (List.nodup_cons.mpr ⟨h_new, h_ok.nodup⟩)
  have h_qnew : x.ref ∉ t.txQueue.items.map Xfer.ref := by
    intro h_mem
    exact h_new (by rw [TxSide.live, List.map_append]; exact List.mem_append_left _ h_mem)
  rw [queueXferWaits, h_open] at h_room
  simp only [Bool.not_false, Bool.true_and, Bool.and_eq_false_iff, Bool.or_eq_false_iff,
    decide_eq_false_iff_not] at h_room
  rw [h_add] at h_len h_sum h_nodup ⊢
  exact
    { queue := wf_append h_ok.queue h_qnew
      window := h_ok.window
      nodup := h_nodup
      count := by
        simp only
        omega
      bytes := by
        simp only
        omega
      active := by
        have h_ne : t.txCount + 1 ≠ 0 := by omega
        simp [h_ne]
      countBound := by
        intro h_pos
        simp only
        omega
      bytesBound := by
        intro h_pos
        simp only
        omega }

theorem TxOk.drain : TxOk w (tcpv4TxDrain t).1 where
  queue := wf_empty
  window := wf_empty
  nodup := List.nodup_nil
  count := rfl
  bytes := rfl
  active := rfl
  countBound := by intro _; exact Or.inr (by simp [tcpv4TxDrain])
  bytesBound := by intro _; exact Or.inr (by simp [tcpv4TxDrain])

/-- The drain takes every transfer there is. -/
theorem tcpv4TxDrain_live (t : TxSide) : (tcpv4TxDrain t).2.Perm t.live := by
  rw [tcpv4TxDrain, TxSide.live, ← List.reverse_append]
  exact List.reverse_perm _

/-! ## The ledger -/

/-- What the reports of a session depend on.  `held` are the transfers that are off the
    lists and about to be reported. -/
structure Ledger where
  tx : TxSide
  held : List Xfer
  senders : List Xfer
  nextRef : Nat
  returned : List (Nat × Bool)
  reported : List Nat

namespace Ledger

/-- The calls of `queueXfer` that returned 0. -/
def accepted (l : Ledger) : List Nat := (l.returned.filter Prod.snd).map Prod.fst

/-- All that can happen to a ledger. -/
inductive Step (w : TxWindow) (l : Ledger) : Ledger → Prop where
  | stay : Step w l l
  | stop : Step w l { l with tx := tcpv4TxStop l.tx }
  | turnAway : Step w l { l with
      nextRef := l.nextRef + 1, returned := l.returned ++ [(l.nextRef, false)] }
  | wait (bundle : Octets) : Step w l { l with
      nextRef := l.nextRef + 1, senders := l.senders ++ [newXfer l.nextRef bundle] }
  | giveUp (x : Xfer) (h_mem : x ∈ l.senders) : Step w l { l with
      senders := l.senders.eraseP fun y => y.ref = x.ref
      returned := l.returned ++ [(x.ref, false)] }
  | accept (x : Xfer) (h_mem : x ∈ l.senders)
      (h_room : queueXferWaits w l.tx x.length = false) (h_open : l.tx.txStopped = false) :
      Step w l { l with
        tx := (queueXferAdd l.tx x).1
        senders := l.senders.eraseP fun y => y.ref = x.ref
        returned := l.returned ++ [(x.ref, true)] }
  | take (x : Xfer) (t : TxSide) (h_take : xmitTake l.tx = .took x t) :
      Step w l { l with tx := t }
  | retire (t : TxSide) (done : Option Xfer) (held : List Xfer) (h_tx : Retires w l.tx t done)
      (h_held : held.Perm (done.toList ++ l.held)) : Step w l { l with tx := t, held := held }
  | report (x : Xfer) (held : List Xfer) (h_held : l.held.Perm (x :: held)) :
      Step w l { l with held := held, reported := l.reported ++ [x.ref] }
  | drain (held : List Xfer) (h_held : held.Perm ((tcpv4TxDrain l.tx).2 ++ l.held)) :
      Step w l { l with tx := (tcpv4TxDrain l.tx).1, held := held }

/-- Every accepted bundle is on the lists, in somebody's hands, or reported; once. -/
structure Ok (w : TxWindow) (l : Ledger) : Prop where
  tx : TxOk w l.tx
  accounted : l.accepted.Perm (l.tx.live.map Xfer.ref ++ l.held.map Xfer.ref ++ l.reported)
  fresh : ∀ r ∈ l.senders.map Xfer.ref ++ l.returned.map Prod.fst, r < l.nextRef
  nodup : (l.senders.map Xfer.ref ++ l.returned.map Prod.fst).Nodup

variable {w : TxWindow} {l l' : Ledger}

theorem accepted_sublist (l : Ledger) : l.accepted.Sublist (l.returned.map Prod.fst) :=
  List.filter_sublist.map _

/-- Moving a reference around inside the account leaves it balanced. -/
theorem Ok.of_perm (h : l.Ok w) {tx : TxSide} {held : List Xfer} {reported : List Nat}
    (h_tx : TxOk w tx)
    (h_perm : (l.tx.live.map Xfer.ref ++ l.held.map Xfer.ref ++ l.reported).Perm
      (tx.live.map Xfer.ref ++ held.map Xfer.ref ++ reported)) :
    Ok w { l with tx := tx, held := held, reported := reported } :=
  ⟨h_tx, h.accounted.trans h_perm, h.fresh, h.nodup⟩

/-- A sender that leaves is one call less waiting and one more returned. -/
theorem Ok.leave_perm (h : l.Ok w) {x : Xfer} (h_mem : x ∈ l.senders) (ok : Bool) :
    (l.senders.map Xfer.ref ++ l.returned.map Prod.fst).Perm
      ((l.senders.eraseP fun y => y.ref = x.ref).map Xfer.ref ++
        (l.returned ++ [(x.ref, ok)]).map Prod.fst) := by
  have h_senders := (perm_cons_eraseP h_mem h.nodup.of_append_left).map Xfer.ref
  simp only [List.map_append, List.map_cons, List.map_nil] at h_senders ⊢
  refine (h_senders.append_right _).trans ?_
  rw [← List.append_assoc]
  exact (List.perm_append_singleton _ _).symm

theorem ok_init : Ok w ⟨TxSide.init, [], [], 0, [], []⟩ where
  tx := txOk_init
  accounted := List.Perm.refl _
  fresh := by simp
  nodup := List.nodup_nil

theorem ok_step (h : l.Ok w) (h_step : Step w l l') : l'.Ok w := by
  cases h_step with
  | stay => exact h
  | stop => exact ⟨h.tx.stop, h.accounted, h.fresh, h.nodup⟩
  | turnAway =>
    have h_new : l.nextRef ∉ l.senders.map Xfer.ref ++ l.returned.map Prod.fst :=
      fun h_mem => Nat.lt_irrefl _ (h.fresh _ h_mem)
    refine ⟨h.tx, ?_, ?_, ?_⟩
    · simpa [accepted] using h.accounted
    · intro r h_r
      rw [List.map_append, ← List.append_assoc, List.mem_append] at h_r
      rcases h_r with h_r | h_r
      · exact Nat.lt_succ_of_lt (h.fresh r h_r)
      · obtain rfl : r = l.nextRef := by simpa using h_r
        exact Nat.lt_succ_self _
    · rw [List.map_append, ← List.append_assoc]
      exact h.nodup.append (List.nodup_singleton _) (by simpa using h_new)
  | wait bundle =>
    have h_new : l.nextRef ∉ l.senders.map Xfer.ref ++ l.returned.map Prod.fst :=
      fun h_mem => Nat.lt_irrefl _ (h.fresh _ h_mem)
    have h_perm : ((l.senders ++ [newXfer l.nextRef bundle]).map Xfer.ref ++
        l.returned.map Prod.fst).Perm
        (l.nextRef :: (l.senders.map Xfer.ref ++ l.returned.map Prod.fst)) := by
      rw [List.map_append, List.append_assoc]
      exact List.perm_middle
    refine ⟨h.tx, h.accounted, ?_, ?_⟩
    · intro r h_r
      rcases List.mem_cons.mp (h_perm.subset h_r) with rfl | h_r
      · exact Nat.lt_succ_self _
      · exact Nat.lt_succ_of_lt (h.fresh r h_r)
    · exact h_perm.nodup_iff.mpr (List.nodup_cons.mpr ⟨h_new, h.nodup⟩)
  | giveUp x h_mem =>
    have h_perm := h.leave_perm h_mem false
    refine ⟨h.tx, ?_, ?_, h_perm.nodup_iff.mp h.nodup⟩
    · simpa [accepted] using h.accounted
    · intro r h_r
      exact h.fresh r (h_perm.symm.subset h_r)
  | accept x h_mem h_room h_open =>
    have h_perm := h.leave_perm h_mem true
    have h_new : x.ref ∉ l.tx.live.map Xfer.ref := by
      intro h_live
      have h_acc : x.ref ∈ l.accepted := h.accounted.symm.subset
        (List.mem_append_left _ (List.mem_append_left _ h_live))
      exact (List.disjoint_of_nodup_append h.nodup) (List.mem_map_of_mem h_mem)
        (l.accepted_sublist.subset h_acc)
    obtain ⟨h_tx, h_live⟩ := h.tx.add h_new h_room h_open
    refine ⟨h_tx, ?_, ?_, h_perm.nodup_iff.mp h.nodup⟩
    · have h_acc : accepted { l with
          tx := (queueXferAdd l.tx x).1
          senders := l.senders.eraseP fun y => y.ref = x.ref
          returned := l.returned ++ [(x.ref, true)] } = l.accepted ++ [x.ref] := by
        simp [accepted]
      rw [h_acc]
      refine (List.perm_append_singleton _ _).trans ((h.accounted.cons _).trans ?_)
      simp only [List.append_assoc]
      exact (h_live.append_right _).symm
    · intro r h_r
      exact h.fresh r (h_perm.symm.subset h_r)
  | take x t h_take =>
    refine h.of_perm (h.tx.take h_take) ?_
    exact ((xmitTake_live h.tx h_take).1.append_right _).append_right _
  | retire t done held h_tx h_held =>
    refine h.of_perm (h_tx.ok h.tx) (List.Perm.append_right _ ?_)
    refine ((h_tx.live h.tx).append_right _).trans ?_
    refine (List.Perm.append_right _ List.perm_append_comm).trans ?_
    rw [List.append_assoc, ← List.map_append]
    exact (h_held.symm.map _).append_left _
  | report x held h_held =>
    refine h.of_perm h.tx ?_
    refine (((h_held.map Xfer.ref).append_left _).append_right _).trans ?_
    simp only [List.append_assoc, List.map_cons, List.cons_append]
    refine List.Perm.append_left _ ?_
    rw [← List.append_assoc]
    exact (List.perm_append_singleton _ _).symm
  | drain held h_held =>
    refine h.of_perm TxOk.drain (List.Perm.append_right _ ?_)
    refine List.Perm.trans ?_ (h_held.symm.map _)
    rw [List.map_append]
    exact ((tcpv4TxDrain_live l.tx).symm.map _).append_right _

end Ledger

end IonContrib.Tcpv4
