/-
  IonContrib.Quic.DgQueue

  The queue of datagrams of a connection: `quicClientSendDatagram` links a
  bundle's datagrams in and waits until they are written, `writeDatagrams` takes
  them off one by one.

  The two run on different threads.  A step is what one of them does under the
  lock or without touching the queue, so between looking at the head and taking
  it off the I/O thread leaves room for a sender.

  The counter is raised by the number of segments the bundle has, not by that
  of the nodes that were queued.  `Counts` says by how much it is ahead: by the
  nodes there was no memory for, in all the bundles so far.
-/
import IonContrib.Lib.Lts
import IonContrib.Lib.TailList
import IonContrib.Quic.Datagram

namespace IonContrib.Quic

/-- A node: the number of its block, and the datagram. -/
abbrev DgNode := Nat × Octets

/-- Where a sender is in `quicClientSendDatagram`: of the `nSeg` segments of its bundle `queued`
    have been queued. -/
inductive DgSender where
  | idle
  /-- In the loop that waits. -/
  | waiting (queued nSeg : Nat)
  /-- Behind it. -/
  | leaving (queued nSeg : Nat)
  deriving DecidableEq

/-- What a call of `quicClientSendDatagram` came to. -/
structure DgResult where
  rc : Int
  queued : Nat
  nSeg : Nat
  deriving DecidableEq

/-- The sending side of a connection.  `node` is the variable of `writeDatagrams`, `nextBlock` the
    block `MTAKE` answers next. -/
structure DgSide where
  queue : TailList DgNode
  dgPending : Int
  nextTxId : Nat
  nextBlock : Nat
  failed : Bool
  node : Option DgNode
  sender : DgSender
  results : List DgResult

/-- What `ngtcp2_conn_writev_datagram` and `sendto` do with a datagram. -/
inductive WriteRes where
  /-- It cannot be framed. -/
  | dropped
  | accepted
  /-- Other octets went out first. -/
  | other
  /-- Nothing can be sent now. -/
  | blocked
  | again
  | error
  deriving DecidableEq

inductive DgAct where
  | send (bundle : Octets) (mem : Nat → Bool)
  /-- The sender finds the wait to be over. -/
  | leave
  | ret
  /-- The I/O thread looks at the head of the queue. -/
  | pick
  | write (res : WriteRes)
  /-- The connection fails. -/
  | fail

/-- The nodes for these datagrams, in blocks from number `next` on. -/
def dgBlocks : Nat → List Octets → List DgNode
  | _, [] => []
  | next, datagram :: datagrams => (next, datagram) :: dgBlocks (next + 1) datagrams

namespace DgSide

def init : DgSide where
  queue := TailList.empty
  dgPending := 0
  nextTxId := 0
  nextBlock := 0
  failed := false
  node := none
  sender := .idle
  results := []

/-- `quicClientSendDatagram` up to its wait. -/
def enqueue (w : DgSide) (bundle : Octets) (mem : Nat → Bool) : DgSide :=
  let datagrams := quicClientSendDatagram w.nextTxId bundle mem
  { w with
    queue := w.queue.appendChain Prod.fst (dgBlocks w.nextBlock datagrams)
    dgPending := w.dgPending + dgSegments bundle.length
    nextTxId := (w.nextTxId + 1) % 2 ^ 64
    nextBlock := w.nextBlock + datagrams.length
    sender := .waiting datagrams.length (dgSegments bundle.length) }

/-- The node has been written or dropped. -/
def takeOff (w : DgSide) (node : DgNode) : DgSide :=
  { w with
    queue := w.queue.cutThrough Prod.fst node.1
    dgPending := w.dgPending - 1
    node := none }

def wrote (w : DgSide) (node : DgNode) : WriteRes → DgSide
  | .dropped | .accepted => w.takeOff node
  | .error => { w with failed := true, node := none }
  | .other | .blocked | .again => { w with node := none }

def step (w : DgSide) : DgAct → Option DgSide
  | .send bundle mem =>
    match w.sender with
    | .idle => some (w.enqueue bundle mem)
    | _ => none
  | .leave =>
    match w.sender with
    | .waiting queued nSeg =>
      if w.dgPending > 0 ∧ w.failed = false then none
      else some { w with sender := .leaving queued nSeg }
    | _ => none
  | .ret =>
    match w.sender with
    | .leaving queued nSeg =>
      some { w with
        sender := .idle
        results := w.results ++ [⟨if w.failed then -1 else 0, queued, nSeg⟩] }
    | _ => none
  | .pick => if w.node = none then some { w with node := w.queue.items.head? } else none
  | .write res => w.node.map fun node => w.wrote node res
  | .fail => some { w with failed := true }

end DgSide

/-- There is memory for the node of every segment. -/
def DgAct.Served : DgAct → Prop
  | .send bundle mem => ∀ i < dgSegments bundle.length, mem i = true
  | _ => True

/-- The counter is the length of the queue, whose end is where the tail points. -/
structure DgSide.Accounted (w : DgSide) : Prop where
  pending : w.dgPending = w.queue.items.length
  tail : w.queue.tail = w.queue.items.getLast?.map Prod.fst
  /-- Once the queue has been written the sender goes on. -/
  released : ∀ queued nSeg, w.sender = .waiting queued nSeg → w.queue.items = [] →
    w.step .leave = some { w with sender := .leaving queued nSeg }

/-! ## What a step does -/

namespace DgSide

theorem addr_dgBlocks (next : Nat) (datagrams : List Octets) :
    (dgBlocks next datagrams).map Prod.fst = List.range' next datagrams.length := by
  induction datagrams generalizing next with
  | nil => rfl
  | cons datagram datagrams ih =>
    rw [dgBlocks, List.map_cons, ih, List.length_cons, List.range'_succ]

theorem length_dgBlocks (next : Nat) (datagrams : List Octets) :
    (dgBlocks next datagrams).length = datagrams.length := by
  have h := congrArg List.length (addr_dgBlocks next datagrams)
  rwa [List.length_map, List.length_range'] at h

/-- The queue and its counter, which is ahead by `lost`. -/
structure Counts (w : DgSide) (lost : Nat) : Prop where
  wf : w.queue.Wf Prod.fst
  fresh : ∀ x ∈ w.queue.items, x.1 < w.nextBlock
  pending : w.dgPending = w.queue.items.length + lost
  node : ∀ x, w.node = some x → ∃ rest, w.queue.items = x :: rest

/-- A sender that has passed its wait has lost no segment, or it fails. -/
structure Honest (w : DgSide) (lost : Nat) : Prop where
  waiting : ∀ queued nSeg, w.sender = .waiting queued nSeg → queued ≤ nSeg ∧ nSeg ≤ queued + lost
  leaving : ∀ queued nSeg, w.sender = .leaving queued nSeg → w.failed = true ∨ queued = nSeg
  results : ∀ r ∈ w.results, r.rc = 0 → r.queued = r.nSeg

/-- What is new is linked in behind what there is. -/
theorem Counts.enqueue {w : DgSide} {lost : Nat} (h : Counts w lost) (bundle : Octets)
    (mem : Nat → Bool) (more : Nat)
    (h_more : dgSegments bundle.length =
      (quicClientSendDatagram w.nextTxId bundle mem).length + more) :
    Counts (w.enqueue bundle mem) (lost + more) := by
  have h_addr := addr_dgBlocks w.nextBlock (quicClientSendDatagram w.nextTxId bundle mem)
  have h_items := TailList.appendChain_items h.wf
    (dgBlocks w.nextBlock (quicClientSendDatagram w.nextTxId bundle mem))
  have h_range : ∀ x ∈ dgBlocks w.nextBlock (quicClientSendDatagram w.nextTxId bundle mem),
      w.nextBlock ≤ x.1 ∧
        x.1 < w.nextBlock + (quicClientSendDatagram w.nextTxId bundle mem).length := by
    intro x h_x
    have h_mem := List.mem_map_of_mem (f := Prod.fst) h_x
    rw [h_addr, List.mem_range'_1] at h_mem
    exact h_mem
  refine ⟨?_, ?_, ?_, ?_⟩
  · apply TailList.wf_appendChain h.wf
    · rw [h_addr]
      exact List.nodup_range'
    · intro x h_x h_old
      obtain ⟨y, h_y, h_eq⟩ := List.mem_map.mp h_old
      have h_lt := h.fresh y h_y
      have h_ge := (h_range x h_x).1
      omega
  · intro x h_x
    show x.1 < w.nextBlock + (quicClientSendDatagram w.nextTxId bundle mem).length
    rcases List.mem_append.mp (h_items ▸ h_x) with h_old | h_new
    · have h_lt := h.fresh x h_old
      omega
    · exact (h_range x h_new).2
  · show w.dgPending + dgSegments bundle.length = _
    have h_pending := h.pending
    have h_len : (w.enqueue bundle mem).queue.items.length =
        w.queue.items.length + (quicClientSendDatagram w.nextTxId bundle mem).length := by
      show (TailList.appendChain _ _ _).items.length = _
      rw [h_items, List.length_append, length_dgBlocks]
    rw [h_len]
    omega
  · intro x h_x
    obtain ⟨rest, h_rest⟩ := h.node x h_x
    refine ⟨rest ++ dgBlocks w.nextBlock (quicClientSendDatagram w.nextTxId bundle mem), ?_⟩
    show (TailList.appendChain _ _ _).items = _
    rw [h_items, h_rest]
    rfl

theorem Counts.takeOff {w : DgSide} {lost : Nat} (h : Counts w lost) {node : DgNode}
    (h_node : w.node = some node) : Counts (w.takeOff node) lost := by
  obtain ⟨rest, h_rest⟩ := h.node node h_node
  have h_items : (w.takeOff node).queue.items = rest := TailList.cutThrough_items h_rest
  refine ⟨TailList.wf_cutThrough h.wf h_rest, ?_, ?_, fun x h_x => ?_⟩
  · intro x h_x
    rw [h_items] at h_x
    apply h.fresh x
    rw [h_rest]
    exact List.mem_cons_of_mem node h_x
  · have h_pending := h.pending
    rw [h_rest, List.length_cons] at h_pending
    show w.dgPending - 1 = _
    rw [h_items]
    omega
  · cases h_x

theorem Counts.wrote {w : DgSide} {lost : Nat} (h : Counts w lost) {node : DgNode}
    (h_node : w.node = some node) (res : WriteRes) : Counts (w.wrote node res) lost := by
  have h_kept : ∀ failed, Counts { w with failed := failed, node := none } lost := fun failed =>
    ⟨h.wf, h.fresh, h.pending, fun x h_x => by cases h_x⟩
  cases res with
  | dropped => exact h.takeOff h_node
  | accepted => exact h.takeOff h_node
  | other => exact h_kept w.failed
  | blocked => exact h_kept w.failed
  | again => exact h_kept w.failed
  | error => exact h_kept true

theorem accounted_iff {w : DgSide} {lost : Nat} (h : Counts w lost) : w.Accounted ↔ lost = 0 := by
  have h_pending := h.pending
  constructor
  · intro h_acc
    have h_len := h_acc.pending
    omega
  · rintro rfl
    refine ⟨by omega, h.wf.tail_eq, fun queued nSeg h_sender h_none => ?_⟩
    rw [h_none] at h_pending
    have h_over : ¬ (w.dgPending > 0 ∧ w.failed = false) := by
      rw [h_pending]
      simp
    unfold step
    rw [h_sender]
    exact if_neg h_over

/-- How many segments of a bundle there is no node for. -/
theorem lost_segments (txid : Nat) (bundle : Octets) (mem : Nat → Bool) :
    ∃ more, dgSegments bundle.length = (quicClientSendDatagram txid bundle mem).length + more ∧
      ((∀ i < dgSegments bundle.length, mem i = true) ↔ more = 0) := by
  obtain ⟨k, h_k, h_all, h_eq⟩ := quicClientSendDatagram_eq txid bundle mem
  have h_len : (quicClientSendDatagram txid bundle mem).length = k := by
    rw [h_eq, List.length_map, List.length_range]
  refine ⟨dgSegments bundle.length - k, by omega, ?_⟩
  rw [← h_all]
  omega

/-- What a step does to the count, and to what a sender says. -/
theorem step_counts {w w' : DgSide} {lost : Nat} {a : DgAct} (h : Counts w lost)
    (h_honest : Honest w lost) (h_step : w.step a = some w') :
    ∃ more, Counts w' (lost + more) ∧ Honest w' (lost + more) ∧ (a.Served ↔ more = 0) := by
  have h_same : ∀ {b : DgAct}, b.Served → (b.Served ↔ 0 = 0) := fun h_b => iff_of_true h_b rfl
  cases a with
  | send bundle mem =>
    unfold step at h_step
    cases h_sender : w.sender with
    | idle =>
      rw [h_sender] at h_step
      obtain rfl := Option.some.inj h_step
      obtain ⟨more, h_more, h_served⟩ := lost_segments w.nextTxId bundle mem
      refine ⟨more, h.enqueue bundle mem more h_more, ⟨?_, ?_, h_honest.results⟩, h_served⟩
      · intro queued nSeg h_eq
        obtain ⟨rfl, rfl⟩ := DgSender.waiting.inj h_eq
        omega
      · intro queued nSeg h_eq
        cases h_eq
    | waiting queued nSeg =>
      rw [h_sender] at h_step
      cases h_step
    | leaving queued nSeg =>
      rw [h_sender] at h_step
      cases h_step
  | leave =>
    unfold step at h_step
    cases h_sender : w.sender with
    | idle =>
      rw [h_sender] at h_step
      cases h_step
    | waiting queued nSeg =>
      rw [h_sender] at h_step
      dsimp only at h_step
      by_cases h_wait : w.dgPending > 0 ∧ w.failed = false
      · rw [if_pos h_wait] at h_step
        cases h_step
      · rw [if_neg h_wait] at h_step
        obtain rfl := Option.some.inj h_step
        refine ⟨0, ⟨h.wf, h.fresh, h.pending, h.node⟩, ⟨fun queued' nSeg' h_eq => ?_,
          fun queued' nSeg' h_eq => ?_, h_honest.results⟩, h_same trivial⟩
        · cases h_eq
        · obtain ⟨rfl, rfl⟩ := DgSender.leaving.inj h_eq
          obtain ⟨h_le, h_lost⟩ := h_honest.waiting queued nSeg h_sender
          have h_pending := h.pending
          cases h_failed : w.failed with
          | true => exact Or.inl rfl
          | false =>
            -- The count is down, so nothing has been lost.
            right
            have h_zero : ¬ w.dgPending > 0 := fun h_pos => h_wait ⟨h_pos, h_failed⟩
            omega
    | leaving queued nSeg =>
      rw [h_sender] at h_step
      cases h_step
  | ret =>
    unfold step at h_step
    cases h_sender : w.sender with
    | idle =>
      rw [h_sender] at h_step
      cases h_step
    | waiting queued nSeg =>
      rw [h_sender] at h_step
      cases h_step
    | leaving queued nSeg =>
      rw [h_sender] at h_step
      obtain rfl := Option.some.inj h_step
      refine ⟨0, ⟨h.wf, h.fresh, h.pending, h.node⟩, ⟨fun queued' nSeg' h_eq => ?_,
        fun queued' nSeg' h_eq => ?_, fun r h_r h_rc => ?_⟩, h_same trivial⟩
      · cases h_eq
      · cases h_eq
      · rcases List.mem_append.mp h_r with h_old | h_new
        · exact h_honest.results r h_old h_rc
        · obtain rfl := List.mem_singleton.mp h_new
          rcases h_honest.leaving queued nSeg h_sender with h_failed | h_all
          · rw [h_failed, if_pos rfl] at h_rc
            dsimp only at h_rc
            omega
          · exact h_all
  | pick =>
    unfold step at h_step
    by_cases h_node : w.node = none
    · rw [if_pos h_node] at h_step
      obtain rfl := Option.some.inj h_step
      refine ⟨0, ⟨h.wf, h.fresh, h.pending, fun x h_x => ?_⟩,
        ⟨h_honest.waiting, h_honest.leaving, h_honest.results⟩, h_same trivial⟩
      exact List.head?_eq_some_iff.mp h_x
    · rw [if_neg h_node] at h_step
      cases h_step
  | write res =>
    obtain ⟨node, h_node, rfl⟩ := Option.map_eq_some_iff.mp h_step
    refine ⟨0, h.wrote h_node res, ?_, h_same trivial⟩
    cases res with
    | error =>
      exact ⟨h_honest.waiting, fun _ _ _ => Or.inl rfl, h_honest.results⟩
    | dropped => exact ⟨h_honest.waiting, h_honest.leaving, h_honest.results⟩
    | accepted => exact ⟨h_honest.waiting, h_honest.leaving, h_honest.results⟩
    | other => exact ⟨h_honest.waiting, h_honest.leaving, h_honest.results⟩
    | blocked => exact ⟨h_honest.waiting, h_honest.leaving, h_honest.results⟩
    | again => exact ⟨h_honest.waiting, h_honest.leaving, h_honest.results⟩
  | fail =>
    obtain rfl := Option.some.inj h_step
    exact ⟨0, ⟨h.wf, h.fresh, h.pending, h.node⟩,
      ⟨h_honest.waiting, fun _ _ _ => Or.inl rfl, h_honest.results⟩, h_same trivial⟩

/-! ## Runs -/

theorem counts_run {as : List DgAct} {w : DgSide} (h_run : Lts.run step init as = some w) :
    ∃ lost, Counts w lost ∧ Honest w lost ∧ ((∀ a ∈ as, a.Served) → lost = 0) := by
  have h_init : Counts init 0 := by
    refine ⟨TailList.wf_empty, fun x h_x => ?_, rfl, fun x h_x => ?_⟩
    · cases h_x
    · cases h_x
  have h_honest : Honest init 0 := by
    refine ⟨fun _ _ h_eq => ?_, fun _ _ h_eq => ?_, fun r h_r => ?_⟩
    · cases h_eq
    · cases h_eq
    · cases h_r
  refine Lts.run_invariant_history (?_ : ∀ as w a w',
    (∃ lost, Counts w lost ∧ Honest w lost ∧ ((∀ b ∈ as, b.Served) → lost = 0)) →
    step w a = some w' → ∃ lost, Counts w' lost ∧ Honest w' lost ∧
      ((∀ b ∈ as ++ [a], b.Served) → lost = 0)) ⟨0, h_init, h_honest, fun _ => rfl⟩ h_run
  rintro as w a w' ⟨lost, h_counts, h_hon, h_all⟩ h_step
  obtain ⟨more, h_counts', h_hon', h_served⟩ := step_counts h_counts h_hon h_step
  refine ⟨lost + more, h_counts', h_hon', fun h_as => ?_⟩
  have h_lost := h_all fun b h_b => h_as b (List.mem_append_left _ h_b)
  have h_more := h_served.mp (h_as a (List.mem_append_right _ List.mem_cons_self))
  omega

/-- **The queue of datagrams.**  In all states of a run the counter is the length of the queue,
    and a sender whose datagrams have been written goes on, exactly if each bundle sent found
    memory for the nodes of all its segments.  No sender ever reports success for a bundle of
    which a segment was not queued. -/
theorem datagrams_accounted {as : List DgAct} {w : DgSide}
    (h_run : Lts.run step init as = some w) :
    ((∀ pre rest m, as = pre ++ rest → Lts.run step init pre = some m → m.Accounted) ↔
        ∀ a ∈ as, a.Served) ∧
      ∀ r ∈ w.results, r.rc = 0 → r.queued = r.nSeg := by
  obtain ⟨_, -, h_honest, -⟩ := counts_run h_run
  refine ⟨⟨?_, ?_⟩, h_honest.results⟩
  · intro h_acc a h_a
    obtain ⟨pre, rest, rfl⟩ := List.append_of_mem h_a
    obtain ⟨m, h_pre, h_rest⟩ := Lts.run_append.mp h_run
    obtain ⟨m', h_step, -⟩ := Lts.run_cons_eq_some.mp h_rest
    obtain ⟨lost, h_counts, h_hon, -⟩ := counts_run h_pre
    obtain ⟨more, h_counts', -, h_served⟩ := step_counts h_counts h_hon h_step
    have h_m' := h_acc (pre ++ [a]) rest m' (by simp) (Lts.run_snoc.mpr ⟨m, h_pre, h_step⟩)
    have h_lost := (accounted_iff h_counts').mp h_m'
    exact h_served.mpr (by omega)
  · rintro h_all pre rest m rfl h_pre
    obtain ⟨lost, h_counts, -, h_lost⟩ := counts_run h_pre
    rw [accounted_iff h_counts]
    exact h_lost fun b h_b => h_all b (List.mem_append_left _ h_b)

/-- A bundle of one segment, sent and written. -/
theorem datagrams_accounted_one :
    ∃ w, Lts.run step init [.send [7] fun _ => true, .pick, .write .accepted, .leave, .ret] =
        some w ∧ w.results = [⟨0, 1, 1⟩] ∧ w.Accounted := by
  have h_some : (Lts.run step init
      [.send [7] fun _ => true, .pick, .write .accepted, .leave, .ret]).map DgSide.results =
        some [⟨0, 1, 1⟩] := by decide +kernel
  obtain ⟨w, h_run, h_results⟩ := Option.map_eq_some_iff.mp h_some
  refine ⟨w, h_run, h_results, ((datagrams_accounted h_run).1.mpr ?_) _ [] w (by simp) h_run⟩
  simp [DgAct.Served]

/-- There is no memory for the second node of a bundle of two segments.  When the first has been
    written the queue is empty, the counter is 1, and the sender cannot go on. -/
theorem datagrams_miscounted :
    ∃ w, Lts.run step init
        [.send (List.replicate 1025 7) fun i => i = 0, .pick, .write .accepted, .pick] = some w ∧
      w.dgPending = 1 ∧ w.queue.items = [] ∧ w.sender = .waiting 1 2 ∧
      (w.step .leave).isNone = true ∧ ¬ w.Accounted := by
  have h_some : (Lts.run step init
      [.send (List.replicate 1025 7) fun i => i = 0, .pick, .write .accepted, .pick]).map
        (fun w => (w.dgPending, w.queue.items, w.sender, (w.step .leave).isNone)) =
      some (1, [], .waiting 1 2, true) := by decide +kernel
  obtain ⟨w, h_run, h_state⟩ := Option.map_eq_some_iff.mp h_some
  obtain ⟨h_pending, h_rest⟩ := Prod.mk.inj h_state
  obtain ⟨h_items, h_rest⟩ := Prod.mk.inj h_rest
  obtain ⟨h_sender, h_leave⟩ := Prod.mk.inj h_rest
  refine ⟨w, h_run, h_pending, h_items, h_sender, h_leave, fun h_acc => ?_⟩
  have h_len := h_acc.pending
  rw [h_pending, h_items] at h_len
  exact absurd h_len (by decide)

end DgSide

end IonContrib.Quic
