/-
  IonContrib.Quic.Udp

  The batches of `quicudp.c`: packets of one length, the last of which may be
  shorter, are collected in a buffer and handed to the kernel in one call, which
  cuts them again (UDP_SEGMENT), or one by one when the kernel does not know how.

  What a batch holds is a `Train`: the packets since the last flush, all of
  them full, since a short one is flushed with those before it.  So each flush
  cuts the buffer back into them, on either path, and a run of packets ended by
  a flush has put exactly these on the wire (`quicUdp_transparent`).
-/
import IonContrib.Lib.Lts
import IonContrib.Lib.Train
import IonContrib.Cursor

namespace IonContrib.Quic

def quicMaxUdp : Nat := 1452
def quicTxMaxPkts : Nat := 44
def quicTxBatch : Nat := quicMaxUdp * quicTxMaxPkts

/-! ## Sending -/

/-- What a call of `sendto` or `sendmsg` comes to; `errno` is EAGAIN or another. -/
inductive SendRes where
  | sent
  | again
  | error
  deriving DecidableEq

/-- What the calls of one flush come to: the one with UDP_SEGMENT, and the `i`-th of the others. -/
structure SendEnv where
  offload : SendRes
  one : Nat → SendRes

/-- The datagrams on the wire, and what was returned. -/
structure SendOut where
  wire : List Octets
  rc : Int
  deriving DecidableEq

/-- The loop of `sendPerDatagram`: the `i`-th call is the next one. -/
def sendPerDatagramFrom (one : Nat → SendRes) (gso : Nat) :
    Nat → Nat → Octets → List Octets → SendOut
  | 0, _, _, wire => ⟨wire, 0⟩
  | fuel + 1, i, buf, wire =>
    if buf.length = 0 then ⟨wire, 0⟩
    else
      let l := if buf.length < gso then buf.length else gso
      match one i with
      | .again => ⟨wire, 1⟩
      | .error => ⟨wire, -1⟩
      | .sent => sendPerDatagramFrom one gso fuel (i + 1) (buf.drop l) (wire ++ [buf.take l])

def sendPerDatagram (one : Nat → SendRes) (buf : Octets) (gso : Nat) : SendOut :=
  sendPerDatagramFrom one (if gso = 0 then buf.length else gso) buf.length 0 buf []

/-- `sendBatch`, with what becomes of `*useGso`.  The kernel cuts what it takes into segments of
    the size it is told, a `uint16_t`. -/
def sendBatch (env : SendEnv) (useGso : Bool) (buf : Octets) (gsoSize : Nat) : Bool × SendOut :=
  if buf.length = 0 then (useGso, ⟨[], 0⟩)
  else if useGso ∧ gsoSize ≠ 0 ∧ buf.length > gsoSize then
    match env.offload with
    | .sent => (useGso, ⟨cut (gsoSize % 2 ^ 16) buf, 0⟩)
    | .again => (useGso, ⟨[], 1⟩)
    | .error => (false, sendPerDatagram env.one buf gsoSize)
  else (useGso, sendPerDatagram env.one buf gsoSize)

/-! ## Batches -/

/-- `buf` is the octets up to `pos`. -/
structure QuicTxBatch where
  useGso : Bool
  gsoSize : Nat
  pktCount : Nat
  buf : Octets
  deriving DecidableEq

def quicTxBatchInit (useGso : Bool) : QuicTxBatch := ⟨useGso, 0, 0, []⟩

def quicTxBatchFlush (env : SendEnv) (b : QuicTxBatch) : QuicTxBatch × SendOut :=
  match sendBatch env b.useGso b.buf b.gsoSize with
  | (useGso, out) =>
    if out.rc = 0 then (⟨useGso, 0, 0, []⟩, out) else ({ b with useGso := useGso }, out)

def quicTxBatchReserve (env : SendEnv) (b : QuicTxBatch) : QuicTxBatch × SendOut :=
  if quicTxBatch - b.buf.length < quicMaxUdp then quicTxBatchFlush env b else (b, ⟨[], 0⟩)

def quicTxBatchLimit (b : QuicTxBatch) : Nat := if b.pktCount = 0 then quicMaxUdp else b.gsoSize

/-- `pkt` is what was written at `quicTxBatchTail`. -/
def quicTxBatchCommit (env : SendEnv) (b : QuicTxBatch) (pkt : Octets) : QuicTxBatch × SendOut :=
  let b := { b with
    buf := b.buf ++ pkt
    gsoSize := if b.pktCount = 0 then pkt.length else b.gsoSize
    pktCount := b.pktCount + 1 }
  if pkt.length < b.gsoSize ∨ b.pktCount ≥ quicTxMaxPkts then quicTxBatchFlush env b
  else (b, ⟨[], 0⟩)

/-! ## A producer -/

/-- A batch, what has come on the wire, and what the last operation returned. -/
structure TxSide where
  batch : QuicTxBatch
  wire : List Octets
  rc : Int
  deriving DecidableEq

inductive TxAct where
  /-- Reserve, a packet at Tail, and Commit. -/
  | packet (pkt : Octets) (reserve commit : SendEnv)
  | flush (env : SendEnv)

namespace TxSide

def init (useGso : Bool) : TxSide := ⟨quicTxBatchInit useGso, [], 0⟩

/-- What an operation makes of the wire. -/
def after (w : TxSide) (out : QuicTxBatch × SendOut) : TxSide :=
  ⟨out.1, w.wire ++ out.2.wire, out.2.rc⟩

/-- The producer gives up when an operation does not return 0.  A packet has at least one octet
    and at most as many as the limit is. -/
def step (w : TxSide) : TxAct → Option TxSide
  | .flush env => if w.rc ≠ 0 then none else some (w.after (quicTxBatchFlush env w.batch))
  | .packet pkt reserve commit =>
    if w.rc ≠ 0 then none
    else
      let w := w.after (quicTxBatchReserve reserve w.batch)
      if w.rc ≠ 0 then some w
      else if pkt ≠ [] ∧ pkt.length ≤ quicTxBatchLimit w.batch then
        some (w.after (quicTxBatchCommit commit w.batch pkt))
      else none

end TxSide

def packets (as : List TxAct) : List Octets :=
  as.filterMap fun
    | .packet pkt _ _ => some pkt
    | .flush _ => none

/-- No send fails, but for the kernel not taking UDP_SEGMENT. -/
def SendEnv.Quiet (env : SendEnv) : Prop := env.offload ≠ .again ∧ ∀ i, env.one i = .sent

def TxAct.Quiet : TxAct → Prop
  | .packet _ reserve commit => reserve.Quiet ∧ commit.Quiet
  | .flush env => env.Quiet

/-! ## Receiving -/

/-- The loop of `quicUdpForEachPacket`; `cb` says whether it did not fail. -/
def quicUdpForEachPacketFrom {σ : Type} (cb : σ → Octets → σ × Bool) (segLen : Nat) :
    Nat → σ → Octets → σ × Bool
  | 0, user, _ => (user, true)
  | fuel + 1, user, buf =>
    if buf.length = 0 then (user, true)
    else
      let pktLen := if buf.length < segLen then buf.length else segLen
      match cb user (buf.take pktLen) with
      | (user, false) => (user, false)
      | (user, true) => quicUdpForEachPacketFrom cb segLen fuel user (buf.drop segLen)

def quicUdpForEachPacket {σ : Type} (cb : σ → Octets → σ × Bool) (user : σ) (buf : Octets)
    (seg : Int) : σ × Bool :=
  quicUdpForEachPacketFrom cb (if seg > 0 then seg.toNat else buf.length) buf.length user buf

/-- One packet after the other, until one is refused. -/
def eachPacket {σ : Type} (cb : σ → Octets → σ × Bool) : σ → List Octets → σ × Bool
  | user, [] => (user, true)
  | user, pkt :: pkts =>
    match cb user pkt with
    | (user, false) => (user, false)
    | (user, true) => eachPacket cb user pkts

/-! ## What is sent -/

theorem min_take (buf : Octets) (gso : Nat) :
    buf.take (if buf.length < gso then buf.length else gso) = buf.take gso ∧
      buf.drop (if buf.length < gso then buf.length else gso) = buf.drop gso := by
  by_cases h_short : buf.length < gso
  · have h_le : buf.length ≤ gso := by omega
    rw [if_pos h_short, List.take_length, List.drop_length, List.take_of_length_le h_le,
      List.drop_of_length_le h_le]
    exact ⟨rfl, rfl⟩
  · rw [if_neg h_short]
    exact ⟨rfl, rfl⟩

/-- When all the calls went well, the pieces of the buffer are on the wire. -/
theorem sendPerDatagramFrom_wire {one : Nat → SendRes} {gso fuel i : Nat} {buf : Octets}
    {wire : List Octets} (h_rc : (sendPerDatagramFrom one gso fuel i buf wire).rc = 0) :
    (sendPerDatagramFrom one gso fuel i buf wire).wire = wire ++ cutFrom gso fuel buf := by
  induction fuel generalizing i buf wire with
  | zero => exact (List.append_nil wire).symm
  | succ fuel ih =>
    unfold sendPerDatagramFrom at h_rc ⊢
    by_cases h_none : buf.length = 0
    · obtain rfl := List.length_eq_zero_iff.mp h_none
      exact (List.append_nil wire).symm
    · have h_some : buf ≠ [] := by
        rintro rfl
        exact h_none rfl
      obtain ⟨h_take, h_drop⟩ := min_take buf gso
      rw [if_neg h_none] at h_rc ⊢
      dsimp only at h_rc ⊢
      rw [h_take, h_drop] at h_rc ⊢
      cases h_one : one i with
      | again =>
        rw [h_one] at h_rc
        dsimp only at h_rc
        omega
      | error =>
        rw [h_one] at h_rc
        dsimp only at h_rc
        omega
      | sent =>
        rw [h_one] at h_rc
        dsimp only at h_rc ⊢
        rw [ih h_rc, cutFrom_succ h_some, List.append_assoc]
        rfl

theorem sendPerDatagramFrom_quiet {one : Nat → SendRes} (h_one : ∀ i, one i = .sent)
    (gso fuel i : Nat) (buf : Octets) (wire : List Octets) :
    (sendPerDatagramFrom one gso fuel i buf wire).rc = 0 := by
  induction fuel generalizing i buf wire with
  | zero => rfl
  | succ fuel ih =>
    unfold sendPerDatagramFrom
    by_cases h_none : buf.length = 0
    · rw [if_pos h_none]
    · rw [if_neg h_none, h_one i]
      exact ih _ _ _

/-- On either path: what has been sent is the buffer, cut into segments. -/
theorem sendBatch_wire {env : SendEnv} {useGso : Bool} {buf : Octets} {gsoSize : Nat}
    (h_pos : buf ≠ [] → 0 < gsoSize) (h_max : gsoSize ≤ quicMaxUdp)
    (h_rc : (sendBatch env useGso buf gsoSize).2.rc = 0) :
    (sendBatch env useGso buf gsoSize).2.wire = cut gsoSize buf := by
  have h_u16 : gsoSize % 2 ^ 16 = gsoSize := Nat.mod_eq_of_lt (by unfold quicMaxUdp at h_max; omega)
  have h_each : gsoSize ≠ 0 → (sendPerDatagram env.one buf gsoSize).rc = 0 →
      (sendPerDatagram env.one buf gsoSize).wire = cut gsoSize buf := by
    intro h_gso h_each
    unfold sendPerDatagram at h_each ⊢
    rw [if_neg h_gso] at h_each ⊢
    exact sendPerDatagramFrom_wire h_each
  unfold sendBatch at h_rc ⊢
  by_cases h_none : buf.length = 0
  · obtain rfl := List.length_eq_zero_iff.mp h_none
    rfl
  · have h_gso : gsoSize ≠ 0 := by
      have h_gso := h_pos fun h_nil => h_none (congrArg List.length h_nil)
      omega
    rw [if_neg h_none] at h_rc ⊢
    by_cases h_train : useGso = true ∧ gsoSize ≠ 0 ∧ buf.length > gsoSize
    · rw [if_pos h_train] at h_rc ⊢
      cases h_offload : env.offload with
      | sent =>
        show cut (gsoSize % 2 ^ 16) buf = _
        rw [h_u16]
      | again =>
        rw [h_offload] at h_rc
        dsimp only at h_rc
        omega
      | error =>
        rw [h_offload] at h_rc
        exact h_each h_gso h_rc
    · rw [if_neg h_train] at h_rc ⊢
      exact h_each h_gso h_rc

theorem sendBatch_quiet {env : SendEnv} (h : env.Quiet) (useGso : Bool) (buf : Octets)
    (gsoSize : Nat) : (sendBatch env useGso buf gsoSize).2.rc = 0 := by
  have h_each : (sendPerDatagram env.one buf gsoSize).rc = 0 :=
    sendPerDatagramFrom_quiet h.2 _ _ _ _ _
  unfold sendBatch
  by_cases h_none : buf.length = 0
  · rw [if_pos h_none]
  · rw [if_neg h_none]
    by_cases h_train : useGso = true ∧ gsoSize ≠ 0 ∧ buf.length > gsoSize
    · rw [if_pos h_train]
      cases h_offload : env.offload with
      | sent => rfl
      | again => exact absurd h_offload h.1
      | error => exact h_each
    · rw [if_neg h_train]
      exact h_each

/-! ## What a batch holds -/

/-- The packets since the last flush.  They are of one length, for a shorter one is flushed. -/
structure QuicTxBatch.Holds (b : QuicTxBatch) (held : List Octets) : Prop where
  buf : b.buf = held.flatten
  count : b.pktCount = held.length
  full : ∀ p ∈ held, p.length = b.gsoSize
  pos : held ≠ [] → 0 < b.gsoSize
  max : b.gsoSize ≤ quicMaxUdp
  room : held.length < quicTxMaxPkts

theorem holds_empty (useGso : Bool) : QuicTxBatch.Holds ⟨useGso, 0, 0, []⟩ [] where
  buf := rfl
  count := rfl
  full p h_p := absurd h_p List.not_mem_nil
  pos h_some := absurd rfl h_some
  max := Nat.zero_le _
  room := by decide

/-- A flush that went well leaves an empty batch. -/
theorem flush_batch {env : SendEnv} {b : QuicTxBatch}
    (h_rc : (quicTxBatchFlush env b).2.rc = 0) : (quicTxBatchFlush env b).1.Holds [] := by
  unfold quicTxBatchFlush at h_rc ⊢
  generalize sendBatch env b.useGso b.buf b.gsoSize = res at h_rc ⊢
  rcases res with ⟨useGso, out⟩
  dsimp only at h_rc ⊢
  by_cases h_out : out.rc = 0
  · rw [if_pos h_out]
    exact holds_empty useGso
  · rw [if_neg h_out] at h_rc
    exact absurd h_rc h_out

theorem flush_out (env : SendEnv) (b : QuicTxBatch) :
    (quicTxBatchFlush env b).2 = (sendBatch env b.useGso b.buf b.gsoSize).2 := by
  unfold quicTxBatchFlush
  rcases sendBatch env b.useGso b.buf b.gsoSize with ⟨useGso, out⟩
  dsimp only
  by_cases h_out : out.rc = 0
  · rw [if_pos h_out]
  · rw [if_neg h_out]

namespace QuicTxBatch.Holds

variable {b : QuicTxBatch} {held : List Octets}

theorem length_buf (h : b.Holds held) : b.buf.length = held.length * b.gsoSize := by
  rw [h.buf, List.length_flatten, List.map_congr_left h.full, List.map_const',
    List.sum_replicate_nat]

theorem flush (h : b.Holds held) {env : SendEnv} (h_rc : (quicTxBatchFlush env b).2.rc = 0) :
    (quicTxBatchFlush env b).2.wire = held := by
  rw [flush_out] at h_rc ⊢
  have h_pos : b.buf ≠ [] → 0 < b.gsoSize := by
    intro h_some
    apply h.pos
    rintro rfl
    exact h_some h.buf
  rw [sendBatch_wire h_pos h.max h_rc, h.buf]
  by_cases h_none : held = []
  · rw [h_none]
    rfl
  · exact cut_flatten (h.pos h_none) h.full

/-- There is room for one more packet, or there is none and the batch is flushed. -/
theorem reserve (h : b.Holds held) {env : SendEnv}
    (h_rc : (quicTxBatchReserve env b).2.rc = 0) :
    ∃ kept, (quicTxBatchReserve env b).1.Holds kept ∧
      (quicTxBatchReserve env b).2.wire ++ kept = held ∧
      (quicTxBatchReserve env b).1.buf.length + quicMaxUdp ≤ quicTxBatch := by
  unfold quicTxBatchReserve at h_rc ⊢
  by_cases h_full : quicTxBatch - b.buf.length < quicMaxUdp
  · rw [if_pos h_full] at h_rc ⊢
    have h_empty := flush_batch h_rc
    refine ⟨[], h_empty, ?_, ?_⟩
    · rw [List.append_nil, h.flush h_rc]
    · rw [h_empty.length_buf, List.length_nil, Nat.zero_mul]
      decide
  · rw [if_neg h_full]
    refine ⟨held, h, List.nil_append held, ?_⟩
    have h_pos : 0 < quicMaxUdp := by decide
    dsimp only
    omega

theorem limit_le (h : b.Holds held) : quicTxBatchLimit b ≤ quicMaxUdp := by
  unfold quicTxBatchLimit
  by_cases h_none : b.pktCount = 0
  · rw [if_pos h_none]
  · rw [if_neg h_none]
    exact h.max

/-- A packet joins the others, or ends the train. -/
theorem commit (h : b.Holds held) {env : SendEnv} {pkt : Octets} (h_pos : pkt ≠ [])
    (h_limit : pkt.length ≤ quicTxBatchLimit b)
    (h_rc : (quicTxBatchCommit env b pkt).2.rc = 0) :
    ∃ kept, (quicTxBatchCommit env b pkt).1.Holds kept ∧
      (quicTxBatchCommit env b pkt).2.wire ++ kept = held ++ [pkt] := by
  have h_len : 0 < pkt.length := List.length_pos_iff.mpr h_pos
  have h_max := Nat.le_trans h_limit h.limit_le
  have h_count := h.count
  unfold quicTxBatchCommit at h_rc ⊢
  dsimp only at h_rc ⊢
  unfold quicTxBatchLimit at h_limit
  generalize h_gso : (if b.pktCount = 0 then pkt.length else b.gsoSize) = gso at h_rc ⊢
  -- The first packet says how long the others are.
  have h_size : pkt.length ≤ gso ∧ gso ≤ quicMaxUdp ∧ ∀ p ∈ held, p.length = gso := by
    by_cases h_first : b.pktCount = 0
    · have h_none : held = [] := List.length_eq_zero_iff.mp (h_count.symm.trans h_first)
      rw [if_pos h_first] at h_gso
      refine ⟨Nat.le_of_eq h_gso, h_gso ▸ h_max, fun p h_p => ?_⟩
      rw [h_none] at h_p
      exact absurd h_p List.not_mem_nil
    · rw [if_neg h_first] at h_gso h_limit
      rw [← h_gso]
      exact ⟨h_limit, h.max, h.full⟩
  obtain ⟨h_le, h_gso_max, h_full⟩ := h_size
  by_cases h_end : pkt.length < gso ∨ b.pktCount + 1 ≥ quicTxMaxPkts
  · rw [if_pos h_end] at h_rc ⊢
    refine ⟨[], flush_batch h_rc, ?_⟩
    rw [flush_out] at h_rc ⊢
    have h_gso_pos : b.buf ++ pkt ≠ [] → 0 < gso := fun _ => Nat.lt_of_lt_of_le h_len h_le
    rw [sendBatch_wire h_gso_pos h_gso_max h_rc, h.buf, cut_train h_full h_pos h_le,
      List.append_nil]
  · rw [if_neg h_end]
    rw [not_or, Nat.not_lt, ge_iff_le, Nat.not_le] at h_end
    have h_same : pkt.length = gso := Nat.le_antisymm h_le h_end.1
    refine ⟨held ++ [pkt], ⟨?_, ?_, ?_,
      fun _ => Nat.lt_of_lt_of_le h_len h_le, h_gso_max, ?_⟩, List.nil_append _⟩
    · rw [List.flatten_append, List.flatten_singleton, h.buf]
    · rw [List.length_append, List.length_singleton, h_count]
    · intro p h_p
      rcases List.mem_append.mp h_p with h_p | h_p
      · exact h_full p h_p
      · rw [List.mem_singleton.mp h_p]
        exact h_same
    · rw [List.length_append, List.length_singleton, ← h_count]
      exact h_end.2

end QuicTxBatch.Holds

theorem flush_quiet {env : SendEnv} (h : env.Quiet) (b : QuicTxBatch) :
    (quicTxBatchFlush env b).2.rc = 0 := by
  rw [flush_out]
  exact sendBatch_quiet h _ _ _

theorem reserve_quiet {env : SendEnv} (h : env.Quiet) (b : QuicTxBatch) :
    (quicTxBatchReserve env b).2.rc = 0 := by
  unfold quicTxBatchReserve
  by_cases h_full : quicTxBatch - b.buf.length < quicMaxUdp
  · rw [if_pos h_full]
    exact flush_quiet h b
  · rw [if_neg h_full]

theorem commit_quiet {env : SendEnv} (h : env.Quiet) (b : QuicTxBatch) (pkt : Octets) :
    (quicTxBatchCommit env b pkt).2.rc = 0 := by
  unfold quicTxBatchCommit
  dsimp only
  generalize (if b.pktCount = 0 then pkt.length else b.gsoSize) = gso
  by_cases h_end : pkt.length < gso ∨ b.pktCount + 1 ≥ quicTxMaxPkts
  · rw [if_pos h_end]
    exact flush_quiet h _
  · rw [if_neg h_end]

/-! ## Runs of a producer -/

namespace TxSide

/-- As long as nothing went wrong, what is on the wire and what the batch holds are the packets
    so far. -/
def Apart (as : List TxAct) (w : TxSide) : Prop :=
  w.rc = 0 → ∃ held, w.batch.Holds held ∧ w.wire ++ held = packets as

theorem packets_append (as bs : List TxAct) : packets (as ++ bs) = packets as ++ packets bs :=
  List.filterMap_append

/-- What a step does: it flushes, it fails to make room, or it takes a packet. -/
theorem step_cases {w w' : TxSide} {a : TxAct} (h : w.step a = some w') :
    w.rc = 0 ∧
      ((∃ env, a = .flush env ∧ w' = w.after (quicTxBatchFlush env w.batch)) ∨
        ∃ pkt reserve commit, a = .packet pkt reserve commit ∧
          ((w.after (quicTxBatchReserve reserve w.batch)).rc ≠ 0 ∧
              w' = w.after (quicTxBatchReserve reserve w.batch) ∨
            (w.after (quicTxBatchReserve reserve w.batch)).rc = 0 ∧ pkt ≠ [] ∧
              pkt.length ≤ quicTxBatchLimit (quicTxBatchReserve reserve w.batch).1 ∧
              w' = (w.after (quicTxBatchReserve reserve w.batch)).after
                (quicTxBatchCommit commit (quicTxBatchReserve reserve w.batch).1 pkt))) := by
  by_cases h_rc : w.rc = 0
  · refine ⟨h_rc, ?_⟩
    have h_go : ¬ w.rc ≠ 0 := not_not_intro h_rc
    cases a with
    | flush env =>
      rw [step, if_neg h_go] at h
      exact Or.inl ⟨env, rfl, (Option.some.inj h).symm⟩
    | packet pkt reserve commit =>
      rw [step, if_neg h_go] at h
      dsimp only at h
      refine Or.inr ⟨pkt, reserve, commit, rfl, ?_⟩
      by_cases h_room : (w.after (quicTxBatchReserve reserve w.batch)).rc ≠ 0
      · rw [if_pos h_room] at h
        exact Or.inl ⟨h_room, (Option.some.inj h).symm⟩
      · rw [if_neg h_room] at h
        by_cases h_pkt : pkt ≠ [] ∧
            pkt.length ≤ quicTxBatchLimit (w.after (quicTxBatchReserve reserve w.batch)).batch
        · rw [if_pos h_pkt] at h
          exact Or.inr ⟨not_not.mp h_room, h_pkt.1, h_pkt.2, (Option.some.inj h).symm⟩
        · rw [if_neg h_pkt] at h
          cases h
  · cases a with
    | flush env =>
      rw [step, if_pos h_rc] at h
      cases h
    | packet pkt reserve commit =>
      rw [step, if_pos h_rc] at h
      cases h

theorem Apart.step {as : List TxAct} {w w' : TxSide} {a : TxAct} (h : Apart as w)
    (h_step : w.step a = some w') : Apart (as ++ [a]) w' := by
  intro h_rc'
  obtain ⟨h_rc, ⟨env, rfl, rfl⟩ | ⟨pkt, reserve, commit, rfl, h_packet⟩⟩ := step_cases h_step
  · obtain ⟨held, h_held, h_wire⟩ := h h_rc
    refine ⟨[], flush_batch h_rc', ?_⟩
    show w.wire ++ (quicTxBatchFlush env w.batch).2.wire ++ [] = _
    rw [h_held.flush h_rc', List.append_nil, h_wire, packets_append]
    exact (List.append_nil _).symm
  · obtain ⟨held, h_held, h_wire⟩ := h h_rc
    rcases h_packet with ⟨h_room, rfl⟩ | ⟨h_room, h_pos, h_limit, rfl⟩
    · exact absurd h_rc' h_room
    · obtain ⟨kept, h_kept, h_reserved, -⟩ := h_held.reserve h_room
      obtain ⟨kept', h_kept', h_committed⟩ := h_kept.commit h_pos h_limit h_rc'
      refine ⟨kept', h_kept', ?_⟩
      show w.wire ++ (quicTxBatchReserve reserve w.batch).2.wire ++
        (quicTxBatchCommit commit (quicTxBatchReserve reserve w.batch).1 pkt).2.wire ++ kept' = _
      rw [List.append_assoc, h_committed, ← List.append_assoc, List.append_assoc w.wire,
        h_reserved, h_wire, packets_append]
      rfl

theorem apart_run {useGso : Bool} {as : List TxAct} {w : TxSide}
    (h_run : Lts.run step (init useGso) as = some w) : Apart as w := by
  have h_init : Apart [] (init useGso) := fun _ => ⟨[], holds_empty useGso, rfl⟩
  exact Lts.run_invariant_history (fun _ _ _ _ h h_step => Apart.step h h_step) h_init h_run

/-- Sends that go well stop nobody. -/
theorem step_quiet {w w' : TxSide} {a : TxAct} (h_quiet : a.Quiet) (h_step : w.step a = some w') :
    w'.rc = 0 := by
  obtain ⟨-, ⟨env, rfl, rfl⟩ | ⟨pkt, reserve, commit, rfl, h_packet⟩⟩ := step_cases h_step
  · exact flush_quiet h_quiet _
  · rcases h_packet with ⟨h_room, -⟩ | ⟨-, -, -, rfl⟩
    · exact absurd (reserve_quiet h_quiet.1 _) h_room
    · exact commit_quiet h_quiet.2 _ _

theorem quiet_run {useGso : Bool} {as : List TxAct} {w : TxSide} (h_quiet : ∀ a ∈ as, a.Quiet)
    (h_run : Lts.run step (init useGso) as = some w) : w.rc = 0 := by
  have h_inv : (∀ a ∈ as, a.Quiet) → w.rc = 0 := by
    refine Lts.run_invariant_history (?_ : ∀ as w a w', ((∀ b ∈ as, b.Quiet) → w.rc = 0) →
      step w a = some w' → (∀ b ∈ as ++ [a], b.Quiet) → w'.rc = 0) (fun _ => rfl) h_run
    intro as w a w' _ h_step h_all
    exact step_quiet (h_all a (List.mem_append_right as List.mem_cons_self)) h_step
  exact h_inv h_quiet

end TxSide

/-! ## What is received -/

theorem quicUdpForEachPacketFrom_eq {σ : Type} (cb : σ → Octets → σ × Bool) (segLen fuel : Nat)
    (user : σ) (buf : Octets) :
    quicUdpForEachPacketFrom cb segLen fuel user buf =
      eachPacket cb user (cutFrom segLen fuel buf) := by
  induction fuel generalizing user buf with
  | zero => rfl
  | succ fuel ih =>
    unfold quicUdpForEachPacketFrom
    by_cases h_none : buf.length = 0
    · obtain rfl := List.length_eq_zero_iff.mp h_none
      rfl
    · have h_some : buf ≠ [] := by
        rintro rfl
        exact h_none rfl
      rw [if_neg h_none, cutFrom_succ h_some]
      dsimp only
      rw [(min_take buf _).1]
      unfold eachPacket
      rcases cb user (buf.take segLen) with ⟨user', taken⟩
      cases taken with
      | false => rfl
      | true => exact ih user' (buf.drop segLen)

/-- A read that is a train of packets of `n` octets each, the last of which may be shorter. -/
theorem quicUdpForEachPacket_train {σ : Type} (cb : σ → Octets → σ × Bool) (user : σ) {n : Nat}
    {full : List Octets} {last : Octets} (h_full : ∀ p ∈ full, p.length = n)
    (h_pos : last ≠ []) (h_last : last.length ≤ n) :
    quicUdpForEachPacket cb user (full.flatten ++ last) n = eachPacket cb user (full ++ [last]) := by
  have h_len : 0 < last.length := List.length_pos_iff.mpr h_pos
  have h_seg : (n : Int) > 0 := by omega
  unfold quicUdpForEachPacket
  rw [if_pos h_seg, Int.toNat_natCast, quicUdpForEachPacketFrom_eq]
  exact congrArg (eachPacket cb user) (cut_train h_full h_pos h_last)

/-- **Batches are not seen on the wire.**  Any packets that are not empty and stay within the
    limit, ended by a flush, come out as these packets in this order, whichever way the kernel
    took each batch; the octets of a packet have always room in the buffer; and a train that is
    received in one read is cut into the packets it was made of. -/
theorem quicUdp_transparent :
    (∀ (useGso : Bool) (as : List TxAct) (env : SendEnv) (w : TxSide),
      (∀ a ∈ as ++ [.flush env], a.Quiet) →
      Lts.run TxSide.step (TxSide.init useGso) (as ++ [.flush env]) = some w →
      w.rc = 0 ∧ w.wire = packets as) ∧
    (∀ (useGso : Bool) (as : List TxAct) (w : TxSide),
      Lts.run TxSide.step (TxSide.init useGso) as = some w → w.rc = 0 →
      ∀ env, (quicTxBatchReserve env w.batch).2.rc = 0 →
        (quicTxBatchReserve env w.batch).1.buf.length +
          quicTxBatchLimit (quicTxBatchReserve env w.batch).1 ≤ quicTxBatch) ∧
    ∀ (σ : Type) (cb : σ → Octets → σ × Bool) (user : σ) (n : Nat) (full : List Octets)
      (last : Octets), (∀ p ∈ full, p.length = n) → last ≠ [] → last.length ≤ n →
      quicUdpForEachPacket cb user (full.flatten ++ last) n =
        eachPacket cb user (full ++ [last]) := by
  refine ⟨fun useGso as env w h_quiet h_run => ?_, fun useGso as w h_run h_rc env h_room => ?_,
    fun σ cb user n full last h_full h_pos h_last =>
      quicUdpForEachPacket_train cb user h_full h_pos h_last⟩
  · have h_rc := TxSide.quiet_run h_quiet h_run
    refine ⟨h_rc, ?_⟩
    obtain ⟨m, h_as, h_flush⟩ := Lts.run_snoc.mp h_run
    obtain ⟨h_up, ⟨env', h_eq, rfl⟩ | ⟨pkt, reserve, commit, h_eq, -⟩⟩ :=
      TxSide.step_cases h_flush
    · obtain rfl := TxAct.flush.inj h_eq
      obtain ⟨held, h_held, h_wire⟩ := TxSide.apart_run h_as h_up
      rw [← h_wire, ← h_held.flush h_rc]
      rfl
    · cases h_eq
  · obtain ⟨held, h_held, -⟩ := TxSide.apart_run h_run h_rc
    obtain ⟨kept, h_kept, -, h_fits⟩ := h_held.reserve h_room
    have h_limit := h_kept.limit_le
    omega

/-- A kernel that takes UDP_SEGMENT, and one that does not. -/
def willing : SendEnv := ⟨.sent, fun _ => .sent⟩
def unwilling : SendEnv := ⟨.error, fun _ => .sent⟩

/-- Two trains, the second of which the kernel does not take. -/
theorem quicUdp_transparent_two :
    ∃ w, Lts.run TxSide.step (TxSide.init true)
        ([.packet [1, 2] willing willing, .packet [3] willing willing,
          .packet [4, 5] willing willing, .packet [6, 7] willing willing] ++
            [.flush unwilling]) = some w ∧
      w.batch.useGso = false ∧ w.wire = [[1, 2], [3], [4, 5], [6, 7]] := by
  have h_some : (Lts.run TxSide.step (TxSide.init true)
      ([.packet [1, 2] willing willing, .packet [3] willing willing,
        .packet [4, 5] willing willing, .packet [6, 7] willing willing] ++
          [.flush unwilling])).map (fun w => w.batch.useGso) = some false := by decide +kernel
  obtain ⟨w, h_run, h_gso⟩ := Option.map_eq_some_iff.mp h_some
  have h_willing : willing.Quiet := ⟨by decide, fun _ => rfl⟩
  have h_unwilling : unwilling.Quiet := ⟨by decide, fun _ => rfl⟩
  have h_quiet : ∀ a ∈ [.packet [1, 2] willing willing, .packet [3] willing willing,
      .packet [4, 5] willing willing, .packet [6, 7] willing willing] ++ [.flush unwilling],
      TxAct.Quiet a := by
    simp [TxAct.Quiet, h_willing, h_unwilling]
  exact ⟨w, h_run, h_gso, (quicUdp_transparent.1 true _ unwilling w h_quiet h_run).2⟩

end IonContrib.Quic
