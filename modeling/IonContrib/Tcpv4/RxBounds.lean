/-
  IonContrib.Tcpv4.RxBounds

  What a peer can make of reception, whatever it sends.

  `Receives` is what holds in every state of every session: the reassembled
  transfer stays within the Transfer MRU and its buffer, no size that is
  computed on the way is too large for an `int`, what is acknowledged is what
  has been received, and a transfer that is not acceptable is refused once and
  drained, and BP gets nothing of it.

  A segment that is not admissible belongs to no transfer.  It ends the session
  with a SESS_TERM or a MSG_REJECT, without an XFER_REFUSE, also where it would
  begin a transfer that announces too much (`oversized_not_refused`).
-/
import IonContrib.Tcpv4.RxTracks

namespace IonContrib.Tcpv4

/-! ## Sizes -/

/-- `TCPV4CLA_BUFSZ`. -/
def tcpv4claBufsz : Nat := 256 * 1024

/-- The MRUs that `parseCliArgs` admits. -/
structure RxCfg.Admitted (cfg : RxCfg) : Prop where
  segment : cfg.segmentMru ≤ tcpv4claBufsz
  transfer : cfg.transferMru ≤ tcpv4claBufsz

/-- The sizes that `rxReserve` computes. -/
def rxReserveSizes (rx : RxSide) (want : Nat) : List Nat :=
  want ::
    if want ≤ rx.rxBundle.length then []
    else doublings want (if rx.rxBundle.length = 0 then 8192 else rx.rxBundle.length) want

/-- The sizes that the first part of `handleXferSegment` computes: the data length as an
    `int`, the buffer for the announced length, the length of the transfer so far. -/
def headerSizes (cfg : RxCfg) (rx : RxSide) (seg : XferSegment) : List Nat :=
  if seg.dataLength > cfg.segmentMru then []
  else
    let rx := if seg.isStart then rx.begin seg else rx
    let announced :=
      match tcpv4MsgFindXferLength seg.xferExt with
      | some total => if total > cfg.transferMru then [] else rxReserveSizes rx total
      | none => []
    seg.dataLength :: (if seg.isStart then announced else []) ++ [rx.rxLen + seg.dataLength]

/-- The sizes that the next step of the receiver thread computes. -/
def Conn.rxSizes (cfg : RxCfg) (c : Conn) : List Nat :=
  match c.rxPc with
  | .body type =>
    if type = tmsgXferSegment then
      match recvXferSegmentHdr segHdrCap c.inOctets with
      | .got seg _ => headerSizes cfg c.rx seg
      | _ => []
    else []
  | .payload seg =>
    if c.rx.rxRefused then [] else rxReserveSizes c.rx (c.rx.rxLen + seg.dataLength)
  | _ => []

theorem rxReserveSizes_le {cfg : RxCfg} {rx : RxSide} {want n : Nat} (h_rx : rx.Bounded cfg)
    (h_want : want ≤ cfg.transferMru) (h : n ∈ rxReserveSizes rx want) : n ≤ capMax cfg := by
  have h_cap := h_rx.cap
  unfold capMax at h_cap ⊢
  rw [rxReserveSizes] at h
  rcases List.mem_cons.mp h with rfl | h_more
  · omega
  · split at h_more
    · cases h_more
    · have h_le := le_of_mem_doublings h_more
      split at h_le
      · omega
      · omega

theorem headerSizes_le {cfg : RxCfg} {rx : RxSide} {seg : XferSegment} {n : Nat}
    (h_rx : rx.Bounded cfg) (h : n ∈ headerSizes cfg rx seg) :
    n ≤ capMax cfg + cfg.segmentMru := by
  unfold headerSizes at h
  split at h
  · cases h
  rename_i h_long
  have h_begin : (rx.begin seg).Bounded cfg := ⟨Nat.zero_le _, Nat.zero_le _, h_rx.cap⟩
  have h_begun : (if seg.isStart then rx.begin seg else rx).Bounded cfg := by
    split
    · exact h_begin
    · exact h_rx
  have h_mru := h_begun.mru
  have h_max : cfg.transferMru ≤ capMax cfg := by
    unfold capMax
    omega
  rcases List.mem_append.mp h with h | h
  · rcases List.mem_cons.mp h with rfl | h
    · omega
    · split at h
      · split at h
        · split at h
          · cases h
          · rename_i h_total
            have h_le := rxReserveSizes_le h_begin (Nat.not_lt.mp h_total) h
            omega
        · cases h
      · cases h
  · obtain rfl := List.mem_singleton.mp h
    omega

/-- No size overflows an `int`. -/
theorem rxSizes_lt {cfg : RxCfg} {c : Conn} {ts : Transfers} (h : Tracks cfg c ts)
    (h_cfg : cfg.Admitted) {n : Nat} (h_n : n ∈ c.rxSizes cfg) : n < 2 ^ 31 := by
  have h_max : capMax cfg ≤ 524288 := by
    have h_transfer := h_cfg.transfer
    unfold tcpv4claBufsz at h_transfer
    unfold capMax
    omega
  have h_segment := h_cfg.segment
  unfold tcpv4claBufsz at h_segment
  unfold Conn.rxSizes at h_n
  split at h_n
  · split at h_n
    · split at h_n
      · have h_le := headerSizes_le h.rx h_n
        omega
      · cases h_n
    · cases h_n
  · rename_i seg h_pc
    split at h_n
    · cases h_n
    · rename_i h_ref
      have h_le := rxReserveSizes_le h.rx (h.want_le h_pc (by simpa using h_ref)) h_n
      omega
  · cases h_n

/-! ## Every state of a session -/

/-- The session is over for reception: the receiver thread has given up, delivery has stopped
    or failed, or a write has failed. -/
def Conn.rxOver (c : Conn) : Prop := c.rxShut ∨ c.broken = true

structure Receives (cfg : SessCfg) (c : Conn) (ts : Transfers) : Prop where
  /-- The reassembled length is within the Transfer MRU and the buffer. -/
  bounded : c.rx.rxLen ≤ cfg.rx.transferMru ∧ c.rx.rxLen ≤ c.rx.rxBundle.length
  sizes : ∀ n ∈ c.rxSizes cfg.rx, n < 2 ^ 31
  /-- The segments of acceptable transfers are acknowledged in the order in which they came. -/
  acks : c.acked <+: ts.acks cfg.rx
  /-- An acknowledgement names a transfer, and says how much of it came with the segment. -/
  acked : ∀ m ∈ c.acked, ∃ t ∈ ts, m.transferId = t.start.transferId ∧
    ∃ segs s, segs ++ [s] <+: t.segs ∧ m.flags = s.1.flags ∧
      m.ackLength = ((segs ++ [s]).map Prod.snd).flatten.length
  /-- A transfer that is not acceptable is refused, and no other, and none twice ... -/
  refusals : c.refused <+: ts.refusals cfg.rx
  /-- ... and the refusal has gone out by the time the segment's data are read. -/
  refused : ¬ c.rxOver → c.rxPc.refusalDue = [] → c.refused = ts.refusals cfg.rx
  /-- The data of such a transfer are read and thrown away. -/
  drained : ∀ {seg : XferSegment} {o : Outcome} {d : Conn}, c.rxPc = .payload seg →
    (∃ init t, ts = init ++ [t] ∧ t.fits cfg.rx = false) → c.recvStep cfg o = some d →
      d.rxPc = .failing ∨ ∃ data, data.length = seg.dataLength ∧ c.inOctets = data ++ d.inOctets ∧
        d.rx.rxBundle = c.rx.rxBundle ∧ d.rx.rxLen = c.rx.rxLen ∧ d.log = c.log
  /-- BP gets whole transfers, all of them acceptable, in the order in which they came. -/
  delivered : c.delivered <+: ts.bundles cfg.rx
  /-- A segment out of place ends the session. -/
  stray : ∀ {seg : XferSegment} {rest : Octets} {o : Outcome} {d : Conn},
    c.rxPc = .body tmsgXferSegment → recvXferSegmentHdr segHdrCap c.inOctets = .got seg rest →
      ¬ ts.Admissible cfg.rx seg → c.recvStep cfg o = some d → d.rxPc.givesUp = true ∧
        d.rxPc.quitting = true

variable {cfg : SessCfg} {c d : Conn} {ts : Transfers}

open Conn

theorem Tracks.acked (h : Tracks cfg.rx c ts) {m : XferAck} (h_m : m ∈ c.acked) :
    ∃ t ∈ ts, m.transferId = t.start.transferId ∧
      ∃ segs s, segs ++ [s] <+: t.segs ∧ m.flags = s.1.flags ∧
        m.ackLength = ((segs ++ [s]).map Prod.snd).flatten.length := by
  obtain ⟨t, h_t, h_ack⟩ := List.mem_flatMap.mp (h.acks.out_prefix.subset h_m)
  obtain ⟨before, s, after, h_segs, rfl⟩ := Incoming.mem_acksFrom h_ack
  have h_s : s ∈ t.segs := by
    rw [h_segs]
    exact List.mem_append_right _ List.mem_cons_self
  refine ⟨t, h_t, (h.wellFormed t h_t s h_s).1, before, s, ⟨after, ?_⟩, rfl, Nat.zero_add _⟩
  rw [h_segs, List.append_assoc]
  rfl

theorem Tracks.refused (h : Tracks cfg.rx c ts) (h_on : ¬ c.rxOver)
    (h_due : c.rxPc.refusalDue = []) : c.refused = ts.refusals cfg.rx := by
  have h_all := h.refusals.out_all h_on not_false
  rwa [h_due, List.append_nil, List.append_nil] at h_all

theorem Tracks.drained (h : Tracks cfg.rx c ts) {seg : XferSegment} {o : Outcome}
    (h_pc : c.rxPc = .payload seg) (h_unfit : ∃ init t, ts = init ++ [t] ∧ t.fits cfg.rx = false)
    (h_step : c.recvStep cfg o = some d) :
    d.rxPc = .failing ∨ ∃ data, data.length = seg.dataLength ∧ c.inOctets = data ++ d.inOctets ∧
      d.rx.rxBundle = c.rx.rxBundle ∧ d.rx.rxLen = c.rx.rxLen ∧ d.log = c.log := by
  have h_refused : c.rx.rxRefused = true := by
    have h_fit := h.fitting
    rw [h_pc] at h_fit
    obtain ⟨init, t, h_ts, h_t⟩ := h_unfit
    obtain ⟨init', t', h_ts', -, -, h_fol⟩ := h_fit
    obtain ⟨-, h_eq⟩ := List.append_inj' (h_ts.symm.trans h_ts') rfl
    obtain rfl := List.singleton_inj.mp h_eq
    rw [h_fol.refused, h_t]
    rfl
  have h_take : ∀ data rest, data.length = seg.dataLength → c.inOctets = data ++ rest →
      ∃ data', data'.length = seg.dataLength ∧
        c.inOctets = data' ++ ({ c with inOctets := rest }.finishSegment seg).inOctets ∧
        ({ c with inOctets := rest }.finishSegment seg).rx.rxBundle = c.rx.rxBundle ∧
        ({ c with inOctets := rest }.finishSegment seg).rx.rxLen = c.rx.rxLen ∧
        ({ c with inOctets := rest }.finishSegment seg).log = c.log := by
    intro data rest h_len h_in
    rcases finishSegment_cases { c with inOctets := rest } seg with
      ⟨-, h_eq⟩ | ⟨h_r, -⟩ | ⟨h_r, -⟩
    · rw [h_eq]
      refine ⟨data, h_len, h_in, ?_, ?_, rfl⟩
      · show RxSide.rxBundle (if seg.isEnd then _ else _) = _
        split <;> rfl
      · show RxSide.rxLen (if seg.isEnd then _ else _) = _
        split <;> rfl
    · rw [show c.rx.rxRefused = false from h_r] at h_refused
      cases h_refused
    · rw [show c.rx.rxRefused = false from h_r] at h_refused
      cases h_refused
  have h_payload : c.takePayload seg o = some d := by simpa only [recvStep, h_pc] using h_step
  rw [takePayload, if_pos h_refused, readData] at h_payload
  by_cases h_zero : seg.dataLength = 0
  · rw [if_pos h_zero] at h_payload
    obtain rfl := Option.some.inj h_payload
    exact Or.inr (h_take [] c.inOctets h_zero.symm rfl)
  · rw [if_neg h_zero] at h_payload
    rcases Conn.reading_cases h_payload with rfl | ⟨data, rest, h_in, rfl⟩
    · exact Or.inl rfl
    · obtain ⟨h_len, h_in⟩ := Recv.take_eq_got h_in
      exact Or.inr (h_take data rest h_len h_in)

theorem Tracks.stray (h : Tracks cfg.rx c ts) {seg : XferSegment} {rest : Octets} {o : Outcome}
    (h_pc : c.rxPc = .body tmsgXferSegment)
    (h_in : recvXferSegmentHdr segHdrCap c.inOctets = .got seg rest)
    (h_stray : ¬ ts.Admissible cfg.rx seg) (h_step : c.recvStep cfg o = some d) :
    d.rxPc.givesUp = true ∧ d.rxPc.quitting = true := by
  have h_stand : Standing cfg.rx ts c.rx := by
    have h_fit := h.fitting
    rw [h_pc] at h_fit
    exact h_fit.resolve_left Bool.false_ne_true
  have h_body : c.handleBody cfg tmsgXferSegment o = some d := by
    simpa only [recvStep, h_pc] using h_step
  rw [handleBody, if_pos rfl] at h_body
  rcases Conn.reading_cases h_body with rfl | ⟨seg', rest', h_in', rfl⟩
  · exact ⟨rfl, rfl⟩
  · rw [h_in] at h_in'
    obtain ⟨rfl, rfl⟩ := Recv.got.inj h_in'
    obtain ⟨rx', verdict, h_adm⟩ : ∃ rx' verdict, segmentAdmit cfg.rx (decide (c.state = .ending))
        c.rx seg (decide (o ≠ .noMem)) = (rx', verdict) := ⟨_, _, rfl⟩
    have h_verdict := (segmentAdmit_headRuled h_stand h.rx h_adm).2
    cases h_verdict with
    | fail m h_m h_due =>
      have h_eq : { c with inOctets := rest }.handleSegmentHdr cfg seg o =
          { c with inOctets := rest, rx := rx', rxPc := sayAnyway m (.ret false) } := by
        simp only [handleSegmentHdr, h_adm]
      rw [h_eq]
      exact ⟨rfl, rfl⟩
    | refuse reason h_ok h_within h_ref h_due => exact absurd h_ok h_stray
    | accept h_ok h_within h_due => exact absurd h_ok h_stray

/-- **Reception is bounded**, whatever octets the peer sends and however the threads take
    turns. -/
theorem run_receives {cfg : SessCfg} (h_cfg : cfg.rx.Admitted) {as : List Act} {c : Conn}
    {ts : Transfers} (h_run : Lts.run (observed cfg) (Conn.init, []) as = some (c, ts)) :
    Receives cfg c ts := by
  have h := run_tracks h_run
  exact {
    bounded := ⟨h.rx.mru, h.rx.room⟩
    sizes := fun n h_n => rxSizes_lt h h_cfg h_n
    acks := h.acks.out_prefix
    acked := fun m h_m => h.acked h_m
    refusals := h.refusals.out_prefix
    refused := h.refused
    drained := h.drained
    delivered := h.bundles.out_prefix
    stray := h.stray }

/-! ## Three sessions -/

/-- A segment on the wire, with a Transfer Length item in its START. -/
def segmentOnWire (flags id : UInt8) (total : Option UInt8) (data : Octets) : Octets :=
  tmsgXferSegment :: flags :: [0, 0, 0, 0, 0, 0, 0, id] ++
    (match total with
      | some total => [0, 0, 0, 13, 0, 0, 1, 0, 8, 0, 0, 0, 0, 0, 0, 0, total]
      | none => []) ++
    Octets.beBytes 8 data.length ++ data

/-- A transfer that announces too much is refused and drained, and the next one is taken. -/
def refusedRun : List Act :=
  [.arrive (segmentOnWire 2 1 (some 9) [5, 6] ++ segmentOnWire 1 1 none [7] ++
      segmentOnWire 3 2 (some 2) [8, 9])] ++
    List.replicate 11 (.recv .ok) ++ List.replicate 4 (.dlv .ok)

def smallCfg : SessCfg := ⟨⟨2, 4⟩, ⟨0, 0⟩, 64, 64, 0, 0⟩

theorem run_receives_refused : ∃ c ts,
    Lts.run (observed smallCfg) (Conn.init, []) refusedRun = some (c, ts) ∧
      Receives smallCfg c ts ∧ c.refused = [⟨tmsgRefuseNoResources, 1⟩] ∧
      c.acked = [⟨3, 2, 2⟩] ∧ c.delivered = [[8, 9]] := by
  have h_end : (Lts.run (observed smallCfg) (Conn.init, []) refusedRun).map
      (fun v => (v.1.refused, v.1.acked, v.1.delivered)) =
        some ([⟨tmsgRefuseNoResources, 1⟩], [⟨3, 2, 2⟩], [[8, 9]]) := by decide +kernel
  obtain ⟨⟨c, ts⟩, h_run, h_c⟩ := Option.map_eq_some_iff.mp h_end
  simp only [Prod.mk.injEq] at h_c
  exact ⟨c, ts, h_run, run_receives ⟨by decide, by decide⟩ h_run, h_c⟩

/-- A START that announces too much and is itself longer than the Segment MRU. -/
def oversizedStart : Octets := segmentOnWire 3 1 (some 9) [5, 6, 7]

def oversizedRun : List Act :=
  [.arrive oversizedStart] ++ List.replicate 5 (.recv .ok) ++ [.xmit .ok, .xmit .ok] ++
    [.recv .ok, .recv .ok, .dlv .ok, .recv .ok, .recv .ok]

/-- BP does not take a bundle, and the next transfer announces too much. -/
def unsaidRun : List Act :=
  [.arrive (segmentOnWire 3 1 (some 1) [5] ++ segmentOnWire 3 2 (some 9) [6])] ++
    List.replicate 4 (.recv .ok) ++ [.dlv .ok, .dlv .err, .dlv .ok] ++
    List.replicate 4 (.recv .ok)

/-- A transfer that announces too much is not always refused: the START that is too long for
    the Segment MRU ends the session with a SESS_TERM, and when delivery has failed the
    refusal is not sent. -/
theorem oversized_not_refused :
    (∃ c ts seg rest total,
      Lts.run (observed smallCfg) (Conn.init, []) oversizedRun = some (c, ts) ∧
        recvXferSegmentHdr segHdrCap oversizedStart.tail = .got seg rest ∧ seg.isStart = true ∧
        tcpv4MsgFindXferLength seg.xferExt = some total ∧ total > smallCfg.rx.transferMru ∧
        c.rxPc = .done ∧ c.refused = []) ∧
    ∃ c ts, Lts.run (observed smallCfg) (Conn.init, []) unsaidRun = some (c, ts) ∧
      ts.refusals smallCfg.rx = [⟨tmsgRefuseNoResources, 2⟩] ∧ c.rxPc = .loop ∧
      c.refused = [] := by
  constructor
  · have h_end : (Lts.run (observed smallCfg) (Conn.init, []) oversizedRun).map
        (fun v => (v.1.rxPc, v.1.refused)) = some (.done, []) := by decide +kernel
    obtain ⟨⟨c, ts⟩, h_run, h_c⟩ := Option.map_eq_some_iff.mp h_end
    simp only [Prod.mk.injEq] at h_c
    have h_hdr : recvXferSegmentHdr segHdrCap oversizedStart.tail =
        .got ⟨3, 1, [0, 0, 1, 0, 8, 0, 0, 0, 0, 0, 0, 0, 9], 3⟩ [5, 6, 7] := by decide +kernel
    exact ⟨c, ts, _, _, 9, h_run, h_hdr, by decide, by decide +kernel, by decide, h_c⟩
  · have h_end : (Lts.run (observed smallCfg) (Conn.init, []) unsaidRun).map
        (fun v => (v.2.refusals smallCfg.rx, v.1.rxPc, v.1.refused)) =
          some ([⟨tmsgRefuseNoResources, 2⟩], .loop, []) := by decide +kernel
    obtain ⟨⟨c, ts⟩, h_run, h_c⟩ := Option.map_eq_some_iff.mp h_end
    simp only [Prod.mk.injEq] at h_c
    exact ⟨c, ts, h_run, h_c⟩

end IonContrib.Tcpv4
