/-
  IonContrib.Tcpv4.Heard

  What one end of a session makes of the octets that arrive.

  `hears` notes each message the receiver thread has read to its end.  As long
  as the thread reads on, the messages it has heard, the part of the next one
  it has read and what is waiting to be read are the octets that have arrived
  (`Reads.all`), and the segments heard are those of the transfers observed,
  each of which begins with a START and has no other (`Incoming.Shaped`).
-/
import IonContrib.Lib.Groups
import IonContrib.Tcpv4.RxTracks
import IonContrib.Tcpv4.Wire

namespace IonContrib.Tcpv4

open Conn

/-- What has been read of a message that has not been read to its end. -/
def RxPc.unfinished : RxPc → Octets
  | .body type => [type]
  | .refusing _ seg => tmsgXferSegment :: seg.body
  | .payload seg => tmsgXferSegment :: seg.body
  | _ => []

/-- The message a step of the receiver thread has read to its end. -/
def hears (c c' : Conn) : List Wire :=
  match c.rxPc with
  | .body type =>
    if type = tmsgXferSegment ∨ c'.rxPc.quitting then []
    else
      match recvWire (type :: c.inOctets) with
      | .got w _ => [w]
      | _ => []
  | .payload seg =>
    if c'.rxPc.givesUp then [] else [.segment seg (c.inOctets.take seg.dataLength)]
  | _ => []

/-- A transfer begins with its START, and no other segment of it is one. -/
structure Incoming.Shaped (t : Incoming) : Prop where
  start : t.start.isStart = true ∧ t.start.Fits
  segs : t.segs ≠ [] → ∃ data rest, t.segs = (t.start, data) :: rest ∧
    ∀ s ∈ rest, s.1.isStart = false
  first : ∀ seg ∈ t.head, t.segs = [] → seg = t.start
  later : ∀ seg ∈ t.head, t.segs ≠ [] → seg.isStart = false
  begun : t.head = none → t.segs ≠ []
  closed : t.head ≠ none → t.active = true

/-- The segment whose data are being read has been read from the wire. -/
def RxPc.reading : RxPc → Prop
  | .refusing _ seg => seg.Fits
  | .payload seg => seg.Fits
  | _ => True

structure Reads (c : Conn) (came : Octets) (heard : List Wire) (ts : Transfers) : Prop where
  front : wired heard <+: came
  all : c.rxPc.quitting = true ∨ wired heard ++ c.rxPc.unfinished ++ c.inOctets = came
  fits : ∀ w ∈ heard, w.Fits
  segs : segmentsOf heard = ts.flatMap Incoming.segs
  shaped : ∀ t ∈ ts, t.Shaped
  pc : c.rxPc.reading

theorem reads_init : Reads Conn.init [] [] [] :=
  ⟨List.prefix_rfl, Or.inr rfl, by simp, rfl, by simp, trivial⟩

variable {cfg : SessCfg} {c c' : Conn} {came : Octets} {heard : List Wire} {ts : Transfers}

/-! ## Transfers keep their shape -/

theorem Incoming.Shaped.group {t : Incoming} (h : t.Shaped) (h_ne : t.segs ≠ []) :
    Group (fun s => s.1.isStart) t.segs := by
  obtain ⟨data, rest, h_segs, h_rest⟩ := h.segs h_ne
  exact ⟨_, rest, h_segs, h.start.1, h_rest⟩

theorem shaped_addHead {cfg : RxCfg} {rx : RxSide} (h : ∀ t ∈ ts, t.Shaped)
    (h_stand : Standing cfg ts rx) {seg : XferSegment} (h_seg : seg.Fits) (ending : Bool) :
    ∀ t ∈ ts.addHead cfg seg ending, t.Shaped := by
  by_cases h_adm : Transfers.Admissible cfg ts seg
  · cases h_start : seg.isStart with
    | true =>
      rw [Transfers.addHead_start h_adm h_start]
      intro t h_t
      rcases List.mem_append.mp h_t with h_t | h_t
      · exact h t h_t
      · rw [List.mem_singleton.mp h_t]
        refine ⟨⟨h_start, h_seg⟩, by simp, ?_, by simp, by simp, fun _ => rfl⟩
        intro seg' h_head _
        exact (Option.some.inj h_head).symm
    | false =>
      have h_cur := h_adm.2
      rw [if_neg (by simp [h_start])] at h_cur
      obtain ⟨t, h_t, -⟩ := h_cur
      rcases h_stand with ⟨-, h_none⟩ | ⟨init, t', rfl, h_head, h_follows⟩
      · rw [h_none] at h_t
        cases h_t
      rw [Transfers.addHead_next h_adm h_start]
      intro t'' h_t''
      rcases List.mem_append.mp h_t'' with h_old | h_new
      · exact h t'' (List.mem_append_left _ h_old)
      · rw [List.mem_singleton.mp h_new]
        obtain ⟨h₁, h₂, -, -, h_begun, -⟩ := h t' (List.mem_append_right _ List.mem_cons_self)
        refine ⟨h₁, h₂, fun _ _ h_nil => absurd h_nil (h_begun h_head), ?_, by simp,
          fun _ => h_follows.open_⟩
        intro seg' h_seg' _
        rw [← Option.some.inj h_seg']
        exact h_start
  · rw [Transfers.addHead, if_neg h_adm]
    exact h

theorem shaped_addData {cfg : RxCfg} {rx : RxSide} (h : ∀ t ∈ ts, t.Shaped) {seg : XferSegment}
    (h_within : Within cfg ts seg rx) (data : Octets) :
    (∀ t ∈ ts.addData seg data, t.Shaped) ∧
      (ts.addData seg data).flatMap Incoming.segs = ts.flatMap Incoming.segs ++ [(seg, data)] := by
  obtain ⟨init, t, rfl, h_head, -, -⟩ := h_within
  rw [Transfers.addData_snoc]
  refine ⟨?_, by simp⟩
  intro t' h_t'
  rcases List.mem_append.mp h_t' with h_old | h_new
  · exact h t' (List.mem_append_left _ h_old)
  · rw [List.mem_singleton.mp h_new]
    obtain ⟨h₁, h_segs, h_first, h_later, -, -⟩ := h t (List.mem_append_right _ List.mem_cons_self)
    refine ⟨h₁, fun _ => ?_, by simp, by simp, by simp, by simp⟩
    by_cases h_nil : t.segs = []
    · rw [h_nil, h_first seg h_head h_nil]
      exact ⟨data, [], rfl, by simp⟩
    · obtain ⟨data₀, rest, h_eq, h_rest⟩ := h_segs h_nil
      refine ⟨data₀, rest ++ [(seg, data)], by simp [h_eq], ?_⟩
      intro s h_s
      rcases List.mem_append.mp h_s with h_s | h_s
      · exact h_rest s h_s
      · rw [List.mem_singleton.mp h_s]
        exact h_later seg h_head h_nil

theorem addHead_segs (cfg : RxCfg) (ts : Transfers) (seg : XferSegment) (ending : Bool) :
    (ts.addHead cfg seg ending).flatMap Incoming.segs = ts.flatMap Incoming.segs := by
  by_cases h_adm : Transfers.Admissible cfg ts seg
  · cases h_start : seg.isStart with
    | true => simp [Transfers.addHead_start h_adm h_start]
    | false =>
      have h_cur := h_adm.2
      rw [if_neg (by simp [h_start])] at h_cur
      obtain ⟨t, h_t, -⟩ := h_cur
      obtain ⟨init, rfl⟩ := List.getLast?_eq_some_iff.mp (Option.mem_filter_iff.mp h_t).1
      simp [Transfers.addHead_next h_adm h_start]
  · rw [Transfers.addHead, if_neg h_adm]

/-! ## Steps of the receiver thread -/

/-- A step with which nothing is heard. -/
theorem Reads.deaf {ts' : Transfers} (h : Reads c came heard ts)
    (h_hears : hears c c' = []) (h_segs : ts'.flatMap Incoming.segs = ts.flatMap Incoming.segs)
    (h_shaped : ∀ t ∈ ts', t.Shaped) (h_pc : c'.rxPc.reading)
    (h_quit : c.rxPc.quitting = true → c'.rxPc.quitting = true)
    (h_same : c'.rxPc.quitting = true ∨
      c'.rxPc.unfinished ++ c'.inOctets = c.rxPc.unfinished ++ c.inOctets) :
    Reads c' came (heard ++ hears c c') ts' := by
  rw [h_hears, List.append_nil]
  refine ⟨h.front, ?_, h.fits, h.segs.trans h_segs.symm, h_shaped, h_pc⟩
  rcases h.all with h_gone | h_all
  · exact Or.inl (h_quit h_gone)
  · refine h_same.imp_right fun h_eq => ?_
    rw [List.append_assoc, h_eq, ← List.append_assoc, h_all]

/-- A step with which a message is heard. -/
theorem Reads.hear {ts' : Transfers} {w : Wire} (h : Reads c came heard ts)
    (h_hears : hears c c' = [w]) (h_fits : w.Fits)
    (h_segs : ts'.flatMap Incoming.segs = ts.flatMap Incoming.segs ++ w.segment?.toList)
    (h_shaped : ∀ t ∈ ts', t.Shaped) (h_pc : c'.rxPc.reading) (h_on : c.rxPc.quitting = false)
    (h_took : c.rxPc.unfinished ++ c.inOctets = w.octets ++ c'.inOctets)
    (h_none : c'.rxPc.unfinished = []) :
    Reads c' came (heard ++ hears c c') ts' := by
  have h_all := h.all.resolve_left (by simp [h_on])
  rw [List.append_assoc, h_took] at h_all
  have h_wired : wired (heard ++ [w]) = wired heard ++ w.octets := by simp
  rw [h_hears]
  refine ⟨?_, Or.inr ?_, ?_, ?_, h_shaped, h_pc⟩
  · rw [h_wired, ← h_all, ← List.append_assoc]
    exact List.prefix_append _ _
  · rw [h_wired, h_none, List.append_nil, List.append_assoc, h_all]
  · intro v h_v
    rcases List.mem_append.mp h_v with h_v | h_v
    · exact h.fits v h_v
    · rw [List.mem_singleton.mp h_v]
      exact h_fits
  · rw [segmentsOf, List.filterMap_append]
    show segmentsOf heard ++ segmentsOf [w] = _
    rw [h.segs, h_segs]
    cases w <;> rfl

theorem hears_other (h_body : ∀ type, c.rxPc ≠ .body type) (h_payload : ∀ seg, c.rxPc ≠ .payload seg) :
    hears c c' = [] := by
  unfold hears
  split
  · rename_i type h_pc
    exact absurd h_pc (h_body type)
  · rename_i seg h_pc
    exact absurd h_pc (h_payload seg)
  · rfl

theorem hears_quit (h_quit : c'.rxPc.quitting = true) (h_up : c'.rxPc.givesUp = true) :
    hears c c' = [] := by
  unfold hears
  split
  · rw [if_pos (Or.inr h_quit)]
  · rw [if_pos h_up]
  · rfl

/-- A short message that has been read. -/
theorem hears_body {type : UInt8} {w : Wire} {rest : Octets} (h_pc : c.rxPc = .body type)
    (h_type : type ≠ tmsgXferSegment) (h_on : c'.rxPc.quitting = false)
    (h_read : recvWire (type :: c.inOctets) = .got w rest) : hears c c' = [w] := by
  have h_not : ¬ (type = tmsgXferSegment ∨ c'.rxPc.quitting = true) := by simp [h_type, h_on]
  simp only [hears, h_pc, if_neg h_not, h_read]

theorem afterTxSection_place (c : Conn) (tx : TxSide) (done : Option Xfer) (reject : Option Ctrl) :
    (c.afterTxSection tx done reject).rxPc.quitting = false ∧
      (c.afterTxSection tx done reject).rxPc.unfinished = [] ∧
      (c.afterTxSection tx done reject).rxPc.reading := by
  cases done with
  | some x => exact ⟨rfl, rfl, trivial⟩
  | none =>
    cases reject with
    | none => exact ⟨rfl, rfl, trivial⟩
    | some m => exact ⟨rfl, rfl, trivial⟩

theorem finishSegment_place (c : Conn) (seg : XferSegment) :
    (c.finishSegment seg).rxPc.givesUp = false ∧ (c.finishSegment seg).rxPc.unfinished = [] ∧
      (c.finishSegment seg).rxPc.reading ∧ (c.finishSegment seg).inOctets = c.inOctets := by
  rcases finishSegment_cases c seg with ⟨-, h_eq⟩ | ⟨-, -, h_eq⟩ | ⟨-, -, h_eq⟩
  · rw [h_eq]
    exact ⟨rfl, rfl, trivial, rfl⟩
  · rw [h_eq]
    exact ⟨rfl, rfl, trivial, rfl⟩
  · rw [h_eq]
    exact ⟨rfl, rfl, trivial, rfl⟩

/-- A step outside of a message. -/
theorem Reads.between {cfg : RxCfg} (h : Reads c came heard ts)
    (h_body : ∀ type, c.rxPc ≠ .body type) (h_payload : ∀ seg, c.rxPc ≠ .payload seg)
    (h_pc : c'.rxPc.reading) (h_quit : c.rxPc.quitting = true → c'.rxPc.quitting = true)
    (h_same : c'.rxPc.quitting = true ∨
      c'.rxPc.unfinished = c.rxPc.unfinished ∧ c'.inOctets = c.inOctets) :
    Reads c' came (heard ++ hears c c') (observeRecv cfg ts c c') := by
  rw [observeRecv_other (h_body _) h_payload]
  refine h.deaf (hears_other h_body h_payload) rfl h.shaped h_pc h_quit (h_same.imp_right ?_)
  rintro ⟨h_un, h_in⟩
  rw [h_un, h_in]

/-- The thread gives up. -/
theorem Reads.quit {cfg : RxCfg} (h : Reads c came heard ts) (h_pc : c'.rxPc = .failing) :
    Reads c' came (heard ++ hears c c') (observeRecv cfg ts c c') := by
  have h_quit : c'.rxPc.quitting = true := by
    rw [h_pc]
    rfl
  rw [observeRecv_failing h_pc]
  refine h.deaf (hears_quit h_quit (by rw [h_pc]; rfl)) rfl h.shaped ?_ (fun _ => h_quit)
    (Or.inl h_quit)
  rw [h_pc]
  trivial

/-- A short message, and on. -/
theorem Reads.short {cfg : RxCfg} {type : UInt8} {m : Ctrl} {rest : Octets}
    (h : Reads c came heard ts) (h_at : c.rxPc = .body type) (h_type : type ≠ tmsgXferSegment)
    (h_fits : (Wire.ctrl m).Fits) (h_octets : type :: c.inOctets = m.octets ++ rest)
    (h_in : c'.inOctets = rest)
    (h_place : c'.rxPc.quitting = false ∧ c'.rxPc.unfinished = [] ∧ c'.rxPc.reading) :
    Reads c' came (heard ++ hears c c') (observeRecv cfg ts c c') := by
  have h_read : recvWire (type :: c.inOctets) = .got (.ctrl m) rest := by
    rw [h_octets]
    exact recvWire_octets h_fits rest
  rw [observeRecv_other (by simp [h_at, h_type]) (by simp [h_at])]
  refine h.hear (hears_body h_at h_type h_place.1 h_read) h_fits ?_ h.shaped h_place.2.2
    (by rw [h_at]; rfl) ?_ h_place.2.1
  · exact (List.append_nil _).symm
  · rw [h_at, h_in]
    exact h_octets

/-- The data of a segment, stored or drained. -/
theorem data_reads (h_tracks : Tracks cfg.rx c ts) (h : Reads c came heard ts) {seg : XferSegment}
    {data rest : Octets} (h_at : c.rxPc = .payload seg) (h_len : data.length = seg.dataLength)
    (h_in : c.inOctets = data ++ rest)
    (h_place : c'.rxPc.givesUp = false ∧ c'.rxPc.unfinished = [] ∧ c'.rxPc.reading ∧
      c'.inOctets = rest) :
    Reads c' came (heard ++ hears c c') (observeRecv cfg.rx ts c c') := by
  have h_fit := h_tracks.fitting
  have h_reading := h.pc
  rw [h_at] at h_fit h_reading
  obtain ⟨h_shaped, h_segs⟩ := shaped_addData h.shaped h_fit data
  have h_hears : hears c c' = [.segment seg data] := by
    simp only [hears, h_at, h_place.1, h_in, ← h_len, List.take_left]
    exact if_neg Bool.false_ne_true
  rw [observeRecv_data h_at h_len h_in h_place.1]
  refine h.hear h_hears ⟨h_reading, h_len⟩ h_segs h_shaped h_place.2.2.1 (by rw [h_at]; rfl) ?_
    h_place.2.1
  rw [h_at, h_in, h_place.2.2.2]
  exact (List.append_assoc _ _ _).symm

/-- On the way out. -/
theorem Reads.leave {cfg : RxCfg} (h : Reads c came heard ts)
    (h_quit : c'.rxPc.quitting = true) (h_pc : c'.rxPc.reading)
    (h_body : ∀ type, c.rxPc ≠ .body type) (h_payload : ∀ seg, c.rxPc ≠ .payload seg) :
    Reads c' came (heard ++ hears c c') (observeRecv cfg ts c c') :=
  h.between h_body h_payload h_pc (fun _ => h_quit) (Or.inl h_quit)

/-- **A step of the receiver thread** reads on. -/
theorem recv_reads (h_tracks : Tracks cfg.rx c ts) (h : Reads c came heard ts)
    (h_step : RecvStep cfg c c') :
    Reads c' came (heard ++ hears c c') (observeRecv cfg.rx ts c c') := by
  have h_reading := h.pc
  cases h_step with
  | quit clean h_at h_clean => exact h.quit rfl
  | type type rest h_at h_in =>
    rw [observeRecv_other (by simp [h_at]) (by simp [h_at])]
    refine h.deaf (hears_other (by simp [h_at]) (by simp [h_at])) rfl h.shaped trivial
      (by simp [h_at, RxPc.quitting, RxPc.leaving]) (Or.inr ?_)
    rw [h_at, h_in]
    rfl
  | segment seg rest o h_at h_in =>
    obtain ⟨h_octets, h_fits⟩ := recvXferSegmentHdr_exact h_in
    have h_fit := h_tracks.fitting
    rw [h_at] at h_fit
    have h_stand : Standing cfg.rx ts c.rx := h_fit.resolve_left Bool.false_ne_true
    have h_on : ({ c with inOctets := rest }.handleSegmentHdr cfg seg o).rxPc ≠ .failing := by
      unfold handleSegmentHdr
      split <;> simp [sayAnyway]
    have h_seen : observeRecv cfg.rx ts c ({ c with inOctets := rest }.handleSegmentHdr cfg seg o) =
        ts.addHead cfg.rx seg (decide (c.state = .ending)) := by
      simp only [observeRecv, h_at, h_in]
      rw [if_pos ⟨trivial, h_on⟩]
    rw [h_seen]
    refine h.deaf ?_ (addHead_segs _ _ _ _) (shaped_addHead h.shaped h_stand h_fits _) ?_
      (by simp [h_at, RxPc.quitting, RxPc.leaving]) ?_
    · simp [hears, h_at]
    · unfold handleSegmentHdr
      split
      · trivial
      · exact h_fits
      · exact h_fits
    · have h_eq : tmsgXferSegment :: seg.body ++ rest = c.rxPc.unfinished ++ c.inOctets := by
        rw [h_at, h_octets]
        rfl
      unfold handleSegmentHdr
      split
      · exact Or.inl rfl
      · exact Or.inr h_eq
      · exact Or.inr h_eq
  | ack m rest h_at h_in =>
    obtain ⟨h_octets, h_range⟩ := recvXferAck_exact h_in
    obtain ⟨tx, pc, h_eq, -⟩ := handleAck_shape { c with inOctets := rest } m
    refine @Reads.short _ _ _ _ _ _ _ (.ack m) rest h h_at (by decide) h_range ?_ ?_
      (afterTxSection_place _ _ _ _)
    · rw [h_octets]
      rfl
    · rw [h_eq]
  | refuse m rest h_at h_in =>
    obtain ⟨h_octets, h_range⟩ := recvXferRefuse_exact h_in
    obtain ⟨tx, pc, h_eq, -⟩ := handleRefuse_shape { c with inOctets := rest } m
    refine @Reads.short _ _ _ _ _ _ _ (.refuse m) rest h h_at (by decide) h_range ?_ ?_
      (afterTxSection_place _ _ _ _)
    · rw [h_octets]
      rfl
    · rw [h_eq]
  | keepalive h_at =>
    exact @Reads.short _ _ _ _ _ _ _ .keepalive c.inOctets h h_at (by decide) trivial rfl rfl
      ⟨rfl, rfl, trivial⟩
  | reject m rest h_at h_in =>
    have h_octets := tcpv4RecvMsgReject_exact h_in
    refine @Reads.short _ _ _ _ _ _ _ (.msgReject m) rest h h_at (by decide) trivial ?_ ?_ ?_
    · rw [h_octets]
      rfl
    · obtain ⟨term, state, pc, h_eq, -⟩ := handleReject_shape { c with inOctets := rest } m
      rw [h_eq]
    · unfold handleReject
      split
      · exact ⟨rfl, rfl, trivial⟩
      · exact ⟨rfl, rfl, trivial⟩
  | sessTerm m rest h_at h_in =>
    have h_octets := recvSessTerm_exact h_in
    refine @Reads.short _ _ _ _ _ _ _ (.sessTerm m) rest h h_at (by decide) trivial ?_ rfl ?_
    · rw [h_octets]
      rfl
    · unfold handleSessTerm
      dsimp only
      split
      · exact ⟨rfl, rfl, trivial⟩
      · exact ⟨rfl, rfl, trivial⟩
  | unknown type m h_at h_type h_m =>
    rw [observeRecv_other (by simp [h_at, h_type.1]) (by simp [h_at])]
    exact h.deaf (hears_quit rfl rfl) rfl h.shaped trivial (fun _ => rfl) (Or.inl rfl)
  | refuseUnsaid reason seg h_at h_bad =>
    rw [h_at] at h_reading
    refine h.between (by simp [h_at]) (by simp [h_at]) h_reading
      (by simp [h_at, RxPc.quitting, RxPc.leaving]) (Or.inr ⟨?_, rfl⟩)
    rw [h_at]
    rfl
  | refuseSaid reason seg o d b h_at h_busy h_bad h_send =>
    rw [h_at] at h_reading
    obtain ⟨out, t, br, l, rfl⟩ := sendCtrl_shape h_send
    refine h.between (by simp [h_at]) (by simp [h_at]) h_reading
      (by simp [h_at, RxPc.quitting, RxPc.leaving]) (Or.inr ⟨?_, rfl⟩)
    rw [h_at]
    rfl
  | drained seg data rest h_at h_ref h_len h_in =>
    exact data_reads h_tracks h h_at h_len h_in (finishSegment_place { c with inOctets := rest } seg)
  | exhausted seg h_at h_ref =>
    have h_seen : observeRecv cfg.rx ts c { c with rxPc := sayAnyway termExhausted (.ret false) } =
        ts := by
      simp [observeRecv, h_at, RxPc.givesUp, sayAnyway]
    rw [h_seen]
    exact h.deaf (hears_quit rfl rfl) rfl h.shaped trivial (fun _ => rfl) (Or.inl rfl)
  | stored seg rx mem data rest h_at h_ref h_rx h_len h_in =>
    exact data_reads h_tracks h h_at h_len h_in (finishSegment_place
      { c with rx := segmentStore rx data, inOctets := rest } seg)
  | storeFailed seg rx mem h_at h_ref h_rx => exact h.quit rfl
  | acked m o d b h_at h_busy h_bad h_send =>
    obtain ⟨out, t, br, l, rfl⟩ := sendCtrl_shape h_send
    cases b with
    | true =>
      refine h.between (by simp [h_at]) (by simp [h_at]) trivial
        (by simp [h_at, RxPc.quitting, RxPc.leaving]) (Or.inr ⟨?_, rfl⟩)
      rw [h_at]
      rfl
    | false => exact h.quit rfl
  | handed seg h_at h_busy h_bad =>
    refine h.between (by simp [h_at]) (by simp [h_at]) trivial
      (by simp [h_at, RxPc.quitting, RxPc.leaving]) (Or.inr ⟨?_, rfl⟩)
    rw [h_at]
    rfl
  | reported x reject h_at =>
    refine h.between (by simp [h_at]) (by simp [h_at]) ?_
      (by simp [h_at, RxPc.quitting, RxPc.leaving]) (Or.inr ⟨?_, rfl⟩)
    · cases reject <;> trivial
    · rw [h_at]
      cases reject <;> rfl
  | stopped say ok bad h_at =>
    have h_from : c.rxPc.quitting = true → False := by simp [h_at, RxPc.quitting, RxPc.leaving]
    cases say with
    | none =>
      cases ok with
      | loop =>
        refine h.between (by simp [h_at]) (by simp [h_at]) trivial (fun h => (h_from h).elim)
          (Or.inr ⟨?_, rfl⟩)
        rw [h_at]
        rfl
      | ret clean => exact h.quit rfl
    | some m =>
      refine h.between (by simp [h_at]) (by simp [h_at]) trivial (fun h => (h_from h).elim)
        (Or.inr ⟨?_, rfl⟩)
      rw [h_at]
      rfl
  | said m ok bad o d b h_at h_send =>
    obtain ⟨out, t, br, l, rfl⟩ := sendCtrl_shape h_send
    rcases goOn_place { c with outOctets := out, secSinceTx := t, broken := br, log := l }
      (if b then ok else bad) with ⟨h_loop, h_next⟩ | h_fail
    · refine h.between (by simp [h_at]) (by simp [h_at]) ?_ ?_ (Or.inr ⟨?_, ?_⟩)
      · rw [h_loop]
        trivial
      · rw [h_at]
        intro h_quit
        cases ok with
        | loop => cases h_quit
        | ret clean =>
          cases bad with
          | loop => cases h_quit
          | ret clean' => cases b <;> cases h_next
      · rw [h_loop, h_at]
        rfl
      · rw [h_next]
        rfl
    · exact h.quit h_fail
  | failed h_at => exact h.leave rfl trivial (by simp [h_at]) (by simp [h_at])
  | txStopped h_at => exact h.leave rfl trivial (by simp [h_at]) (by simp [h_at])
  | joinedXmit h_at h_xmit => exact h.leave rfl trivial (by simp [h_at]) (by simp [h_at])
  | dlvStopped h_at => exact h.leave rfl trivial (by simp [h_at]) (by simp [h_at])
  | joinedDlv h_at h_dlv => exact h.leave rfl trivial (by simp [h_at]) (by simp [h_at])
  | closed h_at => exact h.leave rfl trivial (by simp [h_at]) (by simp [h_at])

/-! ## The other threads, and the network -/

theorem Reads.idle (h : Reads c came heard ts) (h_pc : c'.rxPc = c.rxPc)
    (h_in : c'.inOctets = c.inOctets) : Reads c' came heard ts :=
  ⟨h.front, by rw [h_pc, h_in]; exact h.all, h.fits, h.segs, h.shaped, by rw [h_pc]; exact h.pc⟩

/-- More octets arrive. -/
theorem Reads.arrive (h : Reads c came heard ts) (data : Octets) :
    Reads { c with inOctets := c.inOctets ++ data } (came ++ data) heard ts := by
  refine ⟨h.front.trans (List.prefix_append _ _), ?_, h.fits, h.segs, h.shaped, h.pc⟩
  refine h.all.imp_right fun h_all => ?_
  rw [← h_all]
  exact (List.append_assoc _ _ _).symm

end IonContrib.Tcpv4
