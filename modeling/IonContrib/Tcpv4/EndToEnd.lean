/-
  IonContrib.Tcpv4.EndToEnd

  Two ends of a session and the octet streams between them.

  `Pair` joins two ends: what one has written arrives at the other in order, in
  pieces of any size, at any time or never.  `Conveyed` says what one end gets
  out of what the other puts in.  It is proved of two accounts
  (`conveyed_of_balanced`): the messages heard are the first ones said, so the
  transfers observed are the first ones cut (`Matches`), and what is delivered
  and acknowledged is read off them.
-/
import IonContrib.Tcpv4.Account

namespace IonContrib.Tcpv4

open Conn

/-- `got` are the transfers of `l` whose bundles `r` has taken.  `called` are the bundles that
    `queueXfer` was called with at `l`. -/
structure Conveyed (l r : Conn) (called : List Octets) (got : List Xfer) : Prop where
  /-- They are in the order in which `l` took them off its queue, ... -/
  taken : got.Sublist l.took
  /-- ... none is there twice, ... -/
  once : (got.map Xfer.ref).Nodup
  /-- ... each has the bundle of its call, ... -/
  named : ∀ x ∈ got, called[x.ref]? = some x.bundle
  /-- ... and these are all the bundles that BP has taken at `r`. -/
  delivered : r.delivered = got.map Xfer.bundle
  /-- The ENDs that `r` has acknowledged are the first ones of these, ... -/
  acknowledged : ((endAcks r.acked).map fun m => (m.transferId, m.ackLength)) <+:
    got.map fun x => (x.transferId, x.length)
  /-- ... and what `l` reports as transferred is one of them. -/
  reported : ∀ ref b, .reported ref b true ∈ l.log → called[ref]? = some b ∧
    ∃ x ∈ got, x.ref = ref

/-! ## Transfers and their parts -/

/-- What has been received of a transfer is the front of what has been sent of it. -/
def Matches (t : Incoming) (p : Xfer × List Segment) : Prop := t.segs <+: p.2

theorem matches_prefix {ts : Transfers} {parts : Parts} (h_shaped : ∀ t ∈ ts, t.Shaped)
    (h_cut : ∀ p ∈ parts, ∃ off, CutTo p.1 0 p.2 off)
    (h : ts.flatMap Incoming.segs <+: (parts.map Prod.snd).flatten) :
    ∃ parts', parts'.Sublist parts ∧
      List.Forall₂ Matches (ts.filter fun t => !t.segs.isEmpty) parts' := by
  have h_some : ∀ {segs : List Segment}, (!segs.isEmpty) = true → segs ≠ [] := by
    intro segs h_segs h_nil
    rw [h_nil] at h_segs
    cases h_segs
  have h_left : ((ts.filter fun t => !t.segs.isEmpty).map Incoming.segs).flatten =
      ts.flatMap Incoming.segs := by
    have h_map : (ts.filter fun t => !t.segs.isEmpty).map Incoming.segs =
        (ts.map Incoming.segs).filter fun segs => !segs.isEmpty := by
      rw [List.filter_map]
      rfl
    rw [h_map, List.flatten_filter_not_isEmpty, List.flatMap_def]
  have h_right : ((parts.filter fun p => !p.2.isEmpty).map Prod.snd).flatten =
      (parts.map Prod.snd).flatten := by
    have h_map : (parts.filter fun p => !p.2.isEmpty).map Prod.snd =
        (parts.map Prod.snd).filter fun segs => !segs.isEmpty := by
      rw [List.filter_map]
      rfl
    rw [h_map, List.flatten_filter_not_isEmpty]
  rw [← h_left, ← h_right] at h
  have h_gs : ∀ g ∈ (ts.filter fun t => !t.segs.isEmpty).map Incoming.segs,
      Group (fun s : Segment => s.1.isStart) g := by
    intro g h_g
    obtain ⟨t, h_t, rfl⟩ := List.mem_map.mp h_g
    obtain ⟨h_t, h_ne⟩ := List.mem_filter.mp h_t
    exact (h_shaped t h_t).group (h_some h_ne)
  have h_hs : ∀ g ∈ (parts.filter fun p => !p.2.isEmpty).map Prod.snd,
      Group (fun s : Segment => s.1.isStart) g := by
    intro g h_g
    obtain ⟨p, h_p, rfl⟩ := List.mem_map.mp h_g
    obtain ⟨h_p, h_ne⟩ := List.mem_filter.mp h_p
    obtain ⟨off, h_c⟩ := h_cut p h_p
    exact h_c.group (h_some h_ne)
  have h_groups := groups_prefix h_gs h_hs h
  rw [← List.map_take, List.forall₂_map_left_iff, List.forall₂_map_right_iff] at h_groups
  exact ⟨_, (List.take_sublist _ _).trans List.filter_sublist, h_groups⟩

/-- What is known of a transfer that has been received in part. -/
structure Grounded (x : Xfer) (t : Incoming) : Prop where
  shaped : t.Shaped
  ids : ∀ s ∈ t.segs, s.1.transferId = t.start.transferId
  cut : ∃ off, CutTo x 0 t.segs off

namespace Grounded

variable {x : Xfer} {t : Incoming} {cfg : RxCfg}

theorem id (h : Grounded x t) {s : Segment} (h_s : s ∈ t.segs) :
    s.1.transferId = x.transferId := by
  obtain ⟨off, h_cut⟩ := h.cut
  obtain ⟨mid, h_piece⟩ := h_cut.piece h_s
  exact h_piece.id

/-- A transfer that is complete is the one that was sent. -/
theorem bundle (h : Grounded x t) (h_t : t.isBundle cfg = true) :
    t.data = x.bundle ∧ t.start.transferId = x.transferId := by
  obtain ⟨off, h_cut⟩ := h.cut
  unfold Incoming.isBundle Incoming.active at h_t
  simp only [Bool.not_not, Bool.and_eq_true] at h_t
  obtain ⟨-, h_data, front, s, h_segs, -⟩ := h_cut.whole h_t.1
  refine ⟨h_data, ?_⟩
  have h_s : s ∈ t.segs := by
    rw [h_segs]
    exact List.mem_append_right _ List.mem_cons_self
  rw [← h.ids s h_s, h.id h_s]

theorem endAcks_acksFrom {size : Nat} {segs : List Segment}
    (h : ∀ s ∈ segs, s.1.isEnd = false) : endAcks (t.acksFrom cfg size segs) = [] := by
  refine List.filter_eq_nil_iff.mpr fun m h_m => ?_
  obtain ⟨before, s, after, rfl, rfl⟩ := Incoming.mem_acksFrom h_m
  have h_s := h s (List.mem_append_right _ List.mem_cons_self)
  unfold XferSegment.isEnd at h_s
  simp [h_s]

/-- The END of a transfer is acknowledged when it is a bundle for BP, for all of it. -/
theorem endAcks_acks (h : Grounded x t) :
    ((endAcks (t.acks cfg)).map fun m => (m.transferId, m.ackLength)) =
      if t.isBundle cfg then [(x.transferId, x.length)] else [] := by
  obtain ⟨off, h_cut⟩ := h.cut
  cases h_active : t.active with
  | true =>
    have h_none : ∀ s ∈ t.segs, s.1.isEnd = false := by
      intro s h_s
      unfold Incoming.active at h_active
      simp only [Bool.not_eq_true', List.any_eq_false, Bool.not_eq_true] at h_active
      exact h_active s h_s
    rw [Incoming.acks, endAcks_acksFrom h_none]
    simp [Incoming.isBundle, h_active]
  | false =>
    have h_head : t.head = none := by
      by_contra h_head
      rw [h.shaped.closed h_head] at h_active
      cases h_active
    have h_end : (t.segs.any fun s => s.1.isEnd) = true := by
      simpa [Incoming.active] using h_active
    obtain ⟨-, h_data, front, s, h_segs, h_s, h_front⟩ := h_cut.whole h_end
    have h_len : 0 + (front.map Prod.snd).flatten.length + s.2.length = x.length := by
      rw [Xfer.length, ← h_data, h_segs]
      simp
    have h_fits : t.fits cfg = t.fitsAt cfg x.length := by
      rw [Incoming.fits, Incoming.size, h_head, Incoming.data, h_data]
      rfl
    have h_bundle : t.isBundle cfg = t.fitsAt cfg x.length := by
      rw [Incoming.isBundle, h_active, h_fits]
      rfl
    have h_id : s.1.transferId = x.transferId := h.id (by
      rw [h_segs]
      exact List.mem_append_right _ List.mem_cons_self)
    rw [Incoming.acks, h_segs, Incoming.acksFrom_snoc, endAcks_append, endAcks_acksFrom h_front,
      List.nil_append, h_len, h_bundle]
    unfold XferSegment.isEnd at h_s
    split
    · simp [endAcks, h_s, h_id]
    · rfl

/-- The acknowledgement of as many octets as the bundle has is that of the END. -/
theorem ack_end (h : Grounded x t) {m : XferAck} (h_m : m ∈ t.acks cfg)
    (h_len : m.ackLength = x.length) (h_pos : 0 < m.ackLength) :
    hasFlag m.flags tmsgFlagEnd = true := by
  obtain ⟨off, h_cut⟩ := h.cut
  obtain ⟨before, s, after, h_segs, rfl⟩ := Incoming.mem_acksFrom h_m
  have h_pre : before ++ [s] <+: t.segs := ⟨after, by rw [h_segs]; simp⟩
  obtain ⟨mid, h_front⟩ := h_cut.front h_pre
  have h_data := congrArg List.length h_front.data
  rw [List.length_take, List.drop_zero, Nat.sub_zero] at h_data
  simp only [Nat.zero_add] at h_len
  have h_mid : mid = x.length := by
    have h_le := h_front.le.2 (by simp)
    unfold Xfer.length at h_le h_len ⊢
    omega
  obtain ⟨front, s', h_eq, h_end⟩ := h_front.ended (by simp) h_mid
  obtain ⟨-, h_last⟩ := List.append_inj' h_eq rfl
  rw [← List.singleton_inj.mp h_last] at h_end
  exact h_end

end Grounded

/-! ## Two accounts -/

variable {cfgL cfgR : SessCfg} {l r : Conn} {gl gr : Account}

/-- What has been heard is what was said first. -/
theorem heard_prefix (h_l : Balanced cfgL l gl) (h_r : Balanced cfgR r gr)
    (h_came : gr.came <+: l.outOctets) : gr.heard <+: gl.said :=
  wired_prefix h_r.reads.fits h_l.writes.fits
    (h_r.reads.front.trans (h_came.trans h_l.writes.out))

/-- **Every transfer that is observed was sent**, in this order. -/
theorem grounded_of_balanced (h_l : Balanced cfgL l gl) (h_r : Balanced cfgR r gr)
    (h_came : gr.came <+: l.outOctets) :
    ∃ xs, xs.Sublist l.took ∧
      List.Forall₂ (fun t x => Grounded x t) (gr.ts.filter fun t => !t.segs.isEmpty) xs := by
  obtain ⟨more, h_heard⟩ := heard_prefix h_l h_r h_came
  have h_flat : gr.ts.flatMap Incoming.segs <+: (gl.parts.map Prod.snd).flatten := by
    rw [← h_r.reads.segs, ← h_l.sends.segs, ← h_heard, segmentsOf, segmentsOf,
      List.filterMap_append]
    exact List.prefix_append _ _
  obtain ⟨parts', h_sub, h_all⟩ := matches_prefix h_r.reads.shaped h_l.sends.cut h_flat
  refine ⟨parts'.map Prod.fst, ?_, ?_⟩
  · rw [← h_l.sends.took]
    exact h_sub.map Prod.fst
  · rw [List.forall₂_map_right_iff]
    refine (forall₂_mem h_all).imp ?_
    rintro t p ⟨h_t, h_p, h_m⟩
    have h_t : t ∈ gr.ts := (List.mem_filter.mp h_t).1
    obtain ⟨off, h_cut⟩ := h_l.sends.cut p (h_sub.subset h_p)
    exact ⟨h_r.reads.shaped t h_t, fun s h_s => (h_r.tracks.wellFormed t h_t s h_s).1,
      h_cut.front h_m⟩

/-- The transfers that are bundles for BP have been received in part. -/
theorem filter_isBundle (cfg : RxCfg) (ts : Transfers) :
    (ts.filter fun t => !t.segs.isEmpty).filter (fun t => t.isBundle cfg) =
      ts.filter fun t => t.isBundle cfg := by
  rw [List.filter_filter]
  refine List.filter_congr fun t _ => ?_
  cases h_b : t.isBundle cfg with
  | false => rfl
  | true =>
    have h_ne : t.segs ≠ [] := by
      intro h_nil
      simp [Incoming.isBundle, Incoming.active, h_nil] at h_b
    simpa using h_ne

/-- The ENDs that the transfers call for are those of the bundles. -/
theorem endAcks_of_grounded {cfg : RxCfg} {ts : Transfers} {xs all : List Xfer}
    (h : List.Forall₂ (fun t x => Grounded x t) (ts.filter fun t => !t.segs.isEmpty) xs)
    (h_all : List.Forall₂ (fun t x => Grounded x t) (ts.filter fun t => t.isBundle cfg) all) :
    ((endAcks (ts.acks cfg)).map fun m => (m.transferId, m.ackLength)) =
      all.map fun x => (x.transferId, x.length) := by
  have h_keys : ∀ ts' : Transfers, (∀ t ∈ ts', t.segs ≠ [] → ∃ x, Grounded x t) →
      ((endAcks (ts'.acks cfg)).map fun m => (m.transferId, m.ackLength)) =
        (ts'.filter fun t => t.isBundle cfg).map fun t => (t.start.transferId, t.data.length) := by
    intro ts' h_ts'
    induction ts' with
    | nil => rfl
    | cons t ts' ih =>
      have h_tail := ih fun t' h_t' => h_ts' t' (List.mem_cons_of_mem _ h_t')
      have h_head : ((endAcks (t.acks cfg)).map fun m => (m.transferId, m.ackLength)) =
          if t.isBundle cfg then [(t.start.transferId, t.data.length)] else [] := by
        by_cases h_nil : t.segs = []
        · simp [Incoming.acks, h_nil, Incoming.acksFrom, endAcks, Incoming.isBundle,
            Incoming.active]
        · obtain ⟨x, h_x⟩ := h_ts' t List.mem_cons_self h_nil
          rw [h_x.endAcks_acks]
          split
          · rename_i h_b
            rw [(h_x.bundle h_b).1, (h_x.bundle h_b).2]
            rfl
          · rfl
      have h_cons : Transfers.acks cfg (t :: ts') = t.acks cfg ++ Transfers.acks cfg ts' := rfl
      rw [h_cons, endAcks_append, List.map_append, h_head, h_tail, List.filter_cons]
      split
      · rfl
      · rfl
  rw [h_keys ts ?_]
  · refine map_eq_of_forall₂ ((forall₂_mem h_all).imp ?_)
    rintro t x ⟨h_t, -, h_x⟩
    obtain ⟨h_data, h_id⟩ := h_x.bundle (List.mem_filter.mp h_t).2
    rw [h_data, h_id, Xfer.length]
  · intro t h_t h_ne
    have h_mem : t ∈ ts.filter fun t => !t.segs.isEmpty :=
      List.mem_filter.mpr ⟨h_t, by simpa using h_ne⟩
    obtain ⟨x, -, h_x⟩ := forall₂_partner h h_mem
    exact ⟨x, h_x⟩

/-- While ids last, a transfer has one. -/
theorem took_inj (h : Balanced cfgL l gl) (h_ids : l.took.length ≤ 2 ^ 64) {x y : Xfer}
    (h_x : x ∈ l.took) (h_y : y ∈ l.took) (h_eq : x.transferId = y.transferId) : x = y := by
  have h_len : gl.parts.length = l.took.length := by rw [← h.sends.took, List.length_map]
  have h_map : l.took.map Xfer.transferId = List.range l.took.length := by
    rw [← h_len, ← h.sends.took, List.map_map]
    refine h.sends.ids.trans ?_
    have h_small : ∀ n ∈ List.range gl.parts.length, n % 2 ^ 64 = n := by
      intro n h_n
      have h_lt := List.mem_range.mp h_n
      exact Nat.mod_eq_of_lt (by omega)
    rw [List.map_congr_left h_small, List.map_id']
  have h_nodup : (l.took.map Xfer.transferId).Nodup := by
    rw [h_map]
    exact List.nodup_range
  exact List.inj_on_of_nodup_map h_nodup h_x h_y h_eq

/-- **What one end gets out of what the other puts in**, as their accounts have it. -/
theorem conveyed_of_balanced (h_l : Balanced cfgL l gl) (h_r : Balanced cfgR r gr)
    (h_there : gr.came <+: l.outOctets) (h_back : gl.came <+: r.outOctets)
    (h_ids : l.took.length ≤ 2 ^ 64) : ∃ got, Conveyed l r gl.called got := by
  obtain ⟨xs, h_xs, h_grounded⟩ := grounded_of_balanced h_l h_r h_there
  obtain ⟨all, h_sub, h_all⟩ := forall₂_filter (fun t => t.isBundle cfgR.rx) h_grounded
  rw [filter_isBundle] at h_all
  have h_took : all.Sublist l.took := h_sub.trans h_xs
  have h_bundles : gr.ts.bundles cfgR.rx = all.map Xfer.bundle := by
    refine map_eq_of_forall₂ ((forall₂_mem h_all).imp ?_)
    rintro t x ⟨h_t, -, h_x⟩
    exact (h_x.bundle (List.mem_filter.mp h_t).2).1
  have h_keys := endAcks_of_grounded h_grounded h_all
  -- BP has taken the first of them.
  have h_delivered : r.delivered = (all.take r.delivered.length).map Xfer.bundle := by
    have h_pre := h_r.tracks.bundles.out_prefix
    rw [h_bundles] at h_pre
    rw [List.map_take]
    exact List.prefix_iff_eq_take.mp h_pre
  have h_ends : ((endAcks (acksOf gr.said)).map fun m => (m.transferId, m.ackLength)) <+:
      (all.take r.delivered.length).map fun x => (x.transferId, x.length) := by
    rw [List.map_take, ← h_keys, List.prefix_take_iff, List.length_map]
    exact ⟨(h_r.answers.front.filter _).map _, h_r.answers.ends⟩
  refine ⟨all.take r.delivered.length, ?_, ?_, ?_, h_delivered, ?_, ?_⟩
  · exact (List.take_sublist _ _).trans h_took
  · have h_once := h_l.credits.once
    rw [List.map_append] at h_once
    exact (((List.take_sublist _ _).trans h_took).map Xfer.ref).nodup h_once.of_append_right
  · intro x h_x
    exact h_l.credits.named x (List.mem_append_right _
      (h_took.subset ((List.take_sublist _ _).subset h_x)))
  · exact ((h_r.answers.told.filter _).map _).trans h_ends
  · intro ref b h_b
    obtain ⟨h_called, x, h_x, rfl, h_credit⟩ := h_l.credits.reported ref b h_b
    refine ⟨h_called, x, ?_, rfl⟩
    obtain ⟨more, h_heard⟩ := heard_prefix h_r h_l h_back
    rcases h_credit with ⟨m, h_m, h_id, h_len, h_pos⟩ | ⟨m, h_m, h_completed⟩
    · have h_said : m ∈ acksOf gr.said := by
        rw [← h_heard, acksOf_append]
        exact List.mem_append_left _ h_m
      -- The acknowledgement is for a segment of `x`, ...
      obtain ⟨t, h_t, h_ack⟩ := List.mem_flatMap.mp (h_r.answers.front.subset h_said)
      obtain ⟨before, s, after, h_segs, h_eq⟩ := Incoming.mem_acksFrom h_ack
      have h_s : s ∈ t.segs := by
        rw [h_segs]
        exact List.mem_append_right _ List.mem_cons_self
      have h_mem : t ∈ gr.ts.filter fun t => !t.segs.isEmpty :=
        List.mem_filter.mpr ⟨h_t, by simpa using List.ne_nil_of_mem h_s⟩
      obtain ⟨y, h_y, h_ground⟩ := forall₂_partner h_grounded h_mem
      have h_sid : m.transferId = s.1.transferId := by rw [h_eq]
      obtain rfl : x = y := by
        refine took_inj h_l h_ids h_x (h_xs.subset h_y) ?_
        rw [← h_id, h_sid, h_ground.id h_s]
      -- ... and as it is for all of it, for the last one, which BP has taken.
      have h_end := h_ground.ack_end h_ack h_len h_pos
      have h_key : (m.transferId, m.ackLength) ∈
          (all.take r.delivered.length).map fun x => (x.transferId, x.length) :=
        h_ends.subset (List.mem_map_of_mem (List.mem_filter.mpr ⟨h_said, h_end⟩))
      obtain ⟨z, h_z, h_zx⟩ := List.mem_map.mp h_key
      obtain rfl : z = x := by
        refine took_inj h_l h_ids (h_took.subset ((List.take_sublist _ _).subset h_z)) h_x ?_
        rw [← h_id]
        exact (Prod.mk.inj h_zx).1
      exact h_z
    · have h_said : m ∈ refusalsOf gr.said := by
        rw [← h_heard, refusalsOf_append]
        exact List.mem_append_left _ h_m
      exact absurd h_completed (h_r.answers.refusals m h_said).1

/-! ## Two ends and two streams -/

/-- `toRight` and `toLeft` are how many octets have arrived on either side. -/
structure Pair where
  left : Conn
  right : Conn
  toRight : Nat
  toLeft : Nat
  deriving DecidableEq, Repr

def Pair.init : Pair := ⟨Conn.init, Conn.init, 0, 0⟩

/-- A step of either end, or the next octets that arrive there. -/
inductive PairAct where
  | left (a : Act)
  | right (a : Act)
  | toRight (n : Nat)
  | toLeft (n : Nat)
  deriving DecidableEq, Repr

/-- Octets come from the other end and from nowhere else. -/
def Act.own : Act → Bool
  | .arrive _ => false
  | _ => true

def Pair.step (cfgL cfgR : SessCfg) (p : Pair) : PairAct → Option Pair
  | .left a =>
    if a.own then (Tcpv4.step cfgL p.left a).map fun l => { p with left := l } else none
  | .right a =>
    if a.own then (Tcpv4.step cfgR p.right a).map fun r => { p with right := r } else none
  | .toRight n =>
    let data := (p.left.outOctets.drop p.toRight).take n
    (Tcpv4.step cfgR p.right (.arrive data)).map fun r =>
      { p with right := r, toRight := p.toRight + data.length }
  | .toLeft n =>
    let data := (p.right.outOctets.drop p.toLeft).take n
    (Tcpv4.step cfgL p.left (.arrive data)).map fun l =>
      { p with left := l, toLeft := p.toLeft + data.length }

/-- The bundles `queueXfer` is called with on either side. -/
def PairAct.callsLeft : PairAct → List Octets
  | .left a => a.calls
  | _ => []

def PairAct.callsRight : PairAct → List Octets
  | .right a => a.calls
  | _ => []

/-- What has come to one end is what the other wrote first. -/
structure PairBalanced (cfgL cfgR : SessCfg) (as : List PairAct) (p : Pair) (gl gr : Account) :
    Prop where
  left : Balanced cfgL p.left gl
  right : Balanced cfgR p.right gr
  cameRight : gr.came = p.left.outOctets.take p.toRight ∧ p.toRight ≤ p.left.outOctets.length
  cameLeft : gl.came = p.right.outOctets.take p.toLeft ∧ p.toLeft ≤ p.right.outOctets.length
  calledLeft : gl.called = as.flatMap PairAct.callsLeft
  calledRight : gr.called = as.flatMap PairAct.callsRight

theorem arrives_own {a : Act} (h : a.own = true) : a.arrives = [] := by
  cases a with
  | arrive data => cases h
  | call bundle o => rfl
  | room r => rfl
  | timeout r => rfl
  | xmit o => rfl
  | recv o => rfl
  | dlv o => rfl
  | clock o => rfl
  | stop o => rfl
  | free => rfl

/-- What has arrived is still what was written first when more is written. -/
theorem take_of_prefix {s s' : Octets} {n : Nat} (h : s <+: s') (h_n : n ≤ s.length) :
    s.take n = s'.take n ∧ n ≤ s'.length := by
  obtain ⟨more, rfl⟩ := h
  refine ⟨(List.take_append_of_le_length h_n).symm, ?_⟩
  rw [List.length_append]
  omega

/-- ... and so is what has arrived when the next octets have come. -/
theorem take_next {s : Octets} {n k : Nat} (h_n : n ≤ s.length) :
    s.take n ++ (s.drop n).take k = s.take (n + ((s.drop n).take k).length) ∧
      n + ((s.drop n).take k).length ≤ s.length := by
  have h_len : ((s.drop n).take k).length = min k (s.length - n) := by simp
  refine ⟨?_, by omega⟩
  rw [List.take_add]
  congr 1
  rw [h_len, List.take_eq_take_iff]
  simp

variable {p p' : Pair} {as : List PairAct}

/-- **Every step of the two ends and the streams keeps both accounts.** -/
theorem pair_step_balanced {a : PairAct} (h_mtuL : 0 < cfgL.segmentMtu) (h_mtuR : 0 < cfgR.segmentMtu)
    (h_cfgL : cfgL.rx.Admitted) (h_cfgR : cfgR.rx.Admitted)
    (h : PairBalanced cfgL cfgR as p gl gr) (h_step : p.step cfgL cfgR a = some p') :
    ∃ gl' gr', PairBalanced cfgL cfgR (as ++ [a]) p' gl' gr' := by
  obtain ⟨h_l, h_r, ⟨h_cameR, h_toRight⟩, ⟨h_cameL, h_toLeft⟩, h_calledL, h_calledR⟩ := h
  have h_calls : ∀ f : PairAct → List Octets,
      (as ++ [a]).flatMap f = as.flatMap f ++ f a := fun f => by simp
  cases a with
  | left a =>
    simp only [Pair.step] at h_step
    split at h_step
    · rename_i h_own
      obtain ⟨l', h_l', rfl⟩ := Option.map_eq_some_iff.mp h_step
      obtain ⟨h_out, gl', h_keeps, h_called, h_came⟩ := step_balanced h_mtuL h_cfgL h_l h_l'
      rw [arrives_own h_own, List.append_nil] at h_came
      obtain ⟨h_take, h_le⟩ := take_of_prefix h_out h_toRight
      refine ⟨gl', gr, h_keeps, h_r, ⟨h_cameR.trans h_take, h_le⟩,
        ⟨h_came.trans h_cameL, h_toLeft⟩, ?_, ?_⟩
      · rw [h_called, h_calledL, h_calls]
        rfl
      · rw [h_calledR, h_calls]
        exact (List.append_nil _).symm
    · cases h_step
  | right a =>
    simp only [Pair.step] at h_step
    split at h_step
    · rename_i h_own
      obtain ⟨r', h_r', rfl⟩ := Option.map_eq_some_iff.mp h_step
      obtain ⟨h_out, gr', h_keeps, h_called, h_came⟩ := step_balanced h_mtuR h_cfgR h_r h_r'
      rw [arrives_own h_own, List.append_nil] at h_came
      obtain ⟨h_take, h_le⟩ := take_of_prefix h_out h_toLeft
      refine ⟨gl, gr', h_l, h_keeps, ⟨h_came.trans h_cameR, h_toRight⟩,
        ⟨h_cameL.trans h_take, h_le⟩, ?_, ?_⟩
      · rw [h_calledL, h_calls]
        exact (List.append_nil _).symm
      · rw [h_called, h_calledR, h_calls]
        rfl
    · cases h_step
  | toRight n =>
    simp only [Pair.step, Option.map_eq_some_iff] at h_step
    obtain ⟨r', h_r', rfl⟩ := h_step
    obtain ⟨h_out, gr', h_keeps, h_called, h_came⟩ := step_balanced h_mtuR h_cfgR h_r h_r'
    have h_came : gr'.came = gr.came ++ (p.left.outOctets.drop p.toRight).take n := h_came
    obtain ⟨h_take, h_le⟩ := take_of_prefix h_out h_toLeft
    obtain ⟨h_next, h_le'⟩ := @take_next _ _ n h_toRight
    refine ⟨gl, gr', h_l, h_keeps, ⟨?_, h_le'⟩, ⟨h_cameL.trans h_take, h_le⟩, ?_, ?_⟩
    · rw [h_came, h_cameR, h_next]
    · rw [h_calledL, h_calls]
      exact (List.append_nil _).symm
    · rw [h_called, h_calledR, h_calls]
      rfl
  | toLeft n =>
    simp only [Pair.step, Option.map_eq_some_iff] at h_step
    obtain ⟨l', h_l', rfl⟩ := h_step
    obtain ⟨h_out, gl', h_keeps, h_called, h_came⟩ := step_balanced h_mtuL h_cfgL h_l h_l'
    have h_came : gl'.came = gl.came ++ (p.right.outOctets.drop p.toLeft).take n := h_came
    obtain ⟨h_take, h_le⟩ := take_of_prefix h_out h_toRight
    obtain ⟨h_next, h_le'⟩ := @take_next _ _ n h_toLeft
    refine ⟨gl', gr, h_keeps, h_r, ⟨h_cameR.trans h_take, h_le⟩, ⟨?_, h_le'⟩, ?_, ?_⟩
    · rw [h_came, h_cameL, h_next]
    · rw [h_called, h_calledL, h_calls]
      rfl
    · rw [h_calledR, h_calls]
      exact (List.append_nil _).symm

theorem pair_run_balanced (h_mtuL : 0 < cfgL.segmentMtu) (h_mtuR : 0 < cfgR.segmentMtu)
    (h_cfgL : cfgL.rx.Admitted) (h_cfgR : cfgR.rx.Admitted)
    (h_run : Lts.run (Pair.step cfgL cfgR) Pair.init as = some p) :
    ∃ gl gr, PairBalanced cfgL cfgR as p gl gr := by
  refine @Lts.run_invariant_history _ _ (Pair.step cfgL cfgR)
    (fun as p => ∃ gl gr, PairBalanced cfgL cfgR as p gl gr) ?_ _ _ _ ?_ h_run
  · rintro as q a q' ⟨gl, gr, h⟩ h_step
    exact pair_step_balanced h_mtuL h_mtuR h_cfgL h_cfgR h h_step
  · exact ⟨Account.init, Account.init, balanced_init cfgL, balanced_init cfgR, ⟨rfl, Nat.le_refl _⟩,
      ⟨rfl, Nat.le_refl _⟩, rfl, rfl⟩

/-- **Transfers from end to end.**  Whatever the threads of the two ends do, wherever a read, a
    write or a delivery fails and however much of what was written arrives, the bundles that BP
    takes at either end are those of transfers of the other, each at most once, in order and as
    they were queued; no END is acknowledged before its bundle is taken; and what is reported as
    transferred has been taken. -/
theorem pair_conveys (h_mtuL : 0 < cfgL.segmentMtu) (h_mtuR : 0 < cfgR.segmentMtu)
    (h_cfgL : cfgL.rx.Admitted) (h_cfgR : cfgR.rx.Admitted)
    (h_run : Lts.run (Pair.step cfgL cfgR) Pair.init as = some p)
    (h_idsL : p.left.took.length ≤ 2 ^ 64) (h_idsR : p.right.took.length ≤ 2 ^ 64) :
    (∃ got, Conveyed p.left p.right (as.flatMap PairAct.callsLeft) got) ∧
      ∃ got, Conveyed p.right p.left (as.flatMap PairAct.callsRight) got := by
  obtain ⟨gl, gr, h_l, h_r, ⟨h_cameR, -⟩, ⟨h_cameL, -⟩, h_calledL, h_calledR⟩ :=
    pair_run_balanced h_mtuL h_mtuR h_cfgL h_cfgR h_run
  have h_there : gr.came <+: p.left.outOctets := by
    rw [h_cameR]
    exact List.take_prefix _ _
  have h_back : gl.came <+: p.right.outOctets := by
    rw [h_cameL]
    exact List.take_prefix _ _
  rw [← h_calledL, ← h_calledR]
  exact ⟨conveyed_of_balanced h_l h_r h_there h_back h_idsL,
    conveyed_of_balanced h_r h_l h_back h_there h_idsR⟩

/-- Two bundles, in two segments and in one, that are sent, received, delivered and
    acknowledged. -/
def conveyedRun : List PairAct :=
  [.left (.call [7, 8] .ok), .left (.room 0), .left (.call [9] .ok), .left (.room 1)] ++
    List.replicate 17 (.left (.xmit .ok)) ++ [.toRight 100] ++
    List.replicate 11 (.right (.recv .ok)) ++ List.replicate 4 (.right (.dlv .ok)) ++
    [.right (.recv .ok)] ++ List.replicate 4 (.right (.dlv .ok)) ++ [.toLeft 100] ++
    List.replicate 8 (.left (.recv .ok))

theorem pair_conveys_two : ∃ p got,
    Lts.run (Pair.step ackedCfg ackedCfg) Pair.init conveyedRun = some p ∧
      p.right.delivered = [[7, 8], [9]] ∧ p.left.reported = [0, 1] ∧
      Conveyed p.left p.right [[7, 8], [9]] got := by
  have h_end : (Lts.run (Pair.step ackedCfg ackedCfg) Pair.init conveyedRun).map
      (fun p => (p.right.delivered, p.left.reported, p.left.took.length, p.right.took.length)) =
        some ([[7, 8], [9]], [0, 1], 2, 0) := by decide +kernel
  obtain ⟨p, h_run, h_p⟩ := Option.map_eq_some_iff.mp h_end
  simp only [Prod.mk.injEq] at h_p
  obtain ⟨h_delivered, h_reported, h_l, h_r⟩ := h_p
  have h_cfg : ackedCfg.rx.Admitted := by constructor <;> simp [ackedCfg, tcpv4claBufsz]
  obtain ⟨⟨got, h_got⟩, -⟩ := pair_conveys (by decide) (by decide) h_cfg h_cfg h_run
    (by omega) (by omega)
  exact ⟨p, got, h_run, h_delivered, h_reported, h_got⟩

end IonContrib.Tcpv4
