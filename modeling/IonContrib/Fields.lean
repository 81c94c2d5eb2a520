/-
  IonContrib.Fields

  Codecs put together from the fields of a message.

  `Field read enc P` is what makes `read` and `enc` one format: on the values
  in `P` each undoes the other, at every place in a buffer.  Fields compose
  (`Field.andThen`), so a message needs no more than the list of its own, and
  `tagged_lawful` makes of them the laws of its decoder.

  On the other side a writer has `Wrote` the octets so far or has run out of
  room, and then it stays so.
-/
import IonContrib.Cursor

namespace IonContrib

open Octets

/-! ## Writers -/

/-- All of `bs` has been written, or there was no room for it. -/
structure Writer.Wrote (w : Writer) (cap : Nat) (bs : Octets) : Prop where
  room : w.cap = cap
  buf : w.ok = true ∧ w.buf = bs ∧ bs.length ≤ cap ∨ w.ok = false ∧ cap < bs.length

theorem wInit_wrote (cap : Nat) : (wInit cap).Wrote cap [] :=
  ⟨rfl, Or.inl ⟨rfl, rfl, Nat.zero_le cap⟩⟩

namespace Writer.Wrote

variable {cap : Nat} {w : Writer} {bs : Octets}

theorem bytes (h : w.Wrote cap bs) (p : Octets) : (wBytes w p).Wrote cap (bs ++ p) := by
  obtain ⟨h_cap, ⟨h_ok, h_buf, h_len⟩ | ⟨h_ok, h_len⟩⟩ := h
  · by_cases h_room : w.buf.length + p.length > w.cap
    · rw [wBytes, if_pos (by simp [h_room])]
      rw [h_buf, h_cap] at h_room
      exact ⟨h_cap, Or.inr ⟨rfl, by rwa [List.length_append]⟩⟩
    · rw [wBytes, if_neg (by simp [h_ok, h_room])]
      rw [h_buf, h_cap] at h_room
      refine ⟨h_cap, Or.inl ⟨h_ok, by rw [h_buf], ?_⟩⟩
      rw [List.length_append]
      omega
  · -- Out of room once, out of room for good.
    rw [wBytes, if_pos (by simp [h_ok])]
    refine ⟨h_cap, Or.inr ⟨rfl, ?_⟩⟩
    rw [List.length_append]
    omega

theorem u8 (h : w.Wrote cap bs) (v : UInt8) : (wU8 w v).Wrote cap (bs ++ [v]) := h.bytes [v]

theorem u16 (h : w.Wrote cap bs) (v : Nat) : (wU16 w v).Wrote cap (bs ++ beBytes 2 v) := by
  have h_two := (h.u8 (UInt8.ofNat (v / 2 ^ 8))).u8 (UInt8.ofNat v)
  rw [List.append_assoc] at h_two
  have h_octets : beBytes 2 v = [UInt8.ofNat (v / 2 ^ 8)] ++ [UInt8.ofNat v] := by simp [beBytes]
  rw [h_octets]
  exact h_two

theorem u32 (h : w.Wrote cap bs) (v : Nat) : (wU32 w v).Wrote cap (bs ++ beBytes 4 v) := by
  have h_two := (h.u16 (v / 2 ^ 16)).u16 v
  rwa [List.append_assoc, show 2 ^ 16 = 256 ^ 2 from rfl, beBytes_split 2 2] at h_two

theorem u64 (h : w.Wrote cap bs) (v : Nat) : (wU64 w v).Wrote cap (bs ++ beBytes 8 v) := by
  have h_two := (h.u32 (v / 2 ^ 32)).u32 v
  rwa [List.append_assoc, show 2 ^ 32 = 256 ^ 4 from rfl, beBytes_split 4 4] at h_two

theorem result (h : w.Wrote cap bs) : w.result = if bs.length ≤ cap then some bs else none := by
  unfold Writer.result
  obtain ⟨-, ⟨h_ok, h_buf, h_len⟩ | ⟨h_ok, h_len⟩⟩ := h
  · rw [h_ok, if_pos rfl, if_pos h_len, h_buf]
  · rw [h_ok, if_neg Bool.false_ne_true, if_neg (Nat.not_le.mpr h_len)]

end Writer.Wrote

/-! ## Fields -/

/-- `read` and `enc` are one format for the values in `P`. -/
structure Field {α : Type} (read : Reader → α × Reader) (enc : α → Octets) (P : α → Prop) :
    Prop where
  reads : ∀ {a}, P a → ∀ t off,
    read ⟨enc a ++ t, off, true⟩ = (a, ⟨t, off + (enc a).length, true⟩)
  /-- What is read without running out of octets is what has been written there. -/
  accepts : ∀ {r}, (read r).2.ok = true → r.ok = true ∧ P (read r).1 ∧
    r.rest = enc (read r).1 ++ (read r).2.rest ∧
      (read r).2.off = r.off + (enc (read r).1).length

namespace Field

variable {α β γ : Type} {read : Reader → α × Reader} {enc : α → Octets} {P : α → Prop}

theorem congr {enc' : α → Octets} {P' : α → Prop} (h : Field read enc P)
    (h_enc : ∀ a, P a → enc a = enc' a) (h_P : ∀ a, P a ↔ P' a) : Field read enc' P' where
  reads := by
    intro a h_a t off
    have h_a := (h_P a).mpr h_a
    rw [← h_enc a h_a]
    exact h.reads h_a t off
  accepts := by
    intro r h_ok
    obtain ⟨h_r, h_a, h_rest, h_off⟩ := h.accepts h_ok
    rw [← h_enc _ h_a]
    exact ⟨h_r, (h_P _).mp h_a, h_rest, h_off⟩

/-- Nothing more to read. -/
theorem done (c : α) : Field (fun r => (c, r)) (fun _ => []) (· = c) where
  reads := by
    rintro a rfl t off
    rfl
  accepts h_ok := ⟨h_ok, rfl, rfl, rfl⟩

/-- A field and, depending on it, the fields behind it. -/
theorem andThen {next : α → Reader → γ × Reader} {encs : α → γ → Octets}
    {Q : α → γ → Prop} (h : Field read enc P) (proj : γ → α)
    (h_next : ∀ a, Field (next a) (encs a) (Q a)) (h_proj : ∀ a c, Q a c → proj c = a) :
    Field (Reader.andThen read next) (fun c => enc (proj c) ++ encs (proj c) c)
      (fun c => P (proj c) ∧ Q (proj c) c) where
  reads := by
    rintro c ⟨h_a, h_c⟩ t off
    rw [Reader.andThen, List.append_assoc, h.reads h_a]
    rw [(h_next _).reads h_c, List.length_append, Nat.add_assoc]
  accepts := by
    intro r h_ok
    unfold Reader.andThen at h_ok ⊢
    obtain ⟨h_first, h_c, h_rest', h_off'⟩ := (h_next _).accepts h_ok
    obtain ⟨h_r, h_a, h_rest, h_off⟩ := h.accepts h_first
    have h_eq := h_proj _ _ h_c
    refine ⟨h_r, ?_, ?_, ?_⟩
    · rw [h_eq]
      exact ⟨h_a, h_c⟩
    · rw [h_eq, List.append_assoc, ← h_rest', ← h_rest]
    · rw [h_eq, List.length_append, h_off', h_off, Nat.add_assoc]

/-- Fields read a buffer no further than they take it. -/
theorem stable (h : Field read enc P) : Reader.Stable read where
  ok h_ok := (h.accepts h_ok).1
  more := by
    intro r h_ok t
    obtain ⟨h_r, h_a, h_rest, h_off⟩ := h.accepts h_ok
    have h_more : r.more t = ⟨enc (read r).1 ++ ((read r).2.rest ++ t), r.off, true⟩ := by
      rw [Reader.more, h_rest, List.append_assoc, ← h_r]
    rw [h_more, h.reads h_a]
    rw [← h_off, ← h_ok]
    rfl
  moves := by
    intro r h_ok
    obtain ⟨-, -, h_rest, h_off⟩ := h.accepts h_ok
    rw [h_off, h_rest, List.length_append]
    omega

/-! ## Integers and octet strings -/

theorem u8 : Field rU8 (fun v => [v]) fun _ => True where
  reads _ _ _ := rfl
  accepts := by
    rintro ⟨rest, off, ok⟩ h_ok
    cases ok with
    | false => cases h_ok
    | true =>
      cases rest with
      | nil => cases h_ok
      | cons b bs => exact ⟨rfl, trivial, rfl, rfl⟩

/-- The same field under another name of its values. -/
theorem map (h : Field read enc P) (k : α → β) (inv : β → α) (h_inv : ∀ a, P a → inv (k a) = a) :
    Field (fun r => (k (read r).1, (read r).2)) (fun b => enc (inv b))
      (fun b => P (inv b) ∧ k (inv b) = b) where
  reads := by
    rintro b ⟨h_b, h_k⟩ t off
    rw [h.reads h_b, h_k]
  accepts := by
    intro r h_ok
    obtain ⟨h_r, h_a, h_rest, h_off⟩ := h.accepts h_ok
    dsimp only
    rw [h_inv _ h_a]
    exact ⟨h_r, ⟨h_a, rfl⟩, h_rest, h_off⟩

/-- An integer in two halves of `k` octets. -/
theorem halves {k : Nat} {read : Reader → Nat × Reader}
    (h : Field read (beBytes k) (· < 256 ^ k)) :
    Field (fun r => ((read r).1 * 256 ^ k + (read (read r).2).1, (read (read r).2).2))
      (beBytes (k + k)) (· < 256 ^ (k + k)) := by
  have h_pos : 0 < 256 ^ k := Nat.pow_pos (by decide)
  have h_low : ∀ hi, Field (fun r => (hi * 256 ^ k + (read r).1, (read r).2))
      (fun n => beBytes k (n % 256 ^ k))
      (fun n => n % 256 ^ k < 256 ^ k ∧ hi * 256 ^ k + n % 256 ^ k = n) := by
    intro hi
    refine h.map (fun lo => hi * 256 ^ k + lo) (· % 256 ^ k) fun lo h_lo => ?_
    rw [Nat.mul_add_mod', Nat.mod_eq_of_lt h_lo]
  have h_both := h.andThen (· / 256 ^ k) h_low fun hi n ⟨_, h_n⟩ => by
    rw [← h_n, Nat.mul_comm, Nat.mul_add_div h_pos, Nat.div_eq_of_lt (by omega), Nat.add_zero]
  refine h_both.congr (fun n _ => ?_) (fun n => ?_)
  · rw [beBytes_mod, beBytes_split]
  · have h_div := Nat.div_add_mod' n (256 ^ k)
    have h_mod := Nat.mod_lt n h_pos
    rw [Nat.div_lt_iff_lt_mul h_pos, pow_add]
    exact ⟨And.left, fun h_n => ⟨h_n, h_mod, h_div⟩⟩

theorem u16 : Field rU16 (beBytes 2) (· < 256 ^ 2) := by
  have h_one : Field (fun r => ((rU8 r).1.toNat, (rU8 r).2)) (beBytes 1) (· < 256 ^ 1) := by
    refine (u8.map UInt8.toNat UInt8.ofNat fun v _ => ?_).congr (fun n _ => ?_) (fun n => ?_)
    · exact UInt8.ofNat_toNat
    · simp [beBytes]
    · rw [UInt8.toNat_ofNat', true_and, pow_one, Nat.mod_eq_iff_lt (by decide)]
  exact h_one.halves

theorem u32 : Field rU32 (beBytes 4) (· < 256 ^ 4) := u16.halves

theorem u64 : Field rU64 (beBytes 8) (· < 256 ^ 8) := u32.halves

/-- `n` octets as they are. -/
theorem octets (n : Nat) : Field (fun r => ((rBytes r n).1.getD [], (rBytes r n).2)) id
    (fun bs => bs.length = n) where
  reads := by
    rintro bs rfl t off
    rw [id, rBytes_append]
    rfl
  accepts := by
    intro r h_ok
    dsimp only at h_ok ⊢
    unfold rBytes at h_ok ⊢
    split at h_ok
    · cases h_ok
    · rename_i h_room
      rw [if_neg h_room]
      simp only [Bool.or_eq_true, decide_eq_true_eq, not_or, Nat.not_lt, Bool.not_eq_true',
        Bool.not_eq_false] at h_room
      have h_len : (r.rest.take n).length = n := List.length_take_of_le h_room.2
      exact ⟨h_room.1, h_len, (List.take_append_drop n r.rest).symm, by simp [h_len]⟩

end Field

/-- A list of octets behind its length. -/
def counted (rLen : Reader → Nat × Reader) : Reader → Octets × Reader :=
  Reader.andThen rLen fun len r => ((rBytes r len).1.getD [], (rBytes r len).2)

theorem field_counted {k : Nat} {rLen : Reader → Nat × Reader}
    (h : Field rLen (beBytes k) (· < 256 ^ k)) :
    Field (counted rLen) (fun bs => beBytes k bs.length ++ bs) (fun bs => bs.length < 256 ^ k) :=
  (h.andThen List.length Field.octets fun _ _ h_len => h_len).congr (fun _ _ => rfl)
    fun _ => and_iff_left rfl

/-! ## Messages -/

/-- A decoder: the octets that tell the message apart, and then its fields. -/
def tagged {μ : Type} (tag : Octets) (fields : Reader → μ × Reader) (buf : Octets) : Decoded μ :=
  if buf.length < tag.length then .need
  else if buf.take tag.length ≠ tag then .bad
  else
    let out := fields ⟨buf.drop tag.length, tag.length, true⟩
    if out.2.ok then .ok out.1 out.2.off else .need

/-- The laws of a wire format.  A message has one encoding `wire m`, which an encoder makes as
    soon as there is room for it. -/
structure Lawful {μ : Type} (encode : Nat → μ → Option Octets) (decode : Octets → Decoded μ)
    (wire : μ → Octets) (InRange : μ → Prop) : Prop where
  encode_eq : ∀ cap m, encode cap m = if (wire m).length ≤ cap then some (wire m) else none
  /-- Whatever follows an encoding, the decoder gives the message back and takes no more. -/
  decode_wire : ∀ m, InRange m → ∀ t, decode (wire m ++ t) = .ok m (wire m).length
  /-- What is accepted is the encoding of an acceptable message. -/
  of_decode : ∀ {buf m used}, decode buf = .ok m used →
    InRange m ∧ used ≤ buf.length ∧ wire m = buf.take used
  /-- A proper prefix is a message that is not complete. -/
  decode_prefix : ∀ m, InRange m → ∀ k < (wire m).length, decode ((wire m).take k) = .need

theorem tagged_lawful {μ : Type} {encode : Nat → μ → Option Octets} {tag : Octets}
    {fields : Reader → μ × Reader} {enc : μ → Octets} {InRange : μ → Prop}
    (h_encode : ∀ cap m, ∃ w, encode cap m = w.result ∧ Writer.Wrote w cap (tag ++ enc m))
    (h : Field fields enc InRange) :
    Lawful encode (tagged tag fields) (fun m => tag ++ enc m) InRange where
  encode_eq cap m := by
    obtain ⟨w, h_eq, h_wrote⟩ := h_encode cap m
    rw [h_eq, h_wrote.result]
  decode_wire m h_m t := by
    have h_long : ¬ (tag ++ enc m ++ t).length < tag.length := by simp
    have h_tag : (tag ++ enc m ++ t).take tag.length = tag := by simp
    have h_rest : (tag ++ enc m ++ t).drop tag.length = enc m ++ t := by simp
    rw [tagged, if_neg h_long, if_neg (not_not_intro h_tag), h_rest, h.reads h_m]
    simp
  of_decode := by
    intro buf m used h_dec
    unfold tagged at h_dec
    split at h_dec
    · cases h_dec
    split at h_dec
    · cases h_dec
    rename_i h_long h_tag
    have h_accepts := h.accepts (r := ⟨buf.drop tag.length, tag.length, true⟩)
    generalize fields ⟨buf.drop tag.length, tag.length, true⟩ = out at h_dec h_accepts
    dsimp only at h_dec
    split at h_dec
    · rename_i h_ok
      obtain ⟨-, h_m, h_rest, h_off⟩ := h_accepts h_ok
      obtain ⟨rfl, rfl⟩ := Decoded.ok.inj h_dec
      dsimp only at h_rest h_off
      have h_buf : buf = tag ++ (enc out.1 ++ out.2.rest) := by
        rw [← h_rest]
        exact (List.take_append_drop tag.length buf).symm.trans
          (congrArg (· ++ buf.drop tag.length) (not_not.mp h_tag))
      refine ⟨h_m, ?_, ?_⟩
      · rw [h_off, h_buf]
        simp only [List.length_append]
        omega
      · rw [h_off, h_buf, List.take_length_add_append, List.take_left']
        rfl
    · cases h_dec
  decode_prefix m h_m k h_k := by
    rw [List.length_append] at h_k
    unfold tagged
    by_cases h_short : k < tag.length
    · rw [if_pos]
      rw [List.length_take, List.length_append]
      omega
    obtain ⟨j, rfl⟩ : ∃ j, k = tag.length + j := ⟨k - tag.length, by omega⟩
    have h_take : (tag ++ enc m).take (tag.length + j) = tag ++ (enc m).take j :=
      List.take_length_add_append _
    have h_tag : (tag ++ (enc m).take j).take tag.length = tag := by simp
    have h_rest : (tag ++ (enc m).take j).drop tag.length = (enc m).take j := by simp
    rw [h_take, if_neg (by simp), if_neg (not_not_intro h_tag), h_rest]
    dsimp only
    -- Were this enough, the octets that are missing would be left over behind the message.
    refine if_neg fun h_ok => ?_
    have h_more := h.stable.more h_ok ((enc m).drop j)
    have h_whole := h.reads h_m [] tag.length
    rw [Reader.more, List.take_append_drop] at h_more
    rw [List.append_nil] at h_whole
    have h_left : _ ++ (enc m).drop j = [] :=
      congrArg (fun out => out.2.rest) (h_more.symm.trans h_whole)
    have h_none := congrArg List.length (List.append_eq_nil_iff.mp h_left).2
    rw [List.length_drop, List.length_nil] at h_none
    omega

/-- A decoder that looks at the one octet of the message type first. -/
theorem tagged_type {μ : Type} {type : UInt8} (h_type : type ≠ 0)
    (fields : Reader → μ × Reader) (buf : Octets) :
    tagged [type] fields buf =
      if (rU8 (rInit buf)).1 != type then
        if (rU8 (rInit buf)).2.ok then .bad else .need
      else
        let out := fields (rU8 (rInit buf)).2
        if out.2.ok then .ok out.1 out.2.off else .need := by
  cases buf with
  | nil =>
    have h_other : ((0 : UInt8) != type) = true := by simpa using Ne.symm h_type
    have h_empty : ([] : Octets).length < [type].length := Nat.zero_lt_one
    rw [tagged, if_pos h_empty]
    exact (if_pos h_other).symm
  | cons b bs =>
    have h_some : ¬ (b :: bs).length < [type].length := by simp
    rw [tagged, if_neg h_some]
    by_cases h_b : b = type
    · subst h_b
      exact (if_neg (not_not_intro rfl)).trans (if_neg (by simp [rInit])).symm
    · have h_tag : (b :: bs).take [type].length ≠ [type] := by simpa using h_b
      rw [if_pos h_tag]
      exact (if_pos (show (b != type) = true by simpa using h_b)).symm

/-- What the C function returns: the number of octets goes into an `int`. -/
def Decoded.ret {μ : Type} : Decoded μ → Int
  | .need => 0
  | .bad => -1
  | .ok _ used => if used % 2 ^ 32 < 2 ^ 31 then used % 2 ^ 32 else used % 2 ^ 32 - 2 ^ 32

namespace Lawful

variable {μ : Type} {encode : Nat → μ → Option Octets} {decode : Octets → Decoded μ}
  {wire : μ → Octets} {InRange : μ → Prop}

end Lawful

end IonContrib
