/-
  IonContrib.Lib.Octets

  Octet strings: big-endian integers, and overwriting a stretch of a buffer.

  A buffer is the list of all the octets it has room for.  `splice` writes
  into the middle of one, the way `memcpy (buf + off, ...)` does, and
  `take_splice` / `getElem?_splice` say which octets that changes.
-/
import Mathlib.Data.List.Basic
import Mathlib.Tactic.Ring

namespace IonContrib

abbrev Octet := UInt8
abbrev Octets := List UInt8

namespace Octets

/-! ## Big-endian integers -/

/-- The `k` low-order octets of `n`, most significant first. -/
def beBytes : Nat → Nat → Octets
  | 0, _ => []
  | k + 1, n => UInt8.ofNat (n / 256 ^ k) :: beBytes k n

/-- The integer an octet string spells, most significant octet first. -/
def beNat : Octets → Nat
  | [] => 0
  | b :: bs => b.toNat * 256 ^ bs.length + beNat bs

@[simp] theorem length_beBytes (k n : Nat) : (beBytes k n).length = k := by
  induction k with
  | zero => rfl
  | succ k ih => simp [beBytes, ih]

@[simp] theorem beNat_nil : beNat [] = 0 := rfl

theorem beNat_append (xs ys : Octets) :
    beNat (xs ++ ys) = beNat xs * 256 ^ ys.length + beNat ys := by
  induction xs with
  | nil => simp
  | cons x xs ih =>
    simp only [List.cons_append, beNat, ih, List.length_append, pow_add]
    ring

theorem beNat_lt (bs : Octets) : beNat bs < 256 ^ bs.length := by
  induction bs with
  | nil => simp
  | cons b bs ih =>
    have hb : b.toNat + 1 ≤ 256 := b.toNat_lt
    calc b.toNat * 256 ^ bs.length + beNat bs
        < b.toNat * 256 ^ bs.length + 256 ^ bs.length := by omega
      _ = (b.toNat + 1) * 256 ^ bs.length := by ring
      _ ≤ 256 * 256 ^ bs.length := Nat.mul_le_mul_right _ hb
      _ = 256 ^ (b :: bs).length := by simp [pow_succ, Nat.mul_comm]

/-- Spelling a number in `k` octets keeps it modulo `256 ^ k`. -/
theorem beNat_beBytes_mod (k n : Nat) : beNat (beBytes k n) = n % 256 ^ k := by
  induction k with
  | zero => simp [beBytes, Nat.mod_one]
  | succ k ih =>
    have h_head : (UInt8.ofNat (n / 256 ^ k)).toNat = n / 256 ^ k % 256 := by
      simp [UInt8.toNat_ofNat']
    rw [beBytes, beNat, ih, length_beBytes, h_head, pow_succ, Nat.mod_mul]
    ring

@[simp] theorem beNat_beBytes {k n : Nat} (h : n < 256 ^ k) : beNat (beBytes k n) = n := by
  rw [beNat_beBytes_mod, Nat.mod_eq_of_lt h]

/-- Only the low-order octets count. -/
theorem beBytes_mod (k n : Nat) : beBytes k (n % 256 ^ k) = beBytes k n := by
  have h_wide : ∀ j, k ≤ j → beBytes k (n % 256 ^ j) = beBytes k n := by
    induction k with
    | zero =>
      intro j _
      rfl
    | succ k ih =>
      intro j h_le
      obtain ⟨i, rfl⟩ : ∃ i, j = k + (i + 1) := ⟨j - (k + 1), by omega⟩
      have h_digit : n % 256 ^ (k + (i + 1)) / 256 ^ k = n / 256 ^ k % 256 ^ (i + 1) := by
        rw [pow_add, Nat.mod_mul_right_div_self]
      have h_octet : UInt8.ofNat (n / 256 ^ k % 256 ^ (i + 1)) = UInt8.ofNat (n / 256 ^ k) := by
        apply UInt8.toNat_inj.mp
        rw [UInt8.toNat_ofNat', UInt8.toNat_ofNat', pow_succ]
        exact Nat.mod_mul_left_mod _ _ _
      rw [beBytes, beBytes, h_digit, h_octet, ih (k + (i + 1)) (by omega)]
  exact h_wide k (Nat.le_refl k)

/-- An octet string spells its number again. -/
theorem beBytes_beNat (bs : Octets) : beBytes bs.length (beNat bs) = bs := by
  induction bs with
  | nil => rfl
  | cons b bs ih =>
    have h_lt := beNat_lt bs
    have h_pos : 0 < 256 ^ bs.length := Nat.pow_pos (by omega)
    have h_head : (b.toNat * 256 ^ bs.length + beNat bs) / 256 ^ bs.length = b.toNat := by
      rw [Nat.mul_comm, Nat.mul_add_div h_pos, Nat.div_eq_of_lt h_lt, Nat.add_zero]
    have h_tail : (b.toNat * 256 ^ bs.length + beNat bs) % 256 ^ bs.length = beNat bs := by
      rw [Nat.mul_comm, Nat.mul_add_mod, Nat.mod_eq_of_lt h_lt]
    rw [List.length_cons, beNat, beBytes, h_head, ← beBytes_mod, h_tail, ih, UInt8.ofNat_toNat]

/-- High-order octets in front of low-order ones. -/
theorem beBytes_split (j k n : Nat) :
    beBytes j (n / 256 ^ k) ++ beBytes k n = beBytes (j + k) n := by
  induction j with
  | zero => simp [beBytes]
  | succ j ih =>
    rw [Nat.add_right_comm, beBytes, beBytes, List.cons_append, ih, Nat.div_div_eq_div_mul,
      ← pow_add, Nat.add_comm k j]

/-! ## Writing into a buffer -/

/-- `buf` with `data` written over it from offset `off` on. -/
def splice (buf : Octets) (off : Nat) (data : Octets) : Octets :=
  buf.take off ++ data ++ buf.drop (off + data.length)

@[simp] theorem splice_nil (buf : Octets) (off : Nat) : splice buf off [] = buf := by
  simp [splice]

/-- Writing inside a buffer does not change how much it holds. -/
theorem length_splice {buf : Octets} {off : Nat} {data : Octets}
    (h : off + data.length ≤ buf.length) : (splice buf off data).length = buf.length := by
  simp only [splice, List.length_append, List.length_take, List.length_drop]
  omega

/-- Appending at the fill mark of a buffer extends what is filled. -/
theorem take_splice {buf : Octets} {off : Nat} {data : Octets}
    (h : off + data.length ≤ buf.length) :
    (splice buf off data).take (off + data.length) = buf.take off ++ data := by
  have h_len : (buf.take off ++ data).length = off + data.length := by
    simp only [List.length_append, List.length_take]
    omega
  rw [splice, ← h_len, List.take_left']
  rfl

/-- Each octet of a spliced buffer is new inside the stretch written and old
    outside of it. -/
theorem getElem?_splice {buf : Octets} {off : Nat} {data : Octets} (i : Nat)
    (h : off + data.length ≤ buf.length) :
    (splice buf off data)[i]? =
      if off ≤ i ∧ i < off + data.length then data[i - off]? else buf[i]? := by
  have h_off : (buf.take off).length = off := by
    rw [List.length_take]
    omega
  by_cases h_lo : i < off
  · rw [splice, List.append_assoc, List.getElem?_append_left (by omega),
      List.getElem?_take_of_lt h_lo, if_neg (by omega)]
  · by_cases h_hi : i < off + data.length
    · rw [splice, List.append_assoc, List.getElem?_append_right (by omega), h_off,
        List.getElem?_append_left (by omega), if_pos ⟨by omega, h_hi⟩]
    · rw [splice, List.getElem?_append_right (by simp; omega), List.getElem?_drop,
        if_neg (by omega)]
      congr 1
      simp only [List.length_append, h_off]
      omega

end Octets

end IonContrib
