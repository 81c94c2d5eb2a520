/-
  IonContrib.Lib.Decimal

  Decimal numbers in octets.
-/
import IonContrib.Lib.Octets

namespace IonContrib.Octets

def isDigit (c : UInt8) : Bool := 0x30 ≤ c && c ≤ 0x39

/-- The number that digits spell. -/
def decimal (digits : Octets) : Nat := digits.foldl (fun n c => n * 10 + (c.toNat - 0x30)) 0

/-- The number that digits spell behind others that spell `n`. -/
def decimalFrom (n : Nat) (digits : Octets) : Nat :=
  digits.foldl (fun n c => n * 10 + (c.toNat - 0x30)) n

@[simp] theorem decimalFrom_nil (n : Nat) : decimalFrom n [] = n := rfl

@[simp] theorem decimalFrom_cons (n : Nat) (c : UInt8) (digits : Octets) :
    decimalFrom n (c :: digits) = decimalFrom (n * 10 + (c.toNat - 0x30)) digits := by
  simp only [decimalFrom, List.foldl_cons]

/-- More digits make no number smaller. -/
theorem le_decimalFrom (n : Nat) (digits : Octets) : n ≤ decimalFrom n digits := by
  induction digits generalizing n with
  | nil => exact Nat.le_refl n
  | cons c digits ih =>
    have h := ih (n * 10 + (c.toNat - 0x30))
    rw [decimalFrom_cons]
    omega

end IonContrib.Octets
