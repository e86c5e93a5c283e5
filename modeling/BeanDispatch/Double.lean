/-! Binary floating-point numbers of 64 bits, held as their bits. Nothing here computes with them;
what matters is which two are the same number: a NaN equals nothing, and the two zeros are equal. -/

namespace BeanDispatch

/-- A floating-point number as its 64 bits: sign, eleven bits of exponent, 52 bits of fraction. -/
structure Double where
  bits : UInt64
deriving DecidableEq

namespace Double

def zero : Double := ⟨0⟩

def isNegative (x : Double) : Bool := decide (Nat.pow 2 63 ≤ x.bits.toNat)

def exponentBits (x : Double) : Nat := x.bits.toNat / Nat.pow 2 52 % Nat.pow 2 11

def fractionBits (x : Double) : Nat := x.bits.toNat % Nat.pow 2 52

def isNaN (x : Double) : Bool := decide (x.exponentBits = 2047 ∧ x.fractionBits ≠ 0)

def isInfinite (x : Double) : Bool := decide (x.exponentBits = 2047 ∧ x.fractionBits = 0)

def isZero (x : Double) : Bool := decide (x.exponentBits = 0 ∧ x.fractionBits = 0)

def same (x y : Double) : Bool := !x.isNaN && (x == y || x.isZero && y.isZero)

end Double

end BeanDispatch
