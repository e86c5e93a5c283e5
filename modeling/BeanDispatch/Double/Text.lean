import BeanDispatch.Decimal.Shortest
import BeanDispatch.Double

/-! How floating-point numbers are written. Both forms show the shortest digits that read back and
differ in their layout: in texts for readers a number is always written positionally and a whole
number has no point; in the inspection of a value a whole number ends in `.0`, and a very large or
very small one is written with an exponent. -/

namespace BeanDispatch.Double

/-- The decisions that a written form leaves open: for which power of ten of the first digit a
number is written positionally, and what follows a whole number. -/
structure Layout where
  positional : Int → Bool
  wholeMark : String

/-- Always positional, nothing after a whole number. -/
def plain : Layout := ⟨fun _ => true, ""⟩

/-- Positional from `10 ^ -4` up to `10 ^ 16`, and `.0` after a whole number. -/
def inspected : Layout := ⟨fun leading => decide (-4 ≤ leading ∧ leading < 16), ".0"⟩

/-- The number without its sign as a binary fraction; for finite numbers other than zero. -/
def magnitude (x : Double) : Decimal.Binary :=
  if x.exponentBits = 0 then ⟨x.fractionBits, -1074, false⟩
  else ⟨Nat.pow 2 52 + x.fractionBits, x.exponentBits - 1075,
    decide (x.fractionBits = 0 ∧ 1 < x.exponentBits)⟩

/-- Digits with a point after the first `whole` of them, zeros filling what is missing. -/
def positionalText (digits : List Char) (whole : Int) (wholeMark : String) : String :=
  let count : Int := digits.length
  if count ≤ whole then
    String.ofList (digits ++ List.replicate (whole - count).toNat '0') ++ wholeMark
  else if 0 < whole then
    String.ofList (digits.take whole.toNat) ++ "." ++ String.ofList (digits.drop whole.toNat)
  else
    "0." ++ String.ofList (List.replicate (-whole).toNat '0' ++ digits)

/-- One digit, a point and the other digits if there are any, and the power of ten. -/
def exponentText (digits : List Char) (leading : Int) : String :=
  let rest := digits.drop 1
  let fraction := if rest.isEmpty then "" else "." ++ String.ofList rest
  String.ofList (digits.take 1) ++ fraction ++ "e" ++ toString leading

def Layout.text (layout : Layout) (x : Double) : String :=
  if x.isNaN then "NaN"
  else
    let sign := if x.isNegative then "-" else ""
    if x.isInfinite then sign ++ "inf"
    else if x.isZero then sign ++ "0" ++ layout.wholeMark
    else
      let d := x.magnitude.shortest
      let digits := Nat.toDigits 10 d.digits
      let leading := d.exponent + digits.length - 1
      if layout.positional leading then
        sign ++ positionalText digits (leading + 1) layout.wholeMark
      else sign ++ exponentText digits leading

end BeanDispatch.Double
