import BeanDispatch.Double.Nearest

/-! Numerals of JSON texts and the range of the numbers they stand for. A numeral is read in floating
point: its leading digits, as many as make a number of 64 bits, are rounded to floating point and
multiplied by the power of ten that is left, itself rounded, and the product is rounded again. The
numeral is too large when this leads out of the range of floating point, so near the greatest number
it can matter how many digits are written. -/

namespace BeanDispatch.Json

/-- The digits a text begins with, and the rest. -/
def digits (cs : List Char) : List Char × List Char := (cs.takeWhile Char.isDigit,
  cs.dropWhile Char.isDigit)

structure Numeral where
  negative : Bool
  whole : List Char
  fraction : List Char
  exponent : Int

def digitValue (c : Char) : Nat := c.toNat - '0'.toNat

def natOf (cs : List Char) : Nat := cs.foldl (fun n c => n * 10 + digitValue c) 0

/-- An exponent, if the text begins with one; `none` if it breaks off. -/
def exponent? : List Char → Option (Int × List Char)
  | c :: rest =>
    if c = 'e' || c = 'E' then
      let (negative, unsigned) := match rest with
        | '-' :: r => (true, r)
        | '+' :: r => (false, r)
        | r => (false, r)
      let (ds, after) := digits unsigned
      if ds.isEmpty then none
      else some (if negative then -(natOf ds : Int) else natOf ds, after)
    else some (0, c :: rest)
  | [] => some (0, [])

/-- The numeral a text begins with and the rest; no digits follow a leading zero. -/
def numeral? (cs : List Char) : Option (Numeral × List Char) :=
  let (negative, cs) := match cs with
    | '-' :: r => (true, r)
    | r => (false, r)
  let (whole, cs) := digits cs
  if whole.isEmpty || whole.length > 1 && whole.head? = some '0' then none
  else
    match cs with
    | '.' :: r =>
      let (fraction, r) := digits r
      if fraction.isEmpty then none
      else (exponent? r).map fun e => (⟨negative, whole, fraction, e.1⟩, e.2)
    | r => (exponent? r).map fun e => (⟨negative, whole, [], e.1⟩, e.2)

/-- The number of the leading digits, as many as keep it below `2 ^ 64`, and their count; `number`
and `count` belong to the digits already read. -/
def leading (number count : Nat) : List Char → Nat × Nat
  | [] => (number, count)
  | c :: rest =>
    let longer := number * 10 + digitValue c
    if longer < Nat.pow 2 64 then leading longer (count + 1) rest else (number, count)

def maxPowerOfTen : Nat := 308

/-- Whether a numeral is beyond the range of floating point. A negative power of ten makes the number
smaller and cannot lead out of range. -/
def Numeral.tooLarge (n : Numeral) : Bool :=
  let (significand, count) := leading 0 0 (n.whole ++ n.fraction)
  let power := n.exponent + n.whole.length - count
  if significand = 0 || power < 0 then false
  else if maxPowerOfTen < power then true
  else
    decide (Double.limit ≤
      Double.nearest (Double.nearest significand * Double.nearest (Nat.pow 10 power.toNat)))

end BeanDispatch.Json
