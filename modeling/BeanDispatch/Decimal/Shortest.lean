/-! The shortest decimal that reads back as a given binary fraction. A positive number `m * 2 ^ q`
owns the interval of reals that round to it; its ends belong to it exactly when `m` is even. On the
grid of decimals with `n` digits only the two neighbours of the number can lie in the interval
before any other point does, so `shortest` tries these two for `n = 1, 2, …` and takes the first
grid with a hit, of two hits the nearer, and the upper one of two equally near. All arithmetic is
exact, on natural numbers. -/

namespace BeanDispatch.Decimal

/-- The decimal `digits * 10 ^ exponent`. -/
structure Scaled where
  digits : Nat
  exponent : Int
deriving DecidableEq

/-- A positive binary fraction `mantissa * 2 ^ exponent`; `closeBelow` marks a number whose lower
neighbour is only half as far away as its upper one. -/
structure Binary where
  mantissa : Nat
  exponent : Int
  closeBelow : Bool

/-- `base ^ e` as a quotient of natural numbers. -/
def power (base : Nat) (e : Int) : Nat × Nat :=
  if 0 ≤ e then (base.pow e.toNat, 1) else (1, base.pow (-e).toNat)

/-- A number and the ends of its interval, counted in steps of a decimal grid; every component is
a numerator over `denominator`. -/
structure OnGrid where
  value : Nat
  low : Nat
  high : Nat
  denominator : Nat
  closed : Bool

/-- Measures a number on the grid of multiples of `10 ^ e`. A quarter of the last binary place is
the common unit of the number and of both ends. -/
def Binary.onGrid (x : Binary) (e : Int) : OnGrid :=
  let unit := power 2 (x.exponent - 2)
  let step := power 10 e
  let scale := unit.1 * step.2
  { value := 4 * x.mantissa * scale
    low := (4 * x.mantissa - if x.closeBelow then 1 else 2) * scale
    high := (4 * x.mantissa + 2) * scale
    denominator := step.1 * unit.2
    closed := x.mantissa % 2 = 0 }

/-- Whether the grid point `d` reads back as the number. -/
def OnGrid.holds (g : OnGrid) (d : Nat) : Bool :=
  if g.closed then decide (g.low ≤ d * g.denominator ∧ d * g.denominator ≤ g.high)
  else decide (g.low < d * g.denominator ∧ d * g.denominator < g.high)

/-- The neighbour of the number on this grid that reads back, the nearer of two. -/
def OnGrid.nearest? (g : OnGrid) : Option Nat :=
  let below := g.value / g.denominator
  let above := below + 1
  match g.holds below, g.holds above with
  | true, true =>
    if 2 * g.value < (2 * below + 1) * g.denominator then some below else some above
  | true, false => some below
  | false, true => some above
  | false, false => none

/-- The power of ten of the first digit. The least positive number is above `10 ^ -324`, so
scaling by `10 ^ 400` leaves all digits that count before the point. -/
def Binary.leadingExponent (x : Binary) : Int :=
  let g := x.onGrid (-400)
  ((Nat.toDigits 10 (g.value / g.denominator)).length : Int) - 401

/-- Tries grids of `17 - fuel + 1` digits and more. -/
def Binary.shortestFrom (x : Binary) (leading : Int) : Nat → Scaled
  | 0 => ⟨0, 0⟩
  | fuel + 1 =>
    let count := 17 - fuel
    let exponent := leading - count + 1
    match (x.onGrid exponent).nearest? with
    | some d => if d = Nat.pow 10 count then ⟨1, leading + 1⟩ else ⟨d, exponent⟩
    | none => x.shortestFrom leading fuel

/-- The shortest decimal that reads back; seventeen digits always suffice. -/
def Binary.shortest (x : Binary) : Scaled := x.shortestFrom x.leadingExponent 17

end BeanDispatch.Decimal
