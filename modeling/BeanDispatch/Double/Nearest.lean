/-! Natural numbers in floating point. A floating-point number has 53 significant bits, so a longer
number becomes the nearest multiple of the last place that it keeps, and the even multiple where two
are equally near. `nearest` states the result as a natural number and knows no greatest one, so a
number is out of range exactly when its nearest one reaches `2 ^ 1024`. -/

namespace BeanDispatch.Double

/-- The multiple of `unit` nearest to `n`, the even multiple of two equally near ones. -/
def nearestMultiple (unit n : Nat) : Nat :=
  let below := n / unit
  let past := 2 * (n % unit)
  if past < unit || (past = unit && below % 2 = 0) then below * unit else (below + 1) * unit

/-- The number with at most 53 significant bits that is nearest to `n`. -/
def nearest (n : Nat) : Nat := nearestMultiple (Nat.pow 2 (n.log2 - 52)) n

/-- The least power of two that is too large for floating point. -/
def limit : Nat := Nat.pow 2 1024

end BeanDispatch.Double
