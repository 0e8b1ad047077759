namespace LogPipeline

namespace Rounding

/-!
# Rounding a quotient to a whole number

The quotient of two natural numbers is rounded to the nearest whole number;
when two are equally near, the even one is taken.
-/

/-- The whole number nearest to `numerator / denominator`, the even one of two
that are equally near. -/
def nearestEven (numerator denominator : Nat) : Nat :=
  let whole := numerator / denominator
  let twiceRest := 2 * (numerator % denominator)
  if denominator < twiceRest then whole + 1
  else if twiceRest < denominator then whole
  else if whole % 2 = 0 then whole
  else whole + 1

end Rounding

end LogPipeline
