import RiscVContracts.Uniswap.Host

namespace RiscVContracts.Math

open Host

/-- The loop of `sqrt_u256`. It stops at the first estimate that does not
decrease, so the current one bounds the number of rounds; a zero estimate
would make the division of the body panic. -/
def sqrtLoop (y z x : U256) : Option U256 :=
  if x < z then
    if x = 0 then none else sqrtLoop y x ((y / x + x) / 2)
  else
    some z
termination_by z.toNat
decreasing_by exact BitVec.lt_def.mp ‹x < z›

def sqrtU256 (y : U256) : Option U256 :=
  if 3 < y then sqrtLoop y y (y / 2 + 1)
  else if y ≠ 0 then some 1
  else some 0

end RiscVContracts.Math
