/-!
# Arithmetic modulo 2 ^ 255 - 19

Elements are naturals below `prime`; every operation reduces its result. Powers are taken along the
bits of the exponent, highest first. `root` solves `v * x ^ 2 = u` where it can be solved, and gives
the even one of the two solutions.
-/
namespace LightClient.Curve

/-- The order of the field. -/
def prime : Nat := Nat.pow 2 255 - 19

/-- The `w` lowest bits of a number, highest first. -/
def bits : Nat → Nat → List Bool
  | 0, _ => []
  | w + 1, n => n.testBit w :: bits w n

namespace Residue

/-- The sum. -/
def add (a b : Nat) : Nat := (a + b) % prime

/-- The difference, for a second operand below `prime`. -/
def sub (a b : Nat) : Nat := (a + prime - b) % prime

/-- The product. -/
def mul (a b : Nat) : Nat := a * b % prime

/-- The negative of an element. -/
def neg (a : Nat) : Nat := sub 0 a

/-- The power whose exponent has the given bits, highest first. -/
def powBits (a : Nat) (exponent : List Bool) : Nat :=
  exponent.foldl (fun acc b => if b then mul (mul acc acc) a else mul acc acc) 1

/-- A power with an exponent below `2 ^ 255`. -/
def pow (a n : Nat) : Nat := powBits a (bits 255 n)

/-- The inverse of an element that is not zero; zero for zero. -/
def inv (a : Nat) : Nat := pow a (prime - 2)

/-- A square root of minus one. -/
def rootOfMinusOne : Nat :=
  19681161376707505956807079304988542015446066515923890162744021073123829784752

/-- The even solution `x` of `v * x ^ 2 = u`, for `v` not zero. -/
def root (u v : Nat) : Option Nat :=
  let v3 := mul (mul v v) v
  let v7 := mul (mul v3 v3) v
  let r := mul (mul u v3) (pow (mul u v7) ((prime - 5) / 8))
  let square := mul v (mul r r)
  let even (x : Nat) : Nat := if x % 2 = 1 then neg x else x
  if square = u then some (even r)
  else if square = neg u then some (even (mul r rootOfMinusOne))
  else none

end Residue

end LightClient.Curve
