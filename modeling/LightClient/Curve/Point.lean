import LightClient.Bytes.Tuple
import LightClient.Curve.Residue
/-!
# Points of the twisted Edwards curve `-x² + y² = 1 + d x² y²`

A point is kept as `(x : y : z : t)`, with the product `x * y / z` at hand as `t`, so that sums need
no division.
A point is written in 32 bytes as its `y` with the parity of `x` in the top bit; reading takes `y`
modulo the field's order, so a point may be read from more byte strings than the one it is written
as. `combine` computes a sum of two multiples in one pass over the bits of both factors.
-/
namespace LightClient.Curve

open Residue

/-- A point in extended coordinates: `x / z` and `y / z`, with `t = x * y / z`. -/
structure Point where
  x : Nat
  y : Nat
  z : Nat
  t : Nat
  deriving DecidableEq, Repr

/-- The constant `d` of the curve's equation. -/
def coefficient : Nat :=
  37095705934669439343138083508754565189542113879843219016388785533085940283555

namespace Point

/-- The neutral point. -/
def zero : Point := ⟨0, 1, 1, 0⟩

/-- The sum of two points. -/
def add (p q : Point) : Point :=
  let a := mul (sub p.y p.x) (sub q.y q.x)
  let b := mul (p.y + p.x) (q.y + q.x)
  let c := mul (mul p.t (2 * coefficient)) q.t
  let d := mul (2 * p.z) q.z
  let e := sub b a
  let f := sub d c
  let g := d + c
  let h := b + a
  ⟨mul e f, mul g h, mul f g, mul e h⟩

/-- Twice a point. -/
def double (p : Point) : Point :=
  let a := mul p.x p.x
  let b := mul p.y p.y
  let c := 2 * mul p.z p.z
  let h := a + b
  let e := sub h (mul (p.x + p.y) (p.x + p.y))
  let g := sub a b
  let f := c + g
  ⟨mul e f, mul g h, mul f g, mul e h⟩

/-- The point on the other side of the neutral one. -/
def neg (p : Point) : Point := ⟨Residue.neg p.x, p.y, p.z, Residue.neg p.t⟩

/-- Whether a point is the neutral one. -/
def isZero (p : Point) : Bool := p.x == 0 && p.y == p.z

/-- Whether eight times the point is the neutral one. -/
def hasSmallOrder (p : Point) : Bool := p.double.double.double.isZero

/-- The generator of the large subgroup. -/
def base : Point :=
  let x := 15112221349535400772501151409588531511454012693041857206046113283949847762202
  let y := 46316835694926478169428394003475163141307993866256225615783033603165251855960
  ⟨x, y, 1, mul x y⟩

/-- The point that 32 bytes stand for, if any. -/
def decode (b : Octets 32) : Option Point :=
  let n := leNat b.toList
  let y := n % Nat.pow 2 255 % prime
  let yy := mul y y
  (root (sub yy 1) (mul yy coefficient + 1)).map fun x =>
    let x := if n < Nat.pow 2 255 then x else Residue.neg x
    ⟨x, y, 1, mul x y⟩

/-- The 32 bytes that a point is written as. -/
def encode (p : Point) : Octets 32 :=
  let w := inv p.z
  let x := mul p.x w
  let y := mul p.y w
  ⟨leBytes 32 (y + x % 2 * Nat.pow 2 255), length_leBytes 32 _⟩

/-- The sum of two multiples, `m * p + n * q`, from the bits of `m` and `n`, highest first. The two
lists are equally long. -/
def combineBits (p q both : Point) : List Bool → List Bool → Point → Point
  | a :: as, b :: bs, acc =>
      let twice := acc.double
      combineBits p q both as bs <|
        match a, b with
        | true, true => twice.add both
        | true, false => twice.add p
        | false, true => twice.add q
        | false, false => twice
  | _, _, acc => acc

/-- The sum of two multiples, `m * p + n * q`, for factors below `2 ^ 256`. -/
def combine (m : Nat) (p : Point) (n : Nat) (q : Point) : Point :=
  combineBits p q (p.add q) (bits 256 m) (bits 256 n) zero

end Point

end LightClient.Curve
