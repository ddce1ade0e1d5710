/-!
# Decimal numbers

`padded` writes a number with at least so many digits. `natural?` reads an unsigned number: decimal
digits, at least one, after an optional plus sign. `integer?` reads a number that may be negative.
-/
namespace LightClient.Text

/-- The decimal digits of a number, filled up on the left with zeros. -/
def padded (width n : Nat) : String :=
  let digits := Nat.toDigits 10 n
  String.ofList (List.replicate (width - digits.length) '0' ++ digits)

/-- The number that a text of digits spells. -/
def digitsValue : List Char → Option Nat
  | [] => none
  | cs => cs.foldl (fun acc c => do
      let n ← acc
      if c.isDigit then some (10 * n + (c.toNat - 48)) else none) (some 0)

/-- The number that a text spells, a plus sign allowed in front. -/
def natural? : List Char → Option Nat
  | '+' :: cs => digitsValue cs
  | cs => digitsValue cs

/-- The number that a text spells, a sign allowed in front. -/
def integer? : List Char → Option Int
  | '-' :: cs => (digitsValue cs).map fun n => -(n : Int)
  | cs => (natural? cs).map Int.ofNat

end LightClient.Text
