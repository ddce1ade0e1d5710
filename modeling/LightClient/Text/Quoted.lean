import LightClient.Text.Ranges
/-!
# Quoted texts

A text is quoted for an error message between double quotes, in a form that shows each character:
the quote, the backslash and four controls have a short escape, characters that combine with their
neighbour or have no visible form are written as their code point, all others stand for themselves.
-/
namespace LightClient.Text

/-- The lowercase hexadecimal digits of a number, without leading zeros. -/
def hexNat (n : Nat) : List Char := Nat.toDigits 16 n

/-- The form of one character inside quotes. -/
def quoteChar (c : Char) : List Char :=
  match c with
  | '\x00' => ['\\', '0']
  | '\t' => ['\\', 't']
  | '\r' => ['\\', 'r']
  | '\n' => ['\\', 'n']
  | '\\' => ['\\', '\\']
  | '"' => ['\\', '"']
  | c =>
      if inRanges combining c || inRanges invisible c then
        ['\\', 'u', '\x7b'] ++ hexNat c.toNat ++ ['\x7d']
      else [c]

/-- A text between double quotes. -/
def quoted (cs : List Char) : String :=
  String.ofList ('"' :: cs.flatMap quoteChar ++ ['"'])

end LightClient.Text
