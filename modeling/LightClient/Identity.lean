import LightClient.Hash.Sha2
import LightClient.Text.Blank
import LightClient.Text.Quoted
import LightClient.Text.Utf8
/-!
# Identities: 32 bytes as 60 letters

A key or a digest is shown as four groups of 14 letters, one group for each 8 bytes, and 4 letters
of checksum. Letters are digits to base 26, the least significant first; keys are shown in capitals,
digests in small letters. Reading ignores case and blanks around the text, and accepts exactly the
texts that writing gives: a group whose value has no place in 8 bytes and a checksum that does not
fit are refused.
-/
namespace LightClient

/-- The case of the letters. -/
inductive Case where
  | upper | lower
  deriving DecidableEq, Repr

namespace Identity

/-- The number of letters of an identity. -/
def length : Nat := 60

/-- The number of letters of a group. -/
def groupLetters : Nat := 14

/-- Why a text is no identity. -/
inductive Flaw where
  /-- The text, blanks removed, is not 60 letters. -/
  | notLetters (text : List Char)
  /-- A group of letters exceeds 8 bytes. -/
  | overflow (group : Nat)
  /-- The last four letters do not fit the others. -/
  | checksum (text : List Char)
  deriving DecidableEq, Repr

/-- The text of a flaw. -/
def Flaw.message : Flaw → String
  | notLetters text => s!"expected 60 letters, got {Text.quoted text}"
  | overflow group => s!"fragment {group} overflows"
  | checksum text => s!"checksum mismatch in {String.ofList text}"

/-- The checksum of 32 bytes: the lowest 18 bits of the first three bytes of their hash. -/
def checksum (b : Octets 32) : Nat := leNat ((sha256 b.toList).toList.take 3) % Nat.pow 2 18

/-- The letter of a digit to base 26. -/
def letter (case : Case) (digit : Nat) : Char :=
  Char.ofNat ((match case with | .upper => 65 | .lower => 97) + digit)

/-- The digit of a letter, in either case. -/
def digit? (c : Char) : Option Nat :=
  if 'A' ≤ c ∧ c ≤ 'Z' then some (c.toNat - 65)
  else if 'a' ≤ c ∧ c ≤ 'z' then some (c.toNat - 97)
  else none

/-- The `n` lowest digits of a number to base 26, the least significant first. -/
def digits : Nat → Nat → List Nat
  | 0, _ => []
  | n + 1, value => value % 26 :: digits n (value / 26)

/-- The number that digits to base 26 spell, the least significant first. -/
def value : List Nat → Nat
  | [] => 0
  | d :: ds => d + 26 * value ds

/-- The digits of the first `n` groups of 8 bytes. -/
def bodyDigits : Nat → Bytes → List Nat
  | 0, _ => []
  | n + 1, bs => digits groupLetters (leNat (bs.take 8)) ++ bodyDigits n (bs.drop 8)

/-- All 60 digits of an identity. -/
def allDigits (b : Octets 32) : List Nat := bodyDigits 4 b.toList ++ digits 4 (checksum b)

/-- The letters of 32 bytes. -/
def letters (case : Case) (b : Octets 32) : List Char := (allDigits b).map (letter case)

/-- The identity of 32 bytes. -/
def encode (case : Case) (b : Octets 32) : String := String.ofList (letters case b)

/-- The bytes of `n` groups of digits, the first of them counted as group `i`. -/
def groupBytes : (n : Nat) → (i : Nat) → List Nat → Except Flaw (Octets (8 * n))
  | 0, _, _ => .ok ⟨[], rfl⟩
  | n + 1, i, ds =>
      let v := value (ds.take groupLetters)
      if v < UInt64.size then do
        let more ← groupBytes n (i + 1) (ds.drop groupLetters)
        return ⟨leBytes 8 v ++ more.toList, by
          rw [List.length_append, length_leBytes, more.length_toList]
          omega⟩
      else .error (.overflow i)

/-- The digits of a text of letters, if it has no other characters. -/
def digitsOf? (cs : List Char) : Option (List Nat) := cs.mapM digit?

/-- The bytes that an identity stands for. -/
def decode (text : String) : Except Flaw (Octets 32) :=
  let cs := Text.trim text.toList
  match digitsOf? cs with
  | some ds =>
      if ds.length = length then do
        let b ← groupBytes 4 0 ds
        if value (ds.drop (4 * groupLetters)) = checksum b then .ok b else .error (.checksum cs)
      else .error (.notLetters cs)
  | none => .error (.notLetters cs)

/-- A byte with capital letters made small. -/
def foldCase (b : UInt8) : UInt8 := if 65 ≤ b ∧ b ≤ 90 then b + 32 else b

/-- The first 60 bytes of a text, blanks around it removed and case ignored, if it has so many. -/
def comparable (text : String) : Option Bytes :=
  let bs := Text.utf8 (Text.trim text.toList)
  if length ≤ bs.length then some ((bs.take length).map foldCase) else none

/-- Whether two texts name the same 32 bytes (`same_identity`): both have 60 bytes and agree in the
first 60 up to case. -/
def same (a b : String) : Bool :=
  match comparable a, comparable b with
  | some x, some y => x == y
  | _, _ => false

end Identity

end LightClient
