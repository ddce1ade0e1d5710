import LightClient.Bytes.Basic
/-!
# UTF-8

`utf8` writes a text in bytes. `readable` reads bytes as text: where they are not UTF-8, each longest
start of a character that breaks off, or else each single byte, becomes one replacement character.
-/
namespace LightClient.Text

/-- The bytes of a text. -/
def utf8 (cs : List Char) : Bytes := cs.flatMap String.utf8EncodeChar

/-- What the first bytes of a text stand for: a character, or something that is none; and how many
bytes that takes. -/
structure Unit8 where
  char : Option Char
  width : Nat

/-- Whether a byte can continue a character. -/
def isContinuation (b : UInt8) : Bool := 0x80 ≤ b && b ≤ 0xbf

/-- The six bits of a continuation byte. -/
def sixBits (b : UInt8) : Nat := b.toNat % 64

/-- The bytes that may follow a first byte of three or four: they rule out spellings that are longer
than needed, surrogates, and code points above the last. -/
def secondRange (first : UInt8) : UInt8 × UInt8 :=
  if first = 0xe0 then (0xa0, 0xbf)
  else if first = 0xed then (0x80, 0x9f)
  else if first = 0xf0 then (0x90, 0xbf)
  else if first = 0xf4 then (0x80, 0x8f)
  else (0x80, 0xbf)

/-- Whether the second byte of a character may follow its first. -/
def isSecond (first second : UInt8) : Bool :=
  (secondRange first).1 ≤ second && second ≤ (secondRange first).2

/-- The first character of a text that starts with the given byte, or the length of what takes its
place. -/
def firstChar (a : UInt8) (rest : Bytes) : Unit8 :=
  if a < 0x80 then ⟨some (Char.ofNat a.toNat), 1⟩
  else if 0xc2 ≤ a && a ≤ 0xdf then
    match rest with
    | b :: _ =>
        if isContinuation b then ⟨some (Char.ofNat (a.toNat % 32 * 64 + sixBits b)), 2⟩ else ⟨none, 1⟩
    | [] => ⟨none, 1⟩
  else if 0xe0 ≤ a && a ≤ 0xef then
    match rest with
    | b :: more =>
        if isSecond a b then
          match more with
          | c :: _ =>
              if isContinuation c then
                ⟨some (Char.ofNat ((a.toNat % 16 * 64 + sixBits b) * 64 + sixBits c)), 3⟩
              else ⟨none, 2⟩
          | [] => ⟨none, 2⟩
        else ⟨none, 1⟩
    | [] => ⟨none, 1⟩
  else if 0xf0 ≤ a && a ≤ 0xf4 then
    match rest with
    | b :: more =>
        if isSecond a b then
          match more with
          | c :: last =>
              if isContinuation c then
                match last with
                | d :: _ =>
                    if isContinuation d then
                      ⟨some (Char.ofNat
                        (((a.toNat % 8 * 64 + sixBits b) * 64 + sixBits c) * 64 + sixBits d)), 4⟩
                    else ⟨none, 3⟩
                | [] => ⟨none, 3⟩
              else ⟨none, 2⟩
          | [] => ⟨none, 2⟩
        else ⟨none, 1⟩
    | [] => ⟨none, 1⟩
  else ⟨none, 1⟩

/-- Reads bytes as text, with a replacement character for what is not UTF-8; `skip` bytes belong to
the character before. -/
def readableFrom : Nat → Bytes → List Char
  | _, [] => []
  | skip + 1, _ :: rest => readableFrom skip rest
  | 0, a :: rest =>
      let u := firstChar a rest
      u.char.getD '\ufffd' :: readableFrom (u.width - 1) rest

/-- The text that bytes can be read as. -/
def readable (bs : Bytes) : String := String.ofList (readableFrom 0 bs)

end LightClient.Text
