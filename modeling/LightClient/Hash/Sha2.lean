import LightClient.Bytes.Tuple
/-!
# The SHA-2 hash functions

Both functions are one algorithm over words of 32 or of 64 bits. A message is cut into blocks of 16
words; its last bytes are followed by a one bit, zero bits and the message's length in bits, so that
they fill one or two blocks. A block is the beginning of a schedule of one word a round. In each round
the first of the 16 words at hand is mixed into eight words of state, and the block moves on by a word
(`advance`). The digest is the final state, most significant byte first. What sets the two apart is a
`Variant`: word, constants and rotations. Digests have 32 and 64 bytes, by their types.
-/
namespace LightClient.Sha2

/-- What the algorithm needs of its words: arithmetic modulo `256 ^ size`, bit operations, and the
way from and to bytes. -/
class Word (W : Type) extends Add W, AndOp W, XorOp W, Complement W where
  size : Nat
  zero : W
  rotate : W → Nat → W
  shift : W → Nat → W
  snoc : W → UInt8 → W
  toNat : W → Nat

instance : Word UInt32 where
  size := 4
  zero := 0
  rotate x n := x >>> n.toUInt32 ||| x <<< (32 - n.toUInt32)
  shift x n := x >>> n.toUInt32
  snoc x b := x <<< 8 ||| b.toUInt32
  toNat := UInt32.toNat

instance : Word UInt64 where
  size := 8
  zero := 0
  rotate x n := x >>> n.toUInt64 ||| x <<< (64 - n.toUInt64)
  shift x n := x >>> n.toUInt64
  snoc x b := x <<< 8 ||| b.toUInt64
  toNat := UInt64.toNat

/-- Three amounts by which a word is rotated, or twice rotated and once shifted. -/
structure Amounts where
  first : Nat
  second : Nat
  third : Nat

/-- The eight words carried from block to block. -/
structure State (W : Type) where
  a : W
  b : W
  c : W
  d : W
  e : W
  f : W
  g : W
  h : W

/-- Sixteen words of the schedule, in order. -/
structure Block (W : Type) where
  (w0 w1 w2 w3 w4 w5 w6 w7 : W)
  (w8 w9 w10 w11 w12 w13 w14 w15 : W)

/-- A block of one word only. -/
@[specialize] def Block.fill {W : Type} (w : W) : Block W := ⟨w, w, w, w, w, w, w, w, w, w, w, w, w, w, w, w⟩

/-- The block a word further on in the schedule. -/
@[specialize] def Block.push {W : Type} : Block W → W → Block W
  | ⟨_, w1, w2, w3, w4, w5, w6, w7, w8, w9, w10, w11, w12, w13, w14, w15⟩, w =>
    ⟨w1, w2, w3, w4, w5, w6, w7, w8, w9, w10, w11, w12, w13, w14, w15, w⟩

/-- What sets one function of the family apart from the other. -/
structure Variant (W : Type) where
  initial : State W
  roundConstants : List W
  bigSigma0 : Amounts
  bigSigma1 : Amounts
  smallSigma0 : Amounts
  smallSigma1 : Amounts

section

variable {W : Type} [Word W]

/-- The exclusive or of three rotations. -/
@[specialize] def rotations (r : Amounts) (x : W) : W :=
  Word.rotate x r.first ^^^ Word.rotate x r.second ^^^ Word.rotate x r.third

/-- The exclusive or of two rotations and a shift. -/
@[specialize] def mixed (r : Amounts) (x : W) : W :=
  Word.rotate x r.first ^^^ Word.rotate x r.second ^^^ Word.shift x r.third

/-- Puts the next `n` bytes behind a word, and gives the bytes after them. -/
@[specialize] def snocs : (n : Nat) → W → Bytes → W × Bytes
  | n + 1, x, b :: bs => snocs n (Word.snoc x b) bs
  | _, x, bs => (x, bs)

/-- The word that the next bytes spell, most significant first, and the bytes after them. -/
@[specialize] def nextWord (bs : Bytes) : W × Bytes := snocs (Word.size W) Word.zero bs

/-- Moves a block on by the `n` words that the next bytes spell, and gives the bytes after them. -/
@[specialize] def pushes : (n : Nat) → Block W → Bytes → Block W × Bytes
  | 0, block, bs => (block, bs)
  | n + 1, block, bs =>
      let (w, rest) := nextWord bs
      pushes n (block.push w) rest

/-- The block that the next bytes spell, and the bytes after them. -/
@[specialize] def nextBlock (bs : Bytes) : Block W × Bytes := pushes 16 (.fill Word.zero) bs

/-- Moves a block on by a word, made of the words 16, 15, 7 and 2 places before it. -/
@[specialize] def advance (v : Variant W) (block : Block W) : Block W :=
  block.push
    (mixed v.smallSigma1 block.w14 + block.w9 + mixed v.smallSigma0 block.w1 + block.w0)

/-- One round with its constant and its word of the schedule. -/
@[specialize] def round (v : Variant W) : State W → W → W → State W
  | ⟨a, b, c, d, e, f, g, h⟩, k, w =>
    let choice := (e &&& f) ^^^ (~~~e &&& g)
    let majority := (a &&& b) ^^^ (a &&& c) ^^^ (b &&& c)
    let t := h + rotations v.bigSigma1 e + choice + k + w
    ⟨t + (rotations v.bigSigma0 a + majority), a, b, c, d + t, e, f, g⟩

/-- The rounds of a block, in order. -/
@[specialize] def rounds (v : Variant W) : List W → Block W → State W → State W
  | [], _, s => s
  | k :: ks, block, s => rounds v ks (advance v block) (round v s k block.w0)

/-- The sum of two states, word by word. -/
@[specialize] def State.add (s t : State W) : State W :=
  ⟨s.a + t.a, s.b + t.b, s.c + t.c, s.d + t.d, s.e + t.e, s.f + t.f, s.g + t.g, s.h + t.h⟩

/-- Mixes a block into the state. -/
@[specialize] def compress (v : Variant W) (s : State W) (block : Block W) : State W :=
  s.add (rounds v v.roundConstants block s)

/-- Mixes `n` blocks into the state, and gives the bytes after them. -/
@[specialize] def absorb (v : Variant W) : Nat → State W → Bytes → State W × Bytes
  | 0, s, bs => (s, bs)
  | n + 1, s, bs =>
      let (block, rest) := nextBlock bs
      absorb v n (compress v s block) rest

/-- The last bytes of a message of `length` bytes, filled up to whole blocks. -/
def finish (size length : Nat) (tail : Bytes) : Bytes :=
  tail ++ 0x80 :: List.replicate ((30 * size - 1 - tail.length) % (16 * size)) 0 ++
    (leBytes (2 * size) (8 * length)).reverse

/-- The bytes of a word, most significant first. -/
@[specialize] def wordBytes (x : W) : Octets (Word.size W) :=
  ⟨(leBytes (Word.size W) (Word.toNat x)).reverse, by simp⟩

/-- The state after a whole message. -/
@[specialize] def final (v : Variant W) (message : Bytes) : State W :=
  let block := 16 * Word.size W
  let length := message.length
  let (s, tail) := absorb v (length / block) v.initial message
  let last := finish (Word.size W) length tail
  (absorb v (last.length / block) s last).1

end

/-- The first eight primes' square roots and the first 64 primes' cube roots, the fractional parts
of each to 32 bits, and the rotations for words of that width. -/
def narrow : Variant UInt32 where
  initial :=
    ⟨0x6a09e667, 0xbb67ae85, 0x3c6ef372, 0xa54ff53a,
      0x510e527f, 0x9b05688c, 0x1f83d9ab, 0x5be0cd19⟩
  roundConstants :=
    [ 0x428a2f98, 0x71374491, 0xb5c0fbcf, 0xe9b5dba5, 0x3956c25b, 0x59f111f1, 0x923f82a4, 0xab1c5ed5,
      0xd807aa98, 0x12835b01, 0x243185be, 0x550c7dc3, 0x72be5d74, 0x80deb1fe, 0x9bdc06a7, 0xc19bf174,
      0xe49b69c1, 0xefbe4786, 0x0fc19dc6, 0x240ca1cc, 0x2de92c6f, 0x4a7484aa, 0x5cb0a9dc, 0x76f988da,
      0x983e5152, 0xa831c66d, 0xb00327c8, 0xbf597fc7, 0xc6e00bf3, 0xd5a79147, 0x06ca6351, 0x14292967,
      0x27b70a85, 0x2e1b2138, 0x4d2c6dfc, 0x53380d13, 0x650a7354, 0x766a0abb, 0x81c2c92e, 0x92722c85,
      0xa2bfe8a1, 0xa81a664b, 0xc24b8b70, 0xc76c51a3, 0xd192e819, 0xd6990624, 0xf40e3585, 0x106aa070,
      0x19a4c116, 0x1e376c08, 0x2748774c, 0x34b0bcb5, 0x391c0cb3, 0x4ed8aa4a, 0x5b9cca4f, 0x682e6ff3,
      0x748f82ee, 0x78a5636f, 0x84c87814, 0x8cc70208, 0x90befffa, 0xa4506ceb, 0xbef9a3f7, 0xc67178f2 ]
  bigSigma0 := ⟨2, 13, 22⟩
  bigSigma1 := ⟨6, 11, 25⟩
  smallSigma0 := ⟨7, 18, 3⟩
  smallSigma1 := ⟨17, 19, 10⟩

/-- The same square roots to 64 bits, the first 80 primes' cube roots, and the rotations for the
wider word. -/
def wide : Variant UInt64 where
  initial :=
    ⟨0x6a09e667f3bcc908, 0xbb67ae8584caa73b, 0x3c6ef372fe94f82b, 0xa54ff53a5f1d36f1,
      0x510e527fade682d1, 0x9b05688c2b3e6c1f, 0x1f83d9abfb41bd6b, 0x5be0cd19137e2179⟩
  roundConstants :=
    [ 0x428a2f98d728ae22, 0x7137449123ef65cd, 0xb5c0fbcfec4d3b2f, 0xe9b5dba58189dbbc,
      0x3956c25bf348b538, 0x59f111f1b605d019, 0x923f82a4af194f9b, 0xab1c5ed5da6d8118,
      0xd807aa98a3030242, 0x12835b0145706fbe, 0x243185be4ee4b28c, 0x550c7dc3d5ffb4e2,
      0x72be5d74f27b896f, 0x80deb1fe3b1696b1, 0x9bdc06a725c71235, 0xc19bf174cf692694,
      0xe49b69c19ef14ad2, 0xefbe4786384f25e3, 0x0fc19dc68b8cd5b5, 0x240ca1cc77ac9c65,
      0x2de92c6f592b0275, 0x4a7484aa6ea6e483, 0x5cb0a9dcbd41fbd4, 0x76f988da831153b5,
      0x983e5152ee66dfab, 0xa831c66d2db43210, 0xb00327c898fb213f, 0xbf597fc7beef0ee4,
      0xc6e00bf33da88fc2, 0xd5a79147930aa725, 0x06ca6351e003826f, 0x142929670a0e6e70,
      0x27b70a8546d22ffc, 0x2e1b21385c26c926, 0x4d2c6dfc5ac42aed, 0x53380d139d95b3df,
      0x650a73548baf63de, 0x766a0abb3c77b2a8, 0x81c2c92e47edaee6, 0x92722c851482353b,
      0xa2bfe8a14cf10364, 0xa81a664bbc423001, 0xc24b8b70d0f89791, 0xc76c51a30654be30,
      0xd192e819d6ef5218, 0xd69906245565a910, 0xf40e35855771202a, 0x106aa07032bbd1b8,
      0x19a4c116b8d2d0c8, 0x1e376c085141ab53, 0x2748774cdf8eeb99, 0x34b0bcb5e19b48a8,
      0x391c0cb3c5c95a63, 0x4ed8aa4ae3418acb, 0x5b9cca4f7763e373, 0x682e6ff3d6b2b8a3,
      0x748f82ee5defb2fc, 0x78a5636f43172f60, 0x84c87814a1f0ab72, 0x8cc702081a6439ec,
      0x90befffa23631e28, 0xa4506cebde82bde9, 0xbef9a3f7b2c67915, 0xc67178f2e372532b,
      0xca273eceea26619c, 0xd186b8c721c0c207, 0xeada7dd6cde0eb1e, 0xf57d4f7fee6ed178,
      0x06f067aa72176fba, 0x0a637dc5a2c898a6, 0x113f9804bef90dae, 0x1b710b35131c471b,
      0x28db77f523047d84, 0x32caab7b40c72493, 0x3c9ebe0a15c9bebc, 0x431d67c49c100d4c,
      0x4cc5d4becb3e42b6, 0x597f299cfc657e2a, 0x5fcb6fab3ad6faec, 0x6c44198c4a475817 ]
  bigSigma0 := ⟨28, 34, 39⟩
  bigSigma1 := ⟨14, 18, 41⟩
  smallSigma0 := ⟨1, 8, 7⟩
  smallSigma1 := ⟨19, 61, 6⟩

end LightClient.Sha2

namespace LightClient

open Sha2

/-- The SHA-256 digest of a message. -/
def sha256 (message : Bytes) : Octets 32 :=
  let s := final narrow message
  let half (x y z w : UInt32) : Octets 16 :=
    ((wordBytes x).append (wordBytes y)).append ((wordBytes z).append (wordBytes w))
  (half s.a s.b s.c s.d).append (half s.e s.f s.g s.h)

/-- The SHA-512 digest of a message. -/
def sha512 (message : Bytes) : Octets 64 :=
  let s := final wide message
  let half (x y z w : UInt64) : Octets 32 :=
    ((wordBytes x).append (wordBytes y)).append ((wordBytes z).append (wordBytes w))
  (half s.a s.b s.c s.d).append (half s.e s.f s.g s.h)

end LightClient
