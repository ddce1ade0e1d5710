import LightClient.Hash.Sha2
/-!
# Digests over other words

The algorithm uses nothing of its words but their operations, so a map that keeps these (`Word.Hom`) carries one run
of it to another, step by step: what the map makes of the final state is the final state over the other words
(`Word.Hom.final_map`).

One such map takes the words of 32 bits for natural numbers. Sums and shifts of numbers are as good as immediate where
a digest is computed in a proof, so digests of long messages are computed with them (`sha256_eq_onNaturals`).
-/
namespace LightClient.Sha2

variable {W W' : Type}

/-- The state with each word under a map. -/
def State.map (f : W → W') (s : State W) : State W' := ⟨f s.a, f s.b, f s.c, f s.d, f s.e, f s.f, f s.g, f s.h⟩

/-- The block with each word under a map. -/
def Block.map (f : W → W') (b : Block W) : Block W' :=
  ⟨f b.w0, f b.w1, f b.w2, f b.w3, f b.w4, f b.w5, f b.w6, f b.w7, f b.w8, f b.w9, f b.w10, f b.w11, f b.w12, f b.w13,
    f b.w14, f b.w15⟩

/-- The same function of the family over other words. -/
def Variant.map (f : W → W') (v : Variant W) : Variant W' where
  initial := v.initial.map f
  roundConstants := v.roundConstants.map f
  bigSigma0 := v.bigSigma0
  bigSigma1 := v.bigSigma1
  smallSigma0 := v.smallSigma0
  smallSigma1 := v.smallSigma1

theorem Block.map_push (f : W → W') (b : Block W) (w : W) : (b.push w).map f = (b.map f).push (f w) := rfl

variable [Word W] [Word W']

/-- A map that keeps the operations of words. -/
structure Word.Hom (f : W → W') : Prop where
  size : Word.size W = Word.size W'
  zero : f Word.zero = Word.zero
  add (x y : W) : f (x + y) = f x + f y
  and (x y : W) : f (x &&& y) = f x &&& f y
  xor (x y : W) : f (x ^^^ y) = f x ^^^ f y
  complement (x : W) : f (~~~x) = ~~~f x
  rotate (x : W) (n : Nat) : f (Word.rotate x n) = Word.rotate (f x) n
  shift (x : W) (n : Nat) : f (Word.shift x n) = Word.shift (f x) n
  snoc (x : W) (b : UInt8) : f (Word.snoc x b) = Word.snoc (f x) b

namespace Word.Hom

variable {f : W → W'} (hf : Hom f) (v : Variant W)
include hf

theorem rotations_map (r : Amounts) (x : W) : rotations r (f x) = f (rotations r x) := by
  simp only [rotations, hf.xor, hf.rotate]

theorem mixed_map (r : Amounts) (x : W) : mixed r (f x) = f (mixed r x) := by
  simp only [mixed, hf.xor, hf.rotate, hf.shift]

theorem snocs_map (n : Nat) (x : W) (bs : Bytes) : snocs n (f x) bs = (snocs n x bs).map f id := by
  induction n generalizing x bs with
  | zero => rfl
  | succ n ih =>
    cases bs with
    | nil => rfl
    | cons b bs =>
      rw [snocs, snocs, ← hf.snoc]
      exact ih (Word.snoc x b) bs

theorem nextWord_map (bs : Bytes) : (nextWord bs : W' × Bytes) = (nextWord bs : W × Bytes).map f id := by
  rw [nextWord, nextWord, ← hf.size, ← hf.zero]
  exact hf.snocs_map ..

theorem pushes_map (n : Nat) (block : Block W) (bs : Bytes) :
    pushes n (block.map f) bs = (pushes n block bs).map (Block.map f) id := by
  induction n generalizing block bs with
  | zero => rfl
  | succ n ih =>
    simp only [pushes, hf.nextWord_map, Prod.map_fst, Prod.map_snd, id]
    exact ih (block.push (nextWord bs).1) (nextWord bs).2

theorem nextBlock_map (bs : Bytes) : (nextBlock bs : Block W' × Bytes) = (nextBlock bs).map (Block.map f) id := by
  rw [nextBlock, nextBlock, ← hf.zero]
  exact hf.pushes_map 16 (.fill Word.zero) bs

theorem advance_map (block : Block W) : advance (v.map f) (block.map f) = (advance v block).map f := by
  simp only [advance, Block.map_push, hf.add, ← hf.mixed_map]
  rfl

theorem round_map (s : State W) (k w : W) : round (v.map f) (s.map f) (f k) (f w) = (round v s k w).map f := by
  obtain ⟨a, b, c, d, e, g, h, i⟩ := s
  simp only [round, State.map, Variant.map, hf.add, hf.and, hf.xor, hf.complement, hf.rotations_map]

theorem rounds_map (ks : List W) (block : Block W) (s : State W) :
    rounds (v.map f) (ks.map f) (block.map f) (s.map f) = (rounds v ks block s).map f := by
  induction ks generalizing block s with
  | nil => rfl
  | cons k ks ih =>
    rw [List.map_cons, rounds, rounds, hf.advance_map]
    exact (congrArg _ (hf.round_map v s k block.w0)).trans (ih ..)

theorem add_map (s t : State W) : (s.map f).add (t.map f) = (s.add t).map f := by
  simp only [State.add, State.map, hf.add]

theorem compress_map (s : State W) (block : Block W) :
    compress (v.map f) (s.map f) (block.map f) = (compress v s block).map f := by
  rw [compress, compress, ← hf.add_map, ← hf.rounds_map]
  rfl

theorem absorb_map (n : Nat) (s : State W) (bs : Bytes) :
    absorb (v.map f) n (s.map f) bs = (absorb v n s bs).map (State.map f) id := by
  induction n generalizing s bs with
  | zero => rfl
  | succ n ih =>
    simp only [absorb, hf.nextBlock_map, Prod.map_fst, Prod.map_snd, id, hf.compress_map]
    exact ih ..

/-- The final state over other words is that over the first ones, word by word. -/
theorem final_map (message : Bytes) : final (v.map f) message = (final v message).map f := by
  have hinitial : (v.map f).initial = v.initial.map f := rfl
  simp only [final, ← hf.size, hinitial, hf.absorb_map, Prod.map_fst, Prod.map_snd, id]

end Word.Hom

/-! ## Natural numbers for words -/

/-- A word of 32 bits, as a natural number. -/
def Natural32 : Type := Nat

instance : Word Natural32 where
  size := 4
  zero := Nat.zero
  add x y := Nat.mod (Nat.add x y) UInt32.size
  and := Nat.land
  xor := Nat.xor
  complement x := Nat.sub (UInt32.size - 1) x
  rotate x n := Nat.lor (Nat.shiftRight x (n % 32)) (Nat.mod (Nat.shiftLeft x (32 - n % 32)) UInt32.size)
  shift x n := Nat.shiftRight x (n % 32)
  snoc x b := Nat.lor (Nat.mod (Nat.shiftLeft x 8) UInt32.size) b.toNat
  toNat := id

/-- The number of a word of 32 bits. -/
def natural (x : UInt32) : Natural32 := x.toNat

/-- Bits that are moved down by nothing and up by a whole word are the same bits. -/
theorem toNat_rotate (x : UInt32) (n : Nat) :
    (x >>> n.toUInt32 ||| x <<< (32 - n.toUInt32)).toNat =
      x.toNat >>> (n % 32) ||| x.toNat <<< (32 - n % 32) % UInt32.size := by
  have hdown : n.toUInt32.toNat % 32 = n % 32 := by
    rw [Nat.toUInt32_eq, UInt32.toNat_ofNat', Nat.mod_mod_of_dvd n (by decide)]
  have hup : (32 - n.toUInt32).toNat % 32 = (32 - n % 32) % 32 := by
    rw [UInt32.toNat_sub]
    have hlt := n.toUInt32.toNat_lt
    simp only [UInt32.reduceToNat]
    omega
  rw [UInt32.toNat_or, UInt32.toNat_shiftRight, UInt32.toNat_shiftLeft, hdown, hup]
  by_cases hnone : n % 32 = 0
  · have hlt := x.toNat_lt
    rw [hnone]
    simp [Nat.shiftLeft_eq, UInt32.size, Nat.mod_eq_of_lt hlt]
  · rw [Nat.mod_eq_of_lt (show 32 - n % 32 < 32 by omega)]

theorem hom_natural : Word.Hom natural where
  size := rfl
  zero := rfl
  add x y := x.toNat_add y
  and x y := x.toNat_and y
  xor x y := x.toNat_xor y
  complement x := by
    show (~~~x).toNat = UInt32.size - 1 - x.toNat
    rw [UInt32.toNat_not]
  rotate := toNat_rotate
  shift x n := by
    show (x >>> n.toUInt32).toNat = x.toNat >>> (n % 32)
    rw [UInt32.toNat_shiftRight, Nat.toUInt32_eq, UInt32.toNat_ofNat', Nat.mod_mod_of_dvd n (by decide)]
  snoc x b := by
    show (x <<< 8 ||| b.toUInt32).toNat = x.toNat <<< 8 % UInt32.size ||| b.toNat
    rw [UInt32.toNat_or, UInt32.toNat_shiftLeft, UInt8.toNat_toUInt32]
    rfl

/-- The digest of a message, computed with natural numbers. -/
def sha256OnNaturals (message : Bytes) : Octets 32 :=
  let s := final (narrow.map natural) message
  let half (x y z w : Natural32) : Octets 16 :=
    ((wordBytes x).append (wordBytes y)).append ((wordBytes z).append (wordBytes w))
  (half s.a s.b s.c s.d).append (half s.e s.f s.g s.h)

theorem sha256_eq_onNaturals (message : Bytes) : sha256 message = sha256OnNaturals message := by
  rw [sha256OnNaturals, hom_natural.final_map]
  rfl

end LightClient.Sha2
