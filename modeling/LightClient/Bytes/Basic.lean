/-!
# Byte strings and the numbers they spell

Every number on the wire is little-endian and of fixed width. `leBytes w n` writes `n` in `w`
bytes, `leNat` reads any number of bytes; reading after writing keeps the number modulo `256 ^ w`
(`leNat_leBytes`), writing after reading gives the bytes back (`leBytes_leNat`).
-/
namespace LightClient

/-- A byte string. -/
abbrev Bytes := List UInt8

/-- The number spelled by the bytes, least significant byte first. -/
def leNat : Bytes → Nat
  | [] => 0
  | b :: bs => b.toNat + 256 * leNat bs

/-- The `w` lowest bytes of `n`, least significant first. -/
def leBytes : Nat → Nat → Bytes
  | 0, _ => []
  | w + 1, n => UInt8.ofNat n :: leBytes w (n / 256)

@[simp] theorem leNat_nil : leNat [] = 0 := rfl

@[simp] theorem leNat_cons (b : UInt8) (bs : Bytes) :
    leNat (b :: bs) = b.toNat + 256 * leNat bs := rfl

@[simp] theorem leBytes_zero (n : Nat) : leBytes 0 n = [] := rfl

@[simp] theorem leBytes_succ (w n : Nat) :
    leBytes (w + 1) n = UInt8.ofNat n :: leBytes w (n / 256) := rfl

@[simp] theorem length_leBytes (w n : Nat) : (leBytes w n).length = w := by
  induction w generalizing n with
  | zero => rfl
  | succ w ih => simp [ih]

theorem leNat_leBytes (w n : Nat) : leNat (leBytes w n) = n % Nat.pow 256 w := by
  induction w generalizing n with
  | zero => simp [Nat.mod_one]
  | succ w ih =>
    have h : (UInt8.ofNat n).toNat = n % 256 := UInt8.toNat_ofNat' ..
    rw [leBytes_succ, leNat_cons, ih, h, Nat.pow_eq, Nat.pow_eq, Nat.pow_succ', Nat.mod_mul]

theorem leNat_leBytes_of_lt {w n : Nat} (h : n < Nat.pow 256 w) : leNat (leBytes w n) = n :=
  (leNat_leBytes w n).trans (Nat.mod_eq_of_lt h)

theorem leNat_lt (bs : Bytes) : leNat bs < Nat.pow 256 bs.length := by
  induction bs with
  | nil => simp
  | cons b bs ih =>
    rw [leNat_cons, List.length_cons, Nat.pow_eq, Nat.pow_succ]
    rw [Nat.pow_eq] at ih
    have : b.toNat < 256 := b.toNat_lt
    omega

theorem leBytes_leNat (bs : Bytes) : leBytes bs.length (leNat bs) = bs := by
  induction bs with
  | nil => rfl
  | cons b bs ih =>
    have hb : b.toNat < 256 := b.toNat_lt
    rw [List.length_cons, leBytes_succ, leNat_cons]
    congr 1
    · apply UInt8.toNat.inj
      have h : (UInt8.ofNat (b.toNat + 256 * leNat bs)).toNat = (b.toNat + 256 * leNat bs) % 256 :=
        UInt8.toNat_ofNat' ..
      omega
    · rw [Nat.add_mul_div_left _ _ (by decide), Nat.div_eq_of_lt hb, Nat.zero_add, ih]

/-- The character of a hexadecimal digit, lowercase. -/
def hexDigit (n : Nat) : Char :=
  Char.ofNat (if n < 10 then 48 + n else 87 + n)

/-- The two hexadecimal digits of a byte, high half first. -/
def hexByte (b : UInt8) : List Char :=
  [hexDigit (b.toNat / 16), hexDigit (b.toNat % 16)]

/-- The lowercase hexadecimal text of a byte string. -/
def hexText (bs : Bytes) : String :=
  String.ofList (bs.flatMap hexByte)

end LightClient
