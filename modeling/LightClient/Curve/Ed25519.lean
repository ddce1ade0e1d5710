import LightClient.Curve.Point
import LightClient.Hash.Sha2
/-!
# Ed25519 signatures

A signature is a point `r` and a number `s`. It holds for a message under a key `a` when
`s * base - h * a` is written as the very bytes of `r`, where `h` is the hash of the three. The
check is strict: `s` lies below the order of the group, and neither `r` nor `a` has small order, so
no one can present a key or a point that makes a signature hold for many messages.
-/
namespace LightClient.Ed25519

open Curve

/-- The order of the group that the base point generates. -/
def order : Nat := Nat.pow 2 252 + 27742317777372353535851937790883648493

/-- The number that the hash of a byte string stands for, modulo the order. -/
def challenge (message : Bytes) : Nat := leNat (sha512 message).toList % order

/-- Whether a signature holds for a message under a key, strictly. -/
def verify (key : Octets 32) (message : Bytes) (signature : Octets 64) : Bool :=
  let r : Octets 32 := Tuple.front (m := 32) (n := 32) signature
  let s := leNat (Tuple.back (m := 32) (n := 32) signature).toList
  if s < order then
    match Point.decode key, Point.decode r with
    | some a, some rPoint =>
        if a.hasSmallOrder || rPoint.hasSmallOrder then false
        else
          let h := challenge (r.toList ++ key.toList ++ message)
          (Point.combine s Point.base h a.neg).encode = r
    | _, _ => false
  else false

/-- The number that signs for a seed: the lower half of its hash with the three lowest bits and the
highest one cleared and the second highest set. -/
def secret (seed : Octets 32) : Nat :=
  let n := leNat (sha512 seed.toList).toList % Nat.pow 2 254
  n - n % 8 + Nat.pow 2 254

/-- The multiple of the base point, written in 32 bytes. -/
def multiple (n : Nat) : Octets 32 := (Point.combine n Point.base 0 Point.zero).encode

/-- The public key that belongs to a seed. -/
def publicKey (seed : Octets 32) : Octets 32 := multiple (secret seed)

/-- The signature of a message with the key that belongs to a seed. -/
def sign (seed : Octets 32) (message : Bytes) : Octets 64 :=
  let a := secret seed
  let nonce := challenge ((sha512 seed.toList).toList.drop 32 ++ message)
  let r := multiple nonce
  let h := challenge (r.toList ++ (multiple a).toList ++ message)
  let s : Octets 32 := ⟨leBytes 32 ((nonce + h * a) % order), length_leBytes 32 _⟩
  r.append s

end LightClient.Ed25519
