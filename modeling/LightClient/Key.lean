import LightClient.Bytes.Layout
import LightClient.Curve.Ed25519
import LightClient.Identity
/-!
# Digests, keys and signed records

A record is hashed to a 32-byte digest, and the digest is what is signed. `Signed β` is a body with a
signature; which bytes of the body are hashed is the body's own choice (`Signable`), so that a body
can mark its bytes as one kind of record. A signature that does not hold is no error: the record
stays usable and is marked (`Checked`).
-/
namespace LightClient

/-- The hash of a record. -/
abbrev Digest := Octets 32

/-- Whether a digest is the one that stands for nothing, 32 zero bytes (`is_zero`). -/
def Digest.isZero (d : Digest) : Bool := d.toList.all (· == 0)

/-- The digest of several byte strings, one after the other (`digest_parts`). -/
def digestParts (parts : List Bytes) : Digest := sha256 parts.flatten

/-- The first eight bytes of the digest of several byte strings, as a number (`short_digest_parts`). -/
def shortDigest (parts : List Bytes) : UInt64 :=
  UInt64.ofNat (leNat ((digestParts parts).toList.take 8))

/-- A signature over a digest. -/
@[ext] structure Signature where
  octets : Octets 64
  deriving DecidableEq

/-- A signature is its 64 bytes. -/
def Signature.layout : Layout Signature :=
  (Layout.octets 64).map .mk Signature.octets (fun _ => rfl) (fun _ => rfl)

/-- The key that a signature is checked against. -/
@[ext] structure PublicKey where
  octets : Octets 32
  deriving DecidableEq

namespace PublicKey

/-- A key is its 32 bytes. -/
def layout : Layout PublicKey :=
  (Layout.octets 32).map .mk PublicKey.octets (fun _ => rfl) (fun _ => rfl)

/-- The bytes of a key. -/
def bytes (key : PublicKey) : Bytes := key.octets.toList

/-- Whether a signature of a digest holds under this key (`Pubkey.verify`). -/
def verify (key : PublicKey) (digest : Digest) (signature : Signature) : Bool :=
  Ed25519.verify key.octets digest.toList signature.octets

/-- The identity of a key, in capitals. -/
def identity (key : PublicKey) : String := Identity.encode .upper key.octets

/-- The key that an identity stands for (`Pubkey.from_identity`). -/
def ofIdentity (text : String) : Except Identity.Flaw PublicKey :=
  (Identity.decode text).map .mk

end PublicKey

/-- A key with which digests can be signed (`Keypair`). -/
structure KeyPair where
  seed : Octets 32

namespace KeyPair

/-- The key that this pair's signatures are checked against. -/
def publicKey (pair : KeyPair) : PublicKey := ⟨Ed25519.publicKey pair.seed⟩

/-- The signature of a digest. -/
def sign (pair : KeyPair) (digest : Digest) : Signature := ⟨Ed25519.sign pair.seed digest.toList⟩

end KeyPair

/-- A body with the signature of its author. -/
structure Signed (β : Type) where
  body : β
  signature : Signature
  deriving DecidableEq

/-- Bodies that can be signed: which bytes the signature covers. -/
class Signable (β : Type) where
  signedBytes : β → Bytes

namespace Signed

variable {β : Type}

/-- The digest that the signature is over. -/
def signingDigest [Signable β] (s : Signed β) : Digest := sha256 (Signable.signedBytes s.body)

/-- Whether the signature holds under a key. -/
def verify [Signable β] (s : Signed β) (key : PublicKey) : Bool :=
  key.verify s.signingDigest s.signature

/-- The body's bytes, then the signature's. -/
def layout (L : Layout β) : Layout (Signed β) :=
  (L.pair Signature.layout).map (fun p => ⟨p.1, p.2⟩) (fun s => (s.body, s.signature))
    (fun _ => rfl) (fun _ => rfl)

end Signed

/-- Whether a signature held when it was checked. -/
inductive Integrity where
  | verified | unverified
  deriving DecidableEq, Repr

/-- The mark for the result of a check. -/
def Integrity.ofBool : Bool → Integrity
  | true => verified
  | false => unverified

/-- A record together with whether its signature held. -/
structure Checked (α : Type) where
  value : α
  integrity : Integrity
  deriving DecidableEq

/-- Whether the signature held. -/
def Checked.isVerified {α : Type} (c : Checked α) : Bool := c.integrity == .verified

end LightClient
