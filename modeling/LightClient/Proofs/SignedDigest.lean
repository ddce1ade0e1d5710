import LightClient.Proofs.Collision
import LightClient.Proofs.Identity.Decoding
import LightClient.Proofs.SignedBytes
/-!
# What a digest binds

The digest under a signature is that of the signed bytes, and these are the bytes of one body only, the mark of the index
being undone by marking again. So the digest says what the body is, in every field, up to a collision of the bytes that
were hashed (`BindsBody`). A transaction's identity is the text of the digest of its whole record, and says in the same
way what the transaction is, signature included (`Transaction.id_eq_iff`).
-/
namespace LightClient

/-- Records of one kind with the same digest to be signed have the same body, or else the bytes that were hashed for
the two bodies are a collision. -/
def BindsBody (β : Type) [Signable β] : Prop :=
  ∀ s s' : Signed β, s.signingDigest = s'.signingDigest ↔
    s.body = s'.body ∨ Collision sha256 (Signable.signedBytes s.body) (Signable.signedBytes s'.body)

theorem BindsBody.of_signedBytes_inj {β : Type} [Signable β]
    (h : ∀ {b b' : β}, Signable.signedBytes b = Signable.signedBytes b' → b = b') : BindsBody β := by
  intro s s'
  have hbody : Signable.signedBytes s.body = Signable.signedBytes s'.body ↔ s.body = s'.body :=
    ⟨h, congrArg Signable.signedBytes⟩
  rw [Signed.signingDigest, Signed.signingDigest, Collision.hash_eq_iff, hbody]

/-! ## The mark of the index -/

/-- The index in signed bytes, with its mark taken off. -/
def unmarkedIndex (tag : UInt16) (bs : Bytes) : UInt16 := UInt16.ofNat (numberAt 0 bs) ^^^ tag

theorem unmarkedIndex_append (tag index : UInt16) (rest : Bytes) :
    unmarkedIndex tag (Layout.u16.bytes (index ^^^ tag) ++ rest) = index := by
  rw [unmarkedIndex, numberAt_u16, UInt16.ofNat_toNat, UInt16.xor_assoc, UInt16.xor_self, UInt16.xor_zero]

/-! ## Transactions -/

namespace Transaction

variable {t t' : Transaction}

theorem toBytes_inj (h : t.toBytes = t'.toBytes) : t = t' := by
  have hlength : t.signature.octets.toList.length = t'.signature.octets.toList.length := by
    rw [Tuple.length_toList, Tuple.length_toList]
  obtain ⟨hbody, hsignature⟩ := List.append_inj' h hlength
  obtain ⟨body, ⟨octets⟩⟩ := t
  obtain ⟨body', ⟨octets'⟩⟩ := t'
  obtain rfl := Transfer.toBytes_inj hbody
  obtain rfl := Tuple.ext hsignature
  rfl

theorem id_eq_iff : t.id = t'.id ↔ t = t' ∨ Collision sha256 t.toBytes t'.toBytes := by
  have hrecord : t.toBytes = t'.toBytes ↔ t = t' := ⟨toBytes_inj, congrArg toBytes⟩
  have htext : t.id = t'.id ↔ t.hash = t'.hash := ⟨fun h => (Identity.encode_inj h).2, congrArg (Identity.encode .lower)⟩
  rw [htext, hash, hash, Collision.hash_eq_iff, hrecord]

end Transaction

/-- **Digests bind.** Two votes, headers, computor lists or transactions with the same digest under their signatures agree
in everything but the signature, or the bytes that were hashed for them are a collision; the mark on the index of a vote
and of a header can be taken off again. Two transactions with the same identity are the same, signature included, or
their records are a collision. -/
theorem digests_bind :
    BindsBody Ballot ∧ BindsBody TickData ∧ BindsBody Roster ∧ BindsBody Transfer ∧
    (∀ b : Ballot, unmarkedIndex 3 (Signable.signedBytes b) = b.index) ∧
    (∀ d : TickData, unmarkedIndex 8 (Signable.signedBytes d) = d.index) ∧
    ∀ t t' : Transaction, t.id = t'.id ↔ t = t' ∨ Collision sha256 t.toBytes t'.toBytes := by
  refine ⟨.of_signedBytes_inj Ballot.signedBytes_inj, .of_signedBytes_inj TickData.signedBytes_inj,
    .of_signedBytes_inj Roster.layout.bytes_inj, .of_signedBytes_inj Transfer.toBytes_inj,
    fun b => ?_, fun d => ?_, fun t t' => Transaction.id_eq_iff⟩
  · exact unmarkedIndex_append Ballot.tag b.index _
  · exact unmarkedIndex_append TickData.tag d.index _

end LightClient
