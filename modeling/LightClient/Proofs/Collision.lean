import LightClient.Key
/-!
# Collisions

A digest cannot tell all byte strings apart, so what it stands for is known up to a collision: two different byte strings
with one digest. A result about digests says which two they are; that some exist is no news. Where only eight bytes of a
digest are kept, it is these that collide (`shortDigest_eq_iff`).
-/
namespace LightClient

/-- Two different byte strings with the same hash. -/
structure Collision {γ : Type} (hash : Bytes → γ) (a b : Bytes) : Prop where
  differ : a ≠ b
  same : hash a = hash b

namespace Collision

variable {γ : Type} {hash : Bytes → γ} {a b : Bytes}

theorem iff_and : Collision hash a b ↔ a ≠ b ∧ hash a = hash b :=
  ⟨fun h => ⟨h.differ, h.same⟩, fun h => ⟨h.1, h.2⟩⟩

instance [DecidableEq γ] : Decidable (Collision hash a b) := decidable_of_iff _ iff_and.symm

theorem hash_eq_iff : hash a = hash b ↔ a = b ∨ Collision hash a b := by
  constructor
  · intro hsame
    by_cases heq : a = b
    · exact .inl heq
    · exact .inr ⟨heq, hsame⟩
  · rintro (rfl | hcollision)
    · rfl
    · exact hcollision.same

/-- What is hashed of two parts of fixed lengths is one of each, up to a collision. -/
theorem parts_eq_or {m n : Nat} {s s' : Octets m} {t t' : Octets n}
    (h : hash (s.append t).toList = hash (s'.append t').toList) :
    (s = s' ∧ t = t') ∨ Collision hash (s.append t).toList (s'.append t').toList :=
  (hash_eq_iff.mp h).imp_left fun hsame => Tuple.append_inj (Tuple.ext hsame)

end Collision

/-- The first eight bytes of the digest of a message. -/
def sha256Start (message : Bytes) : Bytes := (sha256 message).toList.take 8

theorem length_sha256Start (message : Bytes) : (sha256Start message).length = 8 := by
  rw [sha256Start, List.length_take, Tuple.length_toList]
  rfl

theorem leNat_inj {a b : Bytes} (hlength : a.length = b.length) (h : leNat a = leNat b) : a = b := by
  rw [← leBytes_leNat a, hlength, h, leBytes_leNat]

theorem toNat_shortDigest (parts : List Bytes) : (shortDigest parts).toNat = leNat (sha256Start parts.flatten) := by
  have hlt := leNat_lt (sha256Start parts.flatten)
  rw [length_sha256Start] at hlt
  exact UInt64.toNat_ofNat_of_lt hlt

theorem shortDigest_eq_iff {parts parts' : List Bytes} :
    shortDigest parts = shortDigest parts' ↔ sha256Start parts.flatten = sha256Start parts'.flatten := by
  rw [← UInt64.toNat_inj, toNat_shortDigest, toNat_shortDigest]
  constructor
  · exact leNat_inj ((length_sha256Start _).trans (length_sha256Start _).symm)
  · exact congrArg leNat

end LightClient
