import LightClient.Proofs.Collision
import LightClient.Proofs.Quorum.Stability
/-!
# What a salted state binds

A salted state has four parts, and each is the hash of the voter's key followed by one part of the state. So it says whose
key and which state it was made of, up to a collision of what was hashed for one of the parts (`SaltCollision`,
`eq_or_collision_of_saltedWith`). A vote that is kept when one state is revealed is dropped when another one is, and so is
a vote of another key that has the same salted state (`salted_state_binds`).
-/
namespace LightClient

namespace StateDigests

/-- What is hashed for a salted root. -/
def rootSalt (voter : PublicKey) (root : Digest) : Octets 64 := voter.octets.append root

/-- What is hashed for the salted digest of the resource testing. -/
def testingSalt (voter : PublicKey) (testing : UInt64) : Octets 40 := voter.octets.append (Layout.u64.encode testing)

/-- The three roots of a state. -/
def roots : List (StateDigests → Digest) := [spectrumRoot, universeRoot, computerRoot]

variable {voter voter' : PublicKey} {truth truth' : StateDigests}

/-- Of two keys and states, what is hashed for one of the parts is a collision: for a root, of the whole digests; for the
resource testing, of their first eight bytes. -/
def SaltCollision (voter voter' : PublicKey) (truth truth' : StateDigests) : Prop :=
  (∃ root ∈ roots, Collision sha256 (rootSalt voter (root truth)).toList (rootSalt voter' (root truth')).toList) ∨
  Collision sha256Start (testingSalt voter truth.resourceTesting).toList
    (testingSalt voter' truth'.resourceTesting).toList

instance : Decidable (SaltCollision voter voter' truth truth') := inferInstanceAs (Decidable (_ ∨ _))

theorem flatten_pair (a b : Bytes) : [a, b].flatten = a ++ b := by
  rw [List.flatten_cons, List.flatten_cons, List.flatten_nil, List.append_nil]

theorem digestParts_root (voter : PublicKey) (root : Digest) :
    digestParts [voter.bytes, root.toList] = sha256 (rootSalt voter root).toList := by
  rw [digestParts, flatten_pair]
  rfl

theorem shortDigest_testing_iff {n n' : UInt64} :
    shortDigest [voter.bytes, leBytes 8 n.toNat] = shortDigest [voter'.bytes, leBytes 8 n'.toNat] ↔
      sha256Start (testingSalt voter n).toList = sha256Start (testingSalt voter' n').toList := by
  rw [shortDigest_eq_iff, flatten_pair, flatten_pair]
  rfl

/-- A salted state is made of one key and one state, or there is a collision. -/
theorem eq_or_collision_of_saltedWith (h : truth.saltedWith voter = truth'.saltedWith voter') :
    (voter = voter' ∧ truth = truth') ∨ SaltCollision voter voter' truth truth' := by
  by_cases hcollision : SaltCollision voter voter' truth truth'
  · exact .inr hcollision
  left
  obtain ⟨htesting, hspectrum, huniverse, hcomputer⟩ := StateDigests.ext_iff.mp h
  have hroot {root : StateDigests → Digest} (hmem : root ∈ roots)
      (hsame : digestParts [voter.bytes, (root truth).toList] = digestParts [voter'.bytes, (root truth').toList]) :
      root truth = root truth' := by
    rw [digestParts_root, digestParts_root] at hsame
    exact ((Collision.parts_eq_or hsame).resolve_right fun hc => hcollision (.inl ⟨root, hmem, hc⟩)).2
  obtain ⟨hkey, hnumber⟩ := (Collision.parts_eq_or (shortDigest_testing_iff.mp htesting)).resolve_right
    fun hc => hcollision (.inr hc)
  have htesting : truth.resourceTesting = truth'.resourceTesting := Layout.u64.bytes_inj (congrArg Tuple.toList hnumber)
  exact ⟨PublicKey.ext hkey, StateDigests.ext htesting (hroot (by simp [roots]) hspectrum)
    (hroot (by simp [roots]) huniverse) (hroot (by simp [roots]) hcomputer)⟩

end StateDigests

namespace SaltCheck

open StateDigests (SaltCollision)
open Vote (blankState blankBallot someKey oneKeySet key?_oneKeySet)

variable {computors : ComputorSet} {votes next : List Vote} {truth : StateDigests} {v : Vote}

theorem exists_key_of_passes (h : passes computors truth v = true) :
    ∃ key, computors.key? v.index = some key ∧ saltMatches v key truth = true := by
  unfold passes at h
  cases hkey : computors.key? v.index with
  | none => simp [hkey] at h
  | some key => exact ⟨key, rfl, by simpa [hkey] using h⟩

/-- A vote that does not match the revealed state is dropped. -/
theorem index_mem_rejected (hrevealed : revealed next = some truth) (hv : v ∈ votes)
    (hfails : passes computors truth v = false) : v.index ∈ (run computors votes next).rejected := by
  have hmismatch : Mismatch computors truth v := by
    rw [← not_not (a := Mismatch computors truth v), ← passes_iff, hfails]
    exact Bool.false_ne_true
  rw [run_of_revealed hrevealed, against_eq]
  exact List.mem_map_of_mem (List.mem_filter.mpr ⟨hv, decide_eq_true hmismatch⟩)

theorem eq_or_collision_of_saltMatches {v' : Vote} {key key' : PublicKey} {truth' : StateDigests}
    (hsame : v'.body.salted = v.body.salted) (h : saltMatches v key truth = true)
    (h' : saltMatches v' key' truth' = true) :
    (key = key' ∧ truth = truth') ∨ SaltCollision key key' truth truth' := by
  have hsalted : truth.saltedWith key = v.body.salted := of_decide_eq_true h
  have hsalted' : truth'.saltedWith key' = v'.body.salted := of_decide_eq_true h'
  exact StateDigests.eq_or_collision_of_saltedWith (hsalted.trans (hsalted'.trans hsame).symm)

/-- **A salted state binds voter and outcome.** If the salted state of a vote matches two keys and states, they are the
same, or what was hashed for one of the parts is a collision. So where a vote was accepted, no other vote with its salted
state is, be it the vote itself under another state or a copy under another key: it is refused, and listed as rejected by
every check to which the next tick reveals this state; or the keys and the states are the same, or there is such a
collision. -/
theorem salted_state_binds :
    (∀ (v : Vote) (key key' : PublicKey) (truth truth' : StateDigests),
      saltMatches v key truth = true → saltMatches v key' truth' = true →
      (key = key' ∧ truth = truth') ∨ SaltCollision key key' truth truth') ∧
    ∀ (set set' : ComputorSet) (truth truth' : StateDigests) (v v' : Vote),
      passes set truth v = true → v'.body.salted = v.body.salted →
      (passes set' truth' v' = false ∧
        ∀ votes next, revealed next = some truth' → v' ∈ votes → v'.index ∈ (run set' votes next).rejected) ∨
      ∃ key key', set.key? v.index = some key ∧ set'.key? v'.index = some key' ∧
        ((key = key' ∧ truth = truth') ∨ SaltCollision key key' truth truth') := by
  refine ⟨fun v key key' truth truth' => eq_or_collision_of_saltMatches rfl, ?_⟩
  intro set set' truth truth' v v' hpass hsame
  cases hpass' : passes set' truth' v' with
  | false => exact .inl ⟨rfl, fun votes next hrevealed hv' => index_mem_rejected hrevealed hv' hpass'⟩
  | true =>
    obtain ⟨key, hkey, hmatches⟩ := exists_key_of_passes hpass
    obtain ⟨key', hkey', hmatches'⟩ := exists_key_of_passes hpass'
    exact .inr ⟨key, key', hkey, hkey', eq_or_collision_of_saltMatches hsame hmatches hmatches'⟩

/-- A state that differs in one bit of the resource testing. -/
def flippedState : StateDigests := { blankState with resourceTesting := 1 }

/-- A vote that reveals this state. -/
def flippedVote : Vote where
  body := { blankBallot 0 6 with outcome := { (blankBallot 0 6).outcome with prev := flippedState } }
  signature := ⟨.replicate 64 0⟩

/-- A vote that was accepted does not match a state that differs in this bit, and is rejected where it is revealed. -/
theorem salted_state_binds_informed :
    saltMatches (informedVote 5 blankState) someKey blankState = true ∧
      saltMatches (informedVote 5 blankState) someKey flippedState = false ∧
      5 ∈ (run oneKeySet [informedVote 5 blankState] (.replicate 451 flippedVote)).rejected := by
  obtain ⟨hmatch, hbinds⟩ := salted_state_binds
  have hmatches : saltMatches (informedVote 5 blankState) someKey blankState = true := decide_eq_true rfl
  have hfree : ¬ ((someKey = someKey ∧ blankState = flippedState) ∨
      SaltCollision someKey someKey blankState flippedState) := by decide +kernel
  refine ⟨hmatches, ?_, ?_⟩
  · rw [← Bool.not_eq_true]
    exact fun hmatches' => hfree (hmatch _ _ _ _ _ hmatches hmatches')
  · have hpass : passes oneKeySet blankState (informedVote 5 blankState) = true :=
      passes_informedVote (by decide) blankState
    have hkey : oneKeySet.key? (informedVote 5 blankState).index = some someKey := key?_oneKeySet 5
    have hrevealed : revealed (.replicate 451 flippedVote) = some flippedState :=
      revealed_replicate (by decide) flippedVote
    rcases hbinds oneKeySet oneKeySet blankState flippedState _ _ hpass rfl with ⟨-, hrejected⟩ | ⟨_, _, h, h', hbound⟩
    · exact hrejected [informedVote 5 blankState] _ hrevealed List.mem_cons_self
    · obtain rfl := Option.some.inj (hkey.symm.trans h)
      obtain rfl := Option.some.inj (hkey.symm.trans h')
      exact absurd hbound hfree

end SaltCheck

end LightClient
