import LightClient.Vote.Collection
/-!
# How votes are split

`VoteCollection.split` scans the votes once, with the indices of the votes that already count at
hand. `splitAfter_cons` says what one vote does to the split: it is rejected, or it repeats, or it
counts. All else follows from it.

* `size_split`: no vote is lost and none is invented.
* `accepted_sublist`, `valid_of_mem_accepted`, `nodup_index_accepted`: the votes that count stand in
  the order of the votes, are valid, and no two of them have the same index.
* `split_of_valid`: valid votes of distinct computors all count.
* `rejected_split`, `perm_split_valid`: the rejected votes are those that are not valid, and the valid
  ones are those that count and the duplicates.
* `splitAfter_insert_forged`, `splitAfter_insert_repeat`: a vote whose signature does not hold,
  wherever it stands, and a valid one that stands after a valid one of the same computor leave the
  votes that count alone.
-/
namespace LightClient

namespace Vote

variable {set : ComputorSet}

/-- The index of a valid vote has a key, and so lies below the number of computors. -/
theorem exists_key_of_valid {v : Vote} (h : v.valid set = true) :
    ∃ key, set.key? v.index = some key ∧ v.verify key = true := by
  unfold valid at h
  split at h
  · rename_i key hkey
    exact ⟨key, hkey, h⟩
  · cases h

theorem index_lt_of_key {i : UInt16} {key : PublicKey} (h : set.key? i = some key) :
    i.toNat < Computor.count := by
  obtain ⟨hi, -⟩ := List.getElem?_eq_some_iff.mp h
  rwa [Tuple.length_toList] at hi

theorem index_lt_of_valid {v : Vote} (h : v.valid set = true) : v.index.toNat < Computor.count := by
  obtain ⟨key, hkey, -⟩ := exists_key_of_valid h
  exact index_lt_of_key hkey

/-- A valid vote that comes after a valid vote of the same computor. -/
def Repeats (set : ComputorSet) (before : List Vote) (v : Vote) : Prop :=
  v.valid set = true ∧ ∃ u ∈ before, u.valid set = true ∧ u.index = v.index

/-- A vote that cannot count behind others: it is forged, or it repeats. -/
def Idle (set : ComputorSet) (before : List Vote) (v : Vote) : Prop :=
  v.valid set = false ∨ v.Repeats set before

end Vote

namespace VoteCollection

variable {set : ComputorSet} {seen : List UInt16} {v : Vote} {vs : List Vote}

theorem splitAfter_of_forged (hv : v.valid set = false) (vs : List Vote) :
    splitAfter set seen (v :: vs) =
      { splitAfter set seen vs with rejected := v.index :: (splitAfter set seen vs).rejected } := by
  simp [splitAfter, hv]

theorem splitAfter_of_seen (hv : v.valid set = true) (hs : v.index ∈ seen) (vs : List Vote) :
    splitAfter set seen (v :: vs) =
      { splitAfter set seen vs with duplicates := v.index :: (splitAfter set seen vs).duplicates } := by
  simp [splitAfter, hv, hs]

theorem splitAfter_of_unseen (hv : v.valid set = true) (hs : v.index ∉ seen) (vs : List Vote) :
    splitAfter set seen (v :: vs) =
      { splitAfter set (v.index :: seen) vs with
        accepted := v :: (splitAfter set (v.index :: seen) vs).accepted } := by
  simp [splitAfter, hv, hs]

/-- What one vote does to the split of the votes after it. -/
theorem splitAfter_cons (set : ComputorSet) (seen : List UInt16) (v : Vote) (vs : List Vote) :
    (v.valid set = false ∧
      splitAfter set seen (v :: vs) =
        { splitAfter set seen vs with rejected := v.index :: (splitAfter set seen vs).rejected }) ∨
    (v.valid set = true ∧ v.index ∈ seen ∧
      splitAfter set seen (v :: vs) =
        { splitAfter set seen vs with duplicates := v.index :: (splitAfter set seen vs).duplicates }) ∨
    (v.valid set = true ∧ v.index ∉ seen ∧
      splitAfter set seen (v :: vs) =
        { splitAfter set (v.index :: seen) vs with
          accepted := v :: (splitAfter set (v.index :: seen) vs).accepted }) := by
  cases hv : v.valid set with
  | false => exact .inl ⟨rfl, splitAfter_of_forged hv vs⟩
  | true =>
    by_cases hs : v.index ∈ seen
    · exact .inr (.inl ⟨rfl, hs, splitAfter_of_seen hv hs vs⟩)
    · exact .inr (.inr ⟨rfl, hs, splitAfter_of_unseen hv hs vs⟩)

theorem size_splitAfter (seen : List UInt16) (vs : List Vote) :
    (splitAfter set seen vs).size = vs.length := by
  induction vs generalizing seen with
  | nil => rfl
  | cons v vs ih =>
    have h := ih seen
    have h' := ih (v.index :: seen)
    simp only [size] at h h' ⊢
    rcases splitAfter_cons set seen v vs with ⟨-, e⟩ | ⟨-, -, e⟩ | ⟨-, -, e⟩ <;> rw [e] <;>
      simp only [List.length_cons] <;> omega

theorem size_split (votes : List Vote) : (split set votes).size = votes.length :=
  size_splitAfter [] votes

/-! ## The votes that count -/

theorem splitAfter_accepted_sublist (seen : List UInt16) (vs : List Vote) :
    (splitAfter set seen vs).accepted.Sublist vs := by
  induction vs generalizing seen with
  | nil => exact List.Sublist.refl _
  | cons v vs ih =>
    rcases splitAfter_cons set seen v vs with ⟨-, e⟩ | ⟨-, -, e⟩ | ⟨-, -, e⟩ <;> rw [e]
    · exact (ih seen).cons v
    · exact (ih seen).cons v
    · exact (ih (v.index :: seen)).cons_cons v

theorem accepted_sublist (votes : List Vote) : (split set votes).accepted.Sublist votes :=
  splitAfter_accepted_sublist [] votes

/-- A vote that counts is valid, and no vote of its computor counted before. -/
theorem of_mem_splitAfter_accepted (seen : List UInt16) (vs : List Vote) :
    ∀ u ∈ (splitAfter set seen vs).accepted, u.valid set = true ∧ u.index ∉ seen := by
  induction vs generalizing seen with
  | nil => intro u hu; simp [splitAfter, empty] at hu
  | cons v vs ih =>
    intro u hu
    rcases splitAfter_cons set seen v vs with ⟨-, e⟩ | ⟨-, -, e⟩ | ⟨hv, hs, e⟩ <;> rw [e] at hu
    · exact ih seen u hu
    · exact ih seen u hu
    · rcases List.mem_cons.mp hu with rfl | hu
      · exact ⟨hv, hs⟩
      · obtain ⟨h1, h2⟩ := ih (v.index :: seen) u hu
        exact ⟨h1, fun h => h2 (List.mem_cons_of_mem _ h)⟩

theorem valid_of_mem_accepted {votes : List Vote} (h : v ∈ (split set votes).accepted) :
    v.valid set = true :=
  (of_mem_splitAfter_accepted [] votes v h).1

theorem nodup_index_splitAfter (seen : List UInt16) (vs : List Vote) :
    ((splitAfter set seen vs).accepted.map Vote.index).Nodup := by
  induction vs generalizing seen with
  | nil => exact List.nodup_nil
  | cons v vs ih =>
    rcases splitAfter_cons set seen v vs with ⟨-, e⟩ | ⟨-, -, e⟩ | ⟨-, -, e⟩ <;> rw [e]
    · exact ih seen
    · exact ih seen
    · refine List.nodup_cons.mpr ⟨?_, ih (v.index :: seen)⟩
      intro h
      obtain ⟨u, hu, huv⟩ := List.mem_map.mp h
      exact (of_mem_splitAfter_accepted _ _ u hu).2 (huv ▸ List.mem_cons_self)

theorem nodup_index_accepted (votes : List Vote) :
    ((split set votes).accepted.map Vote.index).Nodup :=
  nodup_index_splitAfter [] votes

theorem splitAfter_of_valid {seen : List UInt16} {vs : List Vote} (hvalid : ∀ v ∈ vs, v.valid set = true)
    (hnodup : (vs.map Vote.index).Nodup) (hfresh : ∀ v ∈ vs, v.index ∉ seen) :
    splitAfter set seen vs = ⟨vs, [], []⟩ := by
  induction vs generalizing seen with
  | nil => rfl
  | cons v vs ih =>
    obtain ⟨hv, hvs⟩ := List.forall_mem_cons.mp hvalid
    obtain ⟨hother, hnodup⟩ := List.nodup_cons.mp hnodup
    rcases splitAfter_cons set seen v vs with ⟨hf, -⟩ | ⟨-, hs, -⟩ | ⟨-, -, e⟩
    · rw [hv] at hf
      cases hf
    · exact absurd hs (hfresh v List.mem_cons_self)
    · rw [e, ih hvs hnodup]
      intro u hu hseen
      rcases List.mem_cons.mp hseen with huv | hseen
      · exact hother (huv ▸ List.mem_map.mpr ⟨u, hu, rfl⟩)
      · exact hfresh u (List.mem_cons_of_mem _ hu) hseen

/-- Valid votes of distinct computors all count. -/
theorem split_of_valid {votes : List Vote} (hvalid : ∀ v ∈ votes, v.valid set = true)
    (hnodup : (votes.map Vote.index).Nodup) : split set votes = ⟨votes, [], []⟩ :=
  splitAfter_of_valid hvalid hnodup fun _ _ h => by cases h

/-- Every computor of a valid vote has one that counts. -/
theorem exists_splitAfter_accepted (seen : List UInt16) (vs : List Vote) :
    ∀ v ∈ vs, v.valid set = true →
      v.index ∈ seen ∨ ∃ u ∈ (splitAfter set seen vs).accepted, u.index = v.index := by
  induction vs generalizing seen with
  | nil => simp
  | cons u us ih =>
    intro v hv hvalid
    rcases List.mem_cons.mp hv with rfl | hv
    · rcases splitAfter_cons set seen v us with ⟨hf, -⟩ | ⟨-, hs, -⟩ | ⟨-, -, e⟩
      · rw [hvalid] at hf
        cases hf
      · exact .inl hs
      · exact .inr ⟨v, by rw [e]; exact List.mem_cons_self, rfl⟩
    · rcases splitAfter_cons set seen u us with ⟨-, e⟩ | ⟨-, -, e⟩ | ⟨-, -, e⟩ <;> rw [e]
      · exact ih seen v hv hvalid
      · exact ih seen v hv hvalid
      · rcases ih (u.index :: seen) v hv hvalid with hseen | ⟨w, hw, hindex⟩
        · rcases List.mem_cons.mp hseen with hindex | hseen
          · exact .inr ⟨u, List.mem_cons_self, hindex.symm⟩
          · exact .inl hseen
        · exact .inr ⟨w, List.mem_cons_of_mem _ hw, hindex⟩

theorem exists_accepted_of_valid {votes : List Vote} (hv : v ∈ votes) (hvalid : v.valid set = true) :
    ∃ u ∈ (split set votes).accepted, u.index = v.index :=
  (exists_splitAfter_accepted [] votes v hv hvalid).resolve_left List.not_mem_nil

/-! ## The other votes -/

theorem rejected_splitAfter (seen : List UInt16) (vs : List Vote) :
    (splitAfter set seen vs).rejected = (vs.filter fun v => !v.valid set).map Vote.index := by
  induction vs generalizing seen with
  | nil => rfl
  | cons v vs ih =>
    rcases splitAfter_cons set seen v vs with ⟨hv, e⟩ | ⟨hv, -, e⟩ | ⟨hv, -, e⟩ <;>
      simp [e, ih, hv]

/-- The rejected votes are those whose signature does not hold, in order. -/
theorem rejected_split (votes : List Vote) :
    (split set votes).rejected = (votes.filter fun v => !v.valid set).map Vote.index :=
  rejected_splitAfter [] votes

theorem perm_splitAfter_valid (seen : List UInt16) (vs : List Vote) :
    ((splitAfter set seen vs).accepted.map Vote.index ++ (splitAfter set seen vs).duplicates).Perm
      ((vs.filter fun v => v.valid set).map Vote.index) := by
  induction vs generalizing seen with
  | nil => exact List.Perm.refl _
  | cons v vs ih =>
    rcases splitAfter_cons set seen v vs with ⟨hv, e⟩ | ⟨hv, -, e⟩ | ⟨hv, -, e⟩ <;> rw [e]
    · simpa [hv] using ih seen
    · simp only [List.filter_cons_of_pos hv, List.map_cons]
      exact List.perm_middle.trans ((ih seen).cons v.index)
    · simp only [List.filter_cons_of_pos hv, List.map_cons, List.cons_append]
      exact (ih (v.index :: seen)).cons v.index

/-- The valid votes are those that count and the duplicates. -/
theorem perm_split_valid (votes : List Vote) :
    ((split set votes).accepted.map Vote.index ++ (split set votes).duplicates).Perm
      ((votes.filter fun v => v.valid set).map Vote.index) :=
  perm_splitAfter_valid [] votes

/-! ## Votes that cannot count -/

theorem splitAfter_insert_forged (h : v.valid set = false) (seen : List UInt16)
    (before after : List Vote) :
    (splitAfter set seen (before ++ v :: after)).accepted =
        (splitAfter set seen (before ++ after)).accepted ∧
      (splitAfter set seen (before ++ v :: after)).duplicates =
        (splitAfter set seen (before ++ after)).duplicates := by
  induction before generalizing seen with
  | nil => simp [splitAfter, h]
  | cons u us ih =>
    obtain ⟨i1, i2⟩ := ih seen
    obtain ⟨j1, j2⟩ := ih (u.index :: seen)
    simp only [List.cons_append, splitAfter]
    split
    · split
      · exact ⟨i1, by simp only [i2]⟩
      · exact ⟨by simp only [j1], j2⟩
    · exact ⟨i1, i2⟩

/-- The computor of a repeated vote is seen by the time the scan comes to it: either it was seen
before, or a vote on the way makes it so. -/
theorem splitAfter_insert_repeat (h : v.valid set = true) (seen : List UInt16)
    (before after : List Vote)
    (hseen : v.index ∈ seen ∨ ∃ u ∈ before, u.valid set = true ∧ u.index = v.index) :
    (splitAfter set seen (before ++ v :: after)).accepted =
        (splitAfter set seen (before ++ after)).accepted ∧
      (splitAfter set seen (before ++ v :: after)).rejected =
        (splitAfter set seen (before ++ after)).rejected := by
  induction before generalizing seen with
  | nil =>
    rcases hseen with hs | ⟨u, hu, -⟩
    · simp [splitAfter, h, hs]
    · cases hu
  | cons u us ih =>
    simp only [List.mem_cons, exists_eq_or_imp] at hseen
    simp only [List.cons_append, splitAfter]
    split
    · rename_i hu
      split
      · rename_i hus
        refine ih seen ?_
        rcases hseen with hs | ⟨-, heq⟩ | hlater
        · exact .inl hs
        · exact .inl (heq ▸ List.contains_iff_mem.mp hus)
        · exact .inr hlater
      · obtain ⟨i1, i2⟩ := ih (u.index :: seen) (by
          rcases hseen with hs | ⟨-, heq⟩ | hlater
          · exact .inl (List.mem_cons_of_mem _ hs)
          · exact .inl (heq ▸ List.mem_cons_self)
          · exact .inr hlater)
        exact ⟨by simp only [i1], i2⟩
    · rename_i hu
      obtain ⟨i1, i2⟩ := ih seen (by
        rcases hseen with hs | ⟨hu', -⟩ | hlater
        · exact .inl hs
        · exact absurd hu' hu
        · exact .inr hlater)
      exact ⟨i1, by simp only [i2]⟩

/-- Whether a vote is forged or repeats, it does not touch the votes that count. -/
theorem accepted_insert {before after : List Vote} (h : v.Idle set before) :
    (split set (before ++ v :: after)).accepted = (split set (before ++ after)).accepted := by
  rcases h with h | ⟨h, hb⟩
  · exact (splitAfter_insert_forged h [] before after).1
  · exact (splitAfter_insert_repeat h [] before after (.inr hb)).1

end VoteCollection

/-! ## A signature that holds for no message -/

/-- A signature whose number is not reduced holds under no key. -/
theorem Signed.verify_of_forged {β : Type} [Signable β] {v : Signed β} {key : PublicKey}
    (h : v.signature = ⟨.replicate 64 255⟩) : v.verify key = false := by
  have hlarge : ¬ leNat (Tuple.back (m := 32) (n := 32) (.replicate 64 255)).toList < Ed25519.order := by
    decide
  unfold verify PublicKey.verify Ed25519.verify
  rw [h]
  exact if_neg hlarge

namespace Vote

/-! ## A vote that counts and one that does not -/

/-- A state with zeros for all digests. -/
def blankState : StateDigests := ⟨0, .replicate 32 0, .replicate 32 0, .replicate 32 0⟩

/-- A ballot with zeros for everything but its index and its tick. -/
def blankBallot (index : UInt16) (tick : UInt32) : Ballot where
  index := index
  outcome := ⟨0, tick, ⟨0, 0, 0, 0, 0, 0, 0⟩, blankState, .replicate 32 0, .replicate 32 0⟩
  salted := blankState

/-- A key that signs. -/
def someKey : PublicKey where
  octets := ⟨[234, 74, 108, 99, 226, 156, 82, 10, 190, 245, 80, 123, 19, 46, 197, 249, 149, 71, 118, 174,
    190, 190, 123, 146, 66, 30, 234, 105, 20, 70, 210, 44], rfl⟩

/-- Computors that all have this key. -/
def oneKeySet : ComputorSet := ⟨⟨0, .replicate 676 someKey⟩, ⟨.replicate 64 0⟩⟩

theorem key?_oneKeySet (index : UInt16) :
    oneKeySet.key? index = if index.toNat < 676 then some someKey else none := by
  simp only [ComputorSet.key?, Roster.key?, oneKeySet, Tuple.get?, Tuple.replicate,
    List.getElem?_replicate]

/-- The blank ballot of the first computor for tick 5, signed with that key. -/
def signedVote : Vote where
  body := blankBallot 0 5
  signature := ⟨⟨[40, 195, 216, 124, 71, 171, 32, 12, 217, 162, 190, 7, 33, 137, 67, 65, 230, 37, 249,
    151, 5, 50, 31, 46, 249, 24, 247, 69, 20, 8, 161, 87, 187, 240, 145, 98, 238, 255, 137, 129, 10, 190,
    159, 41, 122, 137, 29, 127, 117, 241, 61, 154, 125, 133, 241, 208, 19, 39, 97, 118, 175, 105, 213,
    13], rfl⟩⟩

/-- A blank ballot with a signature that holds for no message. -/
def forgedVote (index : UInt16) (tick : UInt32) : Vote := ⟨blankBallot index tick, ⟨.replicate 64 255⟩⟩

theorem verify_signedVote : signedVote.verify someKey = true := by decide +kernel

theorem valid_signedVote : signedVote.valid oneKeySet = true := by
  have hkey : oneKeySet.key? signedVote.index = some someKey := key?_oneKeySet 0
  rw [valid, hkey]
  exact verify_signedVote

theorem valid_forgedVote (set : ComputorSet) (index : UInt16) (tick : UInt32) :
    (forgedVote index tick).valid set = false := by
  unfold valid
  split
  · exact Signed.verify_of_forged rfl
  · rfl

end Vote

end LightClient
