import LightClient.Proofs.Vote.Split
import Mathlib.Data.List.Induction
/-!
# Where each vote goes

What `VoteCollection.split` gives is said here without the scan that computes it. Among the valid votes, those count
whose index occurs in no valid vote before them; of the others the indices are duplicates; and of the votes that are
not valid the indices are rejected (`split_eq`). Each list has the order of the votes.

The scan goes through the votes from the front, so the induction is on the votes that were scanned. What one more
vote does to their split (`split_concat`), it does to the lists that are said without the scan
(`map_zipIdx_concat`).
-/
namespace LightClient.VoteCollection

variable {set : ComputorSet} {votes : List Vote} {v : Vote} {p : Vote × Nat}

/-! ## Votes with their places -/

/-- The index of the vote at a place occurs in a vote before that place. -/
def Repeated (votes : List Vote) (p : Vote × Nat) : Prop := p.1.index ∈ (votes.take p.2).map Vote.index

instance : Decidable (Repeated votes p) := inferInstanceAs (Decidable (_ ∈ _))

/-- The votes whose index occurs in no vote before them. -/
def firstVotes (votes : List Vote) : List Vote :=
  (votes.zipIdx.filter fun p => !decide (Repeated votes p)).map Prod.fst

/-- The votes whose index occurs in a vote before them. -/
def laterVotes (votes : List Vote) : List Vote :=
  (votes.zipIdx.filter fun p => decide (Repeated votes p)).map Prod.fst

/-- For a vote that is there, what comes behind all votes changes nothing. -/
theorem repeated_concat_iff (hp : p ∈ votes.zipIdx) (v : Vote) : Repeated (votes ++ [v]) p ↔ Repeated votes p := by
  have hplace : p.2 < votes.length := List.snd_lt_of_mem_zipIdx hp
  unfold Repeated
  rw [List.take_append_of_le_length (Nat.le_of_lt hplace)]

theorem repeated_last_iff : Repeated (votes ++ [v]) (v, votes.length) ↔ v.index ∈ votes.map Vote.index := by
  unfold Repeated
  rw [List.take_left' rfl]

/-- A choice of votes by whether they repeat one before them is the choice among the first ones, and the last vote
where it is chosen. -/
theorem map_zipIdx_concat (choose : Bool → Bool) (votes : List Vote) (v : Vote) :
    ((votes ++ [v]).zipIdx.filter fun p => choose (decide (Repeated (votes ++ [v]) p))).map Prod.fst =
      (votes.zipIdx.filter fun p => choose (decide (Repeated votes p))).map Prod.fst ++
        if choose (decide (v.index ∈ votes.map Vote.index)) then [v] else [] := by
  have hbefore : (votes.zipIdx.filter fun p => choose (decide (Repeated (votes ++ [v]) p))) =
      votes.zipIdx.filter fun p => choose (decide (Repeated votes p)) := by
    refine List.filter_congr fun p hp => ?_
    simp only [repeated_concat_iff hp]
  have hlast : [v].zipIdx votes.length = [(v, votes.length)] := rfl
  rw [List.zipIdx_append, Nat.zero_add, hlast, List.filter_append, hbefore, List.map_append]
  simp only [List.filter_cons, List.filter_nil, repeated_last_iff]
  split <;> rfl

theorem firstVotes_concat (votes : List Vote) (v : Vote) :
    firstVotes (votes ++ [v]) =
      if v.index ∈ votes.map Vote.index then firstVotes votes else firstVotes votes ++ [v] := by
  have h := map_zipIdx_concat not votes v
  unfold firstVotes
  rw [h]
  by_cases hv : v.index ∈ votes.map Vote.index <;> simp [hv]

theorem laterVotes_concat (votes : List Vote) (v : Vote) :
    laterVotes (votes ++ [v]) =
      if v.index ∈ votes.map Vote.index then laterVotes votes ++ [v] else laterVotes votes := by
  have h := map_zipIdx_concat id votes v
  simp only [id] at h
  unfold laterVotes
  rw [h]
  by_cases hv : v.index ∈ votes.map Vote.index <;> simp [hv]

/-! ## One more vote -/

/-- What a vote does to the split of the votes before it. Its index was seen if it was so at the beginning, or if
one of these votes is valid and has it. -/
theorem splitAfter_concat (set : ComputorSet) (seen : List UInt16) (votes : List Vote) (v : Vote) :
    splitAfter set seen (votes ++ [v]) =
      if v.valid set then
        if v.index ∈ seen ∨ v.index ∈ (votes.filter fun u => u.valid set).map Vote.index then
          { splitAfter set seen votes with duplicates := (splitAfter set seen votes).duplicates ++ [v.index] }
        else { splitAfter set seen votes with accepted := (splitAfter set seen votes).accepted ++ [v] }
      else { splitAfter set seen votes with rejected := (splitAfter set seen votes).rejected ++ [v.index] } := by
  induction votes generalizing seen with
  | nil =>
    cases hv : v.valid set with
    | false => simp [splitAfter, empty, hv]
    | true => by_cases hs : v.index ∈ seen <;> simp [splitAfter, empty, hv, hs]
  | cons u us ih =>
    rw [List.cons_append]
    cases hu : u.valid set with
    | false =>
      rw [splitAfter_of_forged hu, splitAfter_of_forged hu, ih, List.filter_cons_of_neg (by simp [hu])]
      split_ifs <;> rfl
    | true =>
      rw [List.filter_cons_of_pos hu, List.map_cons]
      by_cases hs : u.index ∈ seen
      · have hmem (l : List UInt16) : v.index ∈ seen ∨ v.index ∈ u.index :: l ↔ v.index ∈ seen ∨ v.index ∈ l := by
          rw [List.mem_cons]
          constructor
          · rintro (h | h | h)
            · exact .inl h
            · exact .inl (h ▸ hs)
            · exact .inr h
          · rintro (h | h)
            · exact .inl h
            · exact .inr (.inr h)
        rw [splitAfter_of_seen hu hs, splitAfter_of_seen hu hs, ih]
        simp only [hmem]
        split_ifs <;> rfl
      · have hmem (l : List UInt16) : v.index ∈ u.index :: seen ∨ v.index ∈ l ↔
            v.index ∈ seen ∨ v.index ∈ u.index :: l := by
          rw [List.mem_cons, List.mem_cons, or_assoc, or_left_comm]
        rw [splitAfter_of_unseen hu hs, splitAfter_of_unseen hu hs, ih]
        simp only [hmem]
        split_ifs <;> rfl

theorem split_concat (set : ComputorSet) (votes : List Vote) (v : Vote) :
    split set (votes ++ [v]) =
      if v.valid set then
        if v.index ∈ (votes.filter fun u => u.valid set).map Vote.index then
          { split set votes with duplicates := (split set votes).duplicates ++ [v.index] }
        else { split set votes with accepted := (split set votes).accepted ++ [v] }
      else { split set votes with rejected := (split set votes).rejected ++ [v.index] } := by
  have h := splitAfter_concat set [] votes v
  simp only [List.not_mem_nil, false_or] at h
  exact h

/-! ## The whole split -/

/-- The valid votes that are first with their index count, the indices of the other valid votes are duplicates, and
those of all other votes are rejected. -/
theorem split_eq (set : ComputorSet) (votes : List Vote) :
    split set votes =
      { accepted := firstVotes (votes.filter fun v => v.valid set)
        rejected := (votes.filter fun v => !v.valid set).map Vote.index
        duplicates := (laterVotes (votes.filter fun v => v.valid set)).map Vote.index } := by
  induction votes using List.reverseRecOn with
  | nil => rfl
  | append_singleton votes v ih =>
    rw [split_concat, ih, List.filter_append, List.filter_append]
    cases hv : v.valid set with
    | false => simp [hv]
    | true =>
      have hvalid : [v].filter (fun u => u.valid set) = [v] := List.filter_cons_of_pos hv
      rw [hvalid, firstVotes_concat, laterVotes_concat]
      by_cases hs : v.index ∈ (votes.filter fun u => u.valid set).map Vote.index <;> simp [hv, hs]

theorem valid_iff : v.valid set = true ↔ ∃ key, set.key? v.index = some key ∧ v.verify key = true := by
  constructor
  · exact Vote.exists_key_of_valid
  · rintro ⟨key, hkey, hverify⟩
    unfold Vote.valid
    rw [hkey]
    exact hverify

/-- A duplicate repeats the index of a vote that counts. -/
theorem mem_accepted_of_duplicate {i : UInt16} (h : i ∈ (split set votes).duplicates) :
    i ∈ (split set votes).accepted.map Vote.index := by
  have hvalid := (perm_split_valid votes).subset (List.mem_append_right _ h)
  obtain ⟨v, hv, rfl⟩ := List.mem_map.mp hvalid
  obtain ⟨hmem, hv⟩ := List.mem_filter.mp hv
  obtain ⟨u, hu, hindex⟩ := exists_accepted_of_valid hmem hv
  exact List.mem_map.mpr ⟨u, hu, hindex⟩

/-- **Votes are split exactly.** A vote is valid if its signature holds under the key at its index. The valid votes
whose index occurs in no valid vote before them count; the duplicates are the indices of the other valid votes, and
the rejected ones are the indices of the votes that are not valid, all in the order of the votes. So no vote is
lost, the votes that count have distinct indices, each with a key, and each duplicate repeats the index of a vote
that counts. -/
theorem split_exact (set : ComputorSet) (votes : List Vote) :
    (∀ v : Vote, v.valid set = true ↔ ∃ key, set.key? v.index = some key ∧ v.verify key = true) ∧
    (split set votes).accepted = firstVotes (votes.filter fun v => v.valid set) ∧
    (split set votes).duplicates = (laterVotes (votes.filter fun v => v.valid set)).map Vote.index ∧
    (split set votes).rejected = (votes.filter fun v => !v.valid set).map Vote.index ∧
    (split set votes).accepted.length + (split set votes).duplicates.length + (split set votes).rejected.length =
      votes.length ∧
    ((split set votes).accepted.map Vote.index).Nodup ∧
    (∀ v ∈ (split set votes).accepted, ∃ key, set.key? v.index = some key) ∧
    ∀ i ∈ (split set votes).duplicates, i ∈ (split set votes).accepted.map Vote.index := by
  have hsplit := split_eq set votes
  refine ⟨fun v => valid_iff, congrArg accepted hsplit, congrArg duplicates hsplit, congrArg rejected hsplit, ?_,
    nodup_index_accepted votes, fun v hv => ?_, fun i => mem_accepted_of_duplicate⟩
  · have hsize : (split set votes).size = votes.length := size_split votes
    unfold size at hsize
    omega
  · obtain ⟨key, hkey, -⟩ := Vote.exists_key_of_valid (valid_of_mem_accepted hv)
    exact ⟨key, hkey⟩

/-- A forged vote is rejected although it comes first, and of two valid votes of the same computor the first one
counts. -/
theorem split_exact_repeated :
    (split Vote.oneKeySet [Vote.forgedVote 0 5, Vote.signedVote, Vote.signedVote]) =
        ⟨[Vote.signedVote], [0], [0]⟩ ∧
      ∃ key, Vote.oneKeySet.key? Vote.signedVote.index = some key := by
  obtain ⟨-, haccepted, hduplicates, hrejected, -, -, hkeys, -⟩ :=
    split_exact Vote.oneKeySet [Vote.forgedVote 0 5, Vote.signedVote, Vote.signedVote]
  have hvalid : [Vote.forgedVote 0 5, Vote.signedVote, Vote.signedVote].filter (fun v => v.valid Vote.oneKeySet) =
      [Vote.signedVote, Vote.signedVote] := by
    simp [Vote.valid_forgedVote, Vote.valid_signedVote]
  have hforged : [Vote.forgedVote 0 5, Vote.signedVote, Vote.signedVote].filter
      (fun v => !v.valid Vote.oneKeySet) = [Vote.forgedVote 0 5] := by
    simp [Vote.valid_forgedVote, Vote.valid_signedVote]
  rw [hvalid] at haccepted hduplicates
  rw [hforged] at hrejected
  have hfirst : firstVotes [Vote.signedVote, Vote.signedVote] = [Vote.signedVote] := by decide
  have hlater : laterVotes [Vote.signedVote, Vote.signedVote] = [Vote.signedVote] := by decide
  rw [hfirst] at haccepted
  rw [hlater] at hduplicates
  refine ⟨?_, hkeys Vote.signedVote ?_⟩
  · rcases hsplit : split Vote.oneKeySet [Vote.forgedVote 0 5, Vote.signedVote, Vote.signedVote] with ⟨a, r, d⟩
    rw [hsplit] at haccepted hduplicates hrejected
    subst haccepted hduplicates hrejected
    rfl
  · rw [haccepted]
    exact List.mem_singleton_self _

end LightClient.VoteCollection
