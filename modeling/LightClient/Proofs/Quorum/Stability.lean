import LightClient.Proofs.Quorum.Majority
import LightClient.Proofs.Quorum.SaltCheck
/-!
# A quorum is stable under more evidence

Votes arrive one by one, and the salt check takes some away again; both change the order in which the
candidates stand and which of them is found first. Neither changes the outcome that decides. Of votes
by distinct computors (`Distinct`) at most one outcome has a quorum (`Distinct.outcome_unique`), so the
majority is the outcome with 451 votes, wherever these stand (`majority_eq_some_iff`), and it stays so
as long as no vote for it is lost (`exists_majority_of_subset`).

`decision_stable` says what follows for the check: it may lose a majority but never makes or changes
one, and further votes for the next tick leave a verified result as it is.
-/
namespace LightClient

namespace Vote

/-- Votes of distinct computors of an epoch. -/
structure Distinct (votes : List Vote) : Prop where
  nodup : (votes.map index).Nodup
  below : ∀ v ∈ votes, v.index.toNat < Computor.count

namespace Distinct

variable {votes a b kept dropped : List Vote} {u v : Vote} {o o' : TickOutcome}

theorem eq_of_index_eq (h : Distinct votes) (hu : u ∈ votes) (hv : v ∈ votes)
    (hi : u.index = v.index) : u = v :=
  List.inj_on_of_nodup_map h.nodup hu hv hi

theorem of_perm (h : Distinct votes) (hp : kept.Perm votes) : Distinct kept :=
  ⟨(hp.map index).nodup_iff.mpr h.nodup, fun v hv => h.below v (hp.mem_iff.mp hv)⟩

/-- What a check keeps of such votes are such votes. -/
theorem of_perm_append (h : Distinct votes) (hp : (kept ++ dropped).Perm votes) : Distinct kept := by
  have hall := h.of_perm hp
  refine ⟨?_, fun v hv => hall.below v (List.mem_append_left _ hv)⟩
  have hn := hall.nodup
  rw [List.map_append] at hn
  exact (List.nodup_append.mp hn).1

theorem nodup_backing (h : Distinct votes) (o : TickOutcome) :
    ((backing o votes).map index).Nodup :=
  h.nodup.sublist (List.filter_sublist.map index)

/-- Two outcomes with a quorum share a voter, whose vote is for one outcome only. -/
theorem outcome_unique (h : Distinct votes) (ho : Computor.quorum ≤ (backing o votes).length)
    (ho' : Computor.quorum ≤ (backing o' votes).length) : o = o' := by
  have hbelow (o : TickOutcome) : ∀ i ∈ (backing o votes).map index, i.toNat < Computor.count := by
    intro i hi
    obtain ⟨v, hv, rfl⟩ := List.mem_map.mp hi
    exact h.below v (mem_backing.mp hv).1
  -- Both backings have 451 of 676 indices, so they have one in common, and its vote is in both.
  have hoverlap := Computor.overlap_of_quorums (h.nodup_backing o) (h.nodup_backing o') (hbelow o)
    (hbelow o') (by rwa [List.length_map]) (by rwa [List.length_map])
  obtain ⟨i, hi⟩ := List.exists_mem_of_length_pos (Nat.lt_of_lt_of_le (by decide) hoverlap)
  obtain ⟨hio, hio'⟩ := List.mem_filter.mp hi
  obtain ⟨v, hv, rfl⟩ := List.mem_map.mp hio
  obtain ⟨v', hv', hi'⟩ := List.mem_map.mp (of_decide_eq_true hio')
  obtain ⟨hmem, rfl⟩ := mem_backing.mp hv
  obtain ⟨hmem', rfl⟩ := mem_backing.mp hv'
  rw [h.eq_of_index_eq hmem' hmem hi']

/-- More votes, more of them for each outcome. -/
theorem length_backing_le (h : Distinct a) (hsub : a ⊆ b) (o : TickOutcome) :
    (backing o a).length ≤ (backing o b).length := by
  refine ((h.nodup_backing o).of_map index).length_le_of_subset ?_
  intro v hv
  obtain ⟨hv, ho⟩ := mem_backing.mp hv
  exact mem_backing.mpr ⟨hsub hv, ho⟩

end Distinct

end Vote

namespace VoteCollection

/-- The votes that count are votes of distinct computors. -/
theorem distinct_accepted (set : ComputorSet) (votes : List Vote) :
    Vote.Distinct (split set votes).accepted :=
  ⟨nodup_index_accepted votes, fun _ hv => Vote.index_lt_of_valid (valid_of_mem_accepted hv)⟩

end VoteCollection

namespace Candidate

open Vote (Distinct backing)

variable {votes a b : List Vote} {c : Candidate}

/-- An outcome decides exactly if it has a quorum, whatever stands before it. -/
theorem majority_eq_some_iff (h : Distinct votes) :
    majority (ofVotes votes) = some c ↔
      Computor.quorum ≤ (backing c.outcome votes).length ∧ backedBy votes c.outcome = c := by
  rw [majority_ofVotes, Option.map_eq_some_iff]
  constructor
  · rintro ⟨v, hv, rfl⟩
    have hquorum := List.find?_some hv
    exact ⟨of_decide_eq_true hquorum, rfl⟩
  · rintro ⟨hquorum, hc⟩
    obtain ⟨v, hv⟩ := List.exists_mem_of_length_pos (Nat.lt_of_lt_of_le (by decide) hquorum)
    obtain ⟨hmem, ho⟩ := Vote.mem_backing.mp hv
    have hfound : (votes.find? fun v => Computor.quorum ≤ (backing v.outcome votes).length).isSome :=
      List.find?_isSome.mpr ⟨v, hmem, by rw [ho]; exact decide_eq_true hquorum⟩
    obtain ⟨u, hu⟩ := Option.isSome_iff_exists.mp hfound
    have huquorum := List.find?_some hu
    have hsame : u.outcome = c.outcome := h.outcome_unique (of_decide_eq_true huquorum) hquorum
    exact ⟨u, hu, by rw [hsame, hc]⟩

theorem exists_majority_of_subset (ha : Distinct a) (hb : Distinct b) (hsub : a ⊆ b)
    (h : majority (ofVotes a) = some c) :
    ∃ c', majority (ofVotes b) = some c' ∧ c'.outcome = c.outcome ∧ c.voters ⊆ c'.voters := by
  obtain ⟨hquorum, hc⟩ := (majority_eq_some_iff ha).mp h
  refine ⟨backedBy b c.outcome, (majority_eq_some_iff hb).mpr ⟨?_, rfl⟩, rfl, ?_⟩
  · exact Nat.le_trans hquorum (ha.length_backing_le hsub c.outcome)
  · intro i hi
    rw [← hc] at hi
    obtain ⟨v, hv, rfl⟩ := List.mem_map.mp hi
    obtain ⟨hv, ho⟩ := Vote.mem_backing.mp hv
    exact List.mem_map.mpr ⟨v, Vote.mem_backing.mpr ⟨hsub hv, ho⟩, rfl⟩

end Candidate

namespace SaltCheck

open Vote (Distinct blankState blankBallot someKey oneKeySet key?_oneKeySet forgedVote)

variable {computors : ComputorSet} {votes next next' : List Vote}

/-- The votes that a check groups are votes of distinct computors, if all were. -/
theorem Accounts.exists_kept {check : SaltCheck} (h : Accounts votes check) (hv : Distinct votes) :
    ∃ kept, Distinct kept ∧ kept ⊆ votes ∧ check.candidates = Candidate.ofVotes kept := by
  obtain ⟨kept, dropped, hp, hcand, -⟩ := h
  exact ⟨kept, hv.of_perm_append hp, fun v hk => hp.mem_iff.mp (List.mem_append_left _ hk), hcand⟩

theorem revealed_of_subset {truth : StateDigests} (hn : Distinct next) (hn' : Distinct next')
    (hsub : next ⊆ next') (h : revealed next = some truth) : revealed next' = some truth := by
  rw [← majority_ofVotes_map_prev, Option.map_eq_some_iff] at h ⊢
  obtain ⟨c, hc, rfl⟩ := h
  obtain ⟨c', hc', ho, -⟩ := Candidate.exists_majority_of_subset hn hn' hsub hc
  exact ⟨c', hc', by rw [ho]⟩

/-- Where the votes for the next tick reveal a state, there are enough of them for a check. -/
theorem run_of_revealed {truth : StateDigests} (h : revealed next = some truth) :
    run computors votes next = against computors truth votes := by
  have hmajority : Candidate.majority (Candidate.ofVotes next) ≠ none := by
    intro hnone
    rw [← majority_ofVotes_map_prev, hnone] at h
    cases h
  have hlarge : Computor.quorum ≤ Candidate.largest (Candidate.ofVotes next) :=
    Nat.le_of_not_lt fun hlt => hmajority ((majority_eq_none_iff next).mpr hlt)
  -- The two reduced results need fewer votes, or fewer for one outcome, than the largest group has.
  rcases run_cases computors votes next with ⟨hlen, -⟩ | ⟨-, hg, -⟩ | ⟨-, -, truth', ht, e⟩
  · obtain ⟨⟨o, ho⟩, -⟩ := Candidate.largest_ofVotes next
    have hle : (Vote.backing o next).length ≤ next.length := List.length_filter_le _ _
    omega
  · omega
  · rw [e, Option.some.inj (ht.symm.trans h)]

/-- A check that verified its result finds the same truth among more votes, and so does the same. -/
theorem run_eq_of_subset (hn : Distinct next) (hn' : Distinct next') (hsub : next ⊆ next')
    (h : (run computors votes next).trust = .saltVerified) :
    run computors votes next' = run computors votes next := by
  rcases run_cases computors votes next with ⟨-, e⟩ | ⟨-, -, e⟩ | ⟨-, -, truth, ht, e⟩
  · rw [e] at h
    cases h
  · rw [e] at h
    cases h
  · rw [e, run_of_revealed (revealed_of_subset hn hn' hsub ht)]

/-- **Stability.** Of votes by distinct computors, more of them leave the majority as it is, with all its
voters. So whatever votes for the next tick a check gets, a majority that it gives is the one that the
votes had before; and once a check has verified its result, further votes for the next tick do not
change anything about it. -/
theorem decision_stable (computors : ComputorSet) :
    (∀ a b, Distinct a → Distinct b → a ⊆ b →
      ∀ c, Candidate.majority (Candidate.ofVotes a) = some c →
        ∃ c', Candidate.majority (Candidate.ofVotes b) = some c' ∧ c'.outcome = c.outcome ∧
          c.voters ⊆ c'.voters) ∧
    (∀ votes next, Distinct votes →
      ∀ c, Candidate.majority (run computors votes next).candidates = some c →
        ∃ c', Candidate.majority (Candidate.ofVotes votes) = some c' ∧ c'.outcome = c.outcome) ∧
    ∀ votes next next', Distinct next → Distinct next' → next ⊆ next' →
      (run computors votes next).trust = .saltVerified →
        (run computors votes next').trust = .saltVerified ∧
        (run computors votes next').candidates = (run computors votes next).candidates ∧
        (run computors votes next').rejected = (run computors votes next).rejected := by
  refine ⟨fun a b ha hb hsub c => Candidate.exists_majority_of_subset ha hb hsub, ?_, ?_⟩
  · intro votes next hv c hc
    obtain ⟨kept, hk, hsub, hcand⟩ := (accounts_run computors votes next).exists_kept hv
    rw [hcand] at hc
    obtain ⟨c', hc', ho, -⟩ := Candidate.exists_majority_of_subset hk hv hsub hc
    exact ⟨c', hc', ho⟩
  · intro votes next next' hn hn' hsub htrust
    have hsame := run_eq_of_subset hn hn' hsub htrust
    exact ⟨hsame ▸ htrust, by rw [hsame], by rw [hsame]⟩

/-- The votes of the first computors, all of which knew the state. -/
def informedVotes (n : Nat) : List Vote :=
  (List.range n).map fun i => informedVote (UInt16.ofNat i) blankState

theorem toNat_index_informedVote {i : Nat} (h : i < 676) :
    (informedVote (UInt16.ofNat i) blankState).index.toNat = i :=
  UInt16.toNat_ofNat_of_lt (Nat.lt_trans h (by decide))

theorem distinct_informedVotes {n : Nat} (h : n ≤ 676) : Distinct (informedVotes n) := by
  refine ⟨?_, ?_⟩
  · rw [informedVotes, List.map_map]
    refine List.Nodup.map_on ?_ List.nodup_range
    intro i hi j hj hij
    have hi := Nat.lt_of_lt_of_le (List.mem_range.mp hi) h
    have hj := Nat.lt_of_lt_of_le (List.mem_range.mp hj) h
    have hij := congrArg UInt16.toNat hij
    simpa only [Function.comp, toNat_index_informedVote hi, toNat_index_informedVote hj] using hij
  · intro v hv
    obtain ⟨i, hi, rfl⟩ := List.mem_map.mp hv
    have hi := Nat.lt_of_lt_of_le (List.mem_range.mp hi) h
    rw [toNat_index_informedVote hi]
    exact hi

theorem informedVotes_subset {m n : Nat} (h : m ≤ n) : informedVotes m ⊆ informedVotes n :=
  List.map_subset _ (List.range_subset.mpr h)

/-- All of them name the same outcome. -/
theorem backing_informedVotes (n : Nat) :
    Vote.backing (blankBallot 0 5).outcome (informedVotes n) = informedVotes n := by
  refine List.filter_eq_self.mpr fun v hv => ?_
  obtain ⟨i, -, rfl⟩ := List.mem_map.mp hv
  exact decide_eq_true rfl

theorem majority_informedVotes {n : Nat} (hlo : 451 ≤ n) (hhi : n ≤ 676) :
    Candidate.majority (Candidate.ofVotes (informedVotes n)) =
      some (Candidate.backedBy (informedVotes n) (blankBallot 0 5).outcome) := by
  refine (Candidate.majority_eq_some_iff (distinct_informedVotes hhi)).mpr ⟨?_, rfl⟩
  rw [Candidate.backedBy, backing_informedVotes, informedVotes, List.length_map, List.length_range]
  exact hlo

/-- The 451 votes that decide, behind one by a computor that did not know the state. -/
def mixedVotes : List Vote := forgedVote 600 5 :: informedVotes 451

theorem distinct_mixedVotes : Distinct mixedVotes := by
  have hfew := distinct_informedVotes (by decide : 451 ≤ 676)
  refine ⟨List.nodup_cons.mpr ⟨?_, hfew.nodup⟩, List.forall_mem_cons.mpr ⟨by decide, hfew.below⟩⟩
  intro h
  obtain ⟨v, hv, hindex⟩ := List.mem_map.mp h
  obtain ⟨i, hi, rfl⟩ := List.mem_map.mp hv
  have hi := List.mem_range.mp hi
  have h600 := congrArg UInt16.toNat hindex
  rw [toNat_index_informedVote (Nat.lt_trans hi (by decide))] at h600
  exact absurd h600 (Nat.ne_of_lt (Nat.lt_trans hi (by decide)))

/-- The check drops that one. -/
theorem run_mixedVotes : run oneKeySet mixedVotes (informedVotes 451) =
    ⟨.saltVerified, Candidate.ofVotes (informedVotes 451), [600]⟩ := by
  have hrevealed : revealed (informedVotes 451) = some blankState := by
    rw [← majority_ofVotes_map_prev, majority_informedVotes (Nat.le_refl 451) (by decide)]
    rfl
  have hdigest : (blankState.saltedWith someKey).resourceTesting ≠ 0 := by decide +kernel
  have hunaware : Mismatch oneKeySet blankState (forgedVote 600 5) :=
    .inr ⟨someKey, key?_oneKeySet 600, .inl hdigest⟩
  have hkept : ∀ v ∈ informedVotes 451, ¬ Mismatch oneKeySet blankState v := by
    intro v hv
    have hbelow := (distinct_informedVotes (by decide : 451 ≤ 676)).below v hv
    obtain ⟨i, -, rfl⟩ := List.mem_map.mp hv
    exact (passes_iff ..).mp (passes_informedVote hbelow blankState)
  rw [run_of_revealed hrevealed, against_eq, mixedVotes, List.filter_cons_of_neg (by simpa using hunaware),
    List.filter_cons_of_pos (by simpa using hunaware), List.filter_eq_self.mpr (by simpa using hkept),
    List.filter_eq_nil_iff.mpr (by simpa using hkept)]
  rfl

/-- The votes of 451 computors decide; a vote that the salt check drops, and all votes that come later,
change nothing. -/
theorem decision_stable_informed :
    (∃ c, Candidate.majority (Candidate.ofVotes (informedVotes 676)) = some c ∧
      (informedVotes 451).map Vote.index ⊆ c.voters) ∧
    (∃ c, Candidate.majority (Candidate.ofVotes mixedVotes) = some c ∧
      c.outcome = (blankBallot 0 5).outcome) ∧
    (run oneKeySet mixedVotes (informedVotes 676)).rejected = [600] := by
  obtain ⟨hmore, hchecked, hnext⟩ := decision_stable oneKeySet
  have hfew := distinct_informedVotes (by decide : 451 ≤ 676)
  have hall := distinct_informedVotes (Nat.le_refl 676)
  have hsub := informedVotes_subset (by decide : 451 ≤ 676)
  have hmajority := majority_informedVotes (Nat.le_refl 451) (by decide)
  refine ⟨?_, ?_, ?_⟩
  · obtain ⟨c, hc, -, hvoters⟩ := hmore _ _ hfew hall hsub _ hmajority
    rw [Candidate.backedBy, backing_informedVotes] at hvoters
    exact ⟨c, hc, hvoters⟩
  · exact hchecked _ (informedVotes 451) distinct_mixedVotes _ (by rw [run_mixedVotes, hmajority])
  · obtain ⟨-, -, hrejected⟩ := hnext mixedVotes _ _ hfew hall hsub (by rw [run_mixedVotes])
    rw [hrejected, run_mixedVotes]

end SaltCheck

end LightClient
