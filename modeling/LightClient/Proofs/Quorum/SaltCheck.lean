import LightClient.Proofs.Quorum.Grouping
import LightClient.Proofs.Vote.Split
import LightClient.Quorum.SaltCheck
import Mathlib.Order.Bounds.Basic
/-!
# What the salt check does

`run_classifies`: how many votes the next tick has, and how many of them agree, decides which of the
three results the check gives; where it gives a verified one, the votes that do not match the state
that the next tick reveals are dropped and the others are grouped. Without a truth all votes are
grouped and none is dropped.

`accounts_run`, `accounts_unchecked`: whatever the result, each vote is either in a candidate or among
the dropped ones.
-/
namespace LightClient

namespace SaltCheck

open Vote (backing blankState blankBallot someKey oneKeySet key?_oneKeySet signedVote)

/-! ## The truth -/

/-- The state at the end of a tick as the votes for the next one reveal it: the first of them whose
outcome has a quorum tells. -/
def revealed (next : List Vote) : Option StateDigests :=
  (next.find? fun v => Computor.quorum ≤ (backing v.outcome next).length).map fun v => v.outcome.prev

theorem majority_ofVotes_map_prev (next : List Vote) :
    (Candidate.majority (Candidate.ofVotes next)).map (fun c => c.outcome.prev) = revealed next := by
  rw [Candidate.majority_ofVotes, Option.map_map]
  rfl

/-- There is no truth exactly when no outcome has a quorum. -/
theorem majority_eq_none_iff (votes : List Vote) :
    Candidate.majority (Candidate.ofVotes votes) = none ↔
      Candidate.largest (Candidate.ofVotes votes) < Computor.quorum := by
  obtain ⟨⟨o, ho⟩, hle⟩ := Candidate.largest_ofVotes votes
  rw [Candidate.majority_ofVotes, Option.map_eq_none_iff, List.find?_eq_none]
  simp only [decide_eq_true_eq, Nat.not_le]
  constructor
  · intro h
    rw [← ho]
    cases hb : backing o votes with
    | nil => decide
    | cons v vs =>
      obtain ⟨hv, rfl⟩ := Vote.mem_backing.mp (hb ▸ List.mem_cons_self)
      exact hb ▸ h v hv
  · intro h v _
    exact Nat.lt_of_le_of_lt (hle v.outcome) h

/-! ## Votes that do not match -/

/-- The index of the vote has no key, or the true state, salted with that key, is not the salted state
of the vote: the two differ in the resource-testing digest or in one of the three roots. -/
def Mismatch (computors : ComputorSet) (truth : StateDigests) (v : Vote) : Prop :=
  computors.key? v.index = none ∨
    ∃ key ∈ computors.key? v.index,
      (truth.saltedWith key).resourceTesting ≠ v.body.salted.resourceTesting ∨
      (truth.saltedWith key).spectrumRoot ≠ v.body.salted.spectrumRoot ∨
      (truth.saltedWith key).universeRoot ≠ v.body.salted.universeRoot ∨
      (truth.saltedWith key).computerRoot ≠ v.body.salted.computerRoot

instance (computors : ComputorSet) (truth : StateDigests) (v : Vote) :
    Decidable (Mismatch computors truth v) :=
  inferInstanceAs (Decidable (_ ∨ _))

theorem passes_iff (computors : ComputorSet) (truth : StateDigests) (v : Vote) :
    passes computors truth v = true ↔ ¬ Mismatch computors truth v := by
  unfold passes Mismatch saltMatches
  cases computors.key? v.index with
  | none => simp
  | some key =>
    simp only [decide_eq_true_eq, Option.mem_some_iff, reduceCtorEq, false_or, exists_eq_left',
      StateDigests.ext_iff, not_or, not_not]

/-- Where no vote is dropped, all votes are the kept ones. -/
theorem against_eq (computors : ComputorSet) (truth : StateDigests) (votes : List Vote) :
    against computors truth votes =
      ⟨.saltVerified,
        Candidate.ofVotes (votes.filter fun v => ¬ Mismatch computors truth v),
        (votes.filter fun v => Mismatch computors truth v).map Vote.index⟩ := by
  have hkept : votes.filter (passes computors truth) =
      votes.filter fun v => ¬ Mismatch computors truth v := by
    apply List.filter_congr
    intro v _
    rw [Bool.eq_iff_iff, passes_iff]
    simp
  have hdropped : votes.filter (not ∘ passes computors truth) =
      votes.filter fun v => Mismatch computors truth v := by
    apply List.filter_congr
    intro v _
    have h := passes_iff computors truth v
    by_cases hm : Mismatch computors truth v <;> simp_all
  unfold against
  rw [List.partition_eq_filter_filter, hkept, hdropped]
  simp only
  split
  · rename_i h
    rw [List.isEmpty_iff, List.filter_eq_nil_iff] at h
    have hall : votes.filter (fun v => ¬ Mismatch computors truth v) = votes :=
      List.filter_eq_self.mpr fun v hv => by simpa using h v hv
    rw [hall]
  · rfl

/-! ## The result -/

/-- The check in its three cases. -/
theorem run_cases (computors : ComputorSet) (votes next : List Vote) :
    (next.length < Computor.quorum ∧
      run computors votes next = unchecked (.insufficientNextTickVotes next.length) votes) ∨
    (Computor.quorum ≤ next.length ∧ Candidate.largest (Candidate.ofVotes next) < Computor.quorum ∧
      run computors votes next =
        unchecked (.noNextTickMajority (Candidate.largest (Candidate.ofVotes next))) votes) ∨
    (Computor.quorum ≤ next.length ∧ Computor.quorum ≤ Candidate.largest (Candidate.ofVotes next) ∧
      ∃ truth, revealed next = some truth ∧ run computors votes next = against computors truth votes) := by
  by_cases hlen : next.length < Computor.quorum
  · exact .inl ⟨hlen, by rw [run, if_pos hlen]⟩
  · refine .inr ?_
    have hnone := majority_eq_none_iff next
    cases hm : Candidate.majority (Candidate.ofVotes next) with
    | none => exact .inl ⟨Nat.le_of_not_lt hlen, hnone.mp hm, by simp [run, hlen, hm]⟩
    | some c =>
      rw [hm] at hnone
      refine .inr ⟨Nat.le_of_not_lt hlen, ?_, c.outcome.prev, ?_, by simp [run, hlen, hm]⟩
      · exact Nat.le_of_not_lt fun h => nomatch hnone.mpr h
      · rw [← majority_ofVotes_map_prev, hm]
        rfl

/-- The result of a check groups some votes, drops the others, and that is all of them. -/
def Accounts (votes : List Vote) (check : SaltCheck) : Prop :=
  ∃ kept dropped, (kept ++ dropped).Perm votes ∧ check.candidates = Candidate.ofVotes kept ∧
    check.rejected = dropped.map Vote.index

theorem accounts_unchecked (reason : ReducedTrust) (votes : List Vote) :
    Accounts votes (unchecked reason votes) :=
  ⟨votes, [], by rw [List.append_nil], rfl, rfl⟩

theorem accounts_against (computors : ComputorSet) (truth : StateDigests) (votes : List Vote) :
    Accounts votes (against computors truth votes) := by
  rw [against_eq]
  refine ⟨_, _, ?_, rfl, rfl⟩
  have h := List.filter_append_perm (fun v => decide (¬ Mismatch computors truth v)) votes
  simpa using h

theorem accounts_run (computors : ComputorSet) (votes next : List Vote) :
    Accounts votes (run computors votes next) := by
  rcases run_cases computors votes next with ⟨-, e⟩ | ⟨-, -, e⟩ | ⟨-, -, truth, -, e⟩ <;> rw [e]
  · exact accounts_unchecked _ votes
  · exact accounts_unchecked _ votes
  · exact accounts_against computors truth votes

/-- **Classification.** With `g` the largest number of votes for the next tick that agree: fewer than
451 votes are too few, 451 votes of which no 451 agree show no majority, and else the votes are
checked. A check keeps the votes that match the revealed state, in order, and lists the indices of the
others; without one, all votes are kept. -/
theorem run_classifies (computors : ComputorSet) (votes next : List Vote) :
    ∃ g, IsGreatest (Set.range fun o => (backing o next).length) g ∧
      (run computors votes next).trust =
        (if next.length < 451 then .reduced (.insufficientNextTickVotes next.length)
         else if g < 451 then .reduced (.noNextTickMajority g)
         else .saltVerified) ∧
      ((run computors votes next).trust = .saltVerified → ∃ truth, revealed next = some truth ∧
        (run computors votes next).rejected =
          (votes.filter fun v => Mismatch computors truth v).map Vote.index ∧
        (run computors votes next).candidates =
          Candidate.ofVotes (votes.filter fun v => ¬ Mismatch computors truth v)) ∧
      ((run computors votes next).trust ≠ .saltVerified →
        (run computors votes next).rejected = [] ∧
        (run computors votes next).candidates = Candidate.ofVotes votes) := by
  obtain ⟨hreach, hle⟩ := Candidate.largest_ofVotes next
  have hq : Computor.quorum = 451 := rfl
  refine ⟨Candidate.largest (Candidate.ofVotes next), ⟨hreach, ?_⟩, ?_⟩
  · rintro _ ⟨o, rfl⟩
    exact hle o
  rcases run_cases computors votes next with ⟨hlen, e⟩ | ⟨hlen, hg, e⟩ | ⟨hlen, hg, truth, ht, e⟩ <;>
    rw [hq] at hlen <;> rw [e]
  · rw [if_pos hlen]
    exact ⟨rfl, (fun h => nomatch h), fun _ => ⟨rfl, rfl⟩⟩
  · rw [hq] at hg
    rw [if_neg (Nat.not_lt.mpr hlen), if_pos hg]
    exact ⟨rfl, (fun h => nomatch h), fun _ => ⟨rfl, rfl⟩⟩
  · rw [hq] at hg
    rw [if_neg (Nat.not_lt.mpr hlen), if_neg (Nat.not_lt.mpr hg), against_eq]
    exact ⟨rfl, fun _ => ⟨truth, ht, rfl, rfl⟩, fun h => absurd rfl h⟩

/-- A vote by a computor that knew a state. -/
def informedVote (index : UInt16) (state : StateDigests) : Vote where
  body := { blankBallot index 5 with salted := state.saltedWith someKey }
  signature := ⟨.replicate 64 0⟩

theorem passes_informedVote {index : UInt16} (h : index.toNat < 676) (state : StateDigests) :
    passes oneKeySet state (informedVote index state) = true := by
  have hkey : oneKeySet.key? (informedVote index state).index = some someKey := by
    rw [key?_oneKeySet]
    exact if_pos h
  rw [passes, hkey]
  exact decide_eq_true (Eq.refl (state.saltedWith someKey))

theorem backing_replicate (n : Nat) (v : Vote) :
    backing v.outcome (.replicate n v) = .replicate n v := by
  have hself : (fun u : Vote => decide (u.outcome = v.outcome)) v = true := decide_eq_true rfl
  exact List.filter_replicate_of_pos hself

theorem revealed_replicate {n : Nat} (h : Computor.quorum ≤ n) (v : Vote) :
    revealed (.replicate n v) = some v.outcome.prev := by
  have hquorum : Computor.quorum ≤ (backing v.outcome (.replicate n v)).length := by
    rwa [backing_replicate, List.length_replicate]
  have hn : n ≠ 0 := Nat.ne_of_gt (Nat.lt_of_lt_of_le (by decide) h)
  rw [revealed, List.find?_replicate, if_neg hn, if_pos (decide_eq_true hquorum)]
  rfl

/-- Where 451 votes reveal a state, a vote by a computor that knew it is kept. One by a computor that
did not, and one with an index without a key, are dropped. -/
theorem run_classifies_revealed :
    let check := run oneKeySet
      [informedVote 5 blankState, signedVote, informedVote 700 blankState] (.replicate 451 signedVote)
    check.trust = .saltVerified ∧ check.rejected = [0, 700] ∧
      check.candidates = [⟨(blankBallot 5 5).outcome, [5]⟩] := by
  have hkeeps : ¬ Mismatch oneKeySet blankState (informedVote 5 blankState) :=
    (passes_iff ..).mp (passes_informedVote (by decide) blankState)
  have hdigest : (blankState.saltedWith someKey).resourceTesting ≠ 0 := by decide +kernel
  have hunaware : Mismatch oneKeySet blankState signedVote :=
    .inr ⟨someKey, key?_oneKeySet 0, .inl hdigest⟩
  have hstray : Mismatch oneKeySet blankState (informedVote 700 blankState) :=
    .inl (key?_oneKeySet 700)
  obtain ⟨g, hg, htrust, hverified, -⟩ := run_classifies oneKeySet
    [informedVote 5 blankState, signedVote, informedVote 700 blankState] (.replicate 451 signedVote)
  have hlarge : 451 ≤ g := by
    have h := hg.2 ⟨signedVote.outcome, rfl⟩
    simpa only [backing_replicate, List.length_replicate] using h
  rw [List.length_replicate, if_neg (Nat.lt_irrefl 451), if_neg (Nat.not_lt.mpr hlarge)] at htrust
  obtain ⟨truth, htruth, hrejected, hcandidates⟩ := hverified htrust
  have htruth : blankState = truth :=
    Option.some.inj ((revealed_replicate (by decide) signedVote).symm.trans htruth)
  subst htruth
  refine ⟨htrust, ?_, ?_⟩
  · rw [hrejected, List.filter_cons_of_neg (by simpa using hkeeps),
      List.filter_cons_of_pos (by simpa using hunaware),
      List.filter_cons_of_pos (by simpa using hstray), List.filter_nil]
    rfl
  · rw [hcandidates, List.filter_cons_of_pos (by simpa using hkeeps),
      List.filter_cons_of_neg (by simpa using hunaware),
      List.filter_cons_of_neg (by simpa using hstray), List.filter_nil, Candidate.ofVotes_cons]
    rfl

end SaltCheck

end LightClient
