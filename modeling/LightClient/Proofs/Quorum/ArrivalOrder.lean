import LightClient.Proofs.Quorum.Stability
import Mathlib.Data.Multiset.Defs
/-!
# The order of arrival does not matter

Each stage from the votes to the outcome depends on their order: the first valid vote of a computor
counts, the first outcome named is the first candidate, and the first one with a quorum is the truth.
Yet all that a report says is the same for every order, as long as no computor has signed two votes
(`Unequivocal`):

* `perm_split`: the three lists of the split are the same up to order. Who has signed one vote only is
  counted by that vote, whichever copy of it comes first.
* `perm_tallies`: so are the candidates with their voters, and `majority_tally_eq` the one that decides.
* `revealed_eq_of_perm`, `perm_run`: the same truth is found, so the same votes are dropped.

`arrival_order_immaterial` puts them together.
-/
namespace LightClient

namespace Vote

/-- No computor has signed two different ones of these votes. -/
def Unequivocal (set : ComputorSet) (votes : List Vote) : Prop :=
  ∀ u ∈ votes, ∀ v ∈ votes, u.valid set = true → v.valid set = true → u.index = v.index → u = v

theorem Unequivocal.of_perm {set : ComputorSet} {votes votes' : List Vote} (h : Unequivocal set votes)
    (hp : votes'.Perm votes) : Unequivocal set votes' :=
  fun u hu v hv => h u (hp.mem_iff.mp hu) v (hp.mem_iff.mp hv)

end Vote

namespace VoteCollection

open Vote (Unequivocal)

variable {set : ComputorSet} {votes votes' : List Vote} {v : Vote}

theorem mem_accepted_iff (h : Unequivocal set votes) :
    v ∈ (split set votes).accepted ↔ v ∈ votes ∧ v.valid set = true := by
  have hsub : (split set votes).accepted ⊆ votes := (accepted_sublist votes).subset
  constructor
  · exact fun hv => ⟨hsub hv, valid_of_mem_accepted hv⟩
  · rintro ⟨hv, hvalid⟩
    obtain ⟨u, hu, hindex⟩ := exists_accepted_of_valid hv hvalid
    exact h u (hsub hu) v hv (valid_of_mem_accepted hu) hvalid hindex ▸ hu

theorem perm_accepted (h : Unequivocal set votes) (hp : votes'.Perm votes) :
    (split set votes').accepted.Perm (split set votes).accepted := by
  have hn (votes : List Vote) : (split set votes).accepted.Nodup :=
    (nodup_index_accepted votes).of_map Vote.index
  refine (List.perm_ext_iff_of_nodup (hn votes') (hn votes)).mpr fun v => ?_
  rw [mem_accepted_iff h, mem_accepted_iff (h.of_perm hp), hp.mem_iff]

/-- Two splits with the same votes and indices in each of the three lists. -/
structure SameUpToOrder (c c' : VoteCollection) : Prop where
  accepted : c'.accepted.Perm c.accepted
  rejected : c'.rejected.Perm c.rejected
  duplicates : c'.duplicates.Perm c.duplicates

theorem perm_split (h : Unequivocal set votes) (hp : votes'.Perm votes) :
    SameUpToOrder (split set votes) (split set votes') := by
  have haccepted := perm_accepted h hp
  refine ⟨haccepted, ?_, ?_⟩
  · rw [rejected_split, rejected_split]
    exact (hp.filter _).map Vote.index
  -- The accepted votes and the repeated ones make up the valid ones, and the accepted ones are the same.
  · have hvalid := (hp.filter fun v => v.valid set).map Vote.index
    have hall := ((perm_split_valid votes').trans hvalid).trans (perm_split_valid votes).symm
    have hsame := ((haccepted.map Vote.index).symm.append_right _).trans hall
    exact (List.perm_append_left_iff _).mp hsame

end VoteCollection

namespace Candidate

open Vote (Distinct backing)

variable {votes votes' : List Vote}

/-- The outcome of a candidate with its voters in no particular order. -/
def tally (c : Candidate) : TickOutcome × Multiset UInt16 := (c.outcome, ↑c.voters)

theorem tally_backedBy_of_perm (hp : votes'.Perm votes) (o : TickOutcome) :
    (backedBy votes' o).tally = (backedBy votes o).tally :=
  congrArg (Prod.mk o) (Multiset.coe_eq_coe.mpr ((hp.filter _).map Vote.index))

theorem perm_tallies (hp : votes'.Perm votes) :
    ((ofVotes votes').map tally).Perm ((ofVotes votes).map tally) := by
  have houtcomes : (votes'.map Vote.outcome).eraseDups.Perm (votes.map Vote.outcome).eraseDups := by
    refine (List.perm_ext_iff_of_nodup (nodup_eraseDups _) (nodup_eraseDups _)).mpr fun o => ?_
    rw [List.mem_eraseDups, List.mem_eraseDups, (hp.map Vote.outcome).mem_iff]
  have hsame : tally ∘ backedBy votes' = tally ∘ backedBy votes :=
    funext (tally_backedBy_of_perm hp)
  rw [ofVotes_eq_map, ofVotes_eq_map, List.map_map, List.map_map, hsame]
  exact houtcomes.map _

theorem largest_eq_of_perm (hp : votes'.Perm votes) :
    largest (ofVotes votes') = largest (ofVotes votes) := by
  have hlength (o : TickOutcome) : (backing o votes').length = (backing o votes).length :=
    (hp.filter _).length_eq
  obtain ⟨⟨o, ho⟩, hle⟩ := largest_ofVotes votes
  obtain ⟨⟨o', ho'⟩, hle'⟩ := largest_ofVotes votes'
  have h := hle o'
  have h' := hle' o
  rw [hlength] at h' ho'
  omega

theorem majority_of_perm (h : Distinct votes) (h' : Distinct votes') (hp : votes'.Perm votes)
    {c : Candidate} (hc : majority (ofVotes votes) = some c) :
    ∃ c', majority (ofVotes votes') = some c' ∧ c'.tally = c.tally := by
  obtain ⟨c', hc', ho, -⟩ := exists_majority_of_subset h h' hp.symm.subset hc
  obtain ⟨-, hback⟩ := (majority_eq_some_iff h).mp hc
  obtain ⟨-, hback'⟩ := (majority_eq_some_iff h').mp hc'
  refine ⟨c', hc', ?_⟩
  rw [← hback', ← hback, ho]
  exact tally_backedBy_of_perm hp c.outcome

/-- The same outcome decides, with the same voters, or none does. -/
theorem majority_tally_eq (h : Distinct votes) (hp : votes'.Perm votes) :
    (majority (ofVotes votes')).map tally = (majority (ofVotes votes)).map tally := by
  have h' : Distinct votes' := h.of_perm hp
  cases hc : majority (ofVotes votes) with
  | some c =>
    obtain ⟨c', hc', ht⟩ := majority_of_perm h h' hp hc
    rw [hc', Option.map_some, Option.map_some, ht]
  | none =>
    cases hc' : majority (ofVotes votes') with
    | none => rfl
    | some c' =>
      obtain ⟨c, hsome, -⟩ := majority_of_perm h' h hp.symm hc'
      rw [hc] at hsome
      cases hsome

end Candidate

namespace SaltCheck

open Vote (Distinct Unequivocal blankBallot someKey oneKeySet key?_oneKeySet signedVote forgedVote valid_signedVote
  valid_forgedVote)
open VoteCollection (split)
open Candidate (tally)

variable {computors : ComputorSet} {votes votes' next next' : List Vote}

theorem revealed_eq_of_perm (h : Distinct next) (hp : next'.Perm next) : revealed next' = revealed next := by
  have hprev (votes : List Vote) : revealed votes =
      ((Candidate.majority (Candidate.ofVotes votes)).map tally).map fun t => t.1.prev := by
    rw [← majority_ofVotes_map_prev, Option.map_map]
    rfl
  rw [hprev, hprev, Candidate.majority_tally_eq h hp]

/-- Of the votes for the next tick, the check uses their number, how many of them agree, and the state
that they reveal. -/
theorem run_eq (computors : ComputorSet) (votes next : List Vote) :
    run computors votes next =
      if next.length < Computor.quorum then
        unchecked (.insufficientNextTickVotes next.length) votes
      else
        match revealed next with
        | some truth => against computors truth votes
        | none => unchecked (.noNextTickMajority (Candidate.largest (Candidate.ofVotes next))) votes := by
  rw [← majority_ofVotes_map_prev]
  simp only [run]
  cases Candidate.majority (Candidate.ofVotes next) <;> rfl

theorem run_eq_of_perm (h : Distinct next) (hp : next'.Perm next) :
    run computors votes next' = run computors votes next := by
  rw [run_eq, run_eq, hp.length_eq, revealed_eq_of_perm h hp, Candidate.largest_eq_of_perm hp]

/-- Two lists of the same votes are checked alike: the same ones are kept and the same ones dropped. -/
theorem perm_run (computors : ComputorSet) (next : List Vote) (hp : votes'.Perm votes) :
    ∃ trust, ∃ kept kept' dropped dropped' : List Vote,
      run computors votes next = ⟨trust, Candidate.ofVotes kept, dropped.map Vote.index⟩ ∧
      run computors votes' next = ⟨trust, Candidate.ofVotes kept', dropped'.map Vote.index⟩ ∧
      (kept ++ dropped).Perm votes ∧ kept'.Perm kept ∧ dropped'.Perm dropped := by
  rw [run_eq, run_eq]
  split
  · exact ⟨_, votes, votes', [], [], rfl, rfl, by rw [List.append_nil], hp, .refl _⟩
  · split
    · rename_i truth _
      rw [against_eq, against_eq]
      refine ⟨_, _, _, _, _, rfl, rfl, ?_, hp.filter _, hp.filter _⟩
      have h := List.filter_append_perm (fun v => decide (¬ Mismatch computors truth v)) votes
      simpa using h
    · exact ⟨_, votes, votes', [], [], rfl, rfl, by rw [List.append_nil], hp, .refl _⟩

/-- Two results of a check that say the same but for the order of candidates, voters and indices. -/
structure SameUpToOrder (check check' : SaltCheck) : Prop where
  trust : check'.trust = check.trust
  candidates : (check'.candidates.map tally).Perm (check.candidates.map tally)
  majority : (Candidate.majority check'.candidates).map tally =
    (Candidate.majority check.candidates).map tally
  support : (Candidate.majority check'.candidates).map Candidate.support =
    (Candidate.majority check.candidates).map Candidate.support
  rejected : check'.rejected.Perm check.rejected

/-- The check says the same of the same votes in another order, if no two of them are of one computor. -/
theorem sameUpToOrder_run (computors : ComputorSet) (hvotes : Distinct votes) (hnext : Distinct next)
    (hp : votes'.Perm votes) (hq : next'.Perm next) :
    SameUpToOrder (run computors votes next) (run computors votes' next') := by
  obtain ⟨trust, kept, kept', dropped, dropped', hrun, hrun', hall, hkept, hdropped⟩ :=
    perm_run computors next hp
  have hmajority := Candidate.majority_tally_eq (hvotes.of_perm_append hall) hkept
  have hsupport : Candidate.support = (fun t => Multiset.card t.2) ∘ tally := rfl
  rw [run_eq_of_perm hnext hq, hrun, hrun']
  refine ⟨rfl, Candidate.perm_tallies hkept, hmajority, ?_, hdropped.map Vote.index⟩
  rw [hsupport, ← Option.map_map, ← Option.map_map, hmajority]

/-- **Arrival order.** Votes for a tick and for the next one come in two orders, and no computor has
signed two different ones of either. Then both orders lead to the same trust with the same counts, the
same candidates with the same voters, the same one that decides or none, and the same rejected, repeated
and dropped indices. The check by itself does so of any votes of distinct computors, signed or not. -/
theorem arrival_order_immaterial (set : ComputorSet) (hvotes : Unequivocal set votes)
    (hnext : Unequivocal set next) (hp : votes'.Perm votes) (hq : next'.Perm next) :
    VoteCollection.SameUpToOrder (split set votes) (split set votes') ∧
      VoteCollection.SameUpToOrder (split set next) (split set next') ∧
      SameUpToOrder (run set (split set votes).accepted (split set next).accepted)
        (run set (split set votes').accepted (split set next').accepted) ∧
      ∀ {us us' vs vs' : List Vote}, Distinct us → Distinct vs → us'.Perm us → vs'.Perm vs →
        SameUpToOrder (run set us vs) (run set us' vs') := by
  have hsplit := VoteCollection.perm_split hvotes hp
  have hsplitNext := VoteCollection.perm_split hnext hq
  have hdistinct := VoteCollection.distinct_accepted set
  exact ⟨hsplit, hsplitNext,
    sameUpToOrder_run set (hdistinct votes) (hdistinct next) hsplit.accepted hsplitNext.accepted,
    sameUpToOrder_run set⟩

/-- The blank ballot of the first computor for tick 6, signed with the key of all computors. -/
def signedNext : Vote where
  body := blankBallot 0 6
  signature := ⟨⟨[148, 62, 74, 151, 172, 177, 128, 70, 73, 6, 52, 88, 235, 157, 198, 243, 205, 75, 134, 205, 173, 27, 57,
    170, 143, 199, 108, 14, 137, 25, 209, 57, 15, 16, 42, 89, 126, 104, 136, 192, 243, 29, 169, 151, 182, 130, 231, 4,
    181, 62, 43, 204, 148, 213, 29, 178, 129, 113, 85, 181, 212, 90, 246, 3], rfl⟩⟩

theorem valid_signedNext : signedNext.valid oneKeySet = true := by
  have hkey : oneKeySet.key? signedNext.index = some someKey := key?_oneKeySet 0
  rw [Vote.valid, hkey]
  decide +kernel

/-- A forged vote before or after the signed one, and that one sent twice; for the next tick a signed and a forged vote.
Behind them the votes of 451 computors that reveal a state, and a vote that does not know it, in one order and in the
opposite one: a truth is found, the vote is dropped, and the others decide, both times. -/
theorem arrival_order_immaterial_signed :
    let votes := [forgedVote 0 5, signedVote, signedVote]
    let votes' := [signedVote, forgedVote 0 5, signedVote]
    let next := [signedNext, forgedVote 0 6]
    let next' := [forgedVote 0 6, signedNext]
    votes'.Perm votes ∧ next'.Perm next ∧ Unequivocal oneKeySet votes ∧ Unequivocal oneKeySet next ∧
      VoteCollection.SameUpToOrder (split oneKeySet votes) (split oneKeySet votes') ∧
      (split oneKeySet next').accepted = [signedNext] ∧
      SameUpToOrder (run oneKeySet (split oneKeySet votes).accepted (split oneKeySet next).accepted)
        (run oneKeySet (split oneKeySet votes').accepted (split oneKeySet next').accepted) ∧
      let check := run oneKeySet mixedVotes.reverse (informedVotes 451).reverse
      check.trust = .saltVerified ∧ check.rejected = [600] ∧
        (Candidate.majority check.candidates).map Candidate.support = some 451 := by
  intro votes votes' next next'
  have hp : votes'.Perm votes := List.Perm.swap ..
  have hq : next'.Perm next := List.Perm.swap ..
  have hone : ∀ v ∈ votes, v.valid oneKeySet = true → v = signedVote := by
    simp [votes, valid_forgedVote]
  have honeNext : ∀ v ∈ next, v.valid oneKeySet = true → v = signedNext := by
    simp [next, valid_forgedVote]
  have hunequivocal : Unequivocal oneKeySet votes :=
    fun u hu v hv hu' hv' _ => (hone u hu hu').trans (hone v hv hv').symm
  have hunequivocalNext : Unequivocal oneKeySet next :=
    fun u hu v hv hu' hv' _ => (honeNext u hu hu').trans (honeNext v hv hv').symm
  obtain ⟨hsplit, hsplitNext, hcheck, hany⟩ :=
    arrival_order_immaterial oneKeySet hunequivocal hunequivocalNext hp hq
  have hnext : (split oneKeySet next).accepted = [signedNext] := by
    simp [next, split, VoteCollection.splitAfter, valid_forgedVote, valid_signedNext, VoteCollection.empty]
  have haccepted : (split oneKeySet next').accepted = [signedNext] :=
    List.perm_singleton.mp (hnext ▸ hsplitNext.accepted)
  have hsame := hany distinct_mixedVotes (distinct_informedVotes (by decide : 451 ≤ 676))
    (List.reverse_perm _) (List.reverse_perm _)
  rw [run_mixedVotes] at hsame
  refine ⟨hp, hq, hunequivocal, hunequivocalNext, hsplit, haccepted, hcheck, hsame.trust, List.perm_singleton.mp hsame.rejected, ?_⟩
  have hlength : (informedVotes 451).length = 451 := by rw [informedVotes, List.length_map, List.length_range]
  rw [hsame.support, majority_informedVotes (Nat.le_refl 451) (by decide)]
  simp only [Option.map_some, Candidate.support, Candidate.backedBy, backing_informedVotes, List.length_map, hlength]

end SaltCheck

end LightClient
