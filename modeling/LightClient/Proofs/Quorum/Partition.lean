import LightClient.Proofs.FirstPlace
import LightClient.Proofs.Quorum.Stability
/-!
# Candidates partition the votes

Each vote joins exactly one candidate, which one is seen from what it changes (`Joins`), and two votes join the same
one exactly if they agree on the tick's outcome, whoever cast them (`join_same_iff`). Candidates stand in the order in
which the votes first name their outcomes (`NamedInOrder`), so the one that decides is, of those that 451 votes agree
on, the earliest named (`majority_eq_some_iff_earliest`).
-/
namespace LightClient

namespace Vote

/-- Two votes say the same about the tick. Index, signature and salted state may differ. -/
structure Agrees (u v : Vote) : Prop where
  epoch : u.outcome.epoch = v.outcome.epoch
  tick : u.outcome.tick = v.outcome.tick
  time : u.outcome.time = v.outcome.time
  resourceTesting : u.outcome.prev.resourceTesting = v.outcome.prev.resourceTesting
  spectrumRoot : u.outcome.prev.spectrumRoot = v.outcome.prev.spectrumRoot
  universeRoot : u.outcome.prev.universeRoot = v.outcome.prev.universeRoot
  computerRoot : u.outcome.prev.computerRoot = v.outcome.prev.computerRoot
  transactionDigest : u.outcome.transactionDigest = v.outcome.transactionDigest
  expectedNextTransactionDigest :
    u.outcome.expectedNextTransactionDigest = v.outcome.expectedNextTransactionDigest

theorem agrees_iff {u v : Vote} : u.Agrees v ↔ u.outcome = v.outcome := by
  constructor
  · intro h
    have hprev : u.outcome.prev = v.outcome.prev :=
      StateDigests.ext h.resourceTesting h.spectrumRoot h.universeRoot h.computerRoot
    exact TickOutcome.ext h.epoch h.tick h.time hprev h.transactionDigest h.expectedNextTransactionDigest
  · intro h
    constructor <;> rw [h]

/-- Outcomes in the order in which votes first name them: each one that is named, once. -/
structure NamedInOrder (votes : List Vote) (outcomes : List TickOutcome) : Prop where
  mem_iff : ∀ o, o ∈ outcomes ↔ ∃ v ∈ votes, v.outcome = o
  nodup : outcomes.Nodup
  ordered : outcomes.Pairwise (ComesBefore (votes.map Vote.outcome))

end Vote

namespace Candidate

open Vote (backing NamedInOrder agrees_iff blankState forgedVote)
open SaltCheck (informedVote informedVotes)

variable {votes : List Vote} {cs : List Candidate} {c : Candidate} {v : Vote} {i j k : Nat}

/-! ## Candidates and the votes behind them -/

theorem map_outcome_ofVotes (votes : List Vote) :
    (ofVotes votes).map outcome = (votes.map Vote.outcome).eraseDups := by
  rw [ofVotes_eq_map, List.map_map]
  exact List.map_id _

theorem namedInOrder_ofVotes (votes : List Vote) : NamedInOrder votes ((ofVotes votes).map outcome) := by
  rw [map_outcome_ofVotes]
  refine ⟨fun o => ?_, nodup_eraseDups _, pairwise_comesBefore_eraseDups _⟩
  rw [List.mem_eraseDups, List.mem_map]

theorem voters_of_mem_ofVotes (hc : c ∈ ofVotes votes) : c.voters = (backing c.outcome votes).map Vote.index := by
  obtain ⟨v, -, rfl⟩ := mem_ofVotes.mp hc
  rfl

theorem support_of_mem_ofVotes (hc : c ∈ ofVotes votes) : c.support = (backing c.outcome votes).length := by
  rw [support, voters_of_mem_ofVotes hc, List.length_map]

theorem voters_ne_nil (hc : c ∈ ofVotes votes) : c.voters ≠ [] := by
  obtain ⟨v, hv, rfl⟩ := mem_ofVotes.mp hc
  have hbacks : v ∈ backing v.outcome votes := Vote.mem_backing.mpr ⟨hv, rfl⟩
  exact List.ne_nil_of_mem (List.mem_map_of_mem hbacks)

/-! ## The candidate that a vote joins -/

/-- A vote changes some candidate, or begins one behind the others. -/
theorem exists_changed_addVote (v : Vote) (cs : List Candidate) : ∃ k : Nat, (addVote v cs)[k]? ≠ cs[k]? := by
  induction cs with
  | nil => exact ⟨0, nofun⟩
  | cons c cs ih =>
    rw [addVote]
    split
    · refine ⟨0, fun hsame => ?_⟩
      have hvoters := congrArg voters (Option.some.inj hsame)
      simp at hvoters
    · obtain ⟨k, hk⟩ := ih
      exact ⟨k + 1, hk⟩

/-- The candidate that a vote changes or begins is one for its outcome. -/
theorem outcome_of_changed_addVote (h : (addVote v cs)[k]? ≠ cs[k]?) :
    ((addVote v cs).map outcome)[k]? = some v.outcome := by
  induction cs generalizing k with
  | nil =>
    cases k with
    | zero => rfl
    | succ k => exact absurd rfl h
  | cons c cs ih =>
    rw [addVote] at h ⊢
    split at h <;> rename_i hc
    · rw [if_pos hc]
      cases k with
      | zero => exact congrArg some hc
      | succ k => exact absurd rfl h
    · rw [if_neg hc]
      cases k with
      | zero => exact absurd rfl h
      | succ k => exact ih h

/-- The vote at place `i` joins the candidate at place `k`, or begins it. -/
def Joins (votes : List Vote) (i k : Nat) : Prop :=
  (ofVotes (votes.take (i + 1)))[k]? ≠ (ofVotes (votes.take i))[k]?

theorem ofVotes_take_succ (hv : votes[i]? = some v) :
    ofVotes (votes.take (i + 1)) = addVote v (ofVotes (votes.take i)) := by
  rw [List.take_add_one, hv]
  exact List.foldl_concat ..

/-- Later votes leave the outcomes of the candidates where they are. -/
theorem outcome_append {before : List Vote} {o : TickOutcome} (h : ((ofVotes before).map outcome)[k]? = some o)
    (after : List Vote) : ((ofVotes (before ++ after)).map outcome)[k]? = some o := by
  rw [map_outcome_ofVotes] at h ⊢
  rw [List.map_append, List.eraseDups_append, List.getElem?_append_left (List.getElem?_eq_some_iff.mp h).1, h]

theorem outcome_of_joins (hv : votes[i]? = some v) (h : Joins votes i k) :
    ((ofVotes votes).map outcome)[k]? = some v.outcome := by
  rw [Joins, ofVotes_take_succ hv] at h
  have hplace := outcome_of_changed_addVote h
  rw [← ofVotes_take_succ hv] at hplace
  have hall := outcome_append hplace (votes.drop (i + 1))
  rwa [List.take_append_drop] at hall

/-- No two candidates have the same outcome. -/
theorem place_unique {o : TickOutcome} {k' : Nat} (h : ((ofVotes votes).map outcome)[k]? = some o)
    (h' : ((ofVotes votes).map outcome)[k']? = some o) : k = k' := by
  have hplace : k < ((ofVotes votes).map outcome).length := (List.getElem?_eq_some_iff.mp h).1
  exact (List.getElem?_inj hplace (namedInOrder_ofVotes votes).nodup).mp (h.trans h'.symm)

/-- The candidate that a vote joins is the one with its outcome. -/
theorem joins_iff (hv : votes[i]? = some v) :
    Joins votes i k ↔ ((ofVotes votes).map outcome)[k]? = some v.outcome := by
  constructor
  · exact outcome_of_joins hv
  · intro h
    obtain ⟨k', hk'⟩ := exists_changed_addVote v (ofVotes (votes.take i))
    rw [← ofVotes_take_succ hv] at hk'
    obtain rfl := place_unique h (outcome_of_joins hv hk')
    exact hk'

theorem existsUnique_joins (hv : votes[i]? = some v) : ∃! k, Joins votes i k := by
  have hnamed : v.outcome ∈ (ofVotes votes).map outcome :=
    ((namedInOrder_ofVotes votes).mem_iff _).mpr ⟨v, List.mem_of_getElem? hv, rfl⟩
  obtain ⟨k, hk⟩ := List.getElem?_of_mem hnamed
  exact ⟨k, (joins_iff hv).mpr hk, fun k' hk' => place_unique ((joins_iff hv).mp hk') hk⟩

theorem join_same_iff {u : Vote} (hu : votes[i]? = some u) (hv : votes[j]? = some v) :
    (∃ k, Joins votes i k ∧ Joins votes j k) ↔ u.Agrees v := by
  rw [agrees_iff]
  constructor
  · rintro ⟨k, hi, hj⟩
    exact Option.some.inj (((joins_iff hu).mp hi).symm.trans ((joins_iff hv).mp hj))
  · intro h
    obtain ⟨k, hk, -⟩ := existsUnique_joins hu
    exact ⟨k, hk, (joins_iff hv).mpr (h ▸ (joins_iff hu).mp hk)⟩

/-! ## The candidate that decides -/

theorem exists_majority_iff_mem :
    (∃ c, majority (ofVotes votes) = some c) ↔ ∃ c ∈ ofVotes votes, c.hasQuorum = true := by
  rw [← Option.isSome_iff_exists, majority, List.find?_isSome]

/-- Some candidate decides exactly if 451 of the votes agree. -/
theorem exists_majority_iff_agreeing :
    (∃ c, majority (ofVotes votes) = some c) ↔
      ∃ same : List Vote, same.Sublist votes ∧ same.length = 451 ∧ ∀ u ∈ same, ∀ v ∈ same, u.Agrees v := by
  rw [exists_majority_iff_mem]
  constructor
  · rintro ⟨c, hc, hquorum⟩
    have hmany : 451 ≤ (backing c.outcome votes).length := support_of_mem_ofVotes hc ▸ of_decide_eq_true hquorum
    refine ⟨(backing c.outcome votes).take 451, (List.take_sublist ..).trans List.filter_sublist,
      List.length_take_of_le hmany, fun u hu v hv => agrees_iff.mpr ?_⟩
    have hu := (Vote.mem_backing.mp (List.mem_of_mem_take hu)).2
    have hv := (Vote.mem_backing.mp (List.mem_of_mem_take hv)).2
    rw [hu, hv]
  · rintro ⟨same, hsub, hlength, hagree⟩
    obtain ⟨v, hv⟩ := List.exists_mem_of_ne_nil same (by rintro rfl; simp at hlength)
    have hbacking : same = backing v.outcome same := by
      refine (List.filter_eq_self.mpr fun u hu => ?_).symm
      exact decide_eq_true (agrees_iff.mp (hagree u hu v hv))
    have hle : same.length ≤ (backing v.outcome votes).length := by
      rw [hbacking]
      exact (hsub.filter _).length_le
    refine ⟨backedBy votes v.outcome, mem_ofVotes.mpr ⟨v, hsub.subset hv, rfl⟩, decide_eq_true ?_⟩
    have hquorum : Computor.quorum = 451 := rfl
    rw [support_backedBy, hquorum, ← hlength]
    exact hle

/-- A candidate that 451 votes back, whose outcome was named before those of all others like it. -/
structure Earliest (votes : List Vote) (c : Candidate) : Prop where
  mem : c ∈ ofVotes votes
  quorum : 451 ≤ c.support
  first : ∀ c' ∈ ofVotes votes, 451 ≤ c'.support → c' ≠ c →
    ComesBefore (votes.map Vote.outcome) c.outcome c'.outcome

theorem earliest_of_majority (h : majority (ofVotes votes) = some c) : Earliest votes c := by
  obtain ⟨hquorum, before, after, hsplit, hnone⟩ := List.find?_eq_some_iff_append.mp h
  refine ⟨hsplit ▸ List.mem_append_right _ List.mem_cons_self, of_decide_eq_true hquorum, fun c' hc' hmany hne => ?_⟩
  have hordered := (namedInOrder_ofVotes votes).ordered
  rw [hsplit, List.map_append, List.map_cons, List.pairwise_append] at hordered
  obtain ⟨-, hafter, -⟩ := hordered
  rw [hsplit, List.mem_append, List.mem_cons] at hc'
  rcases hc' with hc' | rfl | hc'
  · have hfew := hnone c' hc'
    rw [hasQuorum, decide_eq_true (show Computor.quorum ≤ c'.support from hmany)] at hfew
    cases hfew
  · exact absurd rfl hne
  · exact (List.pairwise_cons.mp hafter).1 _ (List.mem_map_of_mem hc')

theorem majority_eq_some_iff_earliest : majority (ofVotes votes) = some c ↔ Earliest votes c := by
  constructor
  · exact earliest_of_majority
  · intro h
    obtain ⟨c', hc'⟩ := exists_majority_iff_mem.mpr ⟨c, h.mem, decide_eq_true h.quorum⟩
    have h' := earliest_of_majority hc'
    by_cases hsame : c' = c
    · rw [hc', hsame]
    · have hbefore := h.first c' h'.mem h'.quorum hsame
      exact absurd (h'.first c h.mem h.quorum (Ne.symm hsame)) hbefore.asymm

/-- **An exact, ordered partition.** There is one candidate for each outcome that the votes name, in the order in which
they first name them. Its voters are the indices of the votes for its outcome, in the order of the votes, and it has
one; the supports add up to the number of votes. Each vote joins exactly one candidate, and two votes join the same
exactly if they agree about the tick, whoever cast them. Hence there is a majority exactly if 451 of the
votes agree, and it is the earliest named outcome for which this is so. -/
theorem ofVotes_exact (votes : List Vote) :
    NamedInOrder votes ((ofVotes votes).map outcome) ∧
    (∀ c ∈ ofVotes votes, c.voters = (backing c.outcome votes).map Vote.index ∧ c.voters ≠ []) ∧
    ((ofVotes votes).map support).sum = votes.length ∧
    (∀ i < votes.length, ∃! k, Joins votes i k) ∧
    (∀ i j u v, votes[i]? = some u → votes[j]? = some v →
      ((∃ k, Joins votes i k ∧ Joins votes j k) ↔ u.Agrees v)) ∧
    ((∃ c, majority (ofVotes votes) = some c) ↔
      ∃ same : List Vote, same.Sublist votes ∧ same.length = 451 ∧ ∀ u ∈ same, ∀ v ∈ same, u.Agrees v) ∧
    ∀ c, majority (ofVotes votes) = some c ↔ Earliest votes c := by
  refine ⟨namedInOrder_ofVotes votes, fun c hc => ⟨voters_of_mem_ofVotes hc, voters_ne_nil hc⟩,
    sum_support_ofVotes votes, fun i hi => existsUnique_joins (List.getElem?_eq_getElem hi),
    fun i j u v hu hv => join_same_iff hu hv, exists_majority_iff_agreeing, fun c => majority_eq_some_iff_earliest⟩

/-- The second vote and the third agree and join one candidate, though index, signature and salted state differ; the
first one joins another, though it has the index of the third. And 451 votes that agree decide. -/
theorem ofVotes_exact_informed :
    (let votes := [forgedVote 600 6, informedVote 7 blankState, forgedVote 600 5];
      (∃ k, Joins votes 1 k ∧ Joins votes 2 k) ∧ (¬ ∃ k, Joins votes 0 k ∧ Joins votes 2 k) ∧
      ∀ c ∈ ofVotes votes, c.voters ≠ []) ∧
    ∃ c, majority (ofVotes (forgedVote 600 6 :: informedVotes 451)) = some c ∧
      Earliest (forgedVote 600 6 :: informedVotes 451) c := by
  obtain ⟨-, hvoters, -, -, hjoin, -, -⟩ :=
    ofVotes_exact [forgedVote 600 6, informedVote 7 blankState, forgedVote 600 5]
  obtain ⟨-, -, -, -, -, hexists, hearliest⟩ := ofVotes_exact (forgedVote 600 6 :: informedVotes 451)
  have hlength : (informedVotes 451).length = 451 := by rw [informedVotes, List.length_map, List.length_range]
  have hagree : ∀ u ∈ informedVotes 451, ∀ v ∈ informedVotes 451, u.Agrees v := by
    intro u hu v hv
    obtain ⟨i, -, rfl⟩ := List.mem_map.mp hu
    obtain ⟨j, -, rfl⟩ := List.mem_map.mp hv
    exact agrees_iff.mpr rfl
  obtain ⟨c, hc⟩ := hexists.mpr ⟨informedVotes 451, List.sublist_cons_self .., hlength, hagree⟩
  refine ⟨⟨(hjoin 1 2 _ _ rfl rfl).mpr (agrees_iff.mpr rfl), fun hsame => ?_, fun c hc => (hvoters c hc).2⟩,
    c, hc, (hearliest c).mp hc⟩
  have hticks : (6 : UInt32) = 5 := ((hjoin 0 2 _ _ rfl rfl).mp hsame).tick
  exact absurd hticks (by decide)

end Candidate

end LightClient
