import LightClient.Quorum.Candidate
import Mathlib.Algebra.GroupWithZero.Nat
/-!
# How votes are grouped

`Candidate.ofVotes` adds the votes one by one to a growing list of candidates. Seen from the first
vote, it takes all votes for that vote's outcome together and goes on with the others
(`ofVotes_cons`). So there is one candidate for each outcome, in the order in which the outcomes are
first named, with the indices of the votes for it (`ofVotes_eq_map`).

* `flatMap_voters_ofVotes`, `sum_support_ofVotes`: all candidates together have the indices of all
  votes, each as often as it occurs there.
* `majority_ofVotes`: the candidate that decides is the one with the outcome of the first vote whose
  outcome has a quorum.
* `largest_ofVotes`: the largest support is the largest number of votes for one outcome.
-/
namespace LightClient

namespace Vote

/-- The votes for an outcome, in order. -/
def backing (o : TickOutcome) (votes : List Vote) : List Vote := votes.filter fun v => v.outcome = o

@[simp] theorem backing_nil (o : TickOutcome) : backing o [] = [] := rfl

theorem mem_backing {o : TickOutcome} {votes : List Vote} {v : Vote} :
    v ∈ backing o votes ↔ v ∈ votes ∧ v.outcome = o := by
  simp [backing]

/-- Leaving out the votes for one outcome leaves the votes for another. -/
theorem backing_filter_ne {o o' : TickOutcome} (h : o ≠ o') (votes : List Vote) :
    backing o (votes.filter fun v => v.outcome ≠ o') = backing o votes := by
  unfold backing
  rw [List.filter_filter]
  apply List.filter_congr
  intro v _
  by_cases hv : v.outcome = o
  · simp [hv, h]
  · simp [hv]

end Vote

namespace Candidate

open Vote (backing)

/-- The candidate that some votes make up for an outcome. -/
def backedBy (votes : List Vote) (o : TickOutcome) : Candidate := ⟨o, (backing o votes).map Vote.index⟩

@[simp] theorem support_backedBy (votes : List Vote) (o : TickOutcome) :
    (backedBy votes o).support = (backing o votes).length := by
  simp [backedBy, support]

/-- The first candidate takes all votes for its outcome, and the others never see one of them. -/
theorem foldl_addVote_cons (c : Candidate) (cs : List Candidate) (votes : List Vote) :
    votes.foldl (fun cs v => addVote v cs) (c :: cs) =
      { c with voters := c.voters ++ (backing c.outcome votes).map Vote.index } ::
        (votes.filter fun v => v.outcome ≠ c.outcome).foldl (fun cs v => addVote v cs) cs := by
  induction votes generalizing c cs with
  | nil => simp
  | cons v vs ih =>
    by_cases h : v.outcome = c.outcome
    · rw [List.foldl_cons, addVote, if_pos h.symm, ih]
      simp [backing, h]
    · rw [List.foldl_cons, addVote, if_neg (Ne.symm h), ih]
      simp [backing, h]

theorem ofVotes_cons (v : Vote) (vs : List Vote) :
    ofVotes (v :: vs) =
      ⟨v.outcome, v.index :: (backing v.outcome vs).map Vote.index⟩ ::
        ofVotes (vs.filter fun u => u.outcome ≠ v.outcome) := by
  unfold ofVotes
  rw [List.foldl_cons, addVote, foldl_addVote_cons]
  rfl

theorem ofVotes_eq_map (votes : List Vote) :
    ofVotes votes = (votes.map Vote.outcome).eraseDups.map (backedBy votes) := by
  match votes with
  | [] => rfl
  | v :: vs =>
    have hothers : (vs.map Vote.outcome).filter (fun o => !o == v.outcome) =
        (vs.filter fun u => u.outcome ≠ v.outcome).map Vote.outcome := by
      rw [List.filter_map]
      congr 1
      apply List.filter_congr
      intro u _
      by_cases hu : u.outcome = v.outcome <;> simp [hu]
    rw [ofVotes_cons, ofVotes_eq_map (vs.filter fun u => u.outcome ≠ v.outcome), List.map_cons,
      List.eraseDups_cons, List.map_cons, hothers]
    congr 1
    · simp [backedBy, backing]
    · apply List.map_congr_left
      intro o ho
      obtain ⟨u, hu, rfl⟩ := List.mem_map.mp (List.mem_eraseDups.mp ho)
      have hne : u.outcome ≠ v.outcome := by simpa using (List.mem_filter.mp hu).2
      have hv : ¬ v.outcome = u.outcome := Ne.symm hne
      simp only [backedBy, Vote.backing_filter_ne hne]
      simp [backing, hv]
termination_by votes.length
decreasing_by exact Nat.lt_succ_of_le (List.length_filter_le _ _)

theorem mem_ofVotes {votes : List Vote} {c : Candidate} :
    c ∈ ofVotes votes ↔ ∃ v ∈ votes, backedBy votes v.outcome = c := by
  simp only [ofVotes_eq_map, List.mem_map, List.mem_eraseDups]
  constructor
  · rintro ⟨o, ⟨v, hv, rfl⟩, hc⟩
    exact ⟨v, hv, hc⟩
  · rintro ⟨v, hv, hc⟩
    exact ⟨v.outcome, ⟨v, hv, rfl⟩, hc⟩

/-- A voter of a candidate is the index of a vote for the candidate's outcome. -/
theorem exists_vote_of_mem_voters {votes : List Vote} {c : Candidate} (hc : c ∈ ofVotes votes)
    {i : UInt16} (hi : i ∈ c.voters) : ∃ v ∈ votes, v.index = i ∧ v.outcome = c.outcome := by
  obtain ⟨u, -, rfl⟩ := mem_ofVotes.mp hc
  obtain ⟨v, hv, rfl⟩ := List.mem_map.mp hi
  obtain ⟨h1, h2⟩ := Vote.mem_backing.mp hv
  exact ⟨v, h1, rfl, h2⟩

/-! ## Nothing is lost -/

theorem flatMap_voters_addVote (v : Vote) (cs : List Candidate) :
    ((addVote v cs).flatMap voters).Perm (v.index :: cs.flatMap voters) := by
  induction cs with
  | nil => exact List.Perm.refl _
  | cons c cs ih =>
    unfold addVote
    split
    · simp only [List.flatMap_cons, List.append_assoc, List.singleton_append]
      exact List.perm_middle
    · simp only [List.flatMap_cons]
      exact (ih.append_left c.voters).trans List.perm_middle

theorem flatMap_voters_foldl (votes : List Vote) (cs : List Candidate) :
    ((votes.foldl (fun cs v => addVote v cs) cs).flatMap voters).Perm
      (votes.map Vote.index ++ cs.flatMap voters) := by
  induction votes generalizing cs with
  | nil => exact List.Perm.refl _
  | cons v vs ih =>
    rw [List.foldl_cons, List.map_cons, List.cons_append]
    refine (ih (addVote v cs)).trans ?_
    exact ((flatMap_voters_addVote v cs).append_left _).trans List.perm_middle

theorem flatMap_voters_ofVotes (votes : List Vote) :
    ((ofVotes votes).flatMap voters).Perm (votes.map Vote.index) := by
  simpa [ofVotes] using flatMap_voters_foldl votes []

theorem sum_support (cs : List Candidate) : (cs.map support).sum = (cs.flatMap voters).length := by
  rw [List.length_flatMap]
  rfl

theorem sum_support_ofVotes (votes : List Vote) : ((ofVotes votes).map support).sum = votes.length := by
  rw [sum_support, (flatMap_voters_ofVotes votes).length_eq, List.length_map]

/-! ## The outcome that decides -/

/-- Searching does not care for elements that occurred before. -/
theorem find?_eraseDups {α : Type} [BEq α] [LawfulBEq α] (p : α → Bool) (l : List α) :
    l.eraseDups.find? p = l.find? p := by
  match l with
  | [] => rfl
  | a :: as =>
    rw [List.eraseDups_cons, List.find?_cons, List.find?_cons, find?_eraseDups p (as.filter _),
      List.find?_filter]
    cases ha : p a with
    | true => rfl
    | false =>
      simp only
      congr 1
      funext b
      by_cases hb : b = a
      · simp [hb, ha]
      · simp [hb]
termination_by l.length
decreasing_by exact Nat.lt_succ_of_le (List.length_filter_le _ _)

theorem nodup_eraseDups {α : Type} [BEq α] [LawfulBEq α] (l : List α) : l.eraseDups.Nodup := by
  match l with
  | [] => exact List.nodup_nil
  | a :: as =>
    rw [List.eraseDups_cons]
    refine List.nodup_cons.mpr ⟨?_, nodup_eraseDups (as.filter _)⟩
    rw [List.mem_eraseDups, List.mem_filter]
    simp
termination_by l.length
decreasing_by exact Nat.lt_succ_of_le (List.length_filter_le _ _)

theorem majority_ofVotes (votes : List Vote) :
    majority (ofVotes votes) =
      (votes.find? fun v => Computor.quorum ≤ (backing v.outcome votes).length).map
        fun v => backedBy votes v.outcome := by
  have hq : hasQuorum ∘ backedBy votes =
      fun o => decide (Computor.quorum ≤ (backing o votes).length) := by
    funext o
    simp [hasQuorum]
  rw [majority, ofVotes_eq_map, List.find?_map, hq, find?_eraseDups, List.find?_map, Option.map_map]
  rfl

theorem foldl_max_support (cs : List Candidate) (n : Nat) :
    n ≤ cs.foldl (fun n c => max n c.support) n ∧
      (∀ c ∈ cs, c.support ≤ cs.foldl (fun n c => max n c.support) n) ∧
      (cs.foldl (fun n c => max n c.support) n = n ∨
        ∃ c ∈ cs, c.support = cs.foldl (fun n c => max n c.support) n) := by
  induction cs generalizing n with
  | nil => simp
  | cons c cs ih =>
    obtain ⟨h1, h2, h3⟩ := ih (max n c.support)
    simp only [List.foldl_cons, List.mem_cons, forall_eq_or_imp, exists_eq_or_imp]
    refine ⟨by omega, ⟨by omega, h2⟩, ?_⟩
    rcases h3 with h3 | h3
    · rw [h3]
      omega
    · exact .inr (.inr h3)

/-- The largest support is reached by some outcome and exceeded by none. -/
theorem largest_ofVotes (votes : List Vote) :
    (∃ o, (backing o votes).length = largest (ofVotes votes)) ∧
      ∀ o, (backing o votes).length ≤ largest (ofVotes votes) := by
  obtain ⟨-, hle, hreach⟩ := foldl_max_support (ofVotes votes) 0
  have hbound : ∀ o, (backing o votes).length ≤ largest (ofVotes votes) := by
    intro o
    cases hb : backing o votes with
    | nil => exact Nat.zero_le _
    | cons v vs =>
      obtain ⟨hv, rfl⟩ := Vote.mem_backing.mp (hb ▸ List.mem_cons_self)
      rw [← hb, ← support_backedBy]
      exact hle _ (mem_ofVotes.mpr ⟨v, hv, rfl⟩)
  refine ⟨?_, hbound⟩
  rcases hreach with h0 | ⟨c, hc, hcs⟩
  · -- No outcome has a vote, so any outcome will do.
    refine ⟨⟨0, 0, ⟨0, 0, 0, 0, 0, 0, 0⟩, ⟨0, .replicate 32 0, .replicate 32 0, .replicate 32 0⟩,
      .replicate 32 0, .replicate 32 0⟩, Nat.le_antisymm (hbound _) ?_⟩
    rw [largest, h0]
    exact Nat.zero_le _
  · obtain ⟨v, -, rfl⟩ := mem_ofVotes.mp hc
    exact ⟨v.outcome, by rw [← support_backedBy]; exact hcs⟩

end Candidate

end LightClient
