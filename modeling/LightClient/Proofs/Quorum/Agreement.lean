import LightClient.Proofs.Quorum.Report
import Mathlib.Data.Finset.Card
/-!
# Two clients and one tick

Two clients ask two nodes for the same tick. Each node may say and withhold what it likes, and may
leave either client with less trust in what it got. If the clients decide on different outcomes all
the same, 226 computors have signed two different accounts of the tick
(`decided_eq_or_equivocators`): each quorum is a list of distinct computors that signed, and any two
such lists share that many. With at most 225 faulty computors no two clients disagree.
-/
namespace LightClient.QuorumReport

open Vote (received)

variable {set : ComputorSet} {tick : UInt32} {votes₁ votes₂ : List Vote}

/-- The outcome that a run decides on, if it decides. -/
def decided : Outcome QuorumReport → Option TickOutcome
  | .ok r => r.majority.map Candidate.outcome
  | .error _ => none

/-- An honest node lets the client decide: votes of 451 computors that agree are enough, also where the
next tick has none. -/
theorem decided_node {nonces : Nat → Nonce} {next : UInt32} {o : TickOutcome} {votes : List Vote}
    (hnext : successor? tick = some next) (ho : o.tick = tick)
    (hvalid : ∀ v ∈ votes, v.valid set = true) (hagree : ∀ v ∈ votes, v.outcome = o)
    (hdistinct : (votes.map Vote.index).Nodup) (hquorum : Computor.quorum ≤ votes.length) :
    decided ((collect set tick).run (Session.start (node nonces votes []) nonces)).1 = some o := by
  have htick : ∀ v ∈ votes, v.outcome.tick = tick := fun v hv => by rw [hagree v hv, ho]
  have hbacking : Vote.backing o votes = votes :=
    List.filter_eq_self.mpr fun v hv => decide_eq_true (hagree v hv)
  rw [run_collect_node set nonces hnext htick (by simp), VoteCollection.split_of_valid hvalid hdistinct]
  have hmajority : Candidate.majority (Candidate.ofVotes votes) = some (Candidate.backedBy votes o) := by
    cases votes with
    | nil => cases hquorum
    | cons v vs =>
      have hv := hagree v List.mem_cons_self
      rw [Candidate.majority_ofVotes, List.find?_cons_of_pos]
      · rw [Option.map_some, hv]
      · rw [hv, hbacking]
        exact decide_eq_true hquorum
  have hgroup : (SaltCheck.run set votes (VoteCollection.split set []).accepted).candidates =
      Candidate.ofVotes votes := rfl
  simp only [decided, majority, make, hgroup, hmajority, Option.map_some]
  rfl

/-! ## Equivocation -/

/-- The computor with an index has signed one outcome in some votes and another one in others. -/
def Equivocates (set : ComputorSet) (votes₁ votes₂ : List Vote) (i : UInt16) : Prop :=
  ∃ v₁ ∈ votes₁, ∃ v₂ ∈ votes₂, v₁.index = i ∧ v₂.index = i ∧
    v₁.valid set = true ∧ v₂.valid set = true ∧ v₁.outcome ≠ v₂.outcome

instance (set : ComputorSet) (votes₁ votes₂ : List Vote) (i : UInt16) :
    Decidable (Equivocates set votes₁ votes₂ i) :=
  inferInstanceAs (Decidable (∃ v₁ ∈ votes₁, ∃ v₂ ∈ votes₂, _))

/-- The computors that have signed two different outcomes. -/
def equivocators (set : ComputorSet) (votes₁ votes₂ : List Vote) : Finset UInt16 :=
  (votes₁.map Vote.index).toFinset.filter (Equivocates set votes₁ votes₂)

theorem mem_equivocators {i : UInt16} :
    i ∈ equivocators set votes₁ votes₂ ↔ Equivocates set votes₁ votes₂ i := by
  rw [equivocators, Finset.mem_filter, List.mem_toFinset]
  constructor
  · exact fun h => h.2
  · intro h
    have ⟨v₁, hv₁, _, _, hi, _⟩ := h
    exact ⟨List.mem_map.mpr ⟨v₁, hv₁, hi⟩, h⟩

/-! ## Quorums -/

/-- The voters behind the outcome that a run decides on. -/
theorem exists_quorum_of_decided {s : Session Peer} {o : TickOutcome}
    (h : decided ((collect set tick).run s).1 = some o) :
    ∃ voters : List UInt16, voters.Nodup ∧ (∀ i ∈ voters, i.toNat < Computor.count) ∧
      Computor.quorum ≤ voters.length ∧
      ∀ i ∈ voters, ∃ v ∈ received tick s.answer, v.index = i ∧ v.valid set = true ∧ v.outcome = o := by
  cases hrun : ((collect set tick).run s).1 with
  | error e =>
    rw [hrun] at h
    cases h
  | ok r =>
    rw [hrun] at h
    obtain ⟨c, hc, rfl⟩ := Option.map_eq_some_iff.mp h
    obtain ⟨check, haccounts, hr⟩ := make_of_run_collect hrun
    have hsound : Sound set tick (received tick s.answer) r :=
      hr ▸ sound_make (fun v hv => Vote.tick_of_mem_received hv) haccounts
    have hmem : c ∈ r.candidates := List.mem_of_find?_eq_some hc
    have hquorum : c.hasQuorum = true := List.find?_some hc
    refine ⟨c.voters, ?_, ?_, of_decide_eq_true hquorum, ?_⟩
    · exact (List.nodup_flatMap.mp (List.nodup_append.mp hsound.distinct).1).1 c hmem
    · intro i hi
      exact hsound.below i (List.mem_append_left _ (List.mem_flatMap.mpr ⟨c, hmem, hi⟩))
    · intro i hi
      obtain ⟨v, hv, key, rfl, -, ho, hkey, hsigned⟩ := hsound.backed c hmem i hi
      exact ⟨v, hv, rfl, by rw [Vote.valid, hkey]; exact hsigned, ho⟩

/-- **Agreement.** Two runs for a tick decide on the same outcome, or 226 computors have signed one
outcome for the tick in one node's answer and another one in the other's. -/
theorem decided_eq_or_equivocators (set : ComputorSet) (tick : UInt32) (s₁ s₂ : Session Peer) :
    (∀ o₁ ∈ decided ((collect set tick).run s₁).1, ∀ o₂ ∈ decided ((collect set tick).run s₂).1,
      o₁ = o₂) ∨
    226 ≤ (equivocators set (received tick s₁.answer) (received tick s₂.answer)).card := by
  refine Decidable.or_iff_not_imp_right.mpr fun hfew o₁ h₁ o₂ h₂ => ?_
  obtain ⟨a, hna, hlta, hqa, hbacka⟩ := exists_quorum_of_decided h₁
  obtain ⟨b, hnb, hltb, hqb, hbackb⟩ := exists_quorum_of_decided h₂
  by_contra hne
  have hoverlap := Computor.overlap_of_quorums hna hnb hlta hltb hqa hqb
  -- Whoever voted in both quorums signed both outcomes.
  have hshared : (a.filter (· ∈ b)).toFinset ⊆
      equivocators set (received tick s₁.answer) (received tick s₂.answer) := by
    intro i hi
    obtain ⟨hia, hib⟩ := List.mem_filter.mp (List.mem_toFinset.mp hi)
    obtain ⟨v₁, hv₁, hi₁, hvalid₁, ho₁⟩ := hbacka i hia
    obtain ⟨v₂, hv₂, hi₂, hvalid₂, ho₂⟩ := hbackb i (of_decide_eq_true hib)
    refine mem_equivocators.mpr ⟨v₁, hv₁, v₂, hv₂, hi₁, hi₂, hvalid₁, hvalid₂, ?_⟩
    rw [ho₁, ho₂]
    exact hne
  have hcard := Finset.card_le_card hshared
  rw [List.toFinset_card_of_nodup (hna.filter _)] at hcard
  omega

end LightClient.QuorumReport
