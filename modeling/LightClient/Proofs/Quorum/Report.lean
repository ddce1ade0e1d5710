import LightClient.Proofs.Quorum.Majority
import LightClient.Proofs.Quorum.SaltCheck
import LightClient.Proofs.Vote.Answer
import LightClient.Quorum.Report
/-!
# What a report can be trusted for

A report is made of the votes in the first answer alone; the second answer only says which of them
are dropped (`make_of_run_collect`). Each stage passes every vote on or lists its index, so whatever
the node does, a report accounts for every vote (`Sound`), and the candidates hold distinct computors
that really signed. That is what makes the outcome that decides unique.
-/
namespace LightClient.QuorumReport

open VoteCollection (split)
open Vote (received oneKeySet signedVote forgedVote valid_signedVote valid_forgedVote)

variable {set : ComputorSet} {tick : UInt32}

/-! ## A run -/

/-- Collecting asks for the tick's votes, and then for those of the next tick, if there is one. -/
theorem run_collect {σ : Type} [Transport σ] (set : ComputorSet) (tick : UInt32) (s : Session σ) :
    (collect set tick).run s =
      match s.run (Vote.exchange tick) with
      | (.error e, t) => (.error e, t)
      | (.ok votes, t) =>
          match successor? tick with
          | none =>
              (.ok (make tick (split set votes)
                (SaltCheck.unchecked .noNextTick (split set votes).accepted)), t)
          | some next =>
              match t.run (Vote.exchange next) with
              | (.error e, u) => (.error e, u)
              | (.ok later, u) =>
                  (.ok (make tick (split set votes)
                    (SaltCheck.run set (split set votes).accepted (split set later).accepted)), u) := by
  have hcollect : collect set tick =
      .ask (Vote.exchange tick) fun votes =>
        match successor? tick with
        | none =>
            .done (.ok (make tick (split set votes)
              (SaltCheck.unchecked .noNextTick (split set votes).accepted)))
        | some next =>
            .ask (Vote.exchange next) fun later =>
              .done (.ok (make tick (split set votes)
                (SaltCheck.run set (split set votes).accepted (split set later).accepted))) := by
    unfold collect
    cases successor? tick <;> rfl
  rw [hcollect, Dialogue.run]
  rcases s.run (Vote.exchange tick) with ⟨e | votes, t⟩
  · rfl
  · cases successor? tick with
    | none => rfl
    | some next =>
      simp only [Dialogue.run]
      rcases t.run (Vote.exchange next) with ⟨e | later, u⟩ <;> rfl

/-- A report is made of the votes in the first answer, whatever the second one brings. -/
theorem make_of_run_collect {s : Session Peer} {r : QuorumReport}
    (h : ((collect set tick).run s).1 = .ok r) :
    ∃ check, SaltCheck.Accounts (split set (received tick s.answer)).accepted check ∧
      r = make tick (split set (received tick s.answer)) check := by
  rw [run_collect] at h
  rcases hrun : s.run (Vote.exchange tick) with ⟨e | votes, t⟩ <;> rw [hrun] at h
  · cases h
  obtain ⟨hvotes, -⟩ := Vote.follow_exchange (Session.follow_of_run hrun)
  have hvotes : votes = received tick s.answer := hvotes
  subst hvotes
  cases hnext : successor? tick with
  | none =>
    rw [hnext] at h
    exact ⟨_, SaltCheck.accounts_unchecked _ _, (Except.ok.inj h).symm⟩
  | some next =>
    rw [hnext] at h
    rcases hrun' : t.run (Vote.exchange next) with ⟨e | later, u⟩ <;> simp only [hrun'] at h
    · cases h
    · exact ⟨_, SaltCheck.accounts_run _ _ _, (Except.ok.inj h).symm⟩

/-- A node that gives some votes for one tick and others for the next, and nothing else. -/
def node (nonces : Nat → Nonce) (votes later : List Vote) : Peer :=
  .ofScript [] [.answer (votes.map fun v => .packet (v.packet (nonces 0).val)),
    .answer (later.map fun v => .packet (v.packet (nonces 1).val))]

theorem received_node {nonces : Nat → Nonce} {votes later : List Vote}
    (hvotes : ∀ v ∈ votes, v.outcome.tick = tick) :
    received tick (Session.start (node nonces votes later) nonces).answer = votes := by
  obtain ⟨h, -⟩ := Vote.follow_exchange (Vote.follow_map_packet (nonces 0).val hvotes)
  exact h.symm

theorem run_exchange_node (nonces : Nat → Nonce) {votes : List Vote} (later : List Vote)
    (hvotes : ∀ v ∈ votes, v.outcome.tick = tick) :
    ∃ arrived, (Session.start (node nonces votes later) nonces).run (Vote.exchange tick) =
      (.ok votes, ⟨⟨[], [.answer (later.map fun v => .packet (v.packet (nonces 1).val))], arrived⟩,
        nonces, 1⟩) :=
  Vote.run_exchange_of_answer hvotes _ _

/-- From such a node the client hears all votes. -/
theorem run_collect_node (set : ComputorSet) (nonces : Nat → Nonce) {next : UInt32}
    {votes later : List Vote} (hnext : successor? tick = some next) (hvotes : ∀ v ∈ votes, v.outcome.tick = tick)
    (hlater : ∀ v ∈ later, v.outcome.tick = next) :
    ((collect set tick).run (Session.start (node nonces votes later) nonces)).1 =
      .ok (make tick (split set votes)
        (SaltCheck.run set (split set votes).accepted (split set later).accepted)) := by
  obtain ⟨arrived, hfirst⟩ := run_exchange_node nonces later hvotes
  obtain ⟨arrived', hsecond⟩ : ∃ arrived',
      (⟨⟨[], [.answer (later.map fun v => .packet (v.packet (nonces 1).val))], arrived⟩,
        nonces, 1⟩ : Session Peer).run (Vote.exchange next) =
        (.ok later, ⟨⟨[], [], arrived'⟩, nonces, 2⟩) :=
    Vote.run_exchange_of_answer hlater _ _
  rw [run_collect, hfirst]
  simp only [hnext]
  rw [hsecond]

/-! ## What a report promises -/

/-- What a report on a tick says about the votes for the tick that a node gave. -/
structure Sound (set : ComputorSet) (tick : UInt32) (votes : List Vote) (r : QuorumReport) : Prop where
  collected : r.votesCollected = votes.length
  /-- Each vote is in a candidate, or its index is in one of the three lists. -/
  conserved : r.votesCollected = (r.candidates.map Candidate.support).sum +
    r.signatureRejected.length + r.duplicateVoters.length + r.saltRejected.length
  /-- No computor is counted twice, neither for one outcome nor for two, nor kept and dropped. -/
  distinct : (r.candidates.flatMap Candidate.voters ++ r.saltRejected).Nodup
  below : ∀ i ∈ r.candidates.flatMap Candidate.voters ++ r.saltRejected, i.toNat < 676
  /-- A voter really signed a vote for the outcome that it is counted for. -/
  backed : ∀ c ∈ r.candidates, ∀ i ∈ c.voters, ∃ v ∈ votes, ∃ key,
    v.index = i ∧ v.outcome.tick = tick ∧ v.outcome = c.outcome ∧
      set.key? i = some key ∧ v.verify key = true
  unique : r.candidates.countP Candidate.hasQuorum ≤ 1
  orderless : ∀ cs, cs.Perm r.candidates → Candidate.majority cs = r.majority

theorem sound_make {votes : List Vote} {check : SaltCheck} (htick : ∀ v ∈ votes, v.outcome.tick = tick)
    (h : SaltCheck.Accounts (split set votes).accepted check) :
    Sound set tick votes (make tick (split set votes) check) := by
  obtain ⟨kept, dropped, hperm, hcand, hdrop⟩ := h
  have hindices : (check.candidates.flatMap Candidate.voters ++ check.rejected).Perm
      ((split set votes).accepted.map Vote.index) := by
    rw [hcand, hdrop]
    refine ((Candidate.flatMap_voters_ofVotes kept).append_right _).trans ?_
    rw [← List.map_append]
    exact hperm.map Vote.index
  have hdistinct := hindices.nodup_iff.mpr (VoteCollection.nodup_index_accepted votes)
  have hbelow : ∀ i ∈ check.candidates.flatMap Candidate.voters ++ check.rejected,
      i.toNat < Computor.count := by
    intro i hi
    obtain ⟨v, hv, rfl⟩ := List.mem_map.mp (hindices.mem_iff.mp hi)
    exact Vote.index_lt_of_valid (VoteCollection.valid_of_mem_accepted hv)
  -- The invariant that lets only one outcome decide: distinct voters, all of them below 676.
  have hunique : check.candidates.countP Candidate.hasQuorum ≤ 1 :=
    Candidate.countP_hasQuorum_le_one (List.nodup_append.mp hdistinct).1
      fun i hi => hbelow i (List.mem_append_left _ hi)
  refine ⟨VoteCollection.size_split votes, ?_, hdistinct, hbelow, ?_, hunique,
    fun cs hcs => Candidate.majority_perm hunique hcs⟩
  · have hlen := hperm.length_eq
    rw [List.length_append] at hlen
    simp only [make, VoteCollection.size, hcand, hdrop, Candidate.sum_support_ofVotes, List.length_map]
    omega
  · intro c hc i hi
    simp only [make, hcand] at hc
    obtain ⟨v, hv, rfl, ho⟩ := Candidate.exists_vote_of_mem_voters hc hi
    have hv : v ∈ (split set votes).accepted :=
      hperm.mem_iff.mp (List.mem_append_left _ hv)
    have hmem := (VoteCollection.accepted_sublist votes).subset hv
    obtain ⟨key, hkey, hsigned⟩ := Vote.exists_key_of_valid (VoteCollection.valid_of_mem_accepted hv)
    exact ⟨v, hmem, key, rfl, htick v hmem, ho, hkey, hsigned⟩

/-- **Soundness.** Whatever a node does, a report accounts for every vote of the tick that it gave,
counts only distinct computors that signed, and lets at most one outcome decide. -/
theorem sound_of_run_collect {s : Session Peer} {r : QuorumReport}
    (h : ((collect set tick).run s).1 = .ok r) : Sound set tick (received tick s.answer) r := by
  obtain ⟨check, haccounts, rfl⟩ := make_of_run_collect h
  exact sound_make (fun v hv => Vote.tick_of_mem_received hv) haccounts

/-- A forged vote comes first, and the signed one is sent twice: it counts, once. -/
theorem sound_of_run_collect_signed :
    ∃ r, ((collect oneKeySet 5).run (Session.start
        (node Nonce.ofNat [forgedVote 0 5, signedVote, signedVote] []) Nonce.ofNat)).1 = .ok r ∧
      r.candidates = [⟨signedVote.outcome, [0]⟩] ∧ r.signatureRejected = [0] ∧ r.duplicateVoters = [0] ∧
      Sound oneKeySet 5 [forgedVote 0 5, signedVote, signedVote] r := by
  have htick : ∀ v ∈ [forgedVote 0 5, signedVote, signedVote], v.outcome.tick = 5 := by
    simp [forgedVote, signedVote, Vote.blankBallot, Vote.outcome]
  have hnone : ∀ v ∈ ([] : List Vote), v.outcome.tick = 6 := by simp
  have hrun := run_collect_node oneKeySet Nonce.ofNat (by decide : successor? 5 = some 6) htick hnone
  have hsplit : split oneKeySet [forgedVote 0 5, signedVote, signedVote] = ⟨[signedVote], [0], [0]⟩ := by
    have hseen : [signedVote.index].contains signedVote.index = true := by decide
    simp only [split, VoteCollection.splitAfter, VoteCollection.empty, valid_forgedVote,
      valid_signedVote, hseen]
    rfl
  have hsound := sound_of_run_collect hrun
  rw [received_node htick] at hsound
  rw [hsplit] at hrun hsound
  exact ⟨_, hrun, rfl, rfl, rfl, hsound⟩

end LightClient.QuorumReport
