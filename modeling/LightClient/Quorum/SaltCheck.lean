import LightClient.Quorum.Candidate
/-!
# The salt check

A vote for a tick holds the state at the end of the tick, salted with the voter's key. That state
becomes public only in the votes for the next tick, which report it as the state before. The outcome
that decides the next tick is taken as the truth: a vote whose salted state does not match was cast
without knowing the tick's real outcome, and is dropped. Where the next tick is not decided, no vote
is dropped and the result says that it deserves less trust.
-/
namespace LightClient

/-- Why votes were not checked against the next tick. -/
inductive ReducedTrust where
  /-- The next tick has too few votes to be decided. -/
  | insufficientNextTickVotes (collected : Nat)
  /-- The next tick has votes enough, but no outcome of it has a quorum. -/
  | noNextTickMajority (largest : Nat)
  /-- The tick has no successor. -/
  | noNextTick
  deriving DecidableEq, Repr

/-- How far a tick's candidates can be trusted. -/
inductive TrustLevel where
  | saltVerified
  | reduced (reason : ReducedTrust)
  deriving DecidableEq, Repr

/-- Whether votes were not checked against the next tick. -/
def TrustLevel.isReduced : TrustLevel → Bool
  | saltVerified => false
  | reduced _ => true

namespace StateDigests

/-- A state salted with a voter's key (`salted_digests`): the resource-testing digest in 8 bytes, the roots in 32. -/
def saltedWith (voter : PublicKey) (truth : StateDigests) : StateDigests where
  resourceTesting := shortDigest [voter.bytes, leBytes 8 truth.resourceTesting.toNat]
  spectrumRoot := digestParts [voter.bytes, truth.spectrumRoot.toList]
  universeRoot := digestParts [voter.bytes, truth.universeRoot.toList]
  computerRoot := digestParts [voter.bytes, truth.computerRoot.toList]

end StateDigests

/-- The result of a salt check. -/
structure SaltCheck where
  trust : TrustLevel
  candidates : List Candidate
  /-- The indices of votes that do not match the truth. -/
  rejected : List UInt16
  deriving DecidableEq

namespace SaltCheck

/-- Whether a vote's salted state is the true one, salted with a key (`salt_matches`). -/
def saltMatches (vote : Vote) (voter : PublicKey) (truth : StateDigests) : Bool :=
  truth.saltedWith voter = vote.body.salted

/-- Whether a vote's salted state is the true one, salted with the key at the vote's index. -/
def passes (computors : ComputorSet) (truth : StateDigests) (vote : Vote) : Bool :=
  match computors.key? vote.index with
  | some key => saltMatches vote key truth
  | none => false

/-- The result when no vote is checked (`reduced`). -/
def unchecked (reason : ReducedTrust) (votes : List Vote) : SaltCheck :=
  ⟨.reduced reason, Candidate.ofVotes votes, []⟩

/-- The result when votes are checked against the true state. -/
def against (computors : ComputorSet) (truth : StateDigests) (votes : List Vote) : SaltCheck :=
  let (kept, dropped) := votes.partition (passes computors truth)
  ⟨.saltVerified, Candidate.ofVotes (if dropped.isEmpty then votes else kept),
    dropped.map Vote.index⟩

/-- Makes up the candidates of a tick from its votes and those of the next tick (`cross_check`). -/
def run (computors : ComputorSet) (votes next : List Vote) : SaltCheck :=
  if next.length < Computor.quorum then
    unchecked (.insufficientNextTickVotes next.length) votes
  else
    let candidates := Candidate.ofVotes next
    match Candidate.majority candidates with
    | some truth => against computors truth.outcome.prev votes
    | none => unchecked (.noNextTickMajority (Candidate.largest candidates)) votes

end SaltCheck

end LightClient
