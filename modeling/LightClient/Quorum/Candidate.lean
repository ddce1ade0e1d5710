import LightClient.Vote.Basic
/-!
# Candidate outcomes

Votes that agree on a tick's outcome make up a candidate. Every vote is in exactly one candidate;
candidates stand in the order in which their outcomes were first seen, and voters in the order of
their votes. With 676 computors of which at most 225 are faulty, a candidate with 451 voters is the
tick's outcome, and there is at most one.
-/
namespace LightClient

/-- An outcome of a tick and the indices of the computors that voted for it (`CandidateOutcome`). -/
structure Candidate where
  outcome : TickOutcome
  voters : List UInt16
  deriving DecidableEq

namespace Candidate

/-- The number of votes for the outcome. -/
def support (c : Candidate) : Nat := c.voters.length

/-- Whether enough computors voted for the outcome to decide the tick (`has_quorum`). -/
def hasQuorum (c : Candidate) : Bool := Computor.quorum ≤ c.support

/-- The candidates after one more vote: it joins the candidate with its outcome, or begins a new one
after the others. -/
def addVote (v : Vote) : List Candidate → List Candidate
  | [] => [⟨v.outcome, [v.index]⟩]
  | c :: cs =>
      if c.outcome = v.outcome then { c with voters := c.voters ++ [v.index] } :: cs
      else c :: addVote v cs

/-- The candidates that votes make up (`dedupe`). -/
def ofVotes (votes : List Vote) : List Candidate :=
  votes.foldl (fun cs v => addVote v cs) []

/-- The candidate that decides the tick, if any. -/
def majority (cs : List Candidate) : Option Candidate := cs.find? hasQuorum

/-- The largest number of votes for one outcome. -/
def largest (cs : List Candidate) : Nat := cs.foldl (fun n c => max n c.support) 0

end Candidate

end LightClient
