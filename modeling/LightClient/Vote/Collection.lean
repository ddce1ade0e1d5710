import LightClient.Vote.Basic
/-!
# Votes that count

A vote counts if its signature holds and no earlier vote of the same computor counted. The votes of a
tick are split into those that count, the indices of those whose signature does not hold, and the
indices of further votes of computors whose vote already counts; each list keeps the order of the
votes, and every vote is in exactly one of them.
-/
namespace LightClient

/-- The votes of a tick, split by whether they count. -/
structure VoteCollection where
  accepted : List Vote
  /-- The indices of votes whose signature does not hold. -/
  rejected : List UInt16
  /-- The indices of valid votes of computors whose vote already counts. -/
  duplicates : List UInt16
  deriving DecidableEq

namespace VoteCollection

/-- A collection without votes. -/
def empty : VoteCollection := ⟨[], [], []⟩

/-- Splits votes, given the indices of those that already count. -/
def splitAfter (computors : ComputorSet) (seen : List UInt16) : List Vote → VoteCollection
  | [] => empty
  | v :: vs =>
      if v.valid computors then
        if seen.contains v.index then
          let rest := splitAfter computors seen vs
          { rest with duplicates := v.index :: rest.duplicates }
        else
          let rest := splitAfter computors (v.index :: seen) vs
          { rest with accepted := v :: rest.accepted }
      else
        let rest := splitAfter computors seen vs
        { rest with rejected := v.index :: rest.rejected }

/-- Splits votes by whether they count (`verify_votes`). -/
def split (computors : ComputorSet) (votes : List Vote) : VoteCollection :=
  splitAfter computors [] votes

/-- The number of votes that were split. -/
def size (c : VoteCollection) : Nat := c.accepted.length + c.rejected.length + c.duplicates.length

/-- Asks a node for the votes of a tick and splits them (`collect_votes`). -/
def collect (computors : ComputorSet) (tick : UInt32) : Dialogue VoteCollection := do
  let votes ← Dialogue.once (Vote.exchange tick)
  return split computors votes

end VoteCollection

end LightClient
