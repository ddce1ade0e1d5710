import LightClient.Quorum.SaltCheck
import LightClient.Vote.Collection
/-!
# What the votes of a tick say

The report on a tick is made from the votes for it and, where the tick has a successor, from the
votes for that one, all from one node.
-/
namespace LightClient

/-- What was learned about the outcome of a tick. -/
structure QuorumReport where
  tick : UInt32
  /-- The tick whose votes were taken as the truth; the last tick has none. -/
  nextTick : Option UInt32
  votesCollected : Nat
  candidates : List Candidate
  signatureRejected : List UInt16
  duplicateVoters : List UInt16
  saltRejected : List UInt16
  trust : TrustLevel
  deriving DecidableEq

namespace QuorumReport

/-- The candidate that decides the tick, if any. -/
def majority (r : QuorumReport) : Option Candidate := Candidate.majority r.candidates

/-- The tick after another, if there is one. -/
def successor? (tick : UInt32) : Option UInt32 :=
  if tick.toNat + 1 < UInt32.size then some (tick + 1) else none

/-- The report on a tick from its votes and the result of the salt check. -/
def make (tick : UInt32) (current : VoteCollection) (check : SaltCheck) : QuorumReport where
  tick := tick
  nextTick := successor? tick
  votesCollected := current.size
  candidates := check.candidates
  signatureRejected := current.rejected
  duplicateVoters := current.duplicates
  saltRejected := check.rejected
  trust := check.trust

/-- Collects the votes for a tick and for the next one and reports on the tick (`verify_quorum_tick`). -/
def collect (computors : ComputorSet) (tick : UInt32) : Dialogue QuorumReport := do
  let current ← VoteCollection.collect computors tick
  match successor? tick with
  | some nextTick =>
      let next ← VoteCollection.collect computors nextTick
      return make tick current (SaltCheck.run computors current.accepted next.accepted)
  | none => return make tick current (SaltCheck.unchecked .noNextTick current.accepted)

end QuorumReport

end LightClient
