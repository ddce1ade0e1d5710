import LightClient.Computor.Roster
import LightClient.Tick.Time
/-!
# Votes

A vote is one computor's account of a tick. The part that honest computors agree on is the tick's
outcome: its place and time, the state at the end of the tick before, and the digests of this and the
next tick's transactions. Besides, the vote holds the state at the end of this tick, salted with the
voter's own key, so that it can be checked once the next tick's votes reveal that state.

The signature covers every byte before it, with the index marked as a vote's. The mark is to keep a
vote from passing for another signed record; but a transaction bears no mark, and a vote can have the
bytes of a transaction (`SignedBody.Twins`).
-/
namespace LightClient

/-- The digests that stand for a state: of the resource testing, and of the roots of the three parts
of the state. -/
@[ext] structure StateDigests where
  resourceTesting : UInt64
  spectrumRoot : Digest
  universeRoot : Digest
  computerRoot : Digest
  deriving DecidableEq

/-- What the computors agree on about a tick (`ConsensusFields`). -/
@[ext] structure TickOutcome where
  epoch : UInt16
  tick : UInt32
  time : TickTime
  /-- The state at the end of the tick before. -/
  prev : StateDigests
  transactionDigest : Digest
  expectedNextTransactionDigest : Digest
  deriving DecidableEq

/-- A vote without its signature. -/
@[ext] structure Ballot where
  /-- The index of the voter. -/
  index : UInt16
  outcome : TickOutcome
  /-- The state at the end of this tick, salted with the voter's key. -/
  salted : StateDigests
  deriving DecidableEq

namespace Ballot

/-- The fields in order; the two resource-testing digests stand before the other digests of both
states. -/
def layout : Layout Ballot :=
  let digest := Layout.octets 32
  let roots := digest.pair (digest.pair digest)
  (Layout.u16.pair (Layout.u16.pair (Layout.u32.pair (TickTime.layout.pair
    (Layout.u64.pair (Layout.u64.pair (roots.pair (roots.pair
      (digest.pair digest))))))))).map
    (fun ⟨index, epoch, tick, time, prevTesting, saltedTesting, prev, salted, transactions, next⟩ =>
      ⟨index, ⟨epoch, tick, time, ⟨prevTesting, prev.1, prev.2.1, prev.2.2⟩, transactions, next⟩,
        ⟨saltedTesting, salted.1, salted.2.1, salted.2.2⟩⟩)
    (fun b => (b.index, b.outcome.epoch, b.outcome.tick, b.outcome.time,
      b.outcome.prev.resourceTesting, b.salted.resourceTesting,
      (b.outcome.prev.spectrumRoot, b.outcome.prev.universeRoot, b.outcome.prev.computerRoot),
      (b.salted.spectrumRoot, b.salted.universeRoot, b.salted.computerRoot),
      b.outcome.transactionDigest, b.outcome.expectedNextTransactionDigest))
    (fun _ => rfl) (fun _ => rfl)

/-- The mark that a vote's index bears in the signed bytes. -/
def tag : UInt16 := MessageType.broadcastVote.code.toUInt16

instance : Signable Ballot where
  signedBytes b := layout.bytes { b with index := b.index ^^^ tag }

end Ballot

/-- A ballot with the voter's signature. -/
abbrev Vote := Signed Ballot

namespace Vote

/-- The ballot, then the signature. -/
def layout : Layout Vote := Signed.layout Ballot.layout

/-- Reads a vote (`Vote.from_bytes`). -/
def ofBytes (bs : Bytes) : Except Malformed Vote := layout.parse "vote" bs

/-- The bytes of a vote. -/
def toBytes (v : Vote) : Bytes := layout.bytes v

/-- The index of the voter. -/
def index (v : Vote) : UInt16 := v.body.index

/-- What the voter says the tick's outcome is (`consensus_fields`). -/
def outcome (v : Vote) : TickOutcome := v.body.outcome

/-- Whether the signature holds under the key at the voter's index (`Vote.verify`). -/
def valid (computors : ComputorSet) (v : Vote) : Bool :=
  match computors.key? v.index with
  | some key => v.verify key
  | none => false

/-- Asks a node for the votes of a tick, in the order of their arrival (`fetch_votes`). Votes for
other ticks in the answer are passed over. -/
def exchange (tick : UInt32) : Exchange (List Vote) where
  request := .requestVotes
  payload := tickRequest tick ((Computor.count + 7) / 8)
  initial := []
  hear votes packet :=
    if packet.is .broadcastVote then
      match ofBytes packet.payload with
      | .ok vote => .ok (.more (if vote.outcome.tick = tick then votes ++ [vote] else votes))
      | .error flaw => .error (.malformed flaw)
    else .ok (.more votes)

end Vote

end LightClient
