import LightClient.Locate
import LightClient.Quorum.Report
import LightClient.Text.Utf8
/-!
# The lines that commands print

Each result of the client as the lines in which it is shown. Digests are shown in small letters, keys
in capitals, computors by their codes.
-/
namespace LightClient

/-- A digest as it is shown (`digest_text`). -/
def Digest.text (d : Digest) : String := Identity.encode .lower d

/-- Whether a signature held, as it is shown. -/
def validity (holds : Bool) : String := if holds then "valid" else "INVALID"

namespace TickInfo

/-- The lines for a node's account of the current tick. -/
def lines (i : TickInfo) : List String :=
  [s!"Tick: {i.tick.toNat}",
   s!"Epoch: {i.epoch.toNat}",
   s!"Tick duration: {i.tickDuration.toNat}",
   s!"Aligned votes: {i.alignedVotes.toNat}",
   s!"Misaligned votes: {i.misalignedVotes.toNat}",
   s!"Initial tick: {i.initialTick.toNat}"]

end TickInfo

namespace Candidate

/-- The lines for the candidate with a number. -/
def lines (number : Nat) (c : Candidate) : List String :=
  let o := c.outcome
  let verdict := if c.hasQuorum then " QUORUM" else ""
  ["",
   s!"Outcome #{number} ({c.support} votes){verdict}",
   s!"  Epoch: {o.epoch.toNat}  Tick: {o.tick.toNat}  Time: {o.time.text}",
   s!"  Prev resource testing digest: {o.prev.resourceTesting.toNat}",
   s!"  Prev spectrum digest: {o.prev.spectrumRoot.text}",
   s!"  Prev universe digest: {o.prev.universeRoot.text}",
   s!"  Prev computer digest: {o.prev.computerRoot.text}",
   s!"  Transaction digest: {o.transactionDigest.text}",
   s!"  Expected next tick transaction digest: {o.expectedNextTransactionDigest.text}",
   s!"  Voters: {Computor.codes c.voters}"]

end Candidate

namespace QuorumReport

/-- The line about the check against the next tick. -/
def trustLine (r : QuorumReport) : String :=
  let next := match r.nextTick with
    | some tick => toString tick.toNat
    | none => "none"
  let suffix := "salted digests not checked"
  match r.trust with
  | .saltVerified => s!"Salted digests checked against tick {next}"
  | .reduced (.insufficientNextTickVotes collected) =>
      s!"REDUCED TRUST: only {collected} votes for tick {next}, {suffix}"
  | .reduced (.noNextTickMajority largest) =>
      s!"REDUCED TRUST: tick {next} has no quorum (largest outcome {largest}), {suffix}"
  | .reduced .noNextTick => s!"REDUCED TRUST: tick {r.tick.toNat} has no successor, {suffix}"

/-- The line for some indices, if there are any (`print_indices`). -/
def indexLines (label : String) (indices : List UInt16) : List String :=
  if indices.isEmpty then [] else [s!"{label} ({indices.length}): {Computor.codes indices}"]

/-- The lines for a report (`print_quorum_report`). -/
def lines (r : QuorumReport) : List String :=
  let n := r.candidates.length
  [s!"Tick {r.tick.toNat}: {r.votesCollected} votes received, {n} distinct outcomes", r.trustLine] ++
    (r.candidates.zipIdx.flatMap fun p => p.1.lines (p.2 + 1)) ++
    indexLines "Bad signatures" r.signatureRejected ++
    indexLines "Duplicate votes" r.duplicateVoters ++
    indexLines "Failed salt check" r.saltRejected ++
    (if r.majority.isNone then ["", "No outcome reached quorum"] else [])

end QuorumReport

namespace Transaction

/-- The lines for a transaction of an archive. -/
def lines (t : Transaction) : List String :=
  let b := t.body
  ["",
   s!"  {t.id}",
   s!"    From: {b.source.identity}",
   s!"    To: {b.destination.identity}",
   s!"    Amount: {b.amount.toInt}",
   s!"    Input: type {b.inputType.toNat}, {b.input.length} bytes",
   s!"    Signature: {validity t.valid}"]

end Transaction

namespace TickHeader

/-- The lines for a tick header. -/
def lines (h : TickHeader) : List String :=
  let b := h.body
  [s!"Tick: {b.tick.toNat}",
   s!"Epoch: {b.epoch.toNat}",
   s!"Computor: {Computor.code b.index}",
   s!"Time: {b.time.text}",
   s!"Timelock: {b.timelock.text}"] ++
    match b.proposalText with
    | some text => [s!"Proposal: {Text.readable text}"]
    | none => []

/-- The line for a header whose signature was not checked. -/
def uncheckedLine : String := "Tick header signature: not checked (no computor list)"

/-- The line for the check of a header's signature. -/
def signatureLine (integrity : Option Integrity) : String :=
  match integrity with
  | some i => s!"Tick header signature: {validity (i == .verified)}"
  | none => uncheckedLine

end TickHeader

namespace Archive

/-- The lines for the transactions of an archive (`print_transactions`). -/
def transactionLines (a : Archive) : List String :=
  s!"Transactions: {a.transactions.length}" :: a.transactions.flatMap Transaction.lines

end Archive

/-- Whether money moved, as it is shown. -/
def ExecutionStatus.text : ExecutionStatus → String
  | moneyFlew => "yes"
  | noMoneyFlew => "no"
  | unknown => "unknown"

namespace Receipt

/-- The lines for a receipt (`print_receipt`). -/
def lines (r : Receipt) : List String :=
  let t := r.transaction.value
  let b := t.body
  [s!"Found {t.id} in tick {r.tick.toNat} (slot {r.slot})",
   s!"From: {b.source.identity}",
   s!"To: {b.destination.identity}",
   s!"Amount: {b.amount.toInt}",
   s!"Input type: {b.inputType.toNat}",
   s!"Signature: {validity r.transaction.isVerified}",
   TickHeader.signatureLine r.headerSignature,
   s!"Money flew: {r.status.text}"]

end Receipt

namespace Location

/-- The lines for the result of looking for a transaction (`report_location`). -/
def lines (wanted : String) : Location → List String
  | found receipt => receipt.lines
  | notYetFinalized tick current =>
      [s!"Tick {tick.toNat} is not finalized yet (node is at tick {current.toNat})"]
  | notFound => [s!"Transaction {wanted} was not found"]

end Location

end LightClient
