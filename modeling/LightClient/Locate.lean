import LightClient.Archive
import LightClient.Tick.Info
import LightClient.Transaction.Status
/-!
# Finding a transaction

A transaction is looked for by the text of its identity, in a tick at a node or in an archive. It is
found if one of the tick's transactions has that identity and the header lists its digest. The receipt
says where, and what could be checked: the source's signature, the leader's signature on the header if
there is a computor list, and whether money moved if the node reports it.
-/
namespace LightClient

/-- What is known of a transaction that was found. -/
structure Receipt where
  tick : UInt32
  /-- The place of the transaction among the header's slots. -/
  slot : Nat
  transaction : Checked Transaction
  /-- The leader's signature on the header; unknown without a computor list. -/
  headerSignature : Option Integrity
  status : ExecutionStatus
  deriving DecidableEq

/-- The result of looking for a transaction (`Located`). -/
inductive Location where
  | found (receipt : Receipt)
  /-- The network has not moved past the tick. -/
  | notYetFinalized (tick currentTick : UInt32)
  | notFound
  deriving DecidableEq

namespace Location

/-- The check of a header's signature against a computor list, if there is one (`check_header`). -/
def checkHeader (computors : Option ComputorSet) (header : TickHeader) : Option Integrity :=
  computors.map fun set => .ofBool (header.valid set)

/-- The first transaction with the wanted identity, and its slot (`find_in`). -/
def findIn (header : TickHeader) (transactions : List Transaction) (wanted : String) :
    Option (Nat × Transaction) := do
  let transaction ← transactions.find? fun t => Identity.same t.id wanted
  let slot ← header.body.slotOf? transaction.hash
  return (slot, transaction)

/-- The receipt for a transaction. -/
def receipt (tick : UInt32) (slot : Nat) (transaction : Transaction)
    (headerSignature : Option Integrity) (status : ExecutionStatus) : Receipt :=
  ⟨tick, slot, ⟨transaction, .ofBool transaction.valid⟩, headerSignature, status⟩

/-- Looks for a transaction in a tick whose header is known, with the node's transactions. -/
def locateUnder (computors : Option ComputorSet) (wanted : String) (tick : UInt32)
    (header : TickHeader) : Dialogue Location := do
  let transactions ← Transaction.fetch tick header.body.transactionCount
  match findIn header transactions wanted with
  | none => return notFound
  | some (slot, transaction) =>
      let report ← Dialogue.once (TxStatus.exchange tick)
      let status := match report with
        | some r => r.statusOf transaction.hash
        | none => .unknown
      return found (receipt tick slot transaction (checkHeader computors header) status)

/-- Looks for a transaction in a tick at a node. -/
def locate (computors : Option ComputorSet) (wanted : String) (tick : UInt32) :
    Dialogue Location := do
  match ← Dialogue.once TickInfo.exchange with
  | none => Dialogue.fail (.connectivity .silentNode)
  | some current =>
      if current.tick ≤ tick then return notYetFinalized tick current.tick
      else
        match ← TickHeader.fetch tick with
        | none => return notFound
        | some header => locateUnder computors wanted tick header

/-- Looks for a transaction in an archive, which does not record whether money moved (`locate_in_archive`). -/
def locateInArchive (computors : Option ComputorSet) (wanted : String) (archive : Archive) :
    Location :=
  match findIn archive.header archive.transactions wanted with
  | some (slot, transaction) =>
      found (receipt archive.header.body.tick slot transaction
        (checkHeader computors archive.header) .unknown)
  | none => notFound

end Location

end LightClient
