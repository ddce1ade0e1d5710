import LightClient.Bytes.Cursor
import LightClient.Tick.Header
/-!
# Execution status

A node reports for a tick which of its transactions moved money: a bit for each digest of a list, in
the order of the tick's slots with empty slots at the end cut off. The report names at most 1024
digests, and its length must fit their number.
-/
namespace LightClient

/-- Whether a transaction moved money. -/
inductive ExecutionStatus where
  | moneyFlew
  | noMoneyFlew
  /-- The node has no status for it. -/
  | unknown
  deriving DecidableEq, Repr

/-- A node's report on the transactions of a tick (`TxStatusReport`). -/
@[ext] structure TxStatus where
  /-- The current tick at the node. -/
  currentTick : UInt32
  tick : UInt32
  /-- The bits, the lowest of each byte first. -/
  moneyFlew : Octets 128
  digests : List Digest
  deriving DecidableEq

namespace TxStatus

/-- The number of bytes before the digests. -/
def fixedSize : Nat := 12 + 128

/-- The largest number of digests. -/
def maxDigests : Nat := TickData.slotCount

/-- Reads a number of digests. -/
def readDigests : Nat → Read (List Digest)
  | 0 => return []
  | n + 1 => do
      let digest ← Read.octets 32
      let more ← readDigests n
      return digest :: more

/-- Reads a report of the given total length. -/
def read (total : Nat) : Read TxStatus := do
  let currentTick ← Read.value Layout.u32
  let tick ← Read.value Layout.u32
  let count ← Read.value Layout.u32
  let moneyFlew ← Read.octets 128
  let remaining ← Read.remaining
  if maxDigests < count.toNat ∨ remaining ≠ count.toNat * 32 then
    throw ⟨"transaction status", fixedSize + min count.toNat maxDigests * 32, total⟩
  let digests ← readDigests count.toNat
  return ⟨currentTick, tick, moneyFlew, digests⟩

/-- Reads a report (`TxStatusReport.from_bytes`). -/
def ofBytes (bs : Bytes) : Except Malformed TxStatus :=
  Read.run (read bs.length) "transaction status" bs

/-- The bytes of a report. -/
def toBytes (r : TxStatus) : Bytes :=
  leBytes 4 r.currentTick.toNat ++ leBytes 4 r.tick.toNat ++ leBytes 4 r.digests.length ++
    r.moneyFlew.toList ++ r.digests.flatMap Tuple.toList

/-- A bit of the report. -/
def bit (r : TxStatus) (i : Nat) : Bool :=
  match r.moneyFlew.get? (i / 8) with
  | some b => b.toNat.testBit (i % 8)
  | none => false

/-- What the report says of a digest (`status_of`): the bit at its first place in the list. -/
def statusOf (r : TxStatus) (digest : Digest) : ExecutionStatus :=
  match r.digests.findIdx? (· == digest) with
  | some i => if r.bit i then .moneyFlew else .noMoneyFlew
  | none => .unknown

/-- Asks a node for its report on a tick (`fetch_tx_status`); the first one in the answer counts. -/
def exchange (tick : UInt32) : Exchange (Option TxStatus) where
  request := .requestTxStatus
  payload := leBytes 4 tick.toNat
  initial := none
  hear found packet :=
    match found with
    | some report => .ok (.more (some report))
    | none =>
        if packet.is .txStatus then
          match ofBytes packet.payload with
          | .ok report => .ok (.more (some report))
          | .error flaw => .error (.malformed flaw)
        else .ok (.more none)

end TxStatus

end LightClient
