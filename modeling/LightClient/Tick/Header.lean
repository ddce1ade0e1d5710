import LightClient.Computor.Roster
import LightClient.Tick.Time
/-!
# Tick headers

The tick leader publishes a header for its tick: 1024 slots for transaction digests, whose order is the
order of the transactions, and the fees of 1024 contracts. A zero digest is an empty slot, and a zero
epoch marks a tick that was not produced. The signature covers every byte before it, with the index
marked as a header's.
-/
namespace LightClient

namespace TickData

/-- The number of slots for transactions. -/
def slotCount : Nat := 1024

/-- The number of contracts that have a fee. -/
def contractCount : Nat := 1024

end TickData

open TickData in
/-- A tick header without its signature. -/
@[ext] structure TickData where
  /-- The index of the tick leader. -/
  index : UInt16
  epoch : UInt16
  tick : UInt32
  time : TickTime
  /-- A proposal, its length first; or, after a zero byte, something else. -/
  proposal : Octets 256
  timelock : Digest
  digests : Tuple Digest slotCount
  fees : Tuple Int64 contractCount
  deriving DecidableEq

namespace TickData

/-- The fields in order. -/
def layout : Layout TickData :=
  (Layout.u16.pair (Layout.u16.pair (Layout.u32.pair (TickTime.layout.pair
    ((Layout.octets 256).pair ((Layout.octets 32).pair
      ((Layout.tuple slotCount (Layout.octets 32)).pair (Layout.tuple contractCount Layout.i64)))))))).map
    (fun ⟨index, epoch, tick, time, proposal, timelock, digests, fees⟩ =>
      ⟨index, epoch, tick, time, proposal, timelock, digests, fees⟩)
    (fun d => (d.index, d.epoch, d.tick, d.time, d.proposal, d.timelock, d.digests, d.fees))
    (fun _ => rfl) (fun _ => rfl)

/-- The mark that a header's index bears in the signed bytes. -/
def tag : UInt16 := MessageType.broadcastTickHeader.code.toUInt16

instance : Signable TickData where
  signedBytes d := layout.bytes { d with index := d.index ^^^ tag }

/-- The proposal's text, if there is one (`proposal_uri`): as many bytes as the first byte says, and
no more than there are. -/
def proposalText (d : TickData) : Option Bytes :=
  match d.proposal.toList with
  | [] => none
  | len :: text => if len = 0 then none else some (text.take len.toNat)

/-- Whether the tick was not produced (`is_empty`). -/
def isEmpty (d : TickData) : Bool := d.epoch == 0

/-- The slots that are not empty, by number, with their digests (`digests`). -/
def slots (d : TickData) : List (Nat × Digest) :=
  (d.digests.toList.zipIdx.filter fun p => !p.1.isZero).map fun p => (p.2, p.1)

/-- The number of slots that are not empty (`transaction_count`). -/
def transactionCount (d : TickData) : Nat := d.slots.length

/-- The first slot that holds a digest. Empty slots hold none. -/
def slotOf? (d : TickData) (digest : Digest) : Option Nat :=
  (d.slots.find? fun s => s.2 == digest).map (·.1)

end TickData

/-- A tick header with the leader's signature. -/
abbrev TickHeader := Signed TickData

namespace TickHeader

/-- The header's data, then the signature. -/
def layout : Layout TickHeader := Signed.layout TickData.layout

/-- Reads a tick header (`TickHeader.from_bytes`). -/
def ofBytes (bs : Bytes) : Except Malformed TickHeader := layout.parse "tick header" bs

/-- The bytes of a tick header. -/
def toBytes (h : TickHeader) : Bytes := layout.bytes h

theorem ofBytes_toBytes (h : TickHeader) : ofBytes h.toBytes = .ok h := layout.parse_bytes _ h

/-- Whether the signature holds under the key at the leader's index (`TickHeader.verify`). -/
def valid (computors : ComputorSet) (h : TickHeader) : Bool :=
  match computors.key? h.body.index with
  | some key => h.verify key
  | none => false

/-- Asks a node for the header of a tick. The first header in the answer counts; later ones are not
read. -/
def exchange (tick : UInt32) : Exchange (Option TickHeader) where
  request := .requestTickHeader
  payload := leBytes 4 tick.toNat
  initial := none
  hear found packet :=
    match found with
    | some header => .ok (.more (some header))
    | none =>
        if packet.is .broadcastTickHeader then
          match ofBytes packet.payload with
          | .ok header => .ok (.more (some header))
          | .error flaw => .error (.malformed flaw)
        else .ok (.more none)

/-- The header of a tick, unless the node has none or the tick was not produced (`fetch_header`). -/
def fetch (tick : UInt32) : Dialogue (Option TickHeader) := do
  let found ← Dialogue.once (exchange tick)
  return found.filter fun h => !h.body.isEmpty

end TickHeader

end LightClient
