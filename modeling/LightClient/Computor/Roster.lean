import LightClient.Computor.Basic
import LightClient.Exchange.Dialogue
import LightClient.Key
/-!
# The computors of an epoch

A roster holds the epoch's number and the key of each computor, in the order of their indices. It is
signed by the trust anchor. A roster of the right length is always read; whether its signature holds
is told by a mark.
-/
namespace LightClient

/-- The keys of an epoch's computors. -/
@[ext] structure Roster where
  epoch : UInt16
  keys : Tuple PublicKey Computor.count
  deriving DecidableEq

namespace Roster

/-- The epoch, then the keys. -/
def layout : Layout Roster :=
  (Layout.u16.pair (Layout.tuple Computor.count PublicKey.layout)).map
    (fun p => ⟨p.1, p.2⟩) (fun r => (r.epoch, r.keys)) (fun _ => rfl) (fun _ => rfl)

instance : Signable Roster where
  signedBytes := layout.bytes

/-- The key of the computor with an index, if the epoch has one. -/
def key? (r : Roster) (index : UInt16) : Option PublicKey := r.keys.get? index.toNat

end Roster

/-- A roster with the trust anchor's signature. -/
abbrev ComputorSet := Signed Roster

namespace ComputorSet

/-- The roster, then the signature. -/
def layout : Layout ComputorSet := Signed.layout Roster.layout

/-- Reads a computor list (`ComputorSet.from_bytes`). -/
def ofBytes (bs : Bytes) : Except Malformed ComputorSet := layout.parse "computor list" bs

/-- The bytes of a computor list. -/
def toBytes (set : ComputorSet) : Bytes := layout.bytes set

theorem ofBytes_toBytes (set : ComputorSet) : ofBytes set.toBytes = .ok set := layout.parse_bytes _ set

/-- The key of the computor with an index, if the epoch has one (`get`). -/
def key? (set : ComputorSet) (index : UInt16) : Option PublicKey := set.body.key? index

/-- Reads a computor list and marks it by its signature under the trust anchor (`ComputorSet.load`). -/
def load (anchor : PublicKey) (bs : Bytes) : Except Malformed (Checked ComputorSet) := do
  let set ← ofBytes bs
  return ⟨set, .ofBool (set.verify anchor)⟩

/-- Asks a node for its computor list (`ComputorSet.fetch`): the first one in the answer counts,
marked by its signature. -/
def exchange (anchor : PublicKey) : Exchange (Option (Checked ComputorSet)) where
  request := .requestComputors
  payload := []
  initial := none
  hear found packet :=
    match found with
    | some set => .ok (.more (some set))
    | none =>
        if packet.is .broadcastComputors then
          match load anchor packet.payload with
          | .ok set => .ok (.more (some set))
          | .error flaw => .error (.malformed flaw)
        else .ok (.more none)

end ComputorSet

end LightClient
