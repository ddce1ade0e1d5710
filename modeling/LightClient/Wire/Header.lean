import LightClient.Bytes.Layout
import LightClient.Error
/-!
# The header of a message

Every message begins with 8 bytes: its size in 3 bytes, header included, its type, and the nonce
that ties an answer to its request. A size field of zero reads as the largest one. The largest size,
and every size that leaves no room for the header itself, are impossible: they mean that the stream
is garbled.
-/
namespace LightClient

/-- The first 8 bytes of a message (`RequestResponseHeader`). -/
@[ext] structure Header where
  sizeField : Octets 3
  kind : UInt8
  nonce : UInt32
  deriving DecidableEq

namespace Header

/-- The number of bytes of a header. -/
def size : Nat := 8

/-- The largest size that the field can say, which no message may have. -/
def maxTotal : Nat := 0xffffff

/-- The three fields in order. -/
def layout : Layout Header :=
  ((Layout.octets 3).pair (Layout.u8.pair Layout.u32)).map
    (fun p => ⟨p.1, p.2.1, p.2.2⟩) (fun h => (h.sizeField, h.kind, h.nonce))
    (fun _ => rfl) (fun _ => rfl)

/-- The size of the message with a payload of the given length, in a word. The sum is not checked: for the eight
longest lengths that a word holds it wraps, and is less than the size of a header. -/
def wordTotal (payloadLength : UInt64) : UInt64 := payloadLength + UInt64.ofNat size

/-- The header of a message with a payload of the given length, unless the message would be too long
(`RequestResponseHeader.new`). -/
def make (kind : UInt8) (payloadLength : UInt64) (nonce : UInt32) : Except Violation Header :=
  let total := (wordTotal payloadLength).toNat
  if total < maxTotal then .ok ⟨⟨leBytes 3 total, length_leBytes 3 total⟩, kind, nonce⟩
  else .error (.oversized total)

/-- The size of the whole message (`size`). -/
def total (h : Header) : Nat :=
  let n := leNat h.sizeField.toList
  if n = 0 then maxTotal else n

/-- Whether no message can have this size (`is_corrupted`). -/
def isCorrupted (h : Header) : Bool := h.total == maxTotal || h.total < size

/-- The size of the payload (`payload_size`). -/
def payloadSize (h : Header) : Nat := h.total - size

/-- The 8 bytes of a header (`to_bytes`). -/
def bytes (h : Header) : Bytes := layout.bytes h

end Header

end LightClient
