import LightClient.Wire.Header
/-!
# Messages

A message is a type, a nonce and a payload that leaves room for the header in the size field; its
bytes are the header and the payload.
-/
namespace LightClient

/-- The types of the messages that the client sends and understands. -/
inductive MessageType where
  | broadcastComputors | broadcastVote | broadcastTickHeader | requestComputors | requestVotes
  | requestTickHeader | broadcastTransaction | requestTickInfo | tickInfo | requestTransactions
  | endResponse | requestTxStatus | txStatus
  deriving DecidableEq, Repr

/-- The number that stands for a type in a header. -/
def MessageType.code : MessageType → UInt8
  | broadcastComputors => 2
  | broadcastVote => 3
  | broadcastTickHeader => 8
  | requestComputors => 11
  | requestVotes => 14
  | requestTickHeader => 16
  | broadcastTransaction => 24
  | requestTickInfo => 27
  | tickInfo => 28
  | requestTransactions => 29
  | endResponse => 35
  | requestTxStatus => 201
  | txStatus => 202

/-- A message that fits its header. -/
structure Packet where
  kind : UInt8
  nonce : UInt32
  payload : Bytes
  fits : payload.length + Header.size < Header.maxTotal
  deriving DecidableEq

namespace Packet

/-- The message with the given parts, unless it is too long (`Packet.new`). -/
def make (kind : UInt8) (nonce : UInt32) (payload : Bytes) : Except Violation Packet :=
  if h : payload.length + Header.size < Header.maxTotal then .ok ⟨kind, nonce, payload, h⟩
  else .error (.oversized (payload.length + Header.size))

/-- The header of a message. -/
def header (p : Packet) : Header :=
  ⟨⟨leBytes 3 (p.payload.length + Header.size), length_leBytes 3 _⟩, p.kind, p.nonce⟩

/-- The bytes of a message (`encode`). -/
def bytes (p : Packet) : Bytes := p.header.bytes ++ p.payload

/-- Whether a message is of a type that the client knows. -/
def is (p : Packet) (t : MessageType) : Bool := p.kind == t.code

/-- Whether a message says that an answer is complete (`is_end_of_response`). -/
def isEnd (p : Packet) : Bool := p.is .endResponse

end Packet

/-- A request's payload (`tick_request_with_flags`): a tick, and a bit for each entry that the client
already has. No bit is set, so everything is asked for. -/
def tickRequest (tick : UInt32) (flagBytes : Nat) : Bytes :=
  leBytes 4 tick.toNat ++ List.replicate flagBytes 0

end LightClient
