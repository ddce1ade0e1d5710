import LightClient.Bytes.Cursor
import LightClient.Tick.Header
/-!
# Transactions

A transaction is a transfer with some input for a contract, signed by the source key. Its record is a
fixed part of 80 bytes that ends with the length of the input, then the input, then the signature. The
length is written in two bytes; reading accepts at most 1024 input bytes. A transaction is known by the
digest of its whole record, signature included, and by the identity of that digest.
-/
namespace LightClient

/-- What a transaction says, without its signature. -/
@[ext] structure Transfer where
  source : PublicKey
  destination : PublicKey
  amount : Int64
  tick : UInt32
  inputType : UInt16
  input : Bytes
  deriving DecidableEq

namespace Transfer

/-- The fixed part of a transaction's record. -/
@[ext] structure FixedPart where
  source : PublicKey
  destination : PublicKey
  amount : Int64
  tick : UInt32
  inputType : UInt16
  inputSize : UInt16
  deriving DecidableEq

namespace FixedPart

/-- The fields in order. -/
def layout : Layout FixedPart :=
  (PublicKey.layout.pair (PublicKey.layout.pair (Layout.i64.pair
    (Layout.u32.pair (Layout.u16.pair Layout.u16))))).map
    (fun p => ⟨p.1, p.2.1, p.2.2.1, p.2.2.2.1, p.2.2.2.2.1, p.2.2.2.2.2⟩)
    (fun f => (f.source, f.destination, f.amount, f.tick, f.inputType, f.inputSize))
    (fun _ => rfl) (fun _ => rfl)

/-- The number of bytes of the fixed part. -/
def size : Nat := 80

/-- Reads the fields one by one. -/
def read : Read FixedPart := do
  let source ← Read.value PublicKey.layout
  let destination ← Read.value PublicKey.layout
  let amount ← Read.value Layout.i64
  let tick ← Read.value Layout.u32
  let inputType ← Read.value Layout.u16
  let inputSize ← Read.value Layout.u16
  return ⟨source, destination, amount, tick, inputType, inputSize⟩

end FixedPart

/-- The largest input that is accepted. -/
def maxInput : Nat := 1024

/-- The fixed part of a transfer; of the length of the input, the two lowest bytes. -/
def fixedPart (t : Transfer) : FixedPart :=
  ⟨t.source, t.destination, t.amount, t.tick, t.inputType, t.input.length.toUInt16⟩

/-- The bytes of a transfer (`unsigned_bytes`). -/
def toBytes (t : Transfer) : Bytes := FixedPart.layout.bytes t.fixedPart ++ t.input

instance : Signable Transfer where
  signedBytes := toBytes

/-- The transfer with a fixed part and an input (`assemble`). -/
def FixedPart.withInput (f : FixedPart) (input : Bytes) : Transfer :=
  ⟨f.source, f.destination, f.amount, f.tick, f.inputType, input⟩

end Transfer

/-- A transfer with the signature of its source. -/
abbrev Transaction := Signed Transfer

namespace Transaction

/-- The number of bytes of a signature. -/
def signatureSize : Nat := 64

/-- The bytes of a transaction (`to_bytes`). -/
def toBytes (t : Transaction) : Bytes := t.body.toBytes ++ t.signature.octets.toList

/-- The digest that a transaction is known by. -/
def hash (t : Transaction) : Digest := sha256 t.toBytes

/-- The identity that a transaction is known by, in small letters. -/
def id (t : Transaction) : String := Identity.encode .lower t.hash

/-- Whether the signature holds under the source key. -/
def valid (t : Transaction) : Bool := t.verify t.body.source

/-- Reads the fixed part of a transaction's record (`read_fixed_part`). -/
def readFixedPart (bs : Bytes) : Outcome Transfer.FixedPart := do
  let part ← Outcome.ofRecord (Read.run Transfer.FixedPart.read "transaction" bs)
  if Transfer.maxInput < part.inputSize.toNat then
    .error (.protocolViolation (.longInput part.inputSize.toNat))
  else .ok part

/-- The length of the record that a fixed part begins. -/
def recordSize (part : Transfer.FixedPart) : Nat :=
  Transfer.FixedPart.size + part.inputSize.toNat + signatureSize

/-- Reads the input and the signature that follow a fixed part. -/
def readRest (part : Transfer.FixedPart) : Read Transaction := do
  let _ ← Read.value Transfer.FixedPart.layout
  let input ← Read.octets part.inputSize.toNat
  let signature ← Read.value Signature.layout
  return ⟨part.withInput input.toList, signature⟩

/-- Reads a transaction (`Transaction.from_bytes`). -/
def ofBytes (bs : Bytes) : Outcome Transaction := do
  let part ← readFixedPart bs
  Outcome.ofRecord (expectLength "transaction" (recordSize part) bs)
  Outcome.ofRecord (Read.run (readRest part) "transaction" bs)

/-- What has been gathered of the transactions of a tick. -/
structure Gathered where
  transactions : List Transaction
  /-- Whether a further transaction would still be taken. -/
  taking : Bool

/-- Asks a node for the transactions of a tick: as many as expected are taken from the beginning of
the answer, up to the first message of another type. -/
def exchange (tick : UInt32) (expected : Nat) : Exchange Gathered where
  request := .requestTransactions
  payload := tickRequest tick (TickData.slotCount / 8)
  initial := ⟨[], true⟩
  hear gathered packet :=
    if gathered.taking && gathered.transactions.length < expected then
      if packet.is .broadcastTransaction then
        (ofBytes packet.payload).map fun t => .more ⟨gathered.transactions ++ [t], true⟩
      else .ok (.more ⟨gathered.transactions, false⟩)
    else .ok (.more gathered)

/-- The transactions of a tick, at most as many as expected, in the order of their arrival
(`fetch_transactions`). Where none is expected, none is asked for. -/
def fetch (tick : UInt32) (expected : Nat) : Dialogue (List Transaction) :=
  if expected = 0 then .done (.ok [])
  else do
    let gathered ← Dialogue.once (exchange tick expected)
    return gathered.transactions

end Transaction

end LightClient
