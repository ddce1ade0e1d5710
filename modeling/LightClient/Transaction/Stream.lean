import LightClient.Stream.Source
import LightClient.Transaction.Basic
/-!
# Transactions from a stream

Records follow each other on a stream without separators. A stream that ends before a record begins
holds no further transaction; one that ends inside a record is malformed, and the failure says how
much of the record was there.
-/
namespace LightClient.Transaction

/-- The failure of a record of which only some bytes are there (`truncated`). -/
def cutOff (needed got : Nat) : Error := .malformed ⟨"transaction", needed, got⟩

/-- Reads the signature that follows a fixed part and an input. -/
def readSignature (part : Transfer.FixedPart) (input : Bytes) (s : Source) :
    Outcome (Option Transaction) × Source :=
  match s.fill signatureSize with
  | (.error fault, s') => (.error (.io fault), s')
  | (.ok got, s') =>
      match Tuple.ofList? signatureSize got with
      | some octets => (.ok (some ⟨part.withInput input, ⟨octets⟩⟩), s')
      | none => (.error (cutOff (recordSize part)
          (Transfer.FixedPart.size + part.inputSize.toNat + got.length)), s')

/-- Reads the input and the signature that follow a fixed part. -/
def readInput (part : Transfer.FixedPart) (s : Source) : Outcome (Option Transaction) × Source :=
  match s.fill part.inputSize.toNat with
  | (.error fault, s') => (.error (.io fault), s')
  | (.ok input, s') =>
      if input.length < part.inputSize.toNat then
        (.error (cutOff (recordSize part) (Transfer.FixedPart.size + input.length)), s')
      else readSignature part input s'

/-- Reads the next transaction, if the stream holds another (`Transaction.read_from`). -/
def readNext (s : Source) : Outcome (Option Transaction) × Source :=
  match s.fill Transfer.FixedPart.size with
  | (.error fault, s') => (.error (.io fault), s')
  | (.ok got, s') =>
      if got.isEmpty then (.ok none, s')
      else if got.length < Transfer.FixedPart.size then
        (.error (cutOff Transfer.FixedPart.size got.length), s')
      else
        match readFixedPart got with
        | .error e => (.error e, s')
        | .ok part => readInput part s'

/-- Reads up to `n` transactions, fewer where the stream ends. -/
def readMany : Nat → Source → Outcome (List Transaction) × Source
  | 0, s => (.ok [], s)
  | n + 1, s =>
      match readNext s with
      | (.error e, s') => (.error e, s')
      | (.ok none, s') => (.ok [], s')
      | (.ok (some t), s') =>
          let (more, s'') := readMany n s'
          (more.map (t :: ·), s'')

end LightClient.Transaction
