import LightClient.Stream.Sink
import LightClient.Tick.Header
import LightClient.Transaction.Stream
/-!
# Tick archives

An archive is a tick header followed by the records of its transactions, in the order in which they
were fetched. Reading puts them into the order of the header's slots: `canonicalOrder` finds for each
slot the transaction with its digest, and fails at the first slot for which there is none left. Records
that no slot asks for are dropped.
-/
namespace LightClient

/-- A tick header with its transactions in the order of the slots (`TickArchive`). -/
structure Archive where
  header : TickHeader
  transactions : List Transaction
  deriving DecidableEq

namespace Archive

/-- The transactions with their digests, the last first, so that of two with one digest the later is
found. -/
def indexed (transactions : List Transaction) : List (Digest × Transaction) :=
  (transactions.map fun t => (t.hash, t)).reverse

/-- Takes for each digest the transaction with it, and removes that from the others. -/
def assign : List Digest → List (Digest × Transaction) → Outcome (List Transaction)
  | [], _ => .ok []
  | d :: ds, entries =>
      match entries.find? fun e => e.1 == d with
      | some entry =>
          (assign ds (entries.filter fun e => !(e.1 == d))).map (entry.2 :: ·)
      | none => .error (.incompleteArchive d)

/-- The transactions in the order of the header's slots (`canonical_order`). -/
def canonicalOrder (header : TickHeader) (transactions : List Transaction) :
    Outcome (List Transaction) :=
  assign (header.body.slots.map (·.2)) (indexed transactions)

/-- The pieces of an archive's bytes, in order. -/
def pieces (header : TickHeader) (transactions : List Transaction) : List Bytes :=
  header.toBytes :: transactions.map Transaction.toBytes

/-- The bytes of an archive. -/
def toBytes (header : TickHeader) (transactions : List Transaction) : Bytes :=
  (pieces header transactions).flatten

/-- Writes an archive to a stream (`write_archive`). -/
def write (sink : Sink) (header : TickHeader) (transactions : List Transaction) :
    Bytes × Outcome Unit :=
  let written := sink.write (pieces header transactions)
  (written.bytes, written.outcome.mapError .io)

/-- Reads the header of an archive. -/
def readHeader (s : Source) : Outcome TickHeader × Source :=
  match s.readExact TickHeader.layout.size with
  | (.ok raw, s') => (Outcome.ofRecord (TickHeader.ofBytes raw), s')
  | (.error .endOfStream, s') =>
      (.error (.malformed ⟨"tick archive header", TickHeader.layout.size, 0⟩), s')
  | (.error fault, s') => (.error (.io fault), s')

/-- Reads an archive (`read_archive`): the header, then as many records as it has slots that are not empty. -/
def read (s : Source) : Outcome Archive × Source :=
  match readHeader s with
  | (.error e, s') => (.error e, s')
  | (.ok header, s') =>
      match Transaction.readMany header.body.transactionCount s' with
      | (.error e, s'') => (.error e, s'')
      | (.ok records, s'') =>
          ((canonicalOrder header records).map fun ts => ⟨header, ts⟩, s'')

end Archive

end LightClient
