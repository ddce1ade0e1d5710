import LightClient.Stream.Source
import LightClient.Wire.Packet
/-!
# Messages on a stream

A stream carries messages one after the other, each with its header. `receive` takes the next one.
A stream that ends, or stays silent, before a message begins has no more to say for now; one that
does so inside a message has failed, and a header with an impossible size is a breach of protocol.
Each message takes bytes off the stream (`pending_receive`), so receiving ends: `receiveAll` gives all
messages up to the silence, the end or the failure that comes after them.
-/
namespace LightClient.Framing

/-- The payload that a header announces, from the stream. -/
def payload (header : Header) (raw : Bytes) (s : Source) : Outcome (Option Packet) × Source :=
  if header.isCorrupted then (.error (.protocolViolation (.corrupted raw)), s)
  else
    match s.readExact header.payloadSize with
    | (.error fault, s') => (.error (.connectivity fault), s')
    | (.ok body, s') =>
        (((Packet.make header.kind header.nonce body).mapError .protocolViolation).map some, s')

/-- The rest of a header of which some bytes have been read, and the payload. -/
def afterFirst (first : Bytes) (s : Source) : Outcome (Option Packet) × Source :=
  match s.readExact (Header.size - first.length) with
  | (.error fault, s') => (.error (.connectivity fault), s')
  | (.ok more, s') =>
      match Header.layout.parse "header" (first ++ more) with
      | .error flaw => (.error (.malformed flaw), s')
      | .ok header => payload header (first ++ more) s'

/-- The next message on a stream (`TcpConnection.receive`). -/
def receive (s : Source) : Outcome (Option Packet) × Source :=
  match s.read Header.size with
  | (.data first, s') => afterFirst first s'
  | (.ended, s') => (.ok none, s')
  | (.failed .timedOut, s') => (.ok none, s')
  | (.failed fault, s') => (.error (.connectivity fault), s')
  | (.interrupted, s') => (.error (.connectivity .interrupted), s')

theorem pending_payload_le (header : Header) (raw : Bytes) (s : Source) :
    (payload header raw s).2.pending ≤ s.pending := by
  have := s.pending_readExact_le header.payloadSize
  unfold payload
  split
  · exact Nat.le_refl _
  · split
    · rename_i h
      rw [h] at this
      exact this
    · rename_i h
      rw [h] at this
      exact this

theorem pending_afterFirst_le (first : Bytes) (s : Source) :
    (afterFirst first s).2.pending ≤ s.pending := by
  have := s.pending_readExact_le (Header.size - first.length)
  unfold afterFirst
  split
  · rename_i h
    rw [h] at this
    exact this
  · rename_i h
    rw [h] at this
    split
    · exact this
    · exact Nat.le_trans (pending_payload_le _ _ _) this

theorem pending_receive {s s' : Source} {p : Packet} (h : receive s = (.ok (some p), s')) :
    s'.pending < s.pending := by
  unfold receive at h
  split at h
  · rename_i first t ht
    have := pending_afterFirst_le first t
    rw [h] at this
    exact Nat.lt_of_le_of_lt this (Source.pending_of_data ht)
  all_goals simp at h

/-- The messages on a stream until it has no more to say or fails. -/
def receiveAll (s : Source) : List Packet × Outcome Unit :=
  match _h : receive s with
  | (.ok (some p), s') =>
      let (more, last) := receiveAll s'
      (p :: more, last)
  | (.ok none, _) => ([], .ok ())
  | (.error e, _) => ([], .error e)
termination_by s.pending
decreasing_by exact pending_receive _h

end LightClient.Framing
