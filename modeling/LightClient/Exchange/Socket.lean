import LightClient.Exchange.Transport
import LightClient.Wire.Framing
/-!
# A node behind a socket

Here a node's answers are bytes on a stream, and messages are what `Framing.receive` finds in them. A
node that has given its last answer closes its side, but still takes requests; until then it stays
silent when it has nothing to say.
-/
namespace LightClient

/-- A connection to a node that answers each request with some bytes. -/
structure Socket where
  inbound : Source
  replies : List Bytes
  /-- The requests that arrived, in order. -/
  arrived : List Packet
  deriving DecidableEq

namespace Socket

/-- Whether the node's side is closed after the bytes on their way. -/
def endingOf (replies : List Bytes) : Ending := if replies.isEmpty then .closed else .silent

/-- A connection on which nothing has been sent. -/
def ofReplies (replies : List Bytes) : Socket := ⟨⟨[], [], endingOf replies⟩, replies, []⟩

/-- A request arrives. -/
def accept (request : Packet) (socket : Socket) : Outcome Unit × Socket :=
  match socket.replies with
  | [] => (.ok (), { socket with arrived := socket.arrived ++ [request] })
  | reply :: later =>
      let inbound := socket.inbound
      (.ok (), ⟨{ inbound with bytes := inbound.bytes ++ reply, ending := endingOf later }, later,
        socket.arrived ++ [request]⟩)

/-- The client receives the next message. -/
def next (socket : Socket) : Outcome (Option Packet) × Socket :=
  let (outcome, inbound) := Framing.receive socket.inbound
  (outcome, { socket with inbound })

instance : Transport Socket where
  send := accept
  receive := next
  pending socket := socket.inbound.pending
  pending_receive {s s' p} h := by
    simp only [next, Prod.mk.injEq] at h
    obtain ⟨h1, rfl⟩ := h
    exact Framing.pending_receive (Prod.ext h1 rfl)

end Socket

end LightClient
