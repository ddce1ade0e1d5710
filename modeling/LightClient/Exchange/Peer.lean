import LightClient.Exchange.Transport
/-!
# A node as a script

A `Peer` is a node of which everything is known beforehand: what it answers to each request, event by
event, and what it has already queued. It is the adversary of every statement about the client, since
its events are arbitrary: messages with any nonce, silences and failures with any error, such as a lost
connection or a header that is garbled.
-/
namespace LightClient

/-- What a receive can meet. -/
inductive Event where
  | packet (packet : Packet)
  | quiet
  | failure (error : Error)
  deriving DecidableEq

/-- What a node does when a request arrives. -/
inductive Response where
  /-- The request cannot be sent. -/
  | refuse (error : Error)
  /-- The events join the queue. -/
  | answer (events : List Event)
  deriving DecidableEq

/-- A node that follows a script. -/
structure Peer where
  /-- What the next receives will meet. -/
  queue : List Event
  /-- What the next requests will be answered with; afterwards nothing is answered. -/
  responses : List Response
  /-- The requests that arrived, in order. -/
  arrived : List Packet
  deriving DecidableEq

namespace Peer

/-- A node before its first request. -/
def ofScript (queue : List Event) (responses : List Response) : Peer := ⟨queue, responses, []⟩

/-- A request arrives. -/
def accept (request : Packet) (peer : Peer) : Outcome Unit × Peer :=
  match peer.responses with
  | [] => (.ok (), { peer with arrived := peer.arrived ++ [request] })
  | .refuse e :: later => (.error e, { peer with responses := later })
  | .answer events :: later =>
      (.ok (), ⟨peer.queue ++ events, later, peer.arrived ++ [request]⟩)

/-- The client receives the next event. -/
def next (peer : Peer) : Outcome (Option Packet) × Peer :=
  match peer.queue with
  | [] => (.ok none, peer)
  | .packet p :: later => (.ok (some p), { peer with queue := later })
  | .quiet :: later => (.ok none, { peer with queue := later })
  | .failure e :: later => (.error e, { peer with queue := later })

instance : Transport Peer where
  send := accept
  receive := next
  pending peer := peer.queue.length
  pending_receive {s s' p} h := by
    unfold next at h
    split at h <;> simp_all
    obtain ⟨-, rfl⟩ := h
    simp

end Peer

end LightClient
