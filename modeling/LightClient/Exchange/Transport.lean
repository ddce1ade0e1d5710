import LightClient.Wire.Packet
/-!
# Links to a node

A `Transport` is a state in which messages can be sent and received. A link that has gone quiet gives
no message. Every message received leaves less to come (`pending_receive`), so whoever reads until a
link is quiet comes to an end.

`nextAnswer` is the next message that carries a request's nonce: messages of other exchanges, gossip
and broadcasts are passed over.
-/
namespace LightClient

/-- A link over which messages travel. -/
class Transport (σ : Type) where
  /-- Sends a message. -/
  send : Packet → σ → Outcome Unit × σ
  /-- The next message, or nothing if the link is quiet. -/
  receive : σ → Outcome (Option Packet) × σ
  /-- A bound on the messages that can still be received before the next one is sent. -/
  pending : σ → Nat
  /-- Receiving a message uses up some of the bound. -/
  pending_receive : ∀ {s s' : σ} {p : Packet}, receive s = (.ok (some p), s') → pending s' < pending s

namespace Transport

variable {σ : Type} [Transport σ]

/-- The next message that answers the request with a nonce (`next_response`). -/
def nextAnswer (nonce : UInt32) (s : σ) : Outcome (Option Packet) × σ :=
  match _h : receive s with
  | (.ok (some p), s') => if p.nonce = nonce then (.ok (some p), s') else nextAnswer nonce s'
  | (.ok none, s') => (.ok none, s')
  | (.error e, s') => (.error e, s')
termination_by pending s
decreasing_by exact pending_receive _h

theorem pending_nextAnswer {nonce : UInt32} {s s' : σ} {p : Packet}
    (h : nextAnswer nonce s = (.ok (some p), s')) : pending s' < pending s := by
  fun_induction nextAnswer nonce s with
  | case1 s p' t hr hn =>
    simp only [Prod.mk.injEq] at h
    exact h.2 ▸ pending_receive hr
  | case2 s p' t hr hn ih => exact Nat.lt_trans (ih h) (pending_receive hr)
  | case3 s t hr => simp at h
  | case4 s e t hr => simp at h

end Transport

end LightClient
