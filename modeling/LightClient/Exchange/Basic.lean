import LightClient.Exchange.Transport
/-!
# Exchanges: one request and its answer

An exchange is half-duplex: one request is sent, and its answer is read to its end before the next
request is sent. The answer consists of the messages that carry the request's nonce; it ends with an
end-of-response message or when the link goes quiet. What a client makes of an answer is a state that
each message takes further (`Exchange.hear`); messages after the wanted ones are heard and dropped, so
that the link is clean afterwards. Only a hearer that says `enough` stops before the end.

A `Session` is a link with the nonces of the requests that will be sent over it.
-/
namespace LightClient

/-- Where hearing a message leads. -/
inductive Heard (β : Type) where
  /-- There may be more to hear. -/
  | more (state : β)
  /-- The rest of the answer stays unread. -/
  | enough (state : β)

/-- A request and what is made of its answer. -/
structure Exchange (β : Type) where
  request : MessageType
  payload : Bytes
  initial : β
  hear : β → Packet → Outcome (Heard β)

/-- What ties an answer to its request (`random_dejavu`); zero is left to broadcasts. -/
structure Nonce where
  val : UInt32
  ne_zero : val ≠ 0
  deriving DecidableEq

/-- A nonce for each number, the first of them 1. -/
def Nonce.ofNat (n : Nat) : Nonce where
  val := UInt32.ofNat (n % (UInt32.size - 1) + 1)
  ne_zero h := by
    have h := congrArg UInt32.toNat h
    simp only [UInt32.toNat_ofNat', UInt32.reduceToNat, UInt32.size] at h
    omega

/-- A link, and the nonces of the requests sent over it. -/
structure Session (σ : Type) where
  link : σ
  nonces : Nat → Nonce
  sent : Nat

namespace Exchange

variable {σ β : Type} [Transport σ]

/-- Hears the answer to a request until it ends. -/
def listen (e : Exchange β) (nonce : UInt32) (state : β) (s : σ) : Outcome β × σ :=
  match _h : Transport.nextAnswer nonce s with
  | (.ok (some p), s') =>
      if p.isEnd then (.ok state, s')
      else
        match e.hear state p with
        | .ok (.more state') => e.listen nonce state' s'
        | .ok (.enough state') => (.ok state', s')
        | .error err => (.error err, s')
  | (.ok none, s') => (.ok state, s')
  | (.error err, s') => (.error err, s')
termination_by Transport.pending s
decreasing_by exact Transport.pending_nextAnswer _h

/-- Nothing is made of any message. -/
def deaf : Exchange Unit := ⟨.endResponse, [], (), fun _ _ => .ok (.more ())⟩

end Exchange

namespace Session

variable {σ β : Type} [Transport σ]

/-- A session in which nothing has been sent. -/
def start (link : σ) (nonces : Nat → Nonce) : Session σ := ⟨link, nonces, 0⟩

/-- Sends a request and gives its nonce (`send_request`). -/
def request (kind : UInt8) (payload : Bytes) (s : Session σ) : Outcome Nonce × Session σ :=
  let nonce := s.nonces s.sent
  match Packet.make kind nonce.val payload with
  | .error violation => (.error (.protocolViolation violation), s)
  | .ok packet =>
      match Transport.send packet s.link with
      | (.ok (), link) => (.ok nonce, { s with link, sent := s.sent + 1 })
      | (.error e, link) => (.error e, { s with link, sent := s.sent + 1 })

/-- Reads the rest of an answer, so that the link is clean for the next request (`drain_response`). -/
def drain (nonce : UInt32) (s : Session σ) : Outcome Unit × Session σ :=
  let (outcome, link) := Exchange.deaf.listen nonce () s.link
  (outcome, { s with link })

/-- Sends the request of an exchange and hears its answer. -/
def run (e : Exchange β) (s : Session σ) : Outcome β × Session σ :=
  match s.request e.request.code e.payload with
  | (.error err, s') => (.error err, s')
  | (.ok nonce, s') =>
      let (outcome, link) := e.listen nonce.val e.initial s'.link
      (outcome, { s' with link })

end Session

end LightClient
