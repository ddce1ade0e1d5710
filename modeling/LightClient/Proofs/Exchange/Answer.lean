import LightClient.Exchange.Dialogue
import LightClient.Exchange.Peer
/-!
# Exchanges with a scripted node

A `Peer` keeps its events in a queue, and a request puts its answer behind what is queued already.
`Exchange.follow` hears such a queue event by event; `listen_peer` says that this is what listening
does, and `run_peer` what a whole exchange does. So a statement about an exchange with an arbitrary
node is one about `follow` on an arbitrary list of events, by induction on the list.

`Event.answer` is the answer as it stands in a queue: the messages that carry the nonce, up to the end
of the response, a silence or a failure. `Event.afterAnswer` is what is left behind it.
-/
namespace LightClient

/-! ## Listening, one step -/

namespace Transport

variable {σ : Type} [Transport σ]

theorem nextAnswer_eq (nonce : UInt32) (s : σ) :
    nextAnswer nonce s =
      match receive s with
      | (.ok (some p), s') => if p.nonce = nonce then (.ok (some p), s') else nextAnswer nonce s'
      | (.ok none, s') => (.ok none, s')
      | (.error e, s') => (.error e, s') := by
  rw [nextAnswer]
  split <;> rename_i h <;> simp only [h]

end Transport

namespace Exchange

variable {β σ : Type}

theorem listen_eq [Transport σ] (e : Exchange β) (nonce : UInt32) (state : β) (s : σ) :
    e.listen nonce state s =
      match Transport.nextAnswer nonce s with
      | (.ok (some p), s') =>
          if p.isEnd then (.ok state, s')
          else
            match e.hear state p with
            | .ok (.more state') => e.listen nonce state' s'
            | .ok (.enough state') => (.ok state', s')
            | .error err => (.error err, s')
      | (.ok none, s') => (.ok state, s')
      | (.error err, s') => (.error err, s') := by
  rw [listen]
  split <;> rename_i h <;> exact h ▸ rfl

/-! ## Listening to a queue -/

/-- What comes of hearing a queue of events, and the events that stay in it. -/
def follow (e : Exchange β) (nonce : UInt32) : β → List Event → Outcome β × List Event
  | state, [] => (.ok state, [])
  | state, .quiet :: es => (.ok state, es)
  | _, .failure err :: es => (.error err, es)
  | state, .packet p :: es =>
      if p.nonce ≠ nonce then e.follow nonce state es
      else if p.isEnd then (.ok state, es)
      else
        match e.hear state p with
        | .ok (.more state') => e.follow nonce state' es
        | .ok (.enough state') => (.ok state', es)
        | .error err => (.error err, es)

theorem listen_peer (e : Exchange β) (nonce : UInt32) (state : β) (peer : Peer) :
    e.listen nonce state peer =
      ((e.follow nonce state peer.queue).1,
        { peer with queue := (e.follow nonce state peer.queue).2 }) := by
  obtain ⟨queue, responses, arrived⟩ := peer
  induction queue generalizing state with
  | nil => rw [listen_eq, Transport.nextAnswer_eq]; rfl
  | cons event es ih =>
    cases event with
    | quiet => rw [listen_eq, Transport.nextAnswer_eq]; rfl
    | failure err => rw [listen_eq, Transport.nextAnswer_eq]; rfl
    | packet p =>
      have hr : Transport.receive (⟨.packet p :: es, responses, arrived⟩ : Peer) =
          (.ok (some p), ⟨es, responses, arrived⟩) := rfl
      by_cases hn : p.nonce = nonce
      · rw [listen_eq, Transport.nextAnswer_eq, hr]
        simp only [hn, if_true, follow, ne_eq, not_true_eq_false, if_false]
        split
        · rfl
        · split <;> simp [*]
      · have hskip : Transport.nextAnswer nonce (⟨.packet p :: es, responses, arrived⟩ : Peer) =
            Transport.nextAnswer nonce (⟨es, responses, arrived⟩ : Peer) := by
          rw [Transport.nextAnswer_eq, hr]
          simp only [hn, if_false]
        rw [listen_eq, hskip, ← listen_eq, ih]
        simp only [follow, ne_eq, hn, not_false_eq_true, if_true]

end Exchange

/-! ## Answers -/

namespace Event

/-- The messages of the answer to the request with a nonce. -/
def answer (nonce : UInt32) : List Event → List Packet
  | .packet p :: es =>
      if p.nonce ≠ nonce then answer nonce es else if p.isEnd then [] else p :: answer nonce es
  | _ => []

/-- The events behind the answer to the request with a nonce. -/
def afterAnswer (nonce : UInt32) : List Event → List Event
  | .packet p :: es => if p.nonce = nonce ∧ p.isEnd then es else afterAnswer nonce es
  | _ :: es => es
  | [] => []

/-- Events in which the answer to the request with a nonce has not ended. -/
def Unended (nonce : UInt32) (es : List Event) : Prop :=
  ∀ event ∈ es, ∃ p, event = .packet p ∧ (p.nonce = nonce → p.isEnd = false)

end Event

/-- The error with which a request is refused, if it is. -/
def Response.refusal? : Response → Option Error
  | .refuse err => some err
  | .answer _ => none

/-- The events with which a request is answered. -/
def Response.events : Response → List Event
  | .refuse _ => []
  | .answer events => events

namespace Peer

/-- What a node does with a request that has `i` requests before it. -/
def response (peer : Peer) (i : Nat) : Response := peer.responses.getD i (.answer [])

/-- The error with which the next request is refused, if it is. -/
def refusal? (peer : Peer) : Option Error :=
  match peer.responses with
  | .refuse err :: _ => some err
  | _ => none

/-- What the next receives meet once the next request has arrived. -/
def heard (peer : Peer) : List Event :=
  match peer.responses with
  | .answer events :: _ => peer.queue ++ events
  | _ => peer.queue

theorem refusal?_eq (peer : Peer) : peer.refusal? = (peer.response 0).refusal? := by
  rcases peer with ⟨queue, _ | ⟨err | events, later⟩, arrived⟩ <;> rfl

theorem heard_eq (peer : Peer) : peer.heard = peer.queue ++ (peer.response 0).events := by
  rcases peer with ⟨queue, _ | ⟨err | events, later⟩, arrived⟩ <;> simp [heard, response, Response.events]

end Peer

namespace Session

variable {β : Type}

/-- The nonce of the next request. -/
def nextNonce (s : Session Peer) : UInt32 := (s.nonces s.sent).val

/-- The messages of the answer to the next request. -/
def answer (s : Session Peer) : List Packet := Event.answer s.nextNonce s.link.heard

/-- An exchange whose request fits into a message: the node refuses it, or the client hears what is
queued then. -/
theorem run_peer {e : Exchange β} {s : Session Peer} {request : Packet}
    (hfits : Packet.make e.request.code s.nextNonce e.payload = .ok request) :
    s.run e =
      match s.link.responses with
      | .refuse err :: later =>
          (.error err,
            { s with link := { s.link with responses := later }, sent := s.sent + 1 })
      | _ =>
          let (outcome, rest) := e.follow s.nextNonce e.initial s.link.heard
          (outcome,
            { s with
              link := ⟨rest, s.link.responses.tail, s.link.arrived ++ [request]⟩
              sent := s.sent + 1 }) := by
  obtain ⟨⟨queue, responses, arrived⟩, nonces, sent⟩ := s
  simp only [nextNonce] at hfits
  unfold run Session.request
  simp only [hfits]
  match responses with
  | [] => simp [Transport.send, Peer.accept, Exchange.listen_peer, nextNonce, Peer.heard]
  | .refuse err :: later => rfl
  | .answer events :: later =>
    simp [Transport.send, Peer.accept, Exchange.listen_peer, nextNonce, Peer.heard]

/-- An exchange whose request fits into a message, by what the node does with the request. -/
theorem run_response {e : Exchange β} {s : Session Peer} {request : Packet}
    (hfits : Packet.make e.request.code s.nextNonce e.payload = .ok request) :
    s.run e =
      match s.link.response 0 with
      | .refuse err =>
          (.error err,
            { s with link := ⟨s.link.queue, s.link.responses.tail, s.link.arrived⟩, sent := s.sent + 1 })
      | .answer events =>
          let (outcome, rest) := e.follow s.nextNonce e.initial (s.link.queue ++ events)
          (outcome,
            { s with
              link := ⟨rest, s.link.responses.tail, s.link.arrived ++ [request]⟩
              sent := s.sent + 1 }) := by
  rw [run_peer hfits]
  obtain ⟨⟨queue, responses, arrived⟩, nonces, sent⟩ := s
  match responses with
  | [] => simp [Peer.heard, Peer.response]
  | .refuse err :: later => rfl
  | .answer events :: later => rfl

/-- A successful exchange sent one request and made its result of the events that this brought about. -/
theorem eq_of_run {e : Exchange β} {s s' : Session Peer} {b : β} (h : s.run e = (.ok b, s')) :
    ∃ request rest, e.follow s.nextNonce e.initial s.link.heard = (.ok b, rest) ∧
      s' = { s with
        link := ⟨rest, s.link.responses.tail, s.link.arrived ++ [request]⟩
        sent := s.sent + 1 } := by
  cases hfits : Packet.make e.request.code s.nextNonce e.payload with
  | error violation =>
    rw [nextNonce] at hfits
    simp [run, Session.request, hfits] at h
  | ok request =>
    rw [run_peer hfits] at h
    split at h
    · simp at h
    · simp only [Prod.mk.injEq] at h
      obtain ⟨h1, rfl⟩ := h
      exact ⟨request, _, Prod.ext h1 rfl, rfl⟩

theorem follow_of_run {e : Exchange β} {s s' : Session Peer} {b : β} (h : s.run e = (.ok b, s')) :
    e.follow s.nextNonce e.initial s.link.heard = (.ok b, s'.link.queue) := by
  obtain ⟨request, rest, hfollow, rfl⟩ := eq_of_run h
  exact hfollow

/-- A node gives its next answer, and what the client hears then, what was queued before included, does not make it
fail. -/
theorem run_of_heard {e : Exchange β} {nonces : Nat → Nonce} {n : Nat} {queue events rest : List Event} {b : β}
    (hfits : e.payload.length + Header.size < Header.maxTotal)
    (h : e.follow (nonces n).val e.initial (queue ++ events) = (.ok b, rest)) (later : List Response)
    (arrived : List Packet) :
    ∃ arrived', Session.run e (⟨⟨queue, .answer events :: later, arrived⟩, nonces, n⟩ : Session Peer) =
      (.ok b, ⟨⟨rest, later, arrived'⟩, nonces, n + 1⟩) := by
  have hrequest : Packet.make e.request.code (nonces n).val e.payload =
      .ok ⟨e.request.code, (nonces n).val, e.payload, hfits⟩ := dif_pos hfits
  refine ⟨arrived ++ [⟨e.request.code, (nonces n).val, e.payload, hfits⟩], ?_⟩
  rw [run_peer hrequest]
  simp only [Peer.heard, nextNonce, h, List.tail_cons]

/-- A node with an empty queue gives one answer, which the client hears without failing. -/
theorem run_of_answer {e : Exchange β} {nonces : Nat → Nonce} {n : Nat} {events rest : List Event} {b : β}
    (hfits : e.payload.length + Header.size < Header.maxTotal)
    (h : e.follow (nonces n).val e.initial events = (.ok b, rest)) (later : List Response)
    (arrived : List Packet) :
    ∃ arrived', Session.run e (⟨⟨[], .answer events :: later, arrived⟩, nonces, n⟩ : Session Peer) =
      (.ok b, ⟨⟨rest, later, arrived'⟩, nonces, n + 1⟩) :=
  run_of_heard hfits (show e.follow (nonces n).val e.initial ([] ++ events) = (.ok b, rest) from h) later arrived

end Session

end LightClient
