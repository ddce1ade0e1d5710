import LightClient.Proofs.Locate.Node
import LightClient.Proofs.Vote.Answer
/-!
# Where an exchange leaves the link

A link is clean for the next request when the answer to the last one has been read to its end, and no further.
An exchange that ends well has read up to the first event at which it stops: a silence, the end of the answer
or, if the exchange may hear enough of it before, a message of the answer (`Exchange.EnoughAt.readTo`, by
induction on the events). All exchanges but the one for the current tick are patient and stop at the first two
only, whatever else they heard.
-/
namespace LightClient

variable {α β : Type}

/-! ## Reading up to an event -/

namespace Event

/-- Whether a client that waits for the answer with a nonce stops at an event: when the link is quiet, at the
end of the answer, and at a message of it with which it has heard enough. -/
def stops (nonce : UInt32) (enough : Packet → Bool) : Event → Bool
  | .packet p => p.nonce == nonce && (p.isEnd || enough p)
  | .quiet => true
  | .failure _ => false

/-- Events are read up to and with the first one that stops the reader, or all of them if none does; the
second list is what is left. -/
inductive ReadTo (stop : Event → Bool) : List Event → List Event → Prop where
  | exhausted {es : List Event} (h : ∀ event ∈ es, stop event = false) : ReadTo stop es []
  | stopped {before : List Event} {last : Event} (rest : List Event)
      (earlier : ∀ event ∈ before, stop event = false) (hlast : stop last = true) :
      ReadTo stop (before ++ last :: rest) rest

variable {stop : Event → Bool} {event : Event} {es rest : List Event}

theorem ReadTo.pass (h : ReadTo stop es rest) (hevent : stop event = false) : ReadTo stop (event :: es) rest := by
  cases h with
  | exhausted h => exact .exhausted (List.forall_mem_cons.mpr ⟨hevent, h⟩)
  | stopped rest earlier hlast =>
    exact .stopped rest (List.forall_mem_cons.mpr ⟨hevent, earlier⟩) hlast

theorem ReadTo.here (hevent : stop event = true) : ReadTo stop (event :: es) es :=
  .stopped es (fun _ h => absurd h List.not_mem_nil) hevent

end Event

/-! ## Hearing enough -/

namespace Exchange

/-- An exchange that has heard enough with certain messages, and with no other, whatever it heard before. -/
structure EnoughAt (e : Exchange β) (enough : Packet → Bool) : Prop where
  of_more {state : β} {p : Packet} {b : β} : e.hear state p = .ok (.more b) → enough p = false
  of_enough {state : β} {p : Packet} {b : β} : e.hear state p = .ok (.enough b) → enough p = true

theorem Patient.enoughAt {e : Exchange β} (he : e.Patient) : e.EnoughAt fun _ => false where
  of_more _ := rfl
  of_enough hear := absurd hear (he _ _ _)

theorem EnoughAt.readTo {e : Exchange β} {enough : Packet → Bool} (he : e.EnoughAt enough) {nonce : UInt32}
    {state b : β} {es rest : List Event} (h : e.follow nonce state es = (.ok b, rest)) :
    Event.ReadTo (Event.stops nonce enough) es rest := by
  induction es generalizing state with
  | nil =>
    cases h
    exact .exhausted fun _ h => absurd h List.not_mem_nil
  | cons event es ih =>
    cases event with
    | quiet =>
      cases h
      exact .here rfl
    | failure err => simp [follow] at h
    | packet p =>
      rw [follow] at h
      by_cases hn : p.nonce = nonce
      · rw [if_neg (not_not_intro hn)] at h
        by_cases hend : p.isEnd = true
        · rw [if_pos hend] at h
          cases h
          exact .here (by simp [Event.stops, hn, hend])
        · rw [if_neg hend] at h
          rcases hear : e.hear state p with err | state' | state' <;> simp only [hear] at h
          · cases h
          · refine (ih h).pass ?_
            simp [Event.stops, hend, he.of_more hear]
          · cases h
            exact .here (by simp [Event.stops, hn, he.of_enough hear])
      · rw [if_pos hn] at h
        refine (ih h).pass ?_
        simp [Event.stops, hn]

end Exchange

theorem TickInfo.enoughAt_exchange : exchange.EnoughAt (·.is .tickInfo) where
  of_more {state p b} hear := by
    cases hp : p.is .tickInfo with
    | false => rfl
    | true =>
      rw [hear_of_is hp] at hear
      cases hinfo : ofBytes p.payload <;> rw [hinfo] at hear <;> cases hear
  of_enough {state p b} hear := by
    cases hp : p.is .tickInfo with
    | true => rfl
    | false =>
      rw [hear_of_not_is hp] at hear
      cases hear

/-! ## Whole requests -/

/-- What a request and its answer do to a session: one request is sent, and of the events that are queued then
the client receives those up to the first at which it stops. -/
structure Session.Exchanged (enough : Packet → Bool) (s s' : Session Peer) : Prop where
  sent : s'.sent = s.sent + 1
  responses : s'.link.responses = s.link.responses.tail
  read : Event.ReadTo (Event.stops s.nextNonce enough) s.link.heard s'.link.queue

theorem Exchange.EnoughAt.exchanged {e : Exchange β} {enough : Packet → Bool} (he : e.EnoughAt enough)
    {s s' : Session Peer} {b : β} (h : s.run e = (.ok b, s')) : s.Exchanged enough s' := by
  obtain ⟨request, rest, hfollow, rfl⟩ := Session.eq_of_run h
  exact ⟨rfl, rfl, he.readTo hfollow⟩

namespace Dialogue

/-- A dialogue that, whenever it succeeds, has made one exchange and stopped at the first event at which
it may. -/
def HalfDuplex (d : Dialogue α) (enough : Packet → Bool) : Prop :=
  ∀ (s s' : Session Peer) (a : α), d.run s = (.ok a, s') → s.Exchanged enough s'

theorem halfDuplex_once {e : Exchange α} {enough : Packet → Bool} (he : e.EnoughAt enough) :
    (once e).HalfDuplex enough := by
  intro s s' a h
  rw [run_once] at h
  exact he.exchanged h

/-- What is made of the result changes nothing on the link. -/
theorem HalfDuplex.map {d : Dialogue β} {enough : Packet → Bool} (hd : d.HalfDuplex enough) (g : β → α) :
    (d.bind fun b => done (.ok (g b))).HalfDuplex enough := by
  intro s s' a h
  rw [run_bind] at h
  rcases hrun : d.run s with ⟨err | b, t⟩ <;> rw [hrun] at h <;> cases h
  exact hd s _ b hrun

/-- **Half-duplex discipline.** When asking for votes, a header, a report, the computor list or some
transactions ends well, one request was sent, and of what was queued then everything up to the end of its answer
or the first silence was received, and nothing after that. Where no transaction is expected nothing is sent or
received. Asking for the current tick alone stops at the first account of it, too. -/
theorem half_duplex :
    (∀ tick, (once (Vote.exchange tick)).HalfDuplex fun _ => false) ∧
    (∀ tick, (TickHeader.fetch tick).HalfDuplex fun _ => false) ∧
    (∀ tick, (once (TxStatus.exchange tick)).HalfDuplex fun _ => false) ∧
    (∀ anchor, (once (ComputorSet.exchange anchor)).HalfDuplex fun _ => false) ∧
    (∀ tick expected, 0 < expected → (Transaction.fetch tick expected).HalfDuplex fun _ => false) ∧
    (∀ tick (s : Session Peer), (Transaction.fetch tick 0).run s = (.ok [], s)) ∧
    (once TickInfo.exchange).HalfDuplex (·.is .tickInfo) := by
  refine ⟨fun tick => ?_, fun tick => ?_, fun tick => ?_, fun anchor => ?_, fun tick expected hpos => ?_,
    fun tick s => rfl, halfDuplex_once TickInfo.enoughAt_exchange⟩
  · exact halfDuplex_once (Vote.patient_exchange tick).enoughAt
  · exact (halfDuplex_once (TickHeader.takesFirst_exchange tick).patient.enoughAt).map _
  · exact halfDuplex_once (TxStatus.takesFirst_exchange tick).patient.enoughAt
  · exact halfDuplex_once (ComputorSet.takesFirst_exchange anchor).patient.enoughAt
  · rw [Transaction.fetch, if_neg (Nat.pos_iff_ne_zero.mp hpos)]
    exact (halfDuplex_once (Transaction.patient_exchange tick expected).enoughAt).map _

end Dialogue

/-! ## A node that strays -/

namespace Transaction

/-- A node that answers with a message of another type, a malformed transaction and the end of the answer, and
then is quiet. -/
def strayingNode : Peer :=
  .ofScript [] [.answer [.packet (.holding .tickInfo 1 []), .packet (.holding .broadcastTransaction 1 []),
    Location.ending 1, .quiet]]

theorem run_fetch_strayingNode :
    ∃ arrived, (fetch 5 1).run (Session.start strayingNode Nonce.ofNat) =
      (.ok [], ⟨⟨[.quiet], [], arrived⟩, Nonce.ofNat, 1⟩) := by
  have hfollow : (exchange 5 1).follow (Nonce.ofNat 0).val ⟨[], true⟩ [.packet (.holding .tickInfo 1 []),
      .packet (.holding .broadcastTransaction 1 []), Location.ending 1, .quiet] =
        (.ok ⟨[], false⟩, [.quiet]) := rfl
  obtain ⟨arrived, hrun⟩ :=
    Session.run_of_answer (Location.fits_request_transactions 5 1) hfollow [] []
  exact ⟨arrived, run_fetch_of_run (by decide) hrun⟩

end Transaction

/-- The client stops for good at the message of another type, and yet reads to the end of the answer; and it
stops at the current tick before the end of that answer. -/
theorem Dialogue.half_duplex_straying :
    (∃ s', (Transaction.fetch 5 1).run (Session.start Transaction.strayingNode Nonce.ofNat) = (.ok [], s') ∧
      s'.link.queue = [.quiet] ∧
      (Session.start Transaction.strayingNode Nonce.ofNat).Exchanged (fun _ => false) s') ∧
    ∃ s', (once TickInfo.exchange).run (Session.start Location.emptyNode Nonce.ofNat) =
        (.ok (some Location.someInfo), s') ∧
      s'.link.queue = [Location.ending 1] ∧
      (Session.start Location.emptyNode Nonce.ofNat).Exchanged (·.is .tickInfo) s' := by
  obtain ⟨-, -, -, -, htransactions, -, hinfo⟩ := half_duplex
  obtain ⟨arrived, hfetch⟩ := Transaction.run_fetch_strayingNode
  obtain ⟨arrived', hrun⟩ := Location.run_info_emptyNode
  rw [← run_once] at hrun
  exact ⟨⟨_, hfetch, rfl, htransactions 5 1 (by decide) _ _ _ hfetch⟩, _, hrun, rfl, hinfo _ _ _ hrun⟩

end LightClient
