import LightClient.Proofs.Locate.Node
/-!
# Messages of other exchanges

Gossip, broadcasts and what an earlier answer left unread all carry a nonce that no current request has.
Two nodes agree on some nonces if they differ in such messages only, wherever these stand and whatever they
hold (`Peer.AgreeOn`). One exchange cannot tell two such nodes apart if its nonce is among those, and leaves
behind two nodes that agree again (`Session.AgreeOn.run`); so no dialogue can tell them apart if the nonces of
all its requests are (`Session.AgreeOn.hold`). Every request for votes, a header, transactions, a report, the
current tick or the computor list is a dialogue, and so is what is made of several of them.
-/
namespace LightClient

variable {α β σ : Type}

/-! ## Events without foreign messages -/

namespace Event

/-- Whether an event matters to the requests with some nonces: a message with another nonce is foreign. -/
def concerns (nonces : List UInt32) : Event → Bool
  | .packet p => nonces.contains p.nonce
  | _ => true

/-- Events without the foreign messages. -/
def own (nonces : List UInt32) (es : List Event) : List Event := es.filter (concerns nonces)

variable {nonces : List UInt32}

theorem own_append (es es' : List Event) : own nonces (es ++ es') = own nonces es ++ own nonces es' :=
  List.filter_append ..

theorem own_cons_foreign {p : Packet} (hp : p.nonce ∉ nonces) (es : List Event) :
    own nonces (.packet p :: es) = own nonces es :=
  List.filter_cons_of_neg (by simpa [concerns] using hp)

theorem own_cons_of_mem {p : Packet} (hp : p.nonce ∈ nonces) (es : List Event) :
    own nonces (.packet p :: es) = .packet p :: own nonces es :=
  List.filter_cons_of_pos (by simpa [concerns] using hp)

end Event

/-- Without the foreign messages of a queue an exchange hears the same and leaves the same behind, but for
foreign messages. -/
theorem Exchange.follow_own {nonces : List UInt32} {nonce : UInt32} (e : Exchange β) (hnonce : nonce ∈ nonces)
    (state : β) (es : List Event) :
    e.follow nonce state (Event.own nonces es) =
      ((e.follow nonce state es).1, Event.own nonces (e.follow nonce state es).2) := by
  induction es generalizing state with
  | nil => rfl
  | cons event es ih =>
    cases event with
    | quiet => rfl
    | failure err => rfl
    | packet p =>
      by_cases hp : p.nonce ∈ nonces
      · rw [Event.own_cons_of_mem hp, follow, follow]
        by_cases hn : p.nonce = nonce
        · simp only [hn, ne_eq, not_true_eq_false, if_false]
          by_cases hend : p.isEnd = true
          · simp only [hend, if_true]
          · simp only [hend, Bool.false_eq_true, if_false]
            rcases e.hear state p with err | state' | state'
            · rfl
            · exact ih state'
            · rfl
        · simp only [hn, ne_eq, not_false_eq_true, if_true]
          exact ih state
      · have hn : p.nonce ≠ nonce := fun h => hp (h ▸ hnonce)
        rw [Event.own_cons_foreign hp, follow, if_pos hn]
        exact ih state

/-! ## Nodes that agree -/

namespace Response

/-- A response without the foreign messages. -/
def own (nonces : List UInt32) : Response → Response
  | .refuse err => .refuse err
  | .answer events => .answer (Event.own nonces events)

theorem own_eq_cases {nonces : List UInt32} {r r' : Response} (h : r'.own nonces = r.own nonces) :
    (∃ err, r = .refuse err ∧ r' = .refuse err) ∨
      ∃ events events', r = .answer events ∧ r' = .answer events' ∧
        Event.own nonces events' = Event.own nonces events := by
  cases r with
  | refuse err =>
    cases r' with
    | refuse err' =>
      obtain rfl : err' = err := by simpa only [own, refuse.injEq] using h
      exact .inl ⟨err', rfl, rfl⟩
    | answer events' => simp [own] at h
  | answer events =>
    cases r' with
    | refuse err' => simp [own] at h
    | answer events' => exact .inr ⟨events, events', rfl, rfl, by simpa only [own, answer.injEq] using h⟩

end Response

namespace Peer

/-- Two nodes at which the same requests arrived and which, but for foreign messages, have the same events
queued and will do the same with every request. -/
structure AgreeOn (nonces : List UInt32) (peer peer' : Peer) : Prop where
  queue : Event.own nonces peer'.queue = Event.own nonces peer.queue
  response (i : Nat) : (peer'.response i).own nonces = (peer.response i).own nonces
  arrived : peer'.arrived = peer.arrived

/-- Nodes that agreed still agree when each has done what it does with one more request, if their queues do. -/
theorem AgreeOn.later {nonces : List UInt32} {peer peer' : Peer} {queue queue' : List Event}
    (h : peer.AgreeOn nonces peer') (hqueue : Event.own nonces queue' = Event.own nonces queue)
    (arrived : List Packet) :
    AgreeOn nonces ⟨queue, peer.responses.tail, arrived⟩ ⟨queue', peer'.responses.tail, arrived⟩ where
  queue := hqueue
  arrived := rfl
  response i := by
    have hnext := h.response (i + 1)
    simpa only [Peer.response, List.getD_eq_getElem?_getD, List.getElem?_tail] using hnext

end Peer

/-! ## Requests and their nonces -/

/-- An exchange sends one request or, if that does not fit into a message, none. -/
theorem Session.sent_run [Transport σ] (e : Exchange β) (s : Session σ) :
    (s.run e).2.nonces = s.nonces ∧ s.sent ≤ (s.run e).2.sent ∧ (s.run e).2.sent ≤ s.sent + 1 := by
  cases hfits : Packet.make e.request.code (s.nonces s.sent).val e.payload with
  | error violation =>
    simp [run, request, hfits]
  | ok packet =>
    rcases hsend : Transport.send packet s.link with ⟨err | _, link⟩ <;>
      simp [run, request, hfits, hsend]

namespace Dialogue

theorem sent_run [Transport σ] (d : Dialogue α) (s : Session σ) :
    (d.run s).2.nonces = s.nonces ∧ s.sent ≤ (d.run s).2.sent := by
  induction d generalizing s with
  | done outcome => exact ⟨rfl, Nat.le_refl _⟩
  | pause ms next ih => exact ih s
  | ask exchange next ih =>
    obtain ⟨hnonces, hsent, -⟩ := s.sent_run exchange
    rw [run]
    rcases hrun : s.run exchange with ⟨err | b, t⟩ <;> rw [hrun] at hnonces hsent
    · exact ⟨hnonces, hsent⟩
    · obtain ⟨hnonces', hsent'⟩ := ih b t
      exact ⟨hnonces'.trans hnonces, Nat.le_trans hsent hsent'⟩

/-- The nonces of the requests that a dialogue sends. -/
def nonces [Transport σ] (d : Dialogue α) (s : Session σ) : List UInt32 :=
  (List.range' s.sent ((d.run s).2.sent - s.sent)).map fun i => (s.nonces i).val

theorem mem_nonces [Transport σ] {d : Dialogue α} {s : Session σ} {i : Nat} (hi : s.sent ≤ i)
    (hsent : i < (d.run s).2.sent) : (s.nonces i).val ∈ d.nonces s :=
  List.mem_map_of_mem (List.mem_range'_1.mpr ⟨hi, by omega⟩)

/-- No request has the nonce of broadcasts. -/
theorem zero_not_mem_nonces [Transport σ] (d : Dialogue α) (s : Session σ) : 0 ∉ d.nonces s := by
  intro h
  obtain ⟨i, -, hi⟩ := List.mem_map.mp h
  exact (s.nonces i).ne_zero hi

theorem eq_of_mem_nonces_once {e : Exchange α} {s : Session Peer} {nonce : UInt32}
    (h : nonce ∈ (once e).nonces s) : nonce = s.nextNonce := by
  have hlast : ((once e).run s).2.sent ≤ s.sent + 1 := by
    rw [run_once]
    exact (s.sent_run e).2.2
  obtain ⟨i, hi, rfl⟩ := List.mem_map.mp h
  rw [List.mem_range'_1] at hi
  obtain rfl : i = s.sent := by omega
  rfl

end Dialogue

/-! ## Runs at nodes that agree -/

namespace Session

/-- Two sessions that differ in the foreign messages only that their nodes send. -/
structure AgreeOn (nonces : List UInt32) (s s' : Session Peer) : Prop where
  link : s.link.AgreeOn nonces s'.link
  nonces_eq : s'.nonces = s.nonces
  sent_eq : s'.sent = s.sent

variable {nonces : List UInt32} {s s' : Session Peer}

/-- One exchange: the nonce of its request, if it is sent, must be among those agreed on. -/
theorem AgreeOn.run (h : s.AgreeOn nonces s') (e : Exchange β)
    (hnonce : s.sent < (s.run e).2.sent → s.nextNonce ∈ nonces) :
    (s'.run e).1 = (s.run e).1 ∧ (s.run e).2.AgreeOn nonces (s'.run e).2 := by
  have hnext : s'.nextNonce = s.nextNonce := by rw [nextNonce, nextNonce, h.nonces_eq, h.sent_eq]
  cases hfits : Packet.make e.request.code s.nextNonce e.payload with
  | error violation =>
    have hfits' := hnext ▸ hfits
    rw [nextNonce] at hfits hfits'
    simp only [Session.run, Session.request, hfits, hfits']
    exact ⟨trivial, h⟩
  | ok request =>
    have hfits' : Packet.make e.request.code s'.nextNonce e.payload = .ok request := hnext ▸ hfits
    have hrun := run_response hfits
    have hrun' := run_response hfits'
    have hmem : s.nextNonce ∈ nonces := by
      refine hnonce ?_
      rw [hrun]
      split <;> exact Nat.lt_succ_self _
    rcases Response.own_eq_cases (h.link.response 0) with
      ⟨err, hr, hr'⟩ | ⟨events, events', hr, hr', hanswer⟩
    · rw [hrun, hrun', hr, hr', h.nonces_eq, h.sent_eq, h.link.arrived]
      exact ⟨rfl, h.link.later h.link.queue _, rfl, rfl⟩
    · have hheard : Event.own nonces (s'.link.queue ++ events') = Event.own nonces (s.link.queue ++ events) := by
        rw [Event.own_append, Event.own_append, h.link.queue, hanswer]
      -- Both exchanges do with what they hear what they would do without the foreign messages.
      have hfollow := e.follow_own hmem e.initial (s.link.queue ++ events)
      rw [← hheard, e.follow_own hmem, Prod.mk.injEq] at hfollow
      rw [hrun, hrun', hr, hr', hnext, h.nonces_eq, h.sent_eq, h.link.arrived]
      exact ⟨hfollow.1, h.link.later hfollow.2 _, rfl, rfl⟩

/-- A whole dialogue: the nonces of all its requests must be among those agreed on. -/
theorem AgreeOn.hold (h : s.AgreeOn nonces s') (d : Dialogue α)
    (hnonces : ∀ i, s.sent ≤ i → i < (d.run s).2.sent → (s.nonces i).val ∈ nonces) :
    (d.run s').1 = (d.run s).1 ∧ (d.run s).2.AgreeOn nonces (d.run s').2 := by
  induction d generalizing s s' with
  | done outcome => exact ⟨rfl, h⟩
  | pause ms next ih => exact ih h hnonces
  | ask exchange next ih =>
    obtain ⟨hkept, hle, -⟩ := s.sent_run exchange
    simp only [Dialogue.run] at hnonces ⊢
    rcases hrun : s.run exchange with ⟨o, t⟩
    rcases hrun' : s'.run exchange with ⟨o', t'⟩
    have hstep := h.run exchange
    rw [hrun] at hkept hle hnonces
    rw [hrun, hrun'] at hstep
    cases o with
    | error err =>
      obtain ⟨rfl, hagree⟩ := hstep fun hlt => hnonces _ (Nat.le_refl _) hlt
      exact ⟨rfl, hagree⟩
    | ok b =>
      have hlater := ((next b).sent_run t).2
      obtain ⟨rfl, hagree⟩ := hstep fun hlt => hnonces _ (Nat.le_refl _) (Nat.lt_of_lt_of_le hlt hlater)
      refine ih b hagree fun i hi hlt => ?_
      have hi' := hnonces i (Nat.le_trans hle hi) hlt
      exact hkept ▸ hi'

end Session

namespace Dialogue

/-- What a run shows: its outcome, the requests that arrived at the node, and how many were sent in all. -/
def observed (d : Dialogue α) (s : Session Peer) : Outcome α × List Packet × Nat :=
  ((d.run s).1, (d.run s).2.link.arrived, (d.run s).2.sent)

theorem observed_of_agreeOn {d : Dialogue α} {s s' : Session Peer} (h : s.AgreeOn (d.nonces s) s') :
    d.observed s' = d.observed s := by
  obtain ⟨houtcome, hend⟩ := h.hold d fun i hi hlt => mem_nonces hi hlt
  rw [observed, observed, houtcome, hend.link.arrived, hend.sent_eq]

/-- **Foreign messages have no effect.** A node that sends, besides what another one sends, messages with none
of the nonces of the requests of a run, or leaves such messages out, anywhere and whatever they hold, brings
about the same outcome and the same requests, whether the run is a single request, `Location.locate`,
`TickInfo.waitFor` or `QuorumReport.collect`. In particular a message that one part of a run left unread makes
no difference for the part that follows, if none of that part's requests has its nonce. -/
theorem foreign_unheard (d : Dialogue α) (s : Session Peer) :
    (∀ peer, s.link.AgreeOn (d.nonces s) peer → d.observed { s with link := peer } = d.observed s) ∧
    ∀ {β : Type} (f : α → Dialogue β) (a : α) (t : Session Peer) (before after : List Event) (p : Packet),
      d.run s = (.ok a, t) → t.link.queue = before ++ .packet p :: after → p.nonce ∉ (f a).nonces t →
      (f a).observed { t with link := { t.link with queue := before ++ after } } = (d.bind f).observed s := by
  refine ⟨fun peer hpeer => observed_of_agreeOn ⟨hpeer, rfl, rfl⟩, ?_⟩
  intro β f a t before after p hrun hqueue hp
  have hcleared : Event.own ((f a).nonces t) (before ++ after) = Event.own ((f a).nonces t) t.link.queue := by
    rw [hqueue, Event.own_append, Event.own_append, Event.own_cons_foreign hp]
  have hbind : (d.bind f).observed s = (f a).observed t := by
    rw [observed, observed, run_bind, hrun]
  rw [hbind]
  exact observed_of_agreeOn ⟨⟨hcleared, fun _ => rfl, rfl⟩, rfl, rfl⟩

end Dialogue

/-! ## A node with broadcasts -/

namespace Location

/-- The node without headers, which broadcasts ends of answers and malformed records besides. -/
def broadcastingNode : Peer :=
  .ofScript [ending 0]
    [.answer [.packet (.holding .tickInfo 0 []), ending 0,
        .packet (.holding .tickInfo 1 someInfo.toBytes), ending 1],
      .answer [.packet (.holding .broadcastTickHeader 0 []), ending 2]]

theorem agreeOn_broadcastingNode {nonces : List UInt32} (h : 0 ∉ nonces) :
    emptyNode.AgreeOn nonces broadcastingNode := by
  have hforeign (kind : MessageType) (es : List Event) :
      Event.own nonces (.packet (.holding kind 0 []) :: es) = Event.own nonces es :=
    Event.own_cons_foreign (by rwa [Packet.nonce_holding]) es
  refine ⟨hforeign _ _, fun i => ?_, rfl⟩
  match i with
  | 0 => exact congrArg Response.answer ((hforeign .tickInfo _).trans (hforeign .endResponse _))
  | 1 => exact congrArg Response.answer (hforeign _ _)
  | _ + 2 => rfl

/-- The node with broadcasts is heard as the one without, and the end of the first answer, which stays unread,
might as well be missing when the header is asked for. -/
theorem foreign_unheard_broadcast :
    (locate none "" 5).observed (Session.start broadcastingNode Nonce.ofNat) =
      (locate none "" 5).observed (Session.start emptyNode Nonce.ofNat) ∧
    ∃ t, (Dialogue.once TickInfo.exchange).run (Session.start emptyNode Nonce.ofNat) = (.ok (some someInfo), t) ∧
      t.link.queue = [ending 1] ∧
      (Dialogue.once (TickHeader.exchange 5)).observed { t with link := { t.link with queue := [] } } =
        ((Dialogue.once TickInfo.exchange).bind fun _ => Dialogue.once (TickHeader.exchange 5)).observed
          (Session.start emptyNode Nonce.ofNat) := by
  obtain ⟨arrived, hrun⟩ := run_info_emptyNode
  rw [← Dialogue.run_once] at hrun
  refine ⟨(Dialogue.foreign_unheard _ (Session.start emptyNode Nonce.ofNat)).1 broadcastingNode
    (agreeOn_broadcastingNode (Dialogue.zero_not_mem_nonces _ _)), _, hrun, rfl, ?_⟩
  refine (Dialogue.foreign_unheard (Dialogue.once TickInfo.exchange) _).2
    (fun _ => Dialogue.once (TickHeader.exchange 5)) _ _ [] [] (.holding .endResponse 1 []) hrun rfl ?_
  intro hmem
  have hnonce := Dialogue.eq_of_mem_nonces_once hmem
  rw [Packet.nonce_holding] at hnonce
  have hnext : (1 : UInt32) ≠ (Nonce.ofNat 1).val := by decide
  exact hnext hnonce

end Location

end LightClient
