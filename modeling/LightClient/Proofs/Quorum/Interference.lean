import LightClient.Proofs.Quorum.Report
/-!
# Votes that cannot interfere

Who has no computor's key can still send votes: forged ones, and ones that were sent before. A vote is
only looked up among those that count after its signature held, so a forged vote cannot take a
computor's place, and a repeated one comes too late.

`Tampered` compares two sessions before a request for votes: in the second the client will hear what
it would in the first, and such votes besides. The exchange then gives the same votes that count and
leaves the same events behind (`Tampered.run`), and so a report can differ in its counts only
(`verdict_of_tampered`). As the same events are left behind, it is enough to know what is inserted into
the two answers that a node has ready (`Forgery`, `Forgery.tampered_run`).
-/
namespace LightClient.QuorumReport

open VoteCollection (split)
open Vote (oneKeySet signedVote forgedVote valid_signedVote valid_forgedVote)

variable {set : ComputorSet} {tick : UInt32} {s s' : Session Peer}

/-- What is left of a report without the votes that do not count. -/
def verdict (r : QuorumReport) : QuorumReport :=
  { r with votesCollected := 0, signatureRejected := [], duplicateVoters := [] }

/-- The client will hear in the second session what it would in the first, and in the answer, besides,
votes that are forged or repeat. -/
structure Tampered (set : ComputorSet) (tick : UInt32) (s s' : Session Peer) : Prop where
  nonce : s'.nextNonce = s.nextNonce
  refusal : s'.link.refusal? = s.link.refusal?
  heard : Inserted (Vote.Inert set tick s.nextNonce) s.link.heard s'.link.heard

/-- The same votes count and the same events are left behind, unless both exchanges fail in the same way. -/
theorem Tampered.run (h : Tampered set tick s s') :
    (∃ e, (s.run (Vote.exchange tick)).1 = .error e ∧ (s'.run (Vote.exchange tick)).1 = .error e) ∨
    ∃ votes votes', (s.run (Vote.exchange tick)).1 = .ok votes ∧
      (s'.run (Vote.exchange tick)).1 = .ok votes' ∧
      (split set votes').accepted = (split set votes).accepted ∧
      (s'.run (Vote.exchange tick)).2.link.queue = (s.run (Vote.exchange tick)).2.link.queue := by
  have hsame := h.heard.eq_of_forall (Vote.counted set tick s.nextNonce)
    fun before event after hinert => Vote.counted_insert hinert
  have hfst := Vote.run_exchange tick s
  have hfst' := Vote.run_exchange tick s'
  rw [h.refusal, h.nonce] at hfst'
  unfold Vote.counted at hsame
  cases hrefusal : s.link.refusal? with
  | some err => exact .inl ⟨err, by rw [hfst, hrefusal], by rw [hfst', hrefusal]⟩
  | none =>
    simp only [hrefusal] at hfst hfst'
    rcases hx : (Vote.exchange tick).follow s.nextNonce [] s.link.heard with ⟨e | votes, rest⟩ <;>
      rcases hx' : (Vote.exchange tick).follow s.nextNonce [] s'.link.heard with ⟨e' | votes', rest'⟩ <;>
        simp only [hx, hx', Except.ok.injEq, Except.error.injEq, Prod.mk.injEq, reduceCtorEq] at hsame hfst hfst'
    · exact .inl ⟨e, hfst, hfst'.trans (congrArg Except.error hsame)⟩
    · obtain ⟨haccepted, hrest⟩ := hsame
      have hqueue := hx.symm.trans (Session.follow_of_run (Prod.ext hfst rfl))
      have hqueue' := hx'.symm.trans (h.nonce ▸ Session.follow_of_run (Prod.ext hfst' rfl))
      exact .inr ⟨votes, votes', hfst, hfst', haccepted,
        (Prod.mk.inj hqueue').2.symm.trans (hrest.trans (Prod.mk.inj hqueue).2)⟩

/-- Tampering with the answers for a tick and for the next one leaves the verdict as it is. -/
theorem verdict_of_tampered (h : Tampered set tick s s')
    (hnext : ∀ next votes, successor? tick = some next →
      (s.run (Vote.exchange tick)).1 = .ok votes →
      Tampered set next (s.run (Vote.exchange tick)).2 (s'.run (Vote.exchange tick)).2) :
    ((collect set tick).run s').1.map verdict = ((collect set tick).run s).1.map verdict := by
  rw [run_collect, run_collect]
  have hfirst := h.run
  rcases hs : s.run (Vote.exchange tick) with ⟨o, t⟩
  rcases hs' : s'.run (Vote.exchange tick) with ⟨o', t'⟩
  rw [hs, hs'] at hfirst hnext
  rcases hfirst with ⟨e, rfl, rfl⟩ | ⟨votes, votes', rfl, rfl, haccepted, -⟩
  · rfl
  cases hn : successor? tick with
  | none =>
    simp only [haccepted]
    rfl
  | some next =>
    have hsecond := (hnext next votes hn rfl).run
    rcases ht : t.run (Vote.exchange next) with ⟨o, u⟩
    rcases ht' : t'.run (Vote.exchange next) with ⟨o', u'⟩
    simp only [ht, ht'] at hsecond
    rcases hsecond with ⟨e, rfl, rfl⟩ | ⟨later, later', rfl, rfl, hlater, -⟩
    · simp only [ht, ht']
    · simp only [ht, ht', haccepted, hlater]
      rfl

/-! ## Insertions into a script -/

/-- A response with events inserted into its answer, where `P` allows it. -/
inductive Extended (P : List Event → Event → Prop) : Response → Response → Prop where
  | refuse (err : Error) : Extended P (.refuse err) (.refuse err)
  | answer {events events' : List Event} (h : Inserted P events events') :
      Extended P (.answer events) (.answer events')

theorem Extended.refusal?_eq {P : List Event → Event → Prop} {r r' : Response} (h : Extended P r r') :
    r'.refusal? = r.refusal? := by
  cases h <;> rfl

theorem Extended.inserted {P : List Event → Event → Prop} {r r' : Response} (h : Extended P r r') :
    Inserted P r.events r'.events := by
  cases h with
  | refuse err => exact .refl
  | answer h => exact h

/-- What the client will hear from the second node is tampered with, and so is what this node has ready for
the second request. The client hears that answer behind what the first one left in the queue. -/
structure Forgery (set : ComputorSet) (tick : UInt32) (s s' : Session Peer) : Prop
    extends Tampered set tick s s' where
  nonces_eq : s'.nonces = s.nonces
  sent_eq : s'.sent = s.sent
  later : ∀ next, successor? tick = some next →
    Extended (fun before => Vote.Inert set next (s.nonces (s.sent + 1)).val
      (Event.afterAnswer s.nextNonce s.link.heard ++ before)) (s.link.response 1) (s'.link.response 1)

/-- What the client will hear is tampered with if the next response is extended. -/
theorem tampered_of_extended (hnonce : s'.nextNonce = s.nextNonce) (hqueue : s'.link.queue = s.link.queue)
    (hresponse : Extended (fun before => Vote.Inert set tick s.nextNonce (s.link.queue ++ before))
      (s.link.response 0) (s'.link.response 0)) : Tampered set tick s s' where
  nonce := hnonce
  refusal := by rw [Peer.refusal?_eq, Peer.refusal?_eq, hresponse.refusal?_eq]
  heard := by
    rw [Peer.heard_eq, Peer.heard_eq, hqueue]
    exact hresponse.inserted.append_left s.link.queue

/-- The first exchange leaves two sessions in which what is heard next is tampered with, too. -/
theorem Forgery.tampered_run (h : Forgery set tick s s') {next : UInt32} {votes : List Vote}
    (hnext : successor? tick = some next) (hvotes : (s.run (Vote.exchange tick)).1 = .ok votes) :
    Tampered set next (s.run (Vote.exchange tick)).2 (s'.run (Vote.exchange tick)).2 := by
  have hrun := h.toTampered.run
  rcases hs : s.run (Vote.exchange tick) with ⟨o, t⟩
  rcases hs' : s'.run (Vote.exchange tick) with ⟨o', t'⟩
  rw [hs] at hvotes
  rw [hs, hs'] at hrun
  rcases hrun with ⟨e, rfl, -⟩ | ⟨us, us', rfl, rfl, -, hqueue⟩
  · cases hvotes
  obtain ⟨request, rest, hfollow, rfl⟩ := Session.eq_of_run hs
  obtain ⟨request', rest', -, rfl⟩ := Session.eq_of_run hs'
  obtain ⟨-, rfl⟩ := Vote.follow_exchange hfollow
  refine tampered_of_extended ?_ hqueue ?_
  · simp only [Session.nextNonce, h.nonces_eq, h.sent_eq]
  · have hlater (peer : Peer) (queue : List Event) (arrived : List Packet) :
        Peer.response ⟨queue, peer.responses.tail, arrived⟩ 0 = peer.response 1 := by
      simp only [Peer.response, List.getD_eq_getElem?_getD, List.getElem?_tail]
    rw [hlater, hlater]
    exact h.later next hnext

/-! ## Nodes that answer with votes -/

/-- A node that answers with votes, and one that has some inserted in its answers or queued beforehand. -/
theorem forgery_node (nonces : Nat → Nonce) (queued votes' : List Vote) {next : UInt32}
    {votes later later' : List Vote}
    (hnext : successor? tick = some next) (h : Inserted (Vote.Idle set) votes (queued ++ votes'))
    (htick : ∀ v ∈ queued ++ votes', v.outcome.tick = tick) (hvotes : ∀ v ∈ votes, v.outcome.tick = tick)
    (hlater : Inserted (Vote.Idle set) later later') (hlaterTick : ∀ v ∈ later', v.outcome.tick = next) :
    Forgery set tick (Session.start (node nonces votes later) nonces)
      (Session.start { node nonces votes' later' with
        queue := queued.map fun v => .packet (v.packet (nonces 0).val) } nonces) := by
  refine ⟨⟨rfl, rfl, ?_⟩, rfl, rfl, fun next' hnext' => .answer ?_⟩
  · have hinserted := Vote.inserted_map_packet (nonces 0).val h htick
    rwa [List.map_append] at hinserted
  · obtain rfl := Option.some.inj (hnext.symm.trans hnext')
    obtain ⟨-, hrest⟩ := Vote.follow_exchange (Vote.follow_map_packet (nonces 0).val hvotes)
    have hinserted := Vote.inserted_map_packet (nonces 1).val hlater hlaterTick
    exact hrest ▸ hinserted

/-- **Noninterference.** Votes whose signature does not hold, inserted anywhere among others, leave
the votes that count and the duplicates as they are. Valid votes of computors of which a valid vote
came before leave the votes that count and the rejected ones as they are. So neither, inserted into
the answers for a tick and for the next one, touches the candidates, the outcome that decides, the
dropped votes or the trust: neither where they are inserted into what the client hears, nor where they
are inserted into the two answers that a node has ready. -/
theorem votes_do_not_interfere (set : ComputorSet) :
    (∀ votes votes', Inserted (fun _ v => v.valid set = false) votes votes' →
      (split set votes').accepted = (split set votes).accepted ∧
      (split set votes').duplicates = (split set votes).duplicates) ∧
    (∀ votes votes', Inserted (Vote.Repeats set) votes votes' →
      (split set votes').accepted = (split set votes).accepted ∧
      (split set votes').rejected = (split set votes).rejected) ∧
    (∀ tick (s s' : Session Peer), Tampered set tick s s' →
      (∀ next votes, successor? tick = some next →
        (s.run (Vote.exchange tick)).1 = .ok votes →
        Tampered set next (s.run (Vote.exchange tick)).2 (s'.run (Vote.exchange tick)).2) →
      ((collect set tick).run s').1.map (fun r => (verdict r, r.majority)) =
        ((collect set tick).run s).1.map fun r => (verdict r, r.majority)) ∧
    ∀ tick (s s' : Session Peer), Forgery set tick s s' →
      ((collect set tick).run s').1.map (fun r => (verdict r, r.majority)) =
        ((collect set tick).run s).1.map fun r => (verdict r, r.majority) := by
  have hmajority : ∀ o : Outcome QuorumReport, o.map (fun r => (verdict r, r.majority)) =
      (o.map verdict).map fun r => (r, r.majority) := by
    rintro (e | r) <;> rfl
  refine ⟨fun votes votes' h => ?_, fun votes votes' h => ?_, fun tick s s' h hnext => ?_, fun tick s s' h => ?_⟩
  · have hsame := h.eq_of_forall (fun votes => ((split set votes).accepted, (split set votes).duplicates))
      fun before v after hforged => by
        obtain ⟨h1, h2⟩ := VoteCollection.splitAfter_insert_forged hforged [] before after
        exact Prod.ext h1 h2
    exact Prod.mk.inj hsame
  · have hsame := h.eq_of_forall (fun votes => ((split set votes).accepted, (split set votes).rejected))
      fun before v after hrepeats => by
        obtain ⟨h1, h2⟩ := VoteCollection.splitAfter_insert_repeat hrepeats.1 [] before after
          (.inr hrepeats.2)
        exact Prod.ext h1 h2
    exact Prod.mk.inj hsame
  · rw [hmajority, verdict_of_tampered h hnext, ← hmajority]
  · have hverdict := verdict_of_tampered h.toTampered fun next votes hnext hvotes => h.tampered_run hnext hvotes
    rw [hmajority, hverdict, ← hmajority]

/-- A node that forges a vote of the first computor, sends its vote twice, and forges one for the next
tick, too, gets no further than an honest one, whether its forged vote is part of the answer or queued before
it is asked. -/
theorem votes_do_not_interfere_signed :
    (split oneKeySet [forgedVote 0 5, signedVote]).accepted = (split oneKeySet [signedVote]).accepted ∧
    (split oneKeySet [signedVote, signedVote]).rejected = (split oneKeySet [signedVote]).rejected ∧
    ((collect oneKeySet 5).run (Session.start
        { node Nonce.ofNat [signedVote, signedVote] [forgedVote 0 6] with
          queue := [.packet ((forgedVote 0 5).packet (Nonce.ofNat 0).val)] } Nonce.ofNat)).1.map
        (fun r => (verdict r, r.majority)) =
      ((collect oneKeySet 5).run (Session.start
        (node Nonce.ofNat [signedVote] []) Nonce.ofNat)).1.map (fun r => (verdict r, r.majority)) ∧
    ((collect oneKeySet 5).run (Session.start
        (node Nonce.ofNat [forgedVote 0 5, signedVote, signedVote] [forgedVote 0 6]) Nonce.ofNat)).1.map
        (fun r => (verdict r, r.majority)) =
      ((collect oneKeySet 5).run (Session.start
        (node Nonce.ofNat [signedVote] []) Nonce.ofNat)).1.map fun r => (verdict r, r.majority) := by
  obtain ⟨hforged, hrepeats, hheard, hscript⟩ := votes_do_not_interfere oneKeySet
  have hrepeated : signedVote.Repeats oneKeySet [signedVote] :=
    ⟨valid_signedVote, signedVote, List.mem_singleton_self _, valid_signedVote, rfl⟩
  have htick : ∀ v ∈ [forgedVote 0 5, signedVote, signedVote], v.outcome.tick = 5 := by
    simp [forgedVote, signedVote, Vote.blankBallot, Vote.outcome]
  have hinserted : Inserted (Vote.Idle oneKeySet) [signedVote] [forgedVote 0 5, signedVote, signedVote] :=
    .insert [] _ (.insert [signedVote] [] .refl (.inr hrepeated)) (.inl (valid_forgedVote ..))
  have hvotes : ∀ v ∈ [signedVote], v.outcome.tick = 5 := fun v hv => htick v (by simp_all)
  have hlater : Inserted (Vote.Idle oneKeySet) [] [forgedVote 0 6] :=
    .insert [] [] .refl (.inl (valid_forgedVote ..))
  have hlaterTick : ∀ v ∈ [forgedVote 0 6], v.outcome.tick = 6 := by
    simp [forgedVote, Vote.blankBallot, Vote.outcome]
  have hqueued := forgery_node Nonce.ofNat [forgedVote 0 5] [signedVote, signedVote] rfl hinserted htick hvotes hlater
    hlaterTick
  have hanswered := forgery_node Nonce.ofNat [] _ rfl hinserted htick hvotes hlater hlaterTick
  refine ⟨(hforged _ _ ?_).1, (hrepeats _ _ ?_).2, ?_, hscript 5 _ _ hanswered⟩
  · exact .insert [] _ .refl (valid_forgedVote ..)
  · exact .insert [signedVote] [] .refl hrepeated
  · exact hheard 5 _ _ hqueued.toTampered fun next votes hnext hvotes => hqueued.tampered_run hnext hvotes

end LightClient.QuorumReport
