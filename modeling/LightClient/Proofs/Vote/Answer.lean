import LightClient.Proofs.Exchange.First
import LightClient.Proofs.Inserted
import LightClient.Proofs.Vote.Split
/-!
# The votes in an answer

Asking for a tick's votes gives the votes for the tick among the messages of the answer, in their
order, and leaves the events behind the answer in the queue (`follow_exchange`). Only a vote of the
wrong length or a failure stops it.

`counted` is what a tick's outcome depends on: the votes that count, and what the next exchange finds.
A message with a vote that is forged or repeats, slipped into the answer anywhere, leaves it as it is
(`counted_insert`).
-/
namespace LightClient.Vote

/-- The vote for a tick that a message holds, if it holds one. -/
def ofPacket? (tick : UInt32) (p : Packet) : Option Vote :=
  if p.is .broadcastVote then
    match ofBytes p.payload with
    | .ok v => if v.outcome.tick = tick then some v else none
    | .error _ => none
  else none

/-- The votes for a tick among messages. -/
def received (tick : UInt32) (messages : List Packet) : List Vote := messages.filterMap (ofPacket? tick)

theorem tick_of_mem_received {tick : UInt32} {messages : List Packet} {v : Vote}
    (h : v ∈ received tick messages) : v.outcome.tick = tick := by
  obtain ⟨p, -, hp⟩ := List.mem_filterMap.mp h
  unfold ofPacket? at hp
  split at hp
  · split at hp
    · split at hp
      · rename_i ht
        exact Option.some.inj hp ▸ ht
      · cases hp
    · cases hp
  · cases hp

variable {tick nonce : UInt32}

/-- A message adds the vote that it holds, or it is malformed whatever was heard before. -/
theorem hear_cases (tick : UInt32) (p : Packet) :
    (∀ votes, (exchange tick).hear votes p = .ok (.more (votes ++ (ofPacket? tick p).toList))) ∨
      ∃ flaw, ∀ votes, (exchange tick).hear votes p = .error (.malformed flaw) := by
  unfold exchange ofPacket?
  by_cases hp : p.is .broadcastVote = true
  · simp only [hp, if_true]
    cases ofBytes p.payload with
    | error flaw => exact .inr ⟨flaw, fun _ => rfl⟩
    | ok v =>
      refine .inl fun votes => ?_
      by_cases ht : v.outcome.tick = tick <;> simp [ht]
  · exact .inl fun votes => by simp [hp]

theorem patient_exchange (tick : UInt32) : (exchange tick).Patient := by
  intro votes p b hear
  rcases hear_cases tick p with hmore | ⟨flaw, herror⟩
  · rw [hmore] at hear
    cases hear
  · rw [herror] at hear
    cases hear

theorem follow_exchange {es rest : List Event} {votes vs : List Vote}
    (h : (exchange tick).follow nonce votes es = (.ok vs, rest)) :
    vs = votes ++ received tick (Event.answer nonce es) ∧ rest = Event.afterAnswer nonce es := by
  induction es generalizing votes with
  | nil => cases h; simp [Event.answer, Event.afterAnswer, received]
  | cons event es ih =>
    cases event with
    | quiet => cases h; simp [Event.answer, Event.afterAnswer, received]
    | failure err => simp [Exchange.follow] at h
    | packet p =>
      simp only [Exchange.follow] at h
      simp only [Event.answer, Event.afterAnswer]
      split at h
      · rename_i hn
        simpa [hn] using ih h
      · rename_i hn
        have hn := Decidable.not_not.mp hn
        split at h
        · rename_i hend
          cases h
          simp [hn, hend, received]
        · rename_i hend
          rcases hear_cases tick p with hp | ⟨flaw, hp⟩
          · rw [hp] at h
            obtain ⟨h1, h2⟩ := ih h
            refine ⟨?_, by simpa [hn, hend] using h2⟩
            rw [h1]
            cases ho : ofPacket? tick p <;> simp [hn, hend, received, ho]
          · rw [hp] at h
            simp at h

/-- Hearing on with more votes at hand gives those votes first, and else the same. -/
theorem follow_append_left (us vs : List Vote) (es : List Event) :
    (exchange tick).follow nonce (us ++ vs) es =
      (((exchange tick).follow nonce vs es).1.map (us ++ ·), ((exchange tick).follow nonce vs es).2) := by
  induction es generalizing vs with
  | nil => rfl
  | cons event es ih =>
    cases event with
    | quiet => rfl
    | failure err => rfl
    | packet p =>
      simp only [Exchange.follow]
      split
      · exact ih vs
      · split
        · rfl
        · rcases hear_cases tick p with hp | ⟨flaw, hp⟩
          · simp only [hp, List.append_assoc]
            exact ih _
          · simp only [hp]
            rfl

/-- As long as the answer has not ended, what was heard is at hand when the rest is heard, unless a
message stopped it. -/
theorem follow_append {before : List Event} (hopen : Event.Unended nonce before) (votes : List Vote) :
    (∀ es, (exchange tick).follow nonce votes (before ++ es) =
      (exchange tick).follow nonce (votes ++ received tick (Event.answer nonce before)) es) ∨
    ∃ err, ∀ es, ((exchange tick).follow nonce votes (before ++ es)).1 = .error err := by
  induction before generalizing votes with
  | nil => exact .inl fun es => by simp [Event.answer, received]
  | cons event before ih =>
    obtain ⟨p, rfl, hend⟩ := hopen event List.mem_cons_self
    have ih := fun votes => ih (fun e he => hopen e (List.mem_cons_of_mem _ he)) votes
    by_cases hn : p.nonce = nonce
    · have hend := hend hn
      rcases hear_cases tick p with hp | ⟨flaw, hp⟩
      · rcases ih (votes ++ (ofPacket? tick p).toList) with h | ⟨err, h⟩
        · refine .inl fun es => ?_
          have h := h es
          cases ho : ofPacket? tick p <;>
            simpa [Exchange.follow, Event.answer, received, hn, hend, hp, ho] using h
        · refine .inr ⟨err, fun es => ?_⟩
          simpa [Exchange.follow, hn, hend, hp] using h es
      · exact .inr ⟨.malformed flaw, fun es => by simp [Exchange.follow, hn, hend, hp]⟩
    · rcases ih votes with h | ⟨err, h⟩
      · exact .inl fun es => by simpa [Exchange.follow, Event.answer, hn] using h es
      · exact .inr ⟨err, fun es => by simpa [Exchange.follow, hn] using h es⟩

/-! ## A whole exchange -/

theorem fits_request (tick : UInt32) :
    (exchange tick).payload.length + Header.size < Header.maxTotal := by
  simp [exchange, tickRequest, Computor.count, Header.size, Header.maxTotal]

/-- A vote as a message. -/
def packet (nonce : UInt32) (v : Vote) : Packet where
  kind := MessageType.broadcastVote.code
  nonce := nonce
  payload := v.toBytes
  fits := by rw [toBytes, Layout.length_bytes]; decide

theorem ofBytes_packet (nonce : UInt32) (v : Vote) : ofBytes (packet nonce v).payload = .ok v :=
  layout.parse_bytes "vote" v

theorem ofPacket?_packet (tick nonce : UInt32) (v : Vote) :
    ofPacket? tick (packet nonce v) = if v.outcome.tick = tick then some v else none := by
  have hp : (packet nonce v).is .broadcastVote = true := rfl
  simp only [ofPacket?, hp, if_true, ofBytes_packet]

/-- From an answer that consists of votes for the tick, the client gets these votes. -/
theorem follow_map_packet (nonce : UInt32) {vs : List Vote} (h : ∀ v ∈ vs, v.outcome.tick = tick) :
    (exchange tick).follow nonce [] (vs.map fun v => .packet (packet nonce v)) = (.ok vs, []) := by
  suffices hsuff : ∀ us, (exchange tick).follow nonce us
      (vs.map fun v => .packet (packet nonce v)) = (.ok (us ++ vs), []) from hsuff []
  induction vs with
  | nil => exact fun us => by simp [Exchange.follow]
  | cons v vs ih =>
    intro us
    obtain ⟨hv, hvs⟩ := List.forall_mem_cons.mp h
    have hend : (packet nonce v).isEnd = false := rfl
    have hn : (packet nonce v).nonce = nonce := rfl
    have hear : (exchange tick).hear us (packet nonce v) = .ok (.more (us ++ [v])) := by
      have hv? := ofPacket?_packet tick nonce v
      rcases hear_cases tick (packet nonce v) with hp | ⟨flaw, hp⟩
      · rw [hp, hv?, if_pos hv]
        rfl
      · have hp := hp us
        have hkind : (packet nonce v).is .broadcastVote = true := rfl
        simp [exchange, hkind, ofBytes_packet] at hp
    simp [Exchange.follow, hn, hend, hear, ih hvs]

/-- What comes of the exchange depends on the nonce and on what the node does with the request. -/
theorem run_exchange (tick : UInt32) (s : Session Peer) :
    (s.run (exchange tick)).1 =
      match s.link.refusal? with
      | some err => .error err
      | none => ((exchange tick).follow s.nextNonce [] s.link.heard).1 := by
  have hrequest := (dif_pos (fits_request tick) :
    Packet.make (exchange tick).request.code s.nextNonce (exchange tick).payload = .ok _)
  rw [Session.run_peer hrequest, Peer.refusal?]
  rcases s.link.responses with _ | ⟨_ | _, _⟩ <;> rfl

/-- Asked for a tick's votes, a node answers with some and nothing else. -/
theorem run_exchange_of_answer {nonces : Nat → Nonce} {n : Nat} {vs : List Vote}
    (hvs : ∀ v ∈ vs, v.outcome.tick = tick) (later : List Response) (arrived : List Packet) :
    ∃ arrived', (⟨⟨[], .answer (vs.map fun v => .packet (packet (nonces n).val v)) :: later, arrived⟩,
        nonces, n⟩ : Session Peer).run (exchange tick) =
      (.ok vs, ⟨⟨[], later, arrived'⟩, nonces, n + 1⟩) :=
  Session.run_of_answer (fits_request tick) (follow_map_packet (nonces n).val hvs) later arrived

/-! ## Votes that cannot count -/

/-- The votes that count of those in an answer, and the events behind it. -/
def counted (set : ComputorSet) (tick nonce : UInt32) (es : List Event) :
    Outcome (List Vote × List Event) :=
  match (exchange tick).follow nonce [] es with
  | (.ok votes, rest) => .ok ((VoteCollection.split set votes).accepted, rest)
  | (.error err, _) => .error err

/-- A message within the answer to a request for a tick's votes that holds a vote which is forged or
repeats one that came before. -/
def Inert (set : ComputorSet) (tick nonce : UInt32) (before : List Event) (event : Event) : Prop :=
  Event.Unended nonce before ∧
    ∃ p v, event = .packet p ∧ p.nonce = nonce ∧ p.is .broadcastVote = true ∧
      ofBytes p.payload = .ok v ∧
      v.Idle set (received tick (Event.answer nonce before))

theorem counted_insert {set : ComputorSet} {before after : List Event} {event : Event}
    (h : Inert set tick nonce before event) :
    counted set tick nonce (before ++ event :: after) = counted set tick nonce (before ++ after) := by
  obtain ⟨hopen, p, v, rfl, hn, hkind, hv, hidle⟩ := h
  have hend : p.isEnd = false := by
    simp only [Packet.is, beq_iff_eq] at hkind
    simp [Packet.isEnd, Packet.is, hkind, MessageType.code]
  unfold counted
  rcases follow_append hopen [] with hpre | ⟨err, hpre⟩
  · rw [hpre, hpre, List.nil_append]
    have hear : (exchange tick).follow nonce (received tick (Event.answer nonce before))
        (.packet p :: after) =
        (exchange tick).follow nonce (received tick (Event.answer nonce before) ++
          (ofPacket? tick p).toList) after := by
      rcases hear_cases tick p with hp | ⟨flaw, hp⟩
      · simp [Exchange.follow, hn, hend, hp]
      · have := hp []
        simp [exchange, hkind, hv] at this
    rw [hear]
    -- What is heard after the vote does not depend on it (`follow_append_left`), so two lists that
    -- differ in this vote alone are split.
    by_cases ht : v.outcome.tick = tick
    · have hsome : (ofPacket? tick p).toList = [v] := by simp [ofPacket?, hkind, hv, ht]
      generalize received tick (Event.answer nonce before) = heard at hidle ⊢
      rw [hsome, ← List.append_nil (heard ++ [v]), ← List.append_nil heard, follow_append_left,
        follow_append_left heard []]
      rcases (exchange tick).follow nonce [] after with ⟨_ | later, rest⟩
      · rfl
      · simp only [Except.map, List.append_nil, List.append_assoc, List.singleton_append]
        rw [VoteCollection.accepted_insert hidle]
    · have hnone : (ofPacket? tick p).toList = [] := by simp [ofPacket?, hkind, hv, ht]
      rw [hnone, List.append_nil]
  · have h1 := hpre (.packet p :: after)
    have h2 := hpre after
    split <;> rename_i e1 <;> rw [e1] at h1 <;> simp only [reduceCtorEq] at h1
    split <;> rename_i e2 <;> rw [e2] at h2 <;> simp only [reduceCtorEq] at h2
    simp only [Except.error.injEq] at h1 h2
    rw [h1, h2]

/-- Votes inserted among the votes that make up an answer are messages inserted into it. -/
theorem inserted_map_packet (nonce : UInt32) {set : ComputorSet} {vs vs' : List Vote}
    (h : Inserted (Idle set) vs vs')
    (htick : ∀ v ∈ vs', v.outcome.tick = tick) :
    Inserted (Inert set tick nonce) (vs.map fun v => .packet (packet nonce v))
      (vs'.map fun v => .packet (packet nonce v)) := by
  induction h with
  | refl => exact .refl
  | @insert before after v _ allowed ih =>
    rw [List.forall_mem_append, List.forall_mem_cons] at htick
    obtain ⟨hbefore, -, hafter⟩ := htick
    have ih := ih (List.forall_mem_append.mpr ⟨hbefore, hafter⟩)
    obtain ⟨hheard, -⟩ := follow_exchange (follow_map_packet nonce hbefore)
    rw [List.nil_append] at hheard
    rw [List.map_append] at ih
    rw [List.map_append, List.map_cons]
    refine ih.insert _ _ ⟨?_, packet nonce v, v, rfl, rfl, rfl, ofBytes_packet nonce v, hheard ▸ allowed⟩
    intro event he
    obtain ⟨u, -, rfl⟩ := List.mem_map.mp he
    exact ⟨packet nonce u, rfl, fun _ => rfl⟩

end LightClient.Vote
