import LightClient.Proofs.Locate.Node
/-!
# A node that serves one tick

A `Service` is what a node has to say to someone who looks for a transaction: the current tick, a header, the
transactions in some order, perhaps a report, and which of the answers it ends. At such a node the client comes to
look among the transactions (`Service.Sound.exists_search`), and whatever it finds or does not find there, its run has
an outcome (`Service.Sound.run_locate`).
-/
namespace LightClient

/-! ## Answers that may end -/

/-- The end of an answer, if the answer is ended. -/
def Event.closing (nonce : UInt32) (ended : Bool) : List Event := if ended then [Location.ending nonce] else []

/-- An answer of messages of one type, which may be ended. -/
def Response.giving (kind : MessageType) (nonce : UInt32) (payloads : List Bytes) (ended : Bool) : Response :=
  .answer ((payloads.map (Packet.holding kind nonce)).map .packet ++ Event.closing nonce ended)

namespace Exchange

variable {β : Type} {e : Exchange β} {nonce nonce' : UInt32}

/-- The end of another answer is passed over. -/
theorem follow_closing_append (hne : nonce' ≠ nonce) (state : β) (ended : Bool) (es : List Event) :
    e.follow nonce state (Event.closing nonce' ended ++ es) = e.follow nonce state es := by
  cases ended with
  | false => rfl
  | true =>
    have hnonce : (Packet.holding .endResponse nonce' []).nonce ≠ nonce := by rwa [Packet.nonce_holding]
    exact if_pos hnonce

theorem follow_closing (state : β) (ended : Bool) :
    e.follow nonce state (Event.closing nonce ended) = (.ok state, []) := by
  cases ended with
  | false => rfl
  | true =>
    have hnonce : (Packet.holding .endResponse nonce []).nonce = nonce := Packet.nonce_holding
    have hend : (Packet.holding .endResponse nonce []).isEnd = true := Packet.is_holding
    simp only [Event.closing, if_true, Location.ending, follow, hnonce, hend, ne_eq, not_true_eq_false, if_false]

end Exchange

/-- A patient exchange with a node that answers with messages of one type. What an earlier answer left behind is
its end at most, which has another nonce. -/
theorem Session.run_of_giving {β : Type} {e : Exchange β} {nonces : Nat → Nonce} {n : Nat} {earlier : UInt32}
    {left : Bool} {kind : MessageType} {payloads : List Bytes} {b : β} (he : e.Patient)
    (hearlier : left = true → earlier ≠ (nonces n).val) (hkind : kind ≠ .endResponse)
    (hfits : e.payload.length + Header.size < Header.maxTotal)
    (h : e.hearAll e.initial (payloads.map (Packet.holding kind (nonces n).val)) = .ok b) (ended : Bool)
    (later : List Response) (arrived : List Packet) :
    ∃ arrived', Session.run e (⟨⟨Event.closing earlier left,
        .giving kind (nonces n).val payloads ended :: later, arrived⟩, nonces, n⟩ : Session Peer) =
      (.ok b, ⟨⟨[], later, arrived'⟩, nonces, n + 1⟩) := by
  refine run_of_heard hfits ?_ later arrived
  have hmessages : ∀ p ∈ payloads.map (Packet.holding kind (nonces n).val),
      p.nonce = (nonces n).val ∧ p.isEnd = false := by
    intro p hp
    obtain ⟨payload, -, rfl⟩ := List.mem_map.mp hp
    exact ⟨Packet.nonce_holding, Packet.isEnd_holding hkind⟩
  have hanswer : e.follow (nonces n).val e.initial ((payloads.map (Packet.holding kind (nonces n).val)).map .packet ++
      Event.closing (nonces n).val ended) = (.ok b, []) := by
    rw [he.follow_append hmessages h, Exchange.follow_closing]
  cases left with
  | false => exact hanswer
  | true => rw [Exchange.follow_closing_append (hearlier rfl), hanswer]

namespace Location

/-! ## The node -/

/-- What a node has to say about a tick, and which of its answers it ends; that with the transactions it always
ends. -/
structure Service where
  info : TickInfo
  header : TickHeader
  transactions : List Transaction
  report : Option TxStatus
  endsInfo : Bool
  endsHeader : Bool
  endsReport : Bool

namespace Service

/-- The node that gives each of these when it is asked for it. -/
def node (service : Service) (nonces : Nat → Nonce) : Peer :=
  .ofScript [] [.giving .tickInfo (nonces 0).val [service.info.toBytes] service.endsInfo,
    .giving .broadcastTickHeader (nonces 1).val [service.header.toBytes] service.endsHeader,
    .giving .broadcastTransaction (nonces 2).val (service.transactions.map Transaction.toBytes) true,
    .giving .txStatus (nonces 3).val (service.report.toList.map TxStatus.toBytes) service.endsReport]

/-- A service that a client which looks in a tick gets to the end: the network is past the tick, the header is
published, the records can be decoded, and the end of the first answer, which stays unread, cannot be taken for that
of the second. -/
structure Sound (service : Service) (nonces : Nat → Nonce) (tick : UInt32) : Prop where
  past : tick < service.info.tick
  published : service.header.body.isEmpty = false
  inputs : ∀ t ∈ service.transactions, t.body.input.length ≤ Transfer.maxInput
  reported : ∀ r ∈ service.report, r.digests.length ≤ TxStatus.maxDigests
  apart : service.endsInfo = true → (nonces 0).val ≠ (nonces 1).val

variable {service : Service} {nonces : Nat → Nonce} {tick : UInt32}

/-- The client comes to look among the first transactions, as many as the header lists digests, and can then ask for
the report. -/
theorem Sound.exists_search (h : service.Sound nonces tick) :
    ∃ search : Search tick (Session.start (service.node nonces) nonces),
      search.header = service.header ∧
      search.transactions = service.transactions.take service.header.body.transactionCount ∧
      (service.header.body.transactionCount ≠ 0 → ∃ s',
        search.afterTransactions.run (TxStatus.exchange tick) = (.ok service.report, s')) := by
  obtain ⟨arrived₁, h₁⟩ := Session.run_of_answer (e := TickInfo.exchange) (by decide)
    (follow_info (nonces 0).val service.info (Event.closing (nonces 0).val service.endsInfo)) _ []
  obtain ⟨arrived₂, h₂⟩ := Session.run_of_giving (TickHeader.takesFirst_exchange tick).patient h.apart (by decide)
    (fits_request_header tick)
    ((TickHeader.takesFirst_exchange tick).hearAll_holding (nonces 1).val service.header.fits_toBytes
      service.header.ofBytes_toBytes) service.endsHeader _ arrived₁
  by_cases hcount : service.header.body.transactionCount = 0
  · have hfetch (t : Session Peer) : (Transaction.fetch tick service.header.body.transactionCount).run t =
        (.ok (service.transactions.take service.header.body.transactionCount), t) := by
      rw [hcount, List.take_zero]
      rfl
    exact ⟨⟨service.info, _, service.header, _, _, _, h₁, h.past, h₂, h.published, hfetch _⟩, rfl, rfl,
      fun hne => absurd hcount hne⟩
  · -- Nothing is left behind by an answer that was read to its end.
    have hclean (n : Nat) : false = true → (0 : UInt32) ≠ (nonces n).val := fun hfalse => nomatch hfalse
    obtain ⟨arrived₃, h₃⟩ := Session.run_of_giving
      (Transaction.patient_exchange tick service.header.body.transactionCount) (hclean 2) (by decide)
      (fits_request_transactions tick _)
      (Transaction.hearAll_exchange tick service.header.body.transactionCount (nonces 2).val h.inputs []) true _
      arrived₂
    have hfetch := Transaction.run_fetch_of_run hcount h₃
    obtain ⟨arrived₄, h₄⟩ := Session.run_of_giving (TxStatus.takesFirst_exchange tick).patient (hclean 3)
      (by decide) (fits_request_status tick) (hearAll_report tick (nonces 3).val h.reported) service.endsReport []
      arrived₃
    exact ⟨⟨service.info, _, service.header, _, _, _, h₁, h.past, h₂, h.published, hfetch⟩, rfl, rfl,
      fun _ => ⟨_, h₄⟩⟩

/-- The outcome of looking for a transaction at such a node. -/
theorem Sound.run_locate (h : service.Sound nonces tick) (computors : Option ComputorSet) (wanted : String) :
    ((locate computors wanted tick).run (Session.start (service.node nonces) nonces)).1 =
      match findIn service.header (service.transactions.take service.header.body.transactionCount) wanted with
      | none => .ok .notFound
      | some (slot, t) =>
          .ok (.found (receipt tick slot t (checkHeader computors service.header)
            (statusIn service.report t.hash))) := by
  obtain ⟨search, hheader, htake, hreport⟩ := h.exists_search
  rw [search.run_of_findIn, hheader, htake]
  cases hfind : findIn service.header (service.transactions.take service.header.body.transactionCount) wanted with
  | none => rfl
  | some place =>
    have hcount : service.header.body.transactionCount ≠ 0 := by
      intro hzero
      rw [hzero, List.take_zero] at hfind
      cases hfind
    obtain ⟨s', hrun⟩ := hreport hcount
    simp only [hrun]

end Service

end Location

end LightClient
