import LightClient.Proofs.Locate.Trail
import LightClient.Proofs.Transaction.Taken
/-!
# A node that answers every request

`node` reports a current tick and gives, each when asked, a header, some transactions and perhaps a status
report, whatever tick they are of. The client looks there among the first of these transactions
(`exists_search_node`); one of them that the header lists is found (`exists_trail_node`).
-/
namespace LightClient

/-- A message with a payload, which is empty if the wanted one does not fit. -/
def Packet.holding (kind : MessageType) (nonce : UInt32) (payload : Bytes) : Packet :=
  if h : payload.length + Header.size < Header.maxTotal then ⟨kind.code, nonce, payload, h⟩
  else ⟨kind.code, nonce, [], by decide⟩

namespace Packet

variable {kind : MessageType} {nonce : UInt32} {payload : Bytes}

theorem is_holding : (holding kind nonce payload).is kind = true := by
  unfold holding
  split <;> exact beq_self_eq_true _

theorem nonce_holding : (holding kind nonce payload).nonce = nonce := by
  unfold holding
  split <;> rfl

theorem isEnd_holding (h : kind ≠ .endResponse) : (holding kind nonce payload).isEnd = false := by
  have hcode : kind.code ≠ MessageType.endResponse.code := by
    cases kind <;> first | exact absurd rfl h | decide
  unfold holding
  split <;> exact beq_false_of_ne hcode

theorem payload_holding (h : payload.length + Header.size < Header.maxTotal) :
    (holding kind nonce payload).payload = payload := by
  rw [holding, dif_pos h]

end Packet

theorem Exchange.TakesFirst.hearAll_holding {α : Type} {e : Exchange (Option α)} {kind : MessageType}
    {parse : Bytes → Except Malformed α} {payload : Bytes} {a : α} (he : e.TakesFirst kind parse)
    (nonce : UInt32) (hfits : payload.length + Header.size < Header.maxTotal) (hparse : parse payload = .ok a) :
    e.hearAll none ([payload].map (Packet.holding kind nonce)) = .ok (some a) := by
  rw [he.hearAll_none, List.map_singleton, Packet.first_cons_of_is Packet.is_holding,
    Packet.payload_holding hfits, hparse]
  rfl

/-- An answer of messages of one type. -/
def Response.holding (kind : MessageType) (nonce : UInt32) (payloads : List Bytes) : Response :=
  .answer ((payloads.map (Packet.holding kind nonce)).map .packet)

theorem Session.run_of_holding {β : Type} {e : Exchange β} {nonces : Nat → Nonce} {n : Nat} {kind : MessageType}
    {payloads : List Bytes} {b : β} (he : e.Patient) (hkind : kind ≠ .endResponse)
    (hfits : e.payload.length + Header.size < Header.maxTotal)
    (h : e.hearAll e.initial (payloads.map (Packet.holding kind (nonces n).val)) = .ok b)
    (later : List Response) (arrived : List Packet) :
    ∃ arrived', Session.run e
        (⟨⟨[], .holding kind (nonces n).val payloads :: later, arrived⟩, nonces, n⟩ : Session Peer) =
      (.ok b, ⟨⟨[], later, arrived'⟩, nonces, n + 1⟩) := by
  refine run_of_answer hfits (he.follow_map_packet ?_ h) later arrived
  intro p hp
  obtain ⟨payload, -, rfl⟩ := List.mem_map.mp hp
  exact ⟨Packet.nonce_holding, Packet.isEnd_holding hkind⟩

namespace Transaction

theorem patient_exchange (tick : UInt32) (expected : Nat) : (exchange tick expected).Patient := by
  intro gathered p b hear
  simp only [exchange] at hear
  split at hear
  · split at hear
    · cases hp : ofBytes p.payload <;> rw [hp] at hear <;> cases hear
    · cases hear
  · cases hear

theorem fits_toBytes {t : Transaction} (h : t.body.input.length ≤ Transfer.maxInput) :
    t.toBytes.length + Header.size < Header.maxTotal := by
  have hsize := Transfer.toNat_inputSize h
  rw [length_toBytes h, recordSize, hsize]
  simp only [Transfer.FixedPart.size, signatureSize, Header.size, Header.maxTotal, Transfer.maxInput] at h ⊢
  omega

theorem hearAll_exchange (tick : UInt32) (expected : Nat) (nonce : UInt32) {txs : List Transaction}
    (h : ∀ t ∈ txs, t.body.input.length ≤ Transfer.maxInput) (got : List Transaction) :
    (exchange tick expected).hearAll ⟨got, true⟩
      ((txs.map toBytes).map (Packet.holding .broadcastTransaction nonce)) =
        .ok ⟨got ++ txs.take (expected - got.length), true⟩ := by
  induction txs generalizing got with
  | nil => simp [Exchange.hearAll]
  | cons t txs ih =>
    obtain ⟨ht, htxs⟩ := List.forall_mem_cons.mp h
    rw [List.map_cons, List.map_cons, Exchange.hearAll]
    by_cases hlt : got.length < expected
    · have hear : (exchange tick expected).hear ⟨got, true⟩
          (Packet.holding .broadcastTransaction nonce t.toBytes) = .ok (.more ⟨got ++ [t], true⟩) := by
        simp only [exchange, Bool.true_and, decide_eq_true hlt, if_true, Packet.is_holding,
          Packet.payload_holding (fits_toBytes ht), ofBytes_toBytes ht, Except.map]
      obtain ⟨more, hmore⟩ : ∃ more, expected - got.length = more + 1 := ⟨expected - got.length - 1, by omega⟩
      have hleft : expected - (got ++ [t]).length = more := by
        rw [List.length_append, List.length_singleton]
        omega
      rw [hear, hmore, List.take_succ_cons]
      simp only [ih htxs, hleft, List.append_assoc, List.singleton_append]
    · have hear : (exchange tick expected).hear ⟨got, true⟩
          (Packet.holding .broadcastTransaction nonce t.toBytes) = .ok (.more ⟨got, true⟩) := by
        simp only [exchange, Bool.true_and, decide_eq_false hlt, Bool.false_eq_true, if_false]
      have hnone : expected - got.length = 0 := by omega
      rw [hear]
      simp only [ih htxs, hnone, List.take_zero]

end Transaction

theorem TxStatus.fits_toBytes {r : TxStatus} (h : r.digests.length ≤ maxDigests) :
    r.toBytes.length + Header.size < Header.maxTotal := by
  simp only [toBytes, List.length_append, length_leBytes, length_flatMap_digests, Tuple.length_toList,
    Header.size, Header.maxTotal, maxDigests, TickData.slotCount] at h ⊢
  omega

theorem TickHeader.fits_toBytes (header : TickHeader) :
    header.toBytes.length + Header.size < Header.maxTotal := by
  rw [toBytes, Layout.length_bytes]
  decide

theorem ComputorSet.fits_toBytes (set : ComputorSet) :
    set.toBytes.length + Header.size < Header.maxTotal := by
  rw [toBytes, Layout.length_bytes]
  decide

theorem TickInfo.fits_toBytes (info : TickInfo) :
    info.toBytes.length + Header.size < Header.maxTotal := by
  rw [toBytes, Layout.length_bytes]
  decide

namespace Location

/-! ## The node -/

/-- A node that gives each answer once, to the requests that looking for a transaction sends. -/
def node (nonces : Nat → Nonce) (info : TickInfo) (header : TickHeader) (transactions : List Transaction)
    (report : Option TxStatus) : Peer :=
  .ofScript [] [.holding .tickInfo (nonces 0).val [info.toBytes],
    .holding .broadcastTickHeader (nonces 1).val [header.toBytes],
    .holding .broadcastTransaction (nonces 2).val (transactions.map Transaction.toBytes),
    .holding .txStatus (nonces 3).val (report.toList.map TxStatus.toBytes)]

variable {computors : Option ComputorSet} {wanted : String} {tick : UInt32} {info : TickInfo}
  {header : TickHeader} {transactions : List Transaction} {report : Option TxStatus} {slot : Nat}
  {transaction : Transaction}

theorem follow_info (nonce : UInt32) (info : TickInfo) (rest : List Event) :
    TickInfo.exchange.follow nonce none (.packet (.holding .tickInfo nonce info.toBytes) :: rest) =
      (.ok (some info), rest) := by
  have hear : TickInfo.exchange.hear none (.holding .tickInfo nonce info.toBytes) = .ok (.enough (some info)) := by
    rw [TickInfo.hear_of_is Packet.is_holding, Packet.payload_holding info.fits_toBytes,
      TickInfo.ofBytes_toBytes]
    rfl
  have hend : (Packet.holding .tickInfo nonce info.toBytes).isEnd = false :=
    Packet.isEnd_holding (by decide)
  simp only [Exchange.follow, Packet.nonce_holding, hend, hear, ne_eq, not_true_eq_false, if_false,
    Bool.false_eq_true]

theorem hearAll_report (tick nonce : UInt32) (h : ∀ r ∈ report, r.digests.length ≤ TxStatus.maxDigests) :
    (TxStatus.exchange tick).hearAll none
      ((report.toList.map TxStatus.toBytes).map (Packet.holding .txStatus nonce)) = .ok report := by
  cases report with
  | none => rfl
  | some r =>
    have hr := h r rfl
    exact (TxStatus.takesFirst_exchange tick).hearAll_holding nonce (TxStatus.fits_toBytes hr)
      (TxStatus.ofBytes_toBytes hr)

theorem fits_request_header (tick : UInt32) :
    (TickHeader.exchange tick).payload.length + Header.size < Header.maxTotal := by
  simp only [TickHeader.exchange, length_leBytes]
  decide

theorem fits_request_transactions (tick : UInt32) (expected : Nat) :
    (Transaction.exchange tick expected).payload.length + Header.size < Header.maxTotal := by
  simp only [Transaction.exchange, tickRequest, List.length_append, length_leBytes, List.length_replicate]
  decide

theorem fits_request_status (tick : UInt32) :
    (TxStatus.exchange tick).payload.length + Header.size < Header.maxTotal := by
  simp only [TxStatus.exchange, length_leBytes]
  decide

/-- At such a node the client comes to look among the first transactions, as many as the header lists digests. -/
theorem exists_search_node (nonces : Nat → Nonce) (hpast : tick < info.tick)
    (hpublished : header.body.isEmpty = false)
    (hinput : ∀ t ∈ transactions, t.body.input.length ≤ Transfer.maxInput) (report : Option TxStatus) :
    ∃ search : Search tick (Session.start (node nonces info header transactions report) nonces),
      search.header = header ∧ search.transactions = transactions.take header.body.transactionCount ∧
      (header.body.transactionCount ≠ 0 → ∃ arrived, search.afterTransactions =
        ⟨⟨[], [.holding .txStatus (nonces 3).val (report.toList.map TxStatus.toBytes)], arrived⟩, nonces, 3⟩) := by
  -- After each exchange the queue is empty again, and the next answer is the first of those left.
  obtain ⟨arrived₁, h₁⟩ := Session.run_of_answer (e := TickInfo.exchange) (by decide)
    (follow_info (nonces 0).val info []) _ []
  obtain ⟨arrived₂, h₂⟩ := Session.run_of_holding (TickHeader.takesFirst_exchange tick).patient (by decide)
    (fits_request_header tick)
    ((TickHeader.takesFirst_exchange tick).hearAll_holding (nonces 1).val header.fits_toBytes
      header.ofBytes_toBytes) _ arrived₁
  by_cases hcount : header.body.transactionCount = 0
  · have hfetch (t : Session Peer) : (Transaction.fetch tick header.body.transactionCount).run t =
        (.ok (transactions.take header.body.transactionCount), t) := by
      rw [hcount, List.take_zero]
      rfl
    exact ⟨⟨info, _, header, _, _, _, h₁, hpast, h₂, hpublished, hfetch _⟩, rfl, rfl, fun hne => absurd hcount hne⟩
  · obtain ⟨arrived₃, h₃⟩ := Session.run_of_holding
      (Transaction.patient_exchange tick header.body.transactionCount) (by decide)
      (fits_request_transactions tick _)
      (Transaction.hearAll_exchange tick header.body.transactionCount (nonces 2).val hinput []) _ arrived₂
    have hfetch := Transaction.run_fetch_of_run hcount h₃
    exact ⟨⟨info, _, header, _, _, _, h₁, hpast, h₂, hpublished, hfetch⟩, rfl, rfl, fun _ => ⟨arrived₃, rfl⟩⟩

/-- At such a node the client finds what is among the transactions that it takes. -/
theorem exists_trail_node (computors : Option ComputorSet) (nonces : Nat → Nonce) (hpast : tick < info.tick)
    (hpublished : header.body.isEmpty = false)
    (hinput : ∀ t ∈ transactions, t.body.input.length ≤ Transfer.maxInput)
    (hreport : ∀ r ∈ report, r.digests.length ≤ TxStatus.maxDigests)
    (hlisted : findIn header (transactions.take header.body.transactionCount) wanted =
      some (slot, transaction)) :
    ∃ trail : Trail computors wanted tick
        (Session.start (node nonces info header transactions report) nonces)
        (receipt tick slot transaction (checkHeader computors header) (statusIn report transaction.hash)),
      trail.header = header ∧ trail.report = report := by
  have hcount : header.body.transactionCount ≠ 0 := by
    intro hzero
    rw [hzero, List.take_zero] at hlisted
    cases hlisted
  obtain ⟨search, hheader, htake, hafter⟩ := exists_search_node nonces hpast hpublished hinput report
  obtain ⟨arrived₃, harrived⟩ := hafter hcount
  obtain ⟨arrived₄, h₄⟩ := Session.run_of_holding (TxStatus.takesFirst_exchange tick).patient (by decide)
    (fits_request_status tick) (hearAll_report tick (nonces 3).val hreport) [] arrived₃
  exact ⟨{ search with
    report
    afterReport := _
    listed := by rw [hheader, htake]; exact hlisted
    run_report := harrived ▸ h₄
    receipt_eq := by rw [hheader]; rfl }, hheader, rfl⟩

/-! ## A node without headers -/

/-- The end of an answer. -/
def ending (nonce : UInt32) : Event := .packet (.holding .endResponse nonce [])

/-- A node's account of tick 9. -/
def someInfo : TickInfo := ⟨0, 0, 9, 0, 0, 0⟩

/-- A node that reports the current tick and has no header. -/
def emptyNode : Peer :=
  .ofScript [] [.answer [.packet (.holding .tickInfo 1 someInfo.toBytes), ending 1], .answer [ending 2]]

/-- When the current tick is known, the end of that answer is still unread. -/
theorem run_info_emptyNode :
    ∃ arrived, (Session.start emptyNode Nonce.ofNat).run TickInfo.exchange =
      (.ok (some someInfo), ⟨⟨[ending 1], [.answer [ending 2]], arrived⟩, Nonce.ofNat, 1⟩) :=
  Session.run_of_answer (by decide) (follow_info 1 someInfo [ending 1]) _ []

end Location

end LightClient
