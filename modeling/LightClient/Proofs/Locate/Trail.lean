import LightClient.Proofs.Exchange.First
import LightClient.Proofs.Locate.Find
import LightClient.Proofs.Locate.Search
import LightClient.Proofs.Transaction.Record
import LightClient.Proofs.Transaction.Status
/-!
# What the client hears before it finds a transaction

Looking for a transaction at a node takes up to four exchanges. A `Trail` is a run through all four that ends with a
receipt: what was heard in each and the session after it. Every receipt has one (`exists_trail`), and from it one can
tell which message of which answer each part of the receipt was read from (`Trail.first_header`,
`Trail.first_report`).
-/
namespace LightClient.Location

variable {σ : Type} [Transport σ] {computors : Option ComputorSet} {wanted : String} {tick : UInt32}

/-- A run that ends with a receipt: what was heard in its exchanges, and the session after each. -/
structure Trail (computors : Option ComputorSet) (wanted : String) (tick : UInt32) (s : Session σ)
    (r : Receipt) where
  info : TickInfo
  afterInfo : Session σ
  header : TickHeader
  afterHeader : Session σ
  transactions : List Transaction
  afterTransactions : Session σ
  report : Option TxStatus
  afterReport : Session σ
  run_info : s.run TickInfo.exchange = (.ok (some info), afterInfo)
  past : tick < info.tick
  run_header : afterInfo.run (TickHeader.exchange tick) = (.ok (some header), afterHeader)
  published : header.body.isEmpty = false
  run_transactions : (Transaction.fetch tick header.body.transactionCount).run afterHeader =
    (.ok transactions, afterTransactions)
  listed : findIn header transactions wanted = some (r.slot, r.transaction.value)
  run_report : afterTransactions.run (TxStatus.exchange tick) = (.ok report, afterReport)
  receipt_eq : r = receipt tick r.slot r.transaction.value (checkHeader computors header)
    (statusIn report r.transaction.value.hash)

theorem Trail.run {s : Session σ} {r : Receipt} (trail : Trail computors wanted tick s r) :
    (locate computors wanted tick).run s = (.ok (.found r), trail.afterReport) := by
  simp only [run_locate, trail.run_info, if_neg (UInt32.not_le.mpr trail.past), trail.run_header,
    filter_published trail.published, run_locateUnder, trail.run_transactions, trail.listed, trail.run_report,
    ← trail.receipt_eq]

/-- Every receipt has a trail. -/
theorem exists_trail {s : Session σ} {r : Receipt}
    (h : ((locate computors wanted tick).run s).1 = .ok (.found r)) :
    Nonempty (Trail computors wanted tick s r) := by
  rcases unproduced_or_search h (by simp) with ⟨⟨place⟩⟩ | ⟨⟨search⟩⟩
  · rw [place.run] at h
    cases h
  · rw [search.run_of_findIn] at h
    cases hlisted : findIn search.header search.transactions wanted with
    | none => simp [hlisted] at h
    | some place =>
      obtain ⟨slot, transaction⟩ := place
      rcases hreport : search.afterTransactions.run (TxStatus.exchange tick) with ⟨e | report, u⟩ <;>
        simp only [hlisted, hreport, reduceCtorEq, Except.ok.injEq, found.injEq] at h
      subst h
      exact ⟨{ search with
        report
        afterReport := u
        listed := hlisted
        run_report := hreport
        receipt_eq := rfl }⟩

/-- Each exchange has one outcome, so a receipt has no other trail. -/
instance {s : Session σ} {r : Receipt} : Subsingleton (Trail computors wanted tick s r) where
  allEq a b := by
    obtain ⟨_, _, _, _, _, _, _, _, hinfo, _, hheader, _, htransactions, _, hreport, _⟩ := a
    obtain ⟨_, _, _, _, _, _, _, _, hinfo', _, hheader', _, htransactions', _, hreport', _⟩ := b
    cases hinfo.symm.trans hinfo'
    cases hheader.symm.trans hheader'
    cases htransactions.symm.trans htransactions'
    cases hreport.symm.trans hreport'
    rfl

/-- The header of a receipt is the first one in the answer to the second request. -/
theorem Trail.first_header {s : Session Peer} {r : Receipt} (trail : Trail computors wanted tick s r) :
    Packet.first .broadcastTickHeader TickHeader.ofBytes trail.afterInfo.answer =
      .ok (some trail.header) :=
  (TickHeader.takesFirst_exchange tick).first_of_run rfl trail.run_header

/-- The status in a receipt is read from the first report in the answer to the last request, if there is
one. -/
theorem Trail.first_report {s : Session Peer} {r : Receipt} (trail : Trail computors wanted tick s r) :
    Packet.first .txStatus TxStatus.ofBytes trail.afterTransactions.answer = .ok trail.report :=
  (TxStatus.takesFirst_exchange tick).first_of_run rfl trail.run_report

end LightClient.Location
