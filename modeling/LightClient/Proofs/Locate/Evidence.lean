import LightClient.Proofs.Locate.Find
import LightClient.Proofs.Locate.ReceiptTick
import LightClient.Proofs.Transaction.Next
import LightClient.Proofs.Transaction.Taken
/-!
# What a receipt from a node rests on

Whatever a node sends, each part of a receipt follows from a message of one of its four answers: the current tick, the
header, one of the messages that were taken as transactions, and the report, if there is one (`Trail.Evidence`). All of
them are about the same transaction: the text names the digest of the message's bytes, the slot is the first that
holds this digest, and the status is the bit of this digest (`exists_evidence`).
-/
namespace LightClient

theorem Integrity.ofBool_eq_verified_iff {b : Bool} : Integrity.ofBool b = .verified ↔ b = true := by
  cases b <;> decide

namespace Location

variable {computors : Option ComputorSet} {wanted : String} {tick : UInt32} {s : Session Peer} {r : Receipt}

/-- The evidence for a receipt: the message that holds its transaction, and how each part of the receipt follows from
what the node sent. -/
structure Trail.Evidence (trail : Trail computors wanted tick s r) (message : Packet) : Prop where
  /-- The first record of the current tick in the first answer. -/
  current : Packet.first .tickInfo TickInfo.ofBytes s.answer = .ok (some trail.info)
  past : tick < trail.info.tick
  /-- The first header in the second answer. -/
  header : Packet.first .broadcastTickHeader TickHeader.ofBytes trail.afterInfo.answer = .ok (some trail.header)
  epoch : trail.header.body.epoch ≠ 0
  /-- The message is one of those with which the third answer begins. -/
  sent : message ∈
    Packet.leading .broadcastTransaction trail.header.body.transactionCount trail.afterHeader.answer
  decoded : Transaction.ofBytes message.payload = .ok r.transaction.value
  hash_eq : r.transaction.value.hash = sha256 message.payload
  isZero_hash : r.transaction.value.hash.isZero = false
  slot : FirstPlace trail.header.body.digests.toList r.transaction.value.hash r.slot
  tick_eq : r.tick = tick
  long : Identity.length ≤ (Text.utf8 (Text.trim wanted.toList)).length
  /-- The text and the identity of the transaction agree up to case. -/
  letters : ((Text.utf8 (Text.trim wanted.toList)).take Identity.length).map Identity.foldCase =
    (Text.utf8 r.transaction.value.id.toList).map Identity.foldCase
  integrity_iff : r.transaction.integrity = .verified ↔
    r.transaction.value.body.source.verify r.transaction.value.signingDigest r.transaction.value.signature = true
  unchecked_iff : r.headerSignature = none ↔ computors = none
  headerSignature_iff : ∀ set, computors = some set →
    (r.headerSignature = some .verified ↔ trail.header.valid set = true)
  /-- The first report in the fourth answer. -/
  report : Packet.first .txStatus TxStatus.ofBytes trail.afterTransactions.answer = .ok trail.report
  unknown_iff : r.status = .unknown ↔ ∀ report ∈ trail.report, r.transaction.value.hash ∉ report.digests
  /-- The bit at the first place of the digest in the report says whether money moved. -/
  status : ∀ report ∈ trail.report, ∀ i, FirstPlace report.digests r.transaction.value.hash i →
    ∃ b, report.moneyFlew.get? (i / 8) = some b ∧
      r.status = if b.toNat.testBit (i % 8) then .moneyFlew else .noMoneyFlew

namespace Trail

variable (trail : Trail computors wanted tick s r)

theorem first_info : Packet.first .tickInfo TickInfo.ofBytes s.answer = .ok (some trail.info) := by
  rw [← TickInfo.hearAll_exchange]
  exact Session.hearAll_of_run trail.run_info

/-- The transaction of a receipt was in one of the messages with which the third answer begins. -/
theorem exists_message : ∃ message ∈ Packet.leading .broadcastTransaction trail.header.body.transactionCount
    trail.afterHeader.answer, Transaction.ofBytes message.payload = .ok r.transaction.value :=
  (Transaction.decoded_of_run_fetch trail.run_transactions).exists_message (mem_of_findIn trail.listed).1

theorem headerSignature_eq : r.headerSignature = checkHeader computors trail.header :=
  congrArg Receipt.headerSignature trail.receipt_eq

theorem status_eq : r.status = statusIn trail.report r.transaction.value.hash :=
  congrArg Receipt.status trail.receipt_eq

theorem status_eq_unknown_iff :
    r.status = .unknown ↔ ∀ report ∈ trail.report, r.transaction.value.hash ∉ report.digests := by
  rw [trail.status_eq]
  cases trail.report with
  | none => simp [statusIn]
  | some report => simp only [statusIn, TxStatus.statusOf_eq_unknown_iff, Option.mem_def, Option.some.injEq, forall_eq']

/-- The status is the bit of the digest in the report; a report that was read has one for each of its digests. -/
theorem exists_status_bit {report : TxStatus} (hreport : report ∈ trail.report) {i : Nat}
    (hplace : FirstPlace report.digests r.transaction.value.hash i) :
    ∃ b, report.moneyFlew.get? (i / 8) = some b ∧
      r.status = if b.toNat.testBit (i % 8) then .moneyFlew else .noMoneyFlew := by
  obtain ⟨message, -, -, hdecoded⟩ := Packet.exists_of_first (hreport ▸ trail.first_report)
  rw [trail.status_eq, hreport]
  exact TxStatus.statusOf_of_read hdecoded hplace

end Trail

/-- **A receipt rests on evidence.** Whatever the node sends, where a receipt comes out there is a message for which
the receipt's trail is evidence. -/
theorem exists_evidence (h : ((locate computors wanted tick).run s).1 = .ok (.found r)) :
    ∃ (trail : Trail computors wanted tick s r) (message : Packet), trail.Evidence message := by
  obtain ⟨trail⟩ := exists_trail h
  obtain ⟨message, hsent, hdecoded⟩ := trail.exists_message
  obtain ⟨-, hnamed⟩ := mem_of_findIn trail.listed
  obtain ⟨hlong, hletters⟩ := Identity.take_of_same hnamed
  obtain ⟨hzero, hslot⟩ := TickData.slotOf?_eq_some_iff.mp (slotOf?_of_findIn trail.listed)
  have hvalid : r.transaction.integrity = .ofBool r.transaction.value.valid :=
    congrArg (fun r => r.transaction.integrity) trail.receipt_eq
  refine ⟨trail, message, {
    current := trail.first_info
    past := trail.past
    header := trail.first_header
    epoch := by simpa [TickData.isEmpty] using trail.published
    sent := hsent
    decoded := hdecoded
    hash_eq := ?_
    isZero_hash := hzero
    slot := hslot
    tick_eq := congrArg Receipt.tick trail.receipt_eq
    long := hlong
    letters := hletters
    integrity_iff := hvalid ▸ Integrity.ofBool_eq_verified_iff
    unchecked_iff := ?_
    headerSignature_iff := ?_
    report := trail.first_report
    unknown_iff := trail.status_eq_unknown_iff
    status := fun report hreport i hplace => trail.exists_status_bit hreport hplace }⟩
  · rw [(Transaction.ofBytes_eq_ok_iff.mp hdecoded).1]
    rfl
  · rw [trail.headerSignature_eq, checkHeader, Option.map_eq_none_iff]
  · rintro set rfl
    rw [trail.headerSignature_eq, checkHeader, Option.map_some, Option.some.injEq,
      Integrity.ofBool_eq_verified_iff]

/-- At a node that gives a report, the status of the receipt is in it. -/
theorem exists_evidence_nodeWith :
    ∃ (trail : Trail none (Transaction.blank 1 []).id 5 (Session.start (nodeWith 5) Nonce.ofNat) (receiptOf 5))
        (message : Packet),
      trail.Evidence message ∧ sha256 message.payload = (Transaction.blank 1 []).hash ∧
        (receiptOf 5).status = .moneyFlew := by
  obtain ⟨given, _⟩ := exists_trail_nodeWith 5
  obtain ⟨trail, message, hevidence⟩ := exists_evidence (congrArg Prod.fst given.run)
  exact ⟨trail, message, hevidence, hevidence.hash_eq.symm, status_receiptOf 5⟩

end Location

end LightClient
