import LightClient.Proofs.Archive.CanonicalOrder
import LightClient.Proofs.Identity.Comparing
import LightClient.Proofs.Locate.Node
/-!
# Which tick a receipt is about

A receipt from an archive names the tick of the archive's header. A receipt from a node names the tick that
was asked for, and neither the tick in the header that the node gave nor the one in its status report is
compared with it. So the receipt is about the tick it names exactly when the node gave records of that tick
(`found_about_iff`), and a node can pass off any header that was ever published as one of the tick
(`found_other_tick`).
-/
namespace LightClient

/-- A receipt is about the tick that it names: the header in whose slot the transaction was found is of this
tick, and so is the report that the status was read from. A verified header is signed by a computor. -/
structure Receipt.About (r : Receipt) (computors : Option ComputorSet) (header : TickHeader)
    (report : Option TxStatus) : Prop where
  listed : header.body.slotOf? r.transaction.value.hash = some r.slot
  headed : header.body.tick = r.tick
  reported : r.status ≠ .unknown →
    ∃ rep, report = some rep ∧ rep.tick = r.tick ∧ rep.statusOf r.transaction.value.hash = r.status
  signed : r.headerSignature = some .verified →
    ∃ set key, computors = some set ∧ set.key? header.body.index = some key ∧ header.verify key = true

namespace Location

variable {computors : Option ComputorSet} {wanted : String} {tick : UInt32} {header : TickHeader}

theorem signed_of_checkHeader (h : checkHeader computors header = some .verified) :
    ∃ set key, computors = some set ∧ set.key? header.body.index = some key ∧ header.verify key = true := by
  obtain ⟨set, rfl, hset⟩ := Option.map_eq_some_iff.mp h
  have hvalid : header.valid set = true := by
    cases hv : header.valid set with
    | true => rfl
    | false => rw [hv] at hset; cases hset
  rw [TickHeader.valid] at hvalid
  split at hvalid
  · rename_i key hkey
    exact ⟨set, key, rfl, hkey, hvalid⟩
  · cases hvalid

/-- A receipt with a trail is about its tick exactly if the records that the node gave are. -/
theorem Trail.about_iff {s : Session Peer} {r : Receipt} (trail : Trail computors wanted tick s r) :
    r.About computors trail.header trail.report ↔ trail.header.body.tick = tick ∧
      (r.status ≠ .unknown → ∀ report ∈ trail.report, report.tick = tick) := by
  have htick : r.tick = tick := congrArg Receipt.tick trail.receipt_eq
  have hstatus : r.status = statusIn trail.report r.transaction.value.hash :=
    congrArg Receipt.status trail.receipt_eq
  have hsignature : r.headerSignature = checkHeader computors trail.header :=
    congrArg Receipt.headerSignature trail.receipt_eq
  constructor
  · intro about
    refine ⟨about.headed.trans htick, fun hknown report hreport => ?_⟩
    obtain ⟨rep, hrep, hreptick, -⟩ := about.reported hknown
    obtain rfl : rep = report := Option.some.inj (hrep.symm.trans hreport)
    exact hreptick.trans htick
  · rintro ⟨hheader, hreported⟩
    refine ⟨slotOf?_of_findIn trail.listed, hheader.trans htick.symm, fun hknown => ?_,
      fun hverified => signed_of_checkHeader (hsignature ▸ hverified)⟩
    cases hreport : trail.report with
    | none => rw [hreport] at hstatus; exact absurd hstatus hknown
    | some rep =>
      rw [hreport] at hstatus
      exact ⟨rep, rfl, (hreported hknown rep hreport).trans htick.symm, hstatus.symm⟩

/-- A transaction that a header lists is found by its own identity. -/
theorem findIn_id {transaction : Transaction} {slot : Nat}
    (h : header.body.slotOf? transaction.hash = some slot) :
    findIn header ([transaction].take header.body.transactionCount) transaction.id =
      some (slot, transaction) := by
  have hcount : header.body.transactionCount ≠ 0 := by
    intro hzero
    rw [TickData.transactionCount, List.length_eq_zero_iff] at hzero
    rw [TickData.slotOf?, hzero] at h
    cases h
  have htake : [transaction].take header.body.transactionCount = [transaction] :=
    List.take_of_length_le (Nat.one_le_iff_ne_zero.mpr hcount)
  have hsame : Identity.same transaction.id transaction.id = true := Identity.same_encode_self ..
  simp only [findIn, htake, List.find?_cons, hsame, bind, Option.bind_some, h, pure]

/-- What a receipt says about the tick it names. From a node, the header and the report are the first ones in
its answers, of whatever tick; any header that was published gives a receipt for any tick that has passed.
From an archive, the receipt names the header's own tick. -/
theorem found_about_iff (computors : Option ComputorSet) (wanted : String) (tick : UInt32) :
    (∀ (s : Session Peer) (r : Receipt), ((locate computors wanted tick).run s).1 = .ok (.found r) →
      ∃ trail : Trail computors wanted tick s r, r.tick = tick ∧
        Packet.first .broadcastTickHeader TickHeader.ofBytes trail.afterInfo.answer =
          .ok (some trail.header) ∧
        Packet.first .txStatus TxStatus.ofBytes trail.afterTransactions.answer = .ok trail.report ∧
        (r.About computors trail.header trail.report ↔ trail.header.body.tick = tick ∧
          (r.status ≠ .unknown → ∀ report ∈ trail.report, report.tick = tick))) ∧
    (∀ (nonces : Nat → Nonce) (info : TickInfo) (header : TickHeader) (t : Transaction) (slot : Nat)
        (report : Option TxStatus), tick < info.tick → header.body.isEmpty = false →
      header.body.slotOf? t.hash = some slot → t.body.input.length ≤ Transfer.maxInput →
      (∀ r ∈ report, r.digests.length ≤ TxStatus.maxDigests) →
      ((locate computors t.id tick).run
          (Session.start (node nonces info header [t] report) nonces)).1 =
        .ok (.found (receipt tick slot t (checkHeader computors header) (statusIn report t.hash)))) ∧
    ∀ (archive : Archive) (r : Receipt), locateInArchive computors wanted archive = .found r →
      r.tick = archive.header.body.tick ∧ r.About computors archive.header none := by
  refine ⟨fun s r h => ?_, fun nonces info header t slot report hpast hpublished hslot hinput hreport => ?_,
    fun archive r h => ?_⟩
  · obtain ⟨trail⟩ := exists_trail h
    exact ⟨trail, congrArg Receipt.tick trail.receipt_eq, trail.first_header, trail.first_report,
      trail.about_iff⟩
  · obtain ⟨trail, -⟩ := exists_trail_node computors nonces hpast hpublished (by simpa using hinput) hreport
      (findIn_id hslot)
    rw [trail.run]
  · rw [locateInArchive] at h
    split at h
    · rename_i slot transaction hlisted
      cases h
      exact ⟨rfl, slotOf?_of_findIn hlisted, rfl, fun hknown => absurd rfl hknown, signed_of_checkHeader⟩
    · cases h

/-! ## A node with a header of another tick -/

/-- The header that lists one transaction, for some tick. -/
def headerOf (given : UInt32) : TickHeader := .listing given [.blank 1 []] (by decide)

/-- The report that money moved in this transaction, for some tick. -/
def reportOf (given : UInt32) : TxStatus := ⟨6, given, .replicate 128 1, [(Transaction.blank 1 []).hash]⟩

/-- A node past tick 5 that gives these for every tick. -/
def nodeWith (given : UInt32) : Peer :=
  node Nonce.ofNat ⟨0, 0, 6, 0, 0, 0⟩ (headerOf given) [.blank 1 []] (some (reportOf given))

/-- What comes of looking there for the transaction in tick 5. -/
def receiptOf (given : UInt32) : Receipt :=
  receipt 5 0 (.blank 1 []) none (statusIn (some (reportOf given)) (Transaction.blank 1 []).hash)

theorem slotOf?_headerOf (given : UInt32) :
    (headerOf given).body.slotOf? (Transaction.blank 1 []).hash = some 0 :=
  TickHeader.slotOf?_listing Transaction.isZero_hash_blank.1

theorem status_receiptOf (given : UInt32) : (receiptOf given).status = .moneyFlew := by
  have hstatus (d : Digest) : TxStatus.statusOf ⟨6, given, .replicate 128 1, [d]⟩ d = .moneyFlew := by
    have hfirst : [d].findIdx? (· == d) = some 0 := by rw [List.findIdx?_cons, beq_self_eq_true, if_pos rfl]
    have hbit : TxStatus.bit ⟨6, given, .replicate 128 1, [d]⟩ 0 = true := rfl
    simp only [TxStatus.statusOf, hfirst, hbit, if_true]
  simp only [receiptOf, receipt, statusIn, reportOf, hstatus]

theorem exists_trail_nodeWith (given : UInt32) :
    ∃ trail : Trail none (Transaction.blank 1 []).id 5 (Session.start (nodeWith given) Nonce.ofNat)
        (receiptOf given),
      trail.header = headerOf given ∧ trail.report = some (reportOf given) :=
  exists_trail_node none Nonce.ofNat (by decide) rfl (by decide)
    (by simp [reportOf, TxStatus.maxDigests, TickData.slotCount]) (findIn_id (slotOf?_headerOf given))

/-- From a node that gives records of tick 5, the receipt is about tick 5. -/
theorem found_about_iff_honest :
    ∃ trail : Trail none (Transaction.blank 1 []).id 5 (Session.start (nodeWith 5) Nonce.ofNat) (receiptOf 5),
      (receiptOf 5).status = .moneyFlew ∧ (receiptOf 5).About none trail.header trail.report := by
  obtain ⟨given, hheader, hreport⟩ := exists_trail_nodeWith 5
  obtain ⟨hfound, -, -⟩ := found_about_iff none (Transaction.blank 1 []).id 5
  obtain ⟨trail, -, -, -, habout⟩ := hfound (Session.start (nodeWith 5) Nonce.ofNat) (receiptOf 5)
    (by rw [given.run])
  obtain rfl : given = trail := Subsingleton.elim ..
  refine ⟨given, status_receiptOf 5, habout.mpr ⟨by rw [hheader]; rfl, fun _ report h => ?_⟩⟩
  obtain rfl : reportOf 5 = report := Option.some.inj (hreport.symm.trans h)
  rfl

/-- A node that gives records of tick 4 for tick 5 gets a receipt that names tick 5. -/
theorem found_other_tick :
    ∃ trail : Trail none (Transaction.blank 1 []).id 5 (Session.start (nodeWith 4) Nonce.ofNat) (receiptOf 4),
      ((locate none (Transaction.blank 1 []).id 5).run (Session.start (nodeWith 4) Nonce.ofNat)).1 =
        .ok (.found (receiptOf 4)) ∧
      (receiptOf 4).tick = 5 ∧ trail.header.body.tick = 4 ∧
      (receiptOf 4).status = .moneyFlew ∧ (∃ report ∈ trail.report, report.tick = 4) ∧
      ¬ (receiptOf 4).About none trail.header trail.report := by
  obtain ⟨trail, hheader, hreport⟩ := exists_trail_nodeWith 4
  have htick : trail.header.body.tick = 4 := by rw [hheader]; rfl
  refine ⟨trail, by rw [trail.run], rfl, htick, status_receiptOf 4, ⟨_, hreport, rfl⟩, fun about => ?_⟩
  exact absurd (htick.symm.trans about.headed) (by decide)

end Location

end LightClient
