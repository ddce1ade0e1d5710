import LightClient.Proofs.Exchange.Foreign
import LightClient.Proofs.Locate.InArchive
import LightClient.Proofs.Locate.Server
/-!
# Looking at a node and in an archive

The order in which transactions come does not matter for what is found among them, as long as no two have one digest
(`findIn_eq_of_perm`). A node sends them in any order and an archive holds them in that of the slots, so looking for a
transaction at a node that serves a tick and looking in the archive of this tick come to the same, but for whether
money moved (`node_agrees_with_archive`).
-/
namespace LightClient.Location

variable {header : TickHeader} {transactions transactions' : List Transaction} {wanted : String}

/-! ## The order of the transactions -/

theorem findIn_eq_of_find? (h : transactions.find? (fun t => Identity.same t.id wanted) =
    transactions'.find? fun t => Identity.same t.id wanted) :
    findIn header transactions wanted = findIn header transactions' wanted := by
  rw [findIn, findIn, h]

/-- Transactions that a text names have one digest, so where digests are distinct it names one transaction at most. -/
theorem findIn_eq_of_perm (hperm : transactions.Perm transactions')
    (hnodup : (transactions.map Transaction.hash).Nodup) :
    findIn header transactions wanted = findIn header transactions' wanted := by
  refine findIn_eq_of_find? ?_
  cases hfind : transactions.find? fun t => Identity.same t.id wanted with
  | none =>
    rw [List.find?_eq_none] at hfind
    exact (List.find?_eq_none.mpr fun t ht => hfind t (hperm.mem_iff.mpr ht)).symm
  | some t =>
    have hnamed : Identity.same t.id wanted = true := by simpa using List.find?_some hfind
    have hmem := List.mem_of_find?_eq_some hfind
    obtain ⟨t', hfind'⟩ : ∃ t', transactions'.find? (fun t => Identity.same t.id wanted) = some t' := by
      rw [← Option.isSome_iff_exists, List.find?_isSome]
      exact ⟨t, hperm.mem_iff.mp hmem, hnamed⟩
    have hnamed' : Identity.same t'.id wanted = true := by simpa using List.find?_some hfind'
    have hmem' := hperm.mem_iff.mpr (List.mem_of_find?_eq_some hfind')
    rw [hfind', List.inj_on_of_nodup_map hnodup hmem hmem' (Identity.eq_of_same hnamed hnamed')]

/-! ## Results that differ in the status only -/

/-- Two results of looking for a transaction that say the same, but for whether money moved. -/
inductive AgreeButStatus : Location → Location → Prop where
  | notFound : AgreeButStatus .notFound .notFound
  | found {r r' : Receipt} (tick : r.tick = r'.tick) (slot : r.slot = r'.slot)
      (transaction : r.transaction = r'.transaction) (headerSignature : r.headerSignature = r'.headerSignature) :
      AgreeButStatus (.found r) (.found r')

/-- At a node that serves the transactions of an archive, in whatever order, looking for a transaction comes to the
same as in the archive. -/
theorem Service.agrees {service : Service} {nonces : Nat → Nonce} (archive : Archive)
    (h : service.Sound nonces archive.header.body.tick) (hheader : service.header = archive.header)
    (hperm : service.transactions.Perm archive.transactions)
    (hlisted : archive.transactions.map Transaction.hash = archive.header.body.listed)
    (hnodup : archive.header.body.listed.Nodup) (computors : Option ComputorSet) (wanted : String) :
    ∃ location, ((locate computors wanted archive.header.body.tick).run
        (Session.start (service.node nonces) nonces)).1 = .ok location ∧
      location.AgreeButStatus (locateInArchive computors wanted archive) := by
  have hhash : (service.transactions.map Transaction.hash).Perm archive.header.body.listed :=
    hlisted ▸ hperm.map _
  -- There are as many transactions as listed digests, so the client takes all of them.
  have hall : service.transactions.take service.header.body.transactionCount = service.transactions := by
    rw [hheader, ← TickData.length_listed, ← hhash.length_eq, List.length_map, List.take_length]
  rw [h.run_locate, hall, hheader, findIn_eq_of_perm hperm (hhash.nodup_iff.mpr hnodup), locateInArchive]
  cases findIn archive.header archive.transactions wanted with
  | none => exact ⟨_, rfl, .notFound⟩
  | some place => exact ⟨_, rfl, .found rfl rfl rfl rfl⟩

/-- **A node and an archive come to the same.** A header of a tick that was produced lists some distinct digests, and
the transactions with these digests are written to an archive in whatever order. The archive can be read back, and
looking in it for a transaction comes to the same as at a node that is past the tick and serves this header and these
transactions, again in whatever order, with a report or without one, and whatever foreign messages it sends besides:
both find nothing, or both find the same transaction in the same slot, with the same checks. Only the status may
differ. -/
theorem node_agrees_with_archive (hepoch : header.body.epoch ≠ 0) (hnodup : header.body.listed.Nodup)
    (hinput : ∀ t ∈ transactions, t.body.input.length ≤ Transfer.maxInput)
    (hhash : (transactions.map Transaction.hash).Perm header.body.listed) :
    Archive.write .unlimited header transactions = (Archive.toBytes header transactions, .ok ()) ∧
    ∀ (sink : Sink) (bytes : Bytes) (source : Source),
      Archive.write sink header transactions = (bytes, .ok ()) → source.Delivers bytes →
      ∃ ts, (Archive.read source).1 = .ok ⟨header, ts⟩ ∧
        ∀ (computors : Option ComputorSet) (wanted : String) (service : Service) (nonces : Nat → Nonce)
            (s : Session Peer),
          service.header = header → service.transactions.Perm transactions →
          header.body.tick < service.info.tick → (∀ r ∈ service.report, r.digests.length ≤ TxStatus.maxDigests) →
          (service.endsInfo = true → (nonces 0).val ≠ (nonces 1).val) →
          (Session.start (service.node nonces) nonces).AgreeOn
            ((locate computors wanted header.body.tick).nonces (Session.start (service.node nonces) nonces)) s →
          ∃ location, ((locate computors wanted header.body.tick).run s).1 = .ok location ∧
            location.AgreeButStatus (locateInArchive computors wanted ⟨header, ts⟩) := by
  refine ⟨Archive.write_unlimited header transactions, fun sink bytes source hwrite hsource => ?_⟩
  obtain rfl := Archive.write_of_ok hwrite
  obtain ⟨source', hread, -⟩ := Archive.read_of_delivers hinput hsource
  obtain ⟨ts, horder, hkept, hlisted⟩ := Archive.canonicalOrder_perm hnodup hhash
  have hall : transactions.take header.body.transactionCount = transactions := by
    rw [← TickData.length_listed, ← hhash.length_eq, List.length_map, List.take_length]
  rw [hall, horder] at hread
  refine ⟨ts, congrArg Prod.fst hread, ?_⟩
  rintro computors wanted service nonces s rfl hserved hpast hreported hapart hagree
  have hsound : service.Sound nonces service.header.body.tick := {
    past := hpast
    published := by simpa [TickData.isEmpty] using hepoch
    inputs := fun t ht => hinput t (hserved.mem_iff.mp ht)
    reported := hreported
    apart := hapart }
  obtain ⟨location, hrun, hagrees⟩ := Service.agrees ⟨service.header, ts⟩ hsound rfl
    (hserved.trans hkept.symm) hlisted hnodup computors wanted
  have hsame := congrArg Prod.fst (Dialogue.observed_of_agreeOn hagree)
  exact ⟨location, hsame.trans hrun, hagrees⟩

/-! ## A node and an archive with two transactions -/

/-- A service of two transactions in the order of their slots, with a report on the second. -/
def twoServed : Service where
  info := ⟨0, 0, 6, 0, 0, 0⟩
  header := Archive.twoRecords
  transactions := [.blank 1 [], .blank 2 [7]]
  report := some ⟨6, 5, .replicate 128 1, [(Transaction.blank 2 [7]).hash]⟩
  endsInfo := true
  endsHeader := true
  endsReport := false

/-- The node of this service, which broadcasts the end of an answer before it is asked for anything. -/
def twoServedLoudly : Peer := { twoServed.node Nonce.ofNat with queue := [ending 0] }

theorem agreeOn_twoServedLoudly {nonces : List UInt32} (h : 0 ∉ nonces) :
    (Session.start (twoServed.node Nonce.ofNat) Nonce.ofNat).AgreeOn nonces
      (Session.start twoServedLoudly Nonce.ofNat) where
  link := ⟨Event.own_cons_foreign (by rwa [Packet.nonce_holding]) [], fun _ => rfl, rfl⟩
  nonces_eq := rfl
  sent_eq := rfl

/-- The archive was written the second transaction first, and the second is found at this node and in the archive. -/
theorem node_agrees_with_archive_two :
    ∃ archive r r', (Archive.read (.ofBytes (Archive.toBytes Archive.twoRecords Archive.swapped))).1 = .ok archive ∧
      ((locate none (Transaction.blank 2 [7]).id 5).run (Session.start twoServedLoudly Nonce.ofNat)).1 =
        .ok (.found r) ∧
      locateInArchive none (Transaction.blank 2 [7]).id archive = .found r' ∧
      r.slot = r'.slot ∧ r.transaction = r'.transaction ∧
      r.transaction.value.hash = (Transaction.blank 2 [7]).hash := by
  obtain ⟨hwrite, hread⟩ := node_agrees_with_archive (by decide) Archive.nodup_twoRecords Archive.input_swapped
    Archive.perm_swapped
  obtain ⟨ts, hok, hlook⟩ := hread .unlimited _ _ hwrite (Source.delivers_ofBytes _)
  obtain ⟨location, hrun, hagrees⟩ := hlook none (Transaction.blank 2 [7]).id twoServed Nonce.ofNat
    (Session.start twoServedLoudly Nonce.ofNat) rfl (.swap ..) (by decide)
    (by simp [twoServed, TxStatus.maxDigests, TickData.slotCount]) (by decide)
    (agreeOn_twoServedLoudly (Dialogue.zero_not_mem_nonces _ _))
  obtain ⟨slot, t, hfind, hhash⟩ := exists_findIn_twoRecords hok
  have hoffline : locateInArchive none (Transaction.blank 2 [7]).id ⟨Archive.twoRecords, ts⟩ = .found _ :=
    locateInArchive_of_findIn hfind
  rw [hoffline] at hagrees
  cases hagrees with
  | @found r _ _ hslot htransaction _ =>
    exact ⟨_, r, _, hok, hrun, hoffline, hslot, htransaction, htransaction ▸ hhash⟩

end LightClient.Location
