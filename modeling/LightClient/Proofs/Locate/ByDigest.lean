import LightClient.Proofs.Archive.Acceptance
import LightClient.Proofs.Locate.Find
/-!
# Looking for a text is looking for a digest

The search takes the first transaction that the text names, and gives up if the header does not list its digest. It
never gives up too early, since all that the text names has one digest: something is found if and only if some
transaction is named whose digest the header lists (`isSome_findIn_iff`). A text that is read as a digest names this
digest only, so looking for the text is looking for the digest (`isSome_findIn_of_decode`).
-/
namespace LightClient.Location

variable {header : TickHeader} {transactions : List Transaction} {wanted : String} {slot : Nat}
  {d : Digest}

theorem isSome_findIn_iff :
    (findIn header transactions wanted).isSome = true ↔
      ∃ t ∈ transactions, Identity.same t.id wanted = true ∧ t.hash ∈ header.body.listed := by
  constructor
  · intro hsome
    obtain ⟨⟨slot, t⟩, hfound⟩ := Option.isSome_iff_exists.mp hsome
    obtain ⟨hmem, hnamed⟩ := mem_of_findIn hfound
    exact ⟨t, hmem, hnamed, TickData.exists_slotOf?_iff.mp ⟨slot, slotOf?_of_findIn hfound⟩⟩
  · rintro ⟨t, hmem, hnamed, hlisted⟩
    obtain ⟨slot, hslot⟩ := TickData.exists_slotOf?_iff.mpr hlisted
    obtain ⟨found, hfound, -⟩ := exists_findIn hnamed hslot (List.mem_map_of_mem hmem)
    rw [hfound]
    rfl

theorem isSome_findIn_of_decode (h : Identity.decode wanted = .ok d) :
    (findIn header transactions wanted).isSome = true ↔
      d ∈ header.body.listed ∧ d ∈ transactions.map Transaction.hash := by
  have hnamed (t : Transaction) : Identity.same t.id wanted = true ↔ t.hash = d := Identity.same_iff_of_decode h
  rw [isSome_findIn_iff, List.mem_map]
  simp only [hnamed]
  constructor
  · rintro ⟨t, hmem, rfl, hlisted⟩
    exact ⟨hlisted, t, hmem, rfl⟩
  · rintro ⟨hlisted, t, hmem, rfl⟩
    exact ⟨t, hmem, rfl, hlisted⟩

/-- Looking for a text is looking for a digest. Something is found if and only if some transaction is named whose
digest the header lists; it is one of the transactions, it has the digest of all that are named, and the slot is the
first that holds this digest. A text that is read as a digest names this digest only, so that something is found for it
if and only if the header lists the digest and a transaction has it. -/
theorem findIn_by_digest (header : TickHeader) (transactions : List Transaction) (wanted : String) :
    ((findIn header transactions wanted).isSome = true ↔
      ∃ t ∈ transactions, Identity.same t.id wanted = true ∧ t.hash ∈ header.body.listed) ∧
    (∀ slot t, findIn header transactions wanted = some (slot, t) →
      t ∈ transactions ∧ Identity.same t.id wanted = true ∧ t.hash.isZero = false ∧
        FirstPlace header.body.digests.toList t.hash slot) ∧
    (∀ t t' : Transaction, Identity.same t.id wanted = true → Identity.same t'.id wanted = true → t.hash = t'.hash) ∧
    ∀ d, Identity.decode wanted = .ok d →
      (∀ d', Identity.same (Identity.encode .lower d') wanted = true ↔ d' = d) ∧
      ((findIn header transactions wanted).isSome = true ↔
        d ∈ header.body.listed ∧ d ∈ transactions.map Transaction.hash) := by
  refine ⟨isSome_findIn_iff, fun slot t hfound => ?_, fun t t' => Identity.eq_of_same, fun d hread => ?_⟩
  · obtain ⟨hmem, hnamed⟩ := mem_of_findIn hfound
    obtain ⟨hdigest, hplace⟩ := TickData.slotOf?_eq_some_iff.mp (slotOf?_of_findIn hfound)
    exact ⟨hmem, hnamed, hdigest, hplace⟩
  · exact ⟨fun d' => Identity.same_iff_of_decode hread, isSome_findIn_of_decode hread⟩

/-- The second of two records is found by its identity in capitals, in its own slot. -/
theorem findIn_by_digest_capitals :
    ∃ slot t, findIn Archive.twoRecords Archive.swapped (Identity.encode .upper (Transaction.blank 1 []).hash) =
        some (slot, t) ∧
      t.hash = (Transaction.blank 1 []).hash ∧
      FirstPlace Archive.twoRecords.body.digests.toList (Transaction.blank 1 []).hash slot := by
  obtain ⟨-, hplace, -, hread⟩ := findIn_by_digest Archive.twoRecords Archive.swapped
    (Identity.encode .upper (Transaction.blank 1 []).hash)
  obtain ⟨hnames, hsome⟩ := hread _ (Identity.decode_encode ..)
  have hlisted : (Transaction.blank 1 []).hash ∈ Archive.twoRecords.body.listed := by
    rw [Archive.listed_twoRecords]
    exact List.mem_cons_self
  have hmem : (Transaction.blank 1 []).hash ∈ Archive.swapped.map Transaction.hash :=
    List.mem_map_of_mem (.tail _ (.head _))
  obtain ⟨⟨slot, t⟩, hfound⟩ := Option.isSome_iff_exists.mp (hsome.mpr ⟨hlisted, hmem⟩)
  obtain ⟨-, hnamed, -, hfirst⟩ := hplace slot t hfound
  have hhash : t.hash = (Transaction.blank 1 []).hash := (hnames t.hash).mp hnamed
  exact ⟨slot, t, hfound, hhash, hhash ▸ hfirst⟩

end LightClient.Location
