import LightClient.Locate
import LightClient.Proofs.Identity.Comparing
import LightClient.Proofs.Tick.Slots
/-!
# Looking for an identity among transactions

A text names at most one digest, so all transactions that it names have that digest, and the first of them stands
for all: a transaction is found where the header lists the named digest and some transaction has it, and only there
(`exists_findIn`, `findIn_eq_none_iff`).
-/
namespace LightClient.Location

variable {header : TickHeader} {transactions : List Transaction} {wanted : String} {slot : Nat}
  {transaction : Transaction}

theorem findIn_eq_some_iff :
    findIn header transactions wanted = some (slot, transaction) ↔
      transactions.find? (fun t => Identity.same t.id wanted) = some transaction ∧
        header.body.slotOf? transaction.hash = some slot := by
  simp only [findIn, bind, Option.bind_eq_some_iff, pure, Option.some.injEq, Prod.mk.injEq]
  constructor
  · rintro ⟨t, ht, slot, hslot, rfl, rfl⟩
    exact ⟨ht, hslot⟩
  · rintro ⟨ht, hslot⟩
    exact ⟨transaction, ht, slot, hslot, rfl, rfl⟩

theorem slotOf?_of_findIn (h : findIn header transactions wanted = some (slot, transaction)) :
    header.body.slotOf? transaction.hash = some slot := (findIn_eq_some_iff.mp h).2

/-- What is found is one of the transactions, named by the text. -/
theorem mem_of_findIn (h : findIn header transactions wanted = some (slot, transaction)) :
    transaction ∈ transactions ∧ Identity.same transaction.id wanted = true := by
  obtain ⟨hfind, -⟩ := findIn_eq_some_iff.mp h
  exact ⟨List.mem_of_find?_eq_some hfind, by simpa using List.find?_some hfind⟩

/-- A transaction with the named digest is found if the header lists that. -/
theorem exists_findIn {d : Digest} (hnamed : Identity.same (Identity.encode .lower d) wanted = true)
    (hslot : header.body.slotOf? d = some slot) (hmem : d ∈ transactions.map Transaction.hash) :
    ∃ t, findIn header transactions wanted = some (slot, t) ∧ t.hash = d := by
  obtain ⟨t, ht, rfl⟩ := List.mem_map.mp hmem
  obtain ⟨first, hfirst⟩ : ∃ first, transactions.find? (fun t => Identity.same t.id wanted) = some first := by
    rw [← Option.isSome_iff_exists, List.find?_isSome]
    exact ⟨t, ht, hnamed⟩
  have hfirstNamed : Identity.same first.id wanted = true := by simpa using List.find?_some hfirst
  have hsame : first.hash = t.hash := Identity.eq_of_same hfirstNamed hnamed
  exact ⟨first, findIn_eq_some_iff.mpr ⟨hfirst, hsame ▸ hslot⟩, hsame⟩

/-- Nothing is found exactly if no transaction has a digest that is listed and named. -/
theorem findIn_eq_none_iff :
    findIn header transactions wanted = none ↔
      ∀ d ∈ header.body.listed, Identity.same (Identity.encode .lower d) wanted = true →
        d ∉ transactions.map Transaction.hash := by
  constructor
  · intro hnone d hlisted hnamed hmem
    obtain ⟨slot, hslot⟩ := TickData.exists_slotOf?_iff.mpr hlisted
    obtain ⟨t, hfound, -⟩ := exists_findIn hnamed hslot hmem
    rw [hnone] at hfound
    cases hfound
  · intro h
    cases hfound : findIn header transactions wanted with
    | none => rfl
    | some place =>
      obtain ⟨slot, t⟩ := place
      obtain ⟨hmem, hnamed⟩ := mem_of_findIn hfound
      have hlisted : t.hash ∈ header.body.listed := TickData.exists_slotOf?_iff.mp ⟨slot, slotOf?_of_findIn hfound⟩
      exact absurd (List.mem_map_of_mem hmem) (h t.hash hlisted hnamed)

end LightClient.Location
