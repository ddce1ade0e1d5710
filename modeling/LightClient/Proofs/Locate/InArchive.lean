import LightClient.Proofs.Archive.Acceptance
import LightClient.Proofs.Locate.Find
/-!
# Looking for a transaction in an archive

An archive that was read has the transactions that its header lists, each digest once, in the order of the slots
(`listed_of_read`). So looking for a transaction in it decides whether the header lists the named digest, and the
receipt says where and shows the transaction with this digest (`found_in_archive_iff`).
-/
namespace LightClient

/-- A digest that is listed once is in one slot only. -/
theorem TickData.slot_unique {d : TickData} {digest : Digest} {i j : Nat} (hnodup : d.listed.Nodup)
    (hdigest : digest.isZero = false) (hi : d.digests.get? i = some digest)
    (hj : d.digests.get? j = some digest) : i = j := by
  rw [listed, List.Nodup, List.pairwise_filter, List.pairwise_iff_getElem] at hnodup
  obtain ⟨hilt, rfl⟩ := List.getElem?_eq_some_iff.mp hi
  obtain ⟨hjlt, heq⟩ := List.getElem?_eq_some_iff.mp hj
  have hnot : (!d.digests.toList[i].isZero) = true := by rw [hdigest]; rfl
  rcases Nat.lt_trichotomy i j with hlt | hsame | hgt
  · exact absurd heq.symm (hnodup i j hilt hjlt hlt hnot (heq ▸ hnot))
  · exact hsame
  · exact absurd heq (hnodup j i hjlt hilt hgt (heq ▸ hnot) hnot)

namespace Archive

variable {s : Source} {archive : Archive}

theorem exists_canonicalOrder_of_read (h : (read s).1 = .ok archive) :
    ∃ records, canonicalOrder archive.header records = .ok archive.transactions := by
  rw [read] at h
  rcases hheader : readHeader s with ⟨e | header, s₁⟩ <;> simp only [hheader, reduceCtorEq] at h
  rcases hrecords : Transaction.readMany header.body.transactionCount s₁ with ⟨e | records, s₂⟩ <;>
    simp only [hrecords, reduceCtorEq] at h
  cases horder : canonicalOrder header records with
  | error e => simp [horder, Except.map] at h
  | ok ts =>
    simp only [horder, Except.map, Except.ok.injEq] at h
    subst h
    exact ⟨records, horder⟩

/-- An archive that was read has the transactions that its header lists, and no digest is listed twice. -/
theorem listed_of_read (h : (read s).1 = .ok archive) :
    archive.header.body.listed.Nodup ∧
      archive.transactions.map Transaction.hash = archive.header.body.listed := by
  obtain ⟨records, horder⟩ := exists_canonicalOrder_of_read h
  exact ⟨nodup_of_canonicalOrder horder, map_hash_of_canonicalOrder horder⟩

end Archive

namespace Location

variable {s : Source} {archive : Archive}

/-- The mark of a header's signature: none without a computor list. -/
def headerMark (computors : Option ComputorSet) (header : TickHeader) : Option Integrity :=
  match computors with
  | none => none
  | some set => if header.valid set then some .verified else some .unverified

theorem checkHeader_eq (computors : Option ComputorSet) (header : TickHeader) :
    checkHeader computors header = headerMark computors header := by
  cases computors with
  | none => rfl
  | some set =>
    rw [checkHeader, headerMark, Option.map_some]
    cases header.valid set <;> rfl

theorem locateInArchive_of_findIn {computors : Option ComputorSet} {wanted : String} {slot : Nat} {t : Transaction}
    (h : findIn archive.header archive.transactions wanted = some (slot, t)) :
    locateInArchive computors wanted archive =
      .found ⟨archive.header.body.tick, slot, ⟨t, .ofBool t.valid⟩, headerMark computors archive.header, .unknown⟩ := by
  rw [locateInArchive, h, ← checkHeader_eq]
  rfl

/-- In an archive that was read, a transaction is found wherever the header lists a digest that the text names. -/
theorem exists_findIn_of_read (h : (Archive.read s).1 = .ok archive) {d : Digest} {wanted : String}
    (hlisted : d ∈ archive.header.body.listed) (hnamed : Identity.same (Identity.encode .lower d) wanted = true) :
    ∃ slot t, findIn archive.header archive.transactions wanted = some (slot, t) ∧ t.hash = d := by
  obtain ⟨-, hhash⟩ := Archive.listed_of_read h
  obtain ⟨slot, hslot⟩ := TickData.exists_slotOf?_iff.mpr hlisted
  obtain ⟨t, hfind, ht⟩ := exists_findIn hnamed hslot (hhash ▸ hlisted)
  exact ⟨slot, t, hfind, ht⟩

/-- Where the text names nothing that the header lists, nothing is found. -/
theorem locateInArchive_of_unnamed {computors : Option ComputorSet} {wanted : String}
    (h : ∀ d ∈ archive.header.body.listed, Identity.same (Identity.encode .lower d) wanted = false) :
    locateInArchive computors wanted archive = .notFound := by
  have hnone : findIn archive.header archive.transactions wanted = none :=
    findIn_eq_none_iff.mpr fun d hlisted hnamed => absurd (h d hlisted) (by simp [hnamed])
  simp only [locateInArchive, hnone]

/-- **Looking in an archive decides what its header lists.** In an archive that was read, a transaction is found
exactly if a slot that is not empty holds a digest that the text names. Then the receipt names the header's tick, the
one slot of this digest and the one transaction with it; the status is unknown, and the header's signature is marked if
there is a computor list. Otherwise nothing is found. -/
theorem found_in_archive_iff (h : (Archive.read s).1 = .ok archive) (computors : Option ComputorSet)
    (wanted : String) :
    ((∃ r, locateInArchive computors wanted archive = .found r) ↔
      ∃ d ∈ archive.header.body.digests.toList, d.isZero = false ∧
        Identity.same (Identity.encode .lower d) wanted = true) ∧
    (∀ d ∈ archive.header.body.digests.toList, d.isZero = false →
      Identity.same (Identity.encode .lower d) wanted = true →
      ∃ slot t, archive.header.body.digests.get? slot = some d ∧
        (∀ j, archive.header.body.digests.get? j = some d → j = slot) ∧
        t ∈ archive.transactions ∧ t.hash = d ∧ (∀ u ∈ archive.transactions, u.hash = d → u = t) ∧
        locateInArchive computors wanted archive = .found ⟨archive.header.body.tick, slot, ⟨t, .ofBool t.valid⟩,
          headerMark computors archive.header, .unknown⟩) ∧
    ((∀ d ∈ archive.header.body.digests.toList, d.isZero = false →
        Identity.same (Identity.encode .lower d) wanted = false) →
      locateInArchive computors wanted archive = .notFound) := by
  obtain ⟨hnodup, hhash⟩ := Archive.listed_of_read h
  have hnone (hno : ∀ d ∈ archive.header.body.digests.toList, d.isZero = false →
      Identity.same (Identity.encode .lower d) wanted = false) :
      locateInArchive computors wanted archive = .notFound := by
    refine locateInArchive_of_unnamed fun d hlisted => ?_
    obtain ⟨hd, hdigest⟩ := TickData.mem_listed_iff.mp hlisted
    exact hno d hd hdigest
  refine ⟨⟨?_, ?_⟩, ?_, hnone⟩
  · rintro ⟨r, hr⟩
    by_contra hno
    rw [hnone fun d hd hdigest => Bool.eq_false_iff.mpr fun hnamed => hno ⟨d, hd, hdigest, hnamed⟩] at hr
    cases hr
  · rintro ⟨d, hd, hdigest, hnamed⟩
    obtain ⟨slot, t, hfind, -⟩ := exists_findIn_of_read h (TickData.mem_listed_iff.mpr ⟨hd, hdigest⟩) hnamed
    exact ⟨_, locateInArchive_of_findIn hfind⟩
  · intro d hd hdigest hnamed
    obtain ⟨slot, t, hfind, rfl⟩ := exists_findIn_of_read h (TickData.mem_listed_iff.mpr ⟨hd, hdigest⟩) hnamed
    obtain ⟨-, hplace⟩ := TickData.slotOf?_eq_some_iff.mp (slotOf?_of_findIn hfind)
    obtain ⟨hmem, -⟩ := mem_of_findIn hfind
    refine ⟨slot, t, hplace.here, fun j hj => TickData.slot_unique hnodup hdigest hj hplace.here, hmem, rfl,
      fun u hu heq => ?_, locateInArchive_of_findIn hfind⟩
    -- The digests of the transactions are those listed, so no two transactions have one digest.
    exact List.inj_on_of_nodup_map (hhash ▸ hnodup) hu hmem heq

/-! ## An archive of two records -/

theorem exists_findIn_twoRecords {transactions : List Transaction}
    (h : (Archive.read s).1 = .ok ⟨Archive.twoRecords, transactions⟩) :
    ∃ slot t, findIn Archive.twoRecords transactions (Transaction.blank 2 [7]).id = some (slot, t) ∧
      t.hash = (Transaction.blank 2 [7]).hash := by
  refine exists_findIn_of_read h ?_ (Identity.same_encode_self ..)
  rw [Archive.listed_twoRecords]
  exact List.mem_cons_of_mem _ (List.mem_singleton_self _)

/-- The second record of an archive is found, though it was written first and something comes behind. -/
theorem found_in_archive_iff_swapped :
    ∃ archive, (Archive.read (.ofBytes (Archive.toBytes Archive.twoRecords Archive.swapped ++ [9, 9]))).1 = .ok archive ∧
      ∃ slot t, t.hash = (Transaction.blank 2 [7]).hash ∧
        archive.header.body.digests.get? slot = some (Transaction.blank 2 [7]).hash ∧
        locateInArchive none (Transaction.blank 2 [7]).id archive =
          .found ⟨5, slot, ⟨t, .ofBool t.valid⟩, none, .unknown⟩ := by
  obtain ⟨ts, s', hread, -⟩ := Archive.read_of_parts (Source.delivers_ofBytes _) (Archive.Parts.ofRecords
    Archive.twoRecords Archive.swapped [9, 9] Archive.input_swapped Archive.nodup_twoRecords Archive.perm_swapped)
  have hok := congrArg Prod.fst hread
  have hlisted : (Transaction.blank 2 [7]).hash ∈ Archive.twoRecords.body.listed := by
    rw [Archive.listed_twoRecords]
    exact List.mem_cons_of_mem _ (List.mem_singleton_self _)
  obtain ⟨hd, hdigest⟩ := TickData.mem_listed_iff.mp hlisted
  obtain ⟨-, hfound, -⟩ := found_in_archive_iff hok none (Transaction.blank 2 [7]).id
  obtain ⟨slot, t, hslot, -, -, ht, -, hlocate⟩ := hfound _ hd hdigest (Identity.same_encode_self ..)
  exact ⟨_, hok, slot, t, ht, hslot, hlocate⟩

end Location

end LightClient
