import LightClient.Proofs.Archive.Acceptance
/-!
# Which records a header takes, and where it stops

What a header takes from a list of records, and which slot it stops at, is said exactly (`canonicalOrder_exact`). The
order of the list matters only where records have the same digest (`canonicalOrder_eq_of_perm`).
-/
namespace LightClient.Archive

variable {txs txs' : List Transaction} {header : TickHeader} {d : Digest} {t : Transaction}

/-- Where digests are distinct, no other transaction has the digest of one of them. -/
theorem lastWith_iff_of_nodup (hnodup : (txs.map Transaction.hash).Nodup) :
    LastWith txs d t ↔ t ∈ txs ∧ t.hash = d := by
  constructor
  · intro hlast
    exact ⟨hlast.mem, hlast.1⟩
  · rintro ⟨hmem, rfl⟩
    obtain ⟨before, after, rfl⟩ := List.append_of_mem hmem
    refine ⟨rfl, before, after, rfl, fun u hu heq => ?_⟩
    rw [List.map_append, List.map_cons] at hnodup
    have hlater : t.hash ∉ after.map Transaction.hash :=
      (List.nodup_cons.mp (List.nodup_append.mp hnodup).2.1).1
    exact hlater (heq ▸ List.mem_map_of_mem hu)

/-- The order of records with distinct digests is not seen in the index. -/
theorem record?_indexed_of_perm (hperm : txs.Perm txs') (hnodup : (txs.map Transaction.hash).Nodup) (d : Digest) :
    record? (indexed txs) d = record? (indexed txs') d := by
  have hnodup' : (txs'.map Transaction.hash).Nodup := (hperm.map _).nodup_iff.mp hnodup
  ext t
  rw [record?_indexed, record?_indexed, lastWith_iff_of_nodup hnodup,
    lastWith_iff_of_nodup hnodup', hperm.mem_iff]

theorem canonicalOrder_eq_of_perm (hperm : txs.Perm txs') (hnodup : (txs.map Transaction.hash).Nodup) :
    canonicalOrder header txs = canonicalOrder header txs' := by
  rw [canonicalOrder_eq, canonicalOrder_eq]
  exact assign_congr (record?_indexed_of_perm hperm hnodup)

/-- **The order of the slots, exactly.** Records are put into order if and only if the header lists distinct digests
and each is that of a record; then every slot gets the last record with its digest. Otherwise the first slot is
reported whose digest is in an earlier slot already or is that of no record, by the digest's identity in small letters.
Of records with distinct digests the order does not matter. -/
theorem canonicalOrder_exact (header : TickHeader) (txs : List Transaction) :
    ((∃ ts, canonicalOrder header txs = .ok ts) ↔
      header.body.listed.Nodup ∧ ∀ d ∈ header.body.listed, ∃ t ∈ txs, t.hash = d) ∧
    (∀ ts, canonicalOrder header txs = .ok ts ↔
      header.body.listed.Nodup ∧ List.Forall₂ (LastWith txs) header.body.listed ts) ∧
    (∀ e, canonicalOrder header txs = .error e ↔
      ∃ before d after, header.body.listed = before ++ d :: after ∧ Unfilled txs before d ∧
        e = .incompleteArchive d ∧
        e.message = "incomplete tick archive: no transaction for digest " ++ Identity.encode .lower d) ∧
    ∀ txs', txs.Perm txs' → (txs.map Transaction.hash).Nodup →
      canonicalOrder header txs' = canonicalOrder header txs := by
  refine ⟨⟨?_, ?_⟩, fun ts => canonicalOrder_eq_ok_iff, fun e => ?_, fun txs' hperm hnodup => ?_⟩
  · rintro ⟨ts, hts⟩
    refine ⟨(canonicalOrder_eq_ok_iff.mp hts).1, fun d hd => ?_⟩
    rw [← map_hash_of_canonicalOrder hts] at hd
    obtain ⟨t, ht, rfl⟩ := List.mem_map.mp hd
    exact ⟨t, subset_of_canonicalOrder hts ht, rfl⟩
  · rintro ⟨hnodup, hall⟩
    refine exists_canonicalOrder hnodup fun d hd => ?_
    obtain ⟨t, ht, rfl⟩ := hall d hd
    exact List.mem_map_of_mem ht
  · rw [canonicalOrder_eq_error_iff]
    constructor
    · rintro ⟨before, d, after, hlisted, hunfilled, rfl⟩
      exact ⟨before, d, after, hlisted, hunfilled, rfl, rfl⟩
    · rintro ⟨before, d, after, hlisted, hunfilled, rfl, -⟩
      exact ⟨before, d, after, hlisted, hunfilled, rfl⟩
  · exact (canonicalOrder_eq_of_perm hperm hnodup).symm

/-- A header that lists one record twice. -/
def repeatedRecord : TickHeader := .listing 5 [.blank 1 [], .blank 1 []] (by decide)

theorem listed_repeatedRecord :
    repeatedRecord.body.listed = [(Transaction.blank 1 []).hash, (Transaction.blank 1 []).hash] :=
  TickHeader.listed_listing (by simpa using Transaction.isZero_hash_blank.1)

/-- Of two records in the wrong order, with the second one repeated, each slot gets its own; without the second one its
slot is reported, and where a digest is listed twice, its second slot is, although there are two records. The two
records in either order give the same. -/
theorem canonicalOrder_exact_two :
    canonicalOrder twoRecords [.blank 2 [7], .blank 1 [], .blank 2 [7]] = .ok [.blank 1 [], .blank 2 [7]] ∧
    canonicalOrder twoRecords [.blank 1 []] = .error (.incompleteArchive (Transaction.blank 2 [7]).hash) ∧
    canonicalOrder repeatedRecord [.blank 1 [], .blank 1 []] =
      .error (.incompleteArchive (Transaction.blank 1 []).hash) ∧
    canonicalOrder twoRecords [.blank 1 [], .blank 2 [7]] = canonicalOrder twoRecords swapped := by
  have hne := Transaction.hash_blank_ne
  refine ⟨?_, ?_, ?_, ?_⟩
  · obtain ⟨-, hok, -⟩ := canonicalOrder_exact twoRecords [.blank 2 [7], .blank 1 [], .blank 2 [7]]
    refine (hok _).mpr ⟨nodup_twoRecords, ?_⟩
    rw [listed_twoRecords]
    refine .cons ⟨rfl, [.blank 2 [7]], [.blank 2 [7]], rfl, ?_⟩ (.cons ⟨rfl, [_, _], [], rfl, ?_⟩ .nil)
    · simpa using hne.symm
    · simp
  · obtain ⟨-, -, herror, -⟩ := canonicalOrder_exact twoRecords [.blank 1 []]
    refine (herror _).mpr ⟨[(Transaction.blank 1 []).hash], _, [], listed_twoRecords, ⟨?_, ?_, ?_⟩, rfl, rfl⟩
    · exact List.nodup_singleton _
    · simp
    · exact .inr (by simpa using hne)
  · obtain ⟨-, -, herror, -⟩ := canonicalOrder_exact repeatedRecord [.blank 1 [], .blank 1 []]
    refine (herror _).mpr ⟨[(Transaction.blank 1 []).hash], _, [], listed_repeatedRecord, ⟨?_, ?_, ?_⟩, rfl, rfl⟩
    · exact List.nodup_singleton _
    · simp
    · exact .inl (List.mem_singleton_self _)
  · obtain ⟨-, -, -, horder⟩ := canonicalOrder_exact twoRecords swapped
    exact horder _ (.swap ..) (perm_swapped.nodup_iff.mpr nodup_twoRecords)

end LightClient.Archive
