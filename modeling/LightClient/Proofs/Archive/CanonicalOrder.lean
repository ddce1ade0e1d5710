import LightClient.Proofs.Archive.Assignment
import LightClient.Proofs.Transaction.Record
import Mathlib.Data.List.Perm.Subperm
/-!
# The canonical order of an archive's records

Each digest that the header lists takes the record with it out of an index. This is the last of the records with the
digest, so that a header takes records exactly if it lists distinct digests and each has one
(`canonicalOrder_eq_ok_iff`), and the first slot that cannot be filled is reported (`canonicalOrder_eq_error_iff`). So
what comes out has the digests in the order of the slots and consists of the records given
(`map_hash_of_canonicalOrder`, `subset_of_canonicalOrder`). Records that are those of the header, in whatever order,
are all kept and put into the order of the slots (`canonicalOrder_perm`), and from as many records as there are slots
nothing else is put into order (`perm_of_canonicalOrder`).
-/
namespace LightClient

/-- The digests in the slots that are not empty, in order. -/
def TickData.listed (d : TickData) : List Digest := d.digests.toList.filter fun digest => !digest.isZero

theorem TickData.map_slots (d : TickData) : d.slots.map (·.2) = d.listed := by
  rw [listed, slots, List.map_map]
  conv_rhs => rw [← List.zipIdx_map_fst 0 d.digests.toList, List.filter_map]
  rfl

theorem TickData.length_listed (d : TickData) : d.listed.length = d.transactionCount := by
  rw [← map_slots, List.length_map, transactionCount]

namespace Archive

variable {txs ts : List Transaction} {header : TickHeader} {d : Digest} {t : Transaction} {e : Error}

theorem mem_indexed : (d, t) ∈ indexed txs ↔ t ∈ txs ∧ t.hash = d := by
  simp only [indexed, List.mem_reverse, List.mem_map, Prod.mk.injEq]
  constructor
  · rintro ⟨t, ht, rfl, rfl⟩
    exact ⟨ht, rfl⟩
  · rintro ⟨ht, rfl⟩
    exact ⟨t, ht, rfl, rfl⟩

/-! ## The record that a slot takes -/

/-- A transaction has a digest, and none behind it in the list has it. -/
def LastWith (txs : List Transaction) (d : Digest) (t : Transaction) : Prop :=
  t.hash = d ∧ ∃ before after, txs = before ++ t :: after ∧ ∀ u ∈ after, u.hash ≠ d

theorem LastWith.mem (h : LastWith txs d t) : t ∈ txs := by
  obtain ⟨-, before, after, rfl, -⟩ := h
  exact List.mem_append_right before List.mem_cons_self

/-- Of the records with one digest the last is in the index. -/
theorem record?_indexed : record? (indexed txs) d = some t ↔ LastWith txs d t := by
  have hreverse : record? (indexed txs) d = txs.reverse.find? fun u => u.hash == d := by
    rw [record?, indexed, ← List.map_reverse, List.find?_map, Option.map_map]
    exact Option.map_id' ..
  rw [hreverse, List.find?_eq_some_iff_append, beq_iff_eq]
  refine and_congr_right fun _ => ?_
  constructor
  · rintro ⟨after, before, hsplit, hlater⟩
    refine ⟨before.reverse, after.reverse, ?_, fun u hu => ?_⟩
    · rw [← List.reverse_reverse txs, hsplit, List.reverse_append, List.reverse_cons, List.append_assoc,
        List.singleton_append]
    · simpa using hlater u (List.mem_reverse.mp hu)
  · rintro ⟨before, after, rfl, hlater⟩
    refine ⟨after.reverse, before.reverse, ?_, fun u hu => ?_⟩
    · rw [List.reverse_append, List.reverse_cons, List.append_assoc, List.singleton_append]
    · simpa using hlater u (List.mem_reverse.mp hu)

/-! ## The order of the slots -/

theorem canonicalOrder_eq (header : TickHeader) (txs : List Transaction) :
    canonicalOrder header txs = assign header.body.listed (indexed txs) := by
  rw [canonicalOrder, TickData.map_slots]

theorem canonicalOrder_eq_ok_iff :
    canonicalOrder header txs = .ok ts ↔
      header.body.listed.Nodup ∧ List.Forall₂ (LastWith txs) header.body.listed ts := by
  have hrecords : header.body.listed.map (record? (indexed txs)) = ts.map some ↔
      List.Forall₂ (LastWith txs) header.body.listed ts := by
    rw [← List.forall₂_eq_eq_eq, List.forall₂_map_left_iff, List.forall₂_map_right_iff]
    simp only [record?_indexed]
  rw [canonicalOrder_eq, assign_eq_ok_iff, hrecords]

/-- The first slot that cannot be filled: those before it hold distinct digests with a record each, and its own digest
is one of them or has no record. -/
structure Unfilled (txs : List Transaction) (before : List Digest) (d : Digest) : Prop where
  distinct : before.Nodup
  filled : ∀ d' ∈ before, ∃ t ∈ txs, t.hash = d'
  lacking : d ∈ before ∨ ¬ ∃ t ∈ txs, t.hash = d

theorem record?_indexed_eq_none_iff : record? (indexed txs) d = none ↔ ¬ ∃ t ∈ txs, t.hash = d := by
  simp only [record?_eq_none_iff, mem_indexed]

theorem canonicalOrder_eq_error_iff :
    canonicalOrder header txs = .error e ↔
      ∃ before d after, header.body.listed = before ++ d :: after ∧ Unfilled txs before d ∧
        e = .incompleteArchive d := by
  rw [canonicalOrder_eq, assign_eq_error_iff]
  simp only [ne_eq, record?_indexed_eq_none_iff, Classical.not_not]
  constructor
  · rintro ⟨before, d, after, hlisted, hnodup, hbefore, hd, he⟩
    exact ⟨before, d, after, hlisted, ⟨hnodup, hbefore, hd⟩, he⟩
  · rintro ⟨before, d, after, hlisted, hunfilled, he⟩
    exact ⟨before, d, after, hlisted, hunfilled.distinct, hunfilled.filled, hunfilled.lacking, he⟩

theorem nodup_of_canonicalOrder (h : canonicalOrder header txs = .ok ts) : header.body.listed.Nodup :=
  (canonicalOrder_eq_ok_iff.mp h).1

theorem forall₂_of_canonicalOrder (h : canonicalOrder header txs = .ok ts) :
    List.Forall₂ (fun d t => t ∈ txs ∧ t.hash = d) header.body.listed ts :=
  (canonicalOrder_eq_ok_iff.mp h).2.imp fun _ _ hlast => ⟨hlast.mem, hlast.1⟩

theorem map_hash_of_canonicalOrder (h : canonicalOrder header txs = .ok ts) :
    ts.map Transaction.hash = header.body.listed := by
  have hall : List.Forall₂ Eq header.body.listed (ts.map Transaction.hash) :=
    List.forall₂_map_right_iff.mpr ((forall₂_of_canonicalOrder h).imp fun _ _ ht => ht.2.symm)
  rw [List.forall₂_eq_eq_eq] at hall
  exact hall.symm

theorem subset_of_canonicalOrder (h : canonicalOrder header txs = .ok ts) : ts ⊆ txs := by
  intro t ht
  obtain ⟨i, hi, rfl⟩ := List.mem_iff_getElem.mp ht
  exact ((forall₂_of_canonicalOrder h).get (by
    rwa [(forall₂_of_canonicalOrder h).length_eq]) hi).1

theorem exists_canonicalOrder (hnodup : header.body.listed.Nodup)
    (h : header.body.listed ⊆ txs.map Transaction.hash) : ∃ ts, canonicalOrder header txs = .ok ts := by
  cases horder : canonicalOrder header txs with
  | ok ts => exact ⟨ts, rfl⟩
  | error e =>
    obtain ⟨before, d, after, hlisted, hunfilled, -⟩ := canonicalOrder_eq_error_iff.mp horder
    rw [hlisted] at hnodup h
    obtain ⟨t, ht, hhash⟩ := List.mem_map.mp (h (List.mem_append_right before List.mem_cons_self))
    rcases hunfilled.lacking with hearlier | hnone
    · exact absurd rfl ((List.nodup_append.mp hnodup).2.2 d hearlier d List.mem_cons_self)
    · exact absurd ⟨t, ht, hhash⟩ hnone

/-- The digests of a header all have records, among as many as there are slots, only where these are the
records of the header. -/
theorem perm_of_canonicalOrder (h : canonicalOrder header txs = .ok ts)
    (hlength : txs.length ≤ header.body.transactionCount) :
    header.body.listed.Nodup ∧ (txs.map Transaction.hash).Perm header.body.listed := by
  have hnodup := nodup_of_canonicalOrder h
  have hsub : header.body.listed ⊆ txs.map Transaction.hash := by
    rw [← map_hash_of_canonicalOrder h]
    exact List.map_subset _ (subset_of_canonicalOrder h)
  refine ⟨hnodup, ((hnodup.subperm hsub).perm_of_length_le ?_).symm⟩
  rw [List.length_map, TickData.length_listed]
  exact hlength

/-- Where a record is missing, the first slot without one is reported. -/
theorem canonicalOrder_of_missing (hnodup : header.body.listed.Nodup)
    (h : header.body.listed.find? (fun d => !(txs.map Transaction.hash).contains d) = some d) :
    canonicalOrder header txs = .error (.incompleteArchive d) := by
  obtain ⟨hd, before, after, hlisted, hbefore⟩ := List.find?_eq_some_iff_append.mp h
  refine canonicalOrder_eq_error_iff.mpr ⟨before, d, after, hlisted, ⟨?_, fun d' hd' => ?_, .inr ?_⟩, rfl⟩
  · rw [hlisted] at hnodup
    exact (List.nodup_append.mp hnodup).1
  · have hmem : d' ∈ txs.map Transaction.hash := by simpa using hbefore d' hd'
    exact List.mem_map.mp hmem
  · rintro ⟨t, ht, rfl⟩
    rw [List.contains_iff_mem.mpr (List.mem_map_of_mem ht)] at hd
    cases hd

/-- Records that are those of the header are all kept, in the order of its slots. -/
theorem canonicalOrder_perm (hnodup : header.body.listed.Nodup)
    (h : (txs.map Transaction.hash).Perm header.body.listed) :
    ∃ ts, canonicalOrder header txs = .ok ts ∧ ts.Perm txs ∧
      ts.map Transaction.hash = header.body.listed := by
  obtain ⟨ts, hts⟩ := exists_canonicalOrder hnodup h.symm.subset
  have hhash := map_hash_of_canonicalOrder hts
  -- Distinct digests make distinct records, as many as there are: so none of them is left out.
  have hdistinct : ts.Nodup := List.Nodup.of_map _ (hhash ▸ hnodup)
  have hlength := h.length_eq
  rw [← hhash, List.length_map, List.length_map] at hlength
  have hsub : ts.Subperm txs := hdistinct.subperm (subset_of_canonicalOrder hts)
  exact ⟨ts, hts, hsub.perm_of_length_le (Nat.le_of_eq hlength), hhash⟩

end Archive

/-! ## Headers for given transactions -/

/-- A header, with zeros for everything else, that lists the digests of some transactions in its first
slots. -/
def TickHeader.listing (tick : UInt32) (txs : List Transaction) (h : txs.length ≤ TickData.slotCount) : TickHeader where
  body := ⟨0, 1, tick, ⟨0, 0, 0, 0, 0, 0, 0⟩, .replicate 256 0, .replicate 32 0,
    ⟨txs.map Transaction.hash ++ List.replicate (TickData.slotCount - txs.length) (.replicate 32 0),
      by simp [Nat.add_sub_cancel' h]⟩,
    .replicate TickData.contractCount 0⟩
  signature := ⟨.replicate 64 0⟩

theorem TickHeader.listed_listing {tick : UInt32} {txs : List Transaction} {h : txs.length ≤ TickData.slotCount}
    (hhash : ∀ t ∈ txs, t.hash.isZero = false) : (listing tick txs h).body.listed = txs.map Transaction.hash := by
  have hzero : Digest.isZero (.replicate 32 0) = true := by decide
  have hempty (n : Nat) : (List.replicate n (Tuple.replicate 32 0)).filter
      (fun digest : Digest => !digest.isZero) = [] := by
    simp [hzero]
  have hfull : (txs.map Transaction.hash).filter (fun digest => !digest.isZero) = txs.map Transaction.hash := by
    simpa using hhash
  rw [TickData.listed, listing, List.filter_append, hempty, hfull, List.append_nil]

theorem TickHeader.slotOf?_listing {tick : UInt32} {t : Transaction} {txs : List Transaction}
    {h : (t :: txs).length ≤ TickData.slotCount} (hhash : t.hash.isZero = false) :
    (listing tick (t :: txs) h).body.slotOf? t.hash = some 0 := by
  have hdigests : (listing tick (t :: txs) h).body.digests.toList = t.hash ::
      (txs.map Transaction.hash ++ List.replicate (TickData.slotCount - (t :: txs).length) (.replicate 32 0)) := rfl
  rw [TickData.slotOf?, TickData.slots, hdigests, List.zipIdx_cons,
    List.filter_cons_of_pos (by simpa using hhash), List.map_cons, List.find?_cons_of_pos (by simp)]
  rfl

/-- The first bytes of two digests, which tell them apart from each other and from an empty slot. -/
theorem Transaction.head_hash_blank :
    (blank 1 []).hash.toList.head? = some 154 ∧ (blank 2 [7]).hash.toList.head? = some 104 := by
  decide +kernel

theorem Transaction.isZero_hash_blank :
    (blank 1 []).hash.isZero = false ∧ (blank 2 [7]).hash.isZero = false := by
  have hhead {d : Digest} {b : UInt8} (h : d.toList.head? = some b) (hb : b ≠ 0) : d.isZero = false :=
    List.all_eq_false.mpr ⟨b, List.mem_of_head? h, by simpa using hb⟩
  exact ⟨hhead head_hash_blank.1 (by decide), hhead head_hash_blank.2 (by decide)⟩

theorem Transaction.hash_blank_ne : (blank 1 []).hash ≠ (blank 2 [7]).hash := by
  intro heq
  have hhead := head_hash_blank
  rw [heq, hhead.2] at hhead
  exact absurd hhead.1 (by decide)

end LightClient
