import LightClient.Proofs.Archive.Acceptance
import LightClient.Proofs.Transaction.Successive
import LightClient.Proofs.Transaction.Transcript
/-!
# How the bytes come

Short reads and interruptions change nothing: from a stream that delivers some bytes in pieces, transactions and
archives are read as from one that gives everything at once, and the same is left of it (`bytesDecide_read`,
`Transaction.bytesDecide_readTimes`). A read that finds the end, or fails, does matter. No archive comes of a call
that makes such a read (`read_of_stops`), since then a part of the header or one of the records that it lists is not
there; and of a call for a transaction comes an error, or nothing where the end was found before any byte.

`reads s` is what the reads give that reading an archive off `s` makes (`readsTo_read`). Nothing else about the
stream matters to it (`read_after`).
-/
namespace LightClient

namespace Archive

variable {s s' u : Source} {header : TickHeader}

/-! ## Deliveries of the same bytes -/

theorem bytesDecide_readHeader : Source.BytesDecide readHeader := by
  refine (Source.bytesDecide_readExact TickHeader.layout.size).bind fun outcome => ?_
  rcases outcome with fault | raw
  · cases fault <;> exact ⟨_, .const _, fun s s' hread => by simp only [readHeader, hread]; rfl⟩
  · exact ⟨_, .const (Outcome.ofRecord (TickHeader.ofBytes raw)), fun s s' hread => by
      simp only [readHeader, hread]⟩

theorem bytesDecide_read : Source.BytesDecide read := by
  refine bytesDecide_readHeader.bind fun outcome => ?_
  rcases outcome with e | header
  · exact ⟨_, .const (.error e), fun s s' hread => by simp only [read, hread]⟩
  -- The records are read, and then put into order without the stream.
  refine ⟨_, (Transaction.bytesDecide_readMany header.body.transactionCount).bind fun outcome => ?_,
    fun s s' hread => by simp only [read, hread]; rfl⟩
  rcases outcome with e | records
  · exact ⟨_, .const (.error e), fun s s' hread => by simp only [hread]⟩
  · exact ⟨_, .const ((canonicalOrder header records).map fun ts => ⟨header, ts⟩), fun s s' hread => by
      simp only [hread]⟩

/-! ## The reads that are made -/

/-- What the reads give that are made for an archive. -/
def reads (s : Source) : List ReadResult :=
  s.reads TickHeader.layout.size ++
    match readHeader s with
    | (.ok header, s') => Transaction.manyReads header.body.transactionCount s'
    | (.error _, _) => []

theorem readsTo_readHeader (s : Source) : s.ReadsTo (s.reads TickHeader.layout.size) (readHeader s).2 := by
  have hexact := Source.readsTo_readExact TickHeader.layout.size s
  rw [readHeader]
  rcases hread : s.readExact TickHeader.layout.size with ⟨fault | raw, s'⟩ <;> rw [hread] at hexact
  · cases fault <;> exact hexact
  · exact hexact

theorem readsTo_read (s : Source) : s.ReadsTo (reads s) (read s).2 := by
  have hheader := readsTo_readHeader s
  rw [read, reads]
  rcases hread : readHeader s with ⟨e | header, s'⟩ <;> rw [hread] at hheader
  · exact hheader.append (.nil s')
  · have hrecords := Transaction.readsTo_readMany header.body.transactionCount s'
    rcases hmany : Transaction.readMany header.body.transactionCount s' with ⟨e | records, s''⟩ <;>
      rw [hmany] at hrecords <;> simp only [hmany]
    · exact hheader.append hrecords
    · exact hheader.append hrecords

/-! ## Reading again -/

theorem readHeader_after (u s : Source) :
    readHeader (u.after (s.reads TickHeader.layout.size)) = ((readHeader s).1, u) := by
  rw [readHeader, readHeader, Source.readExact_after]
  rcases s.readExact TickHeader.layout.size with ⟨fault | raw, s'⟩
  · cases fault <;> rfl
  · rfl

/-- Reading makes the reads that it made, comes to the same, and leaves the stream where it goes on. -/
theorem read_after (u s : Source) : read (u.after (reads s)) = ((read s).1, u) := by
  rw [read, read, reads, Source.after_append, readHeader_after]
  rcases readHeader s with ⟨e | header, s'⟩
  · rfl
  · simp only [Transaction.readMany_after]
    rcases Transaction.readMany header.body.transactionCount s' with ⟨e | records, s''⟩ <;> rfl

/-! ## Reads that stop -/

theorem readHeader_of_stops (h : ∃ r ∈ s.reads TickHeader.layout.size, r.Stops) :
    ∃ e, (readHeader s).1 = .error e := by
  obtain ⟨fault, hfault⟩ := Source.readExact_of_stops h
  rw [readHeader]
  rcases hread : s.readExact TickHeader.layout.size with ⟨fault' | raw, s'⟩
  · cases fault' <;> exact ⟨_, rfl⟩
  · rw [hread] at hfault
    cases hfault

/-- Fewer records than the header lists are not put into order. -/
theorem canonicalOrder_of_few {txs : List Transaction} (h : txs.length < header.body.transactionCount) :
    ∃ e, canonicalOrder header txs = .error e := by
  cases horder : canonicalOrder header txs with
  | error e => exact ⟨e, rfl⟩
  | ok ts =>
    obtain ⟨-, hperm⟩ := perm_of_canonicalOrder horder (Nat.le_of_lt h)
    have hlength := hperm.length_eq
    rw [List.length_map, TickData.length_listed] at hlength
    omega

/-- No archive is read where a read finds the end or fails. -/
theorem read_of_stops (h : ∃ r ∈ reads s, r.Stops) : ∃ e, (read s).1 = .error e := by
  rw [reads] at h
  simp only [List.mem_append, or_and_right, exists_or] at h
  rw [read]
  rcases hheader : readHeader s with ⟨e | header, s'⟩
  · exact ⟨e, rfl⟩
  rcases h with hfirst | hmore
  · -- The header was read, so its reads did not stop.
    obtain ⟨e, he⟩ := readHeader_of_stops hfirst
    rw [hheader] at he
    cases he
  · rw [hheader] at hmore
    rcases hrecords : Transaction.readMany header.body.transactionCount s' with ⟨e | records, s''⟩
    · exact ⟨e, by simp only [hrecords]⟩
    · obtain ⟨e, he⟩ | ⟨ts, hts, hlength⟩ := Transaction.readMany_of_stops hmore
      · rw [hrecords] at he
        cases he
      · rw [hrecords] at hts
        cases hts
        obtain ⟨e, he⟩ := canonicalOrder_of_few hlength
        exact ⟨e, by simp only [hrecords, he, Except.map]⟩

end Archive

/-- **How the bytes come does not matter, and where they stop does.** However a stream delivers its bytes, any
number of calls for a transaction, and a call for an archive, give what they give on the stream that delivers them
all at once, and leave the same bytes. Whatever the reads of a stream do, a call during which one of them finds the
end or fails gives no data: no archive, but an error; and no transaction, but an error, or nothing if the end was
found before any byte. What these reads give is what the stream answers from the beginning of the call to its end,
and it is all that the call sees of the stream. -/
theorem Source.delivery_immaterial :
    (∀ (s : Source) (bs : Bytes), s.Delivers bs →
      (∀ n, (Transaction.readTimes n s).1 = (Transaction.readTimes n (.ofBytes bs)).1 ∧
        ∃ rest, (Transaction.readTimes n s).2.Delivers rest ∧
          (Transaction.readTimes n (.ofBytes bs)).2.Delivers rest) ∧
      (Archive.read s).1 = (Archive.read (.ofBytes bs)).1 ∧
      ∃ rest, (Archive.read s).2.Delivers rest ∧ (Archive.read (.ofBytes bs)).2.Delivers rest) ∧
    (∀ s : Source, (∃ r ∈ Transaction.reads s, r.Stops) →
      (Source.NothingRead (Transaction.reads s) → (Transaction.readNext s).1 = .ok none) ∧
      (¬ Source.NothingRead (Transaction.reads s) → ∃ e, (Transaction.readNext s).1 = .error e)) ∧
    (∀ s : Source, (∃ r ∈ Archive.reads s, r.Stops) → ∃ e, (Archive.read s).1 = .error e) ∧
    ∀ s : Source,
      s.ReadsTo (Transaction.reads s) (Transaction.readNext s).2 ∧ s.ReadsTo (Archive.reads s) (Archive.read s).2 ∧
      ∀ u : Source, Transaction.readNext (u.after (Transaction.reads s)) = ((Transaction.readNext s).1, u) ∧
        Archive.read (u.after (Archive.reads s)) = ((Archive.read s).1, u) := by
  refine ⟨fun s bs hs => ⟨fun n => ?_, ?_⟩, fun s hstops => ⟨?_, fun hsome => ?_⟩, fun s => Archive.read_of_stops,
    fun s => ⟨Transaction.readsTo_readNext s, Archive.readsTo_read s, fun u =>
      ⟨Transaction.readNext_after u s, Archive.read_after u s⟩⟩⟩
  · exact (Transaction.bytesDecide_readTimes n).same hs (delivers_ofBytes bs)
  · exact Archive.bytesDecide_read.same hs (delivers_ofBytes bs)
  · exact Transaction.readNext_eq_none_iff_reads.mpr
  · rcases Transaction.readNext_of_stops hstops with herror | hnone
    · exact herror
    · exact absurd (Transaction.readNext_eq_none_iff_reads.mp hnone) hsome

/-- A record and an archive that come in pieces are read as if they came at once. A stream that is interrupted
before a record and then says that it ends holds no record; if it fails there, this is an error; and no archive is
read where the first read finds the end. -/
theorem Source.delivery_immaterial_interrupted :
    (Transaction.readTimes 2 ⟨(Transaction.blank 1 []).toBytes, [.interrupt, .deliver 3], .closed⟩).1 =
        (Transaction.readTimes 2 (.ofBytes (Transaction.blank 1 []).toBytes)).1 ∧
      (Archive.read ⟨Archive.toBytes Archive.twoRecords Archive.swapped, [.deliver 3, .interrupt], .closed⟩).1 =
        (Archive.read (.ofBytes (Archive.toBytes Archive.twoRecords Archive.swapped))).1 ∧
      (Transaction.readNext ⟨(Transaction.blank 1 []).toBytes, [.interrupt, .deliver 0], .closed⟩).1 = .ok none ∧
      (∃ e, (Transaction.readNext
        ⟨(Transaction.blank 1 []).toBytes, [.interrupt, .fail .timedOut], .closed⟩).1 = .error e) ∧
      ∃ e, (Archive.read ⟨Archive.toBytes Archive.twoRecords Archive.swapped, [.deliver 0], .closed⟩).1 = .error e := by
  obtain ⟨hdelivers, hrecord, harchive, -⟩ := delivery_immaterial
  have hsize : Transfer.FixedPart.size ≠ 0 := by decide
  have hended (bs : Bytes) : Transaction.reads ⟨bs, [.interrupt, .deliver 0], .closed⟩ = [.interrupted, .ended] := by
    simp [Transaction.reads, reads_eq hsize, fill_eq hsize, read, give, hsize]
  have hfailed (bs : Bytes) :
      Transaction.reads ⟨bs, [.interrupt, .fail .timedOut], .closed⟩ = [.interrupted, .failed .timedOut] := by
    simp [Transaction.reads, reads_eq hsize, fill_eq hsize, read]
  refine ⟨((hdelivers _ _ ⟨rfl, by simp [ReadStep.Gentle], rfl⟩).1 2).1,
    (hdelivers _ _ ⟨rfl, by simp [ReadStep.Gentle], rfl⟩).2.1, ?_, ?_, harchive _ ?_⟩
  · refine (hrecord _ ?_).1 ?_
    · rw [hended]
      exact ⟨.ended, by simp, trivial⟩
    · rw [hended]
      exact ⟨1, rfl⟩
  · refine (hrecord _ ?_).2 ?_
    · rw [hfailed]
      exact ⟨.failed .timedOut, by simp, trivial⟩
    · rw [hfailed]
      rintro ⟨k, hk⟩
      have hmem : ReadResult.failed .timedOut ∈ List.replicate k ReadResult.interrupted ++ [.ended] := by
        rw [← hk]
        simp
      simp at hmem
  · have hheader : TickHeader.layout.size ≠ 0 := by decide
    refine ⟨.ended, List.mem_append_left _ ?_, trivial⟩
    simp [reads_eq hheader, read, give]

end LightClient
