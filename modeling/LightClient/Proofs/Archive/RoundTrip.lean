import LightClient.Proofs.Archive.CanonicalOrder
import LightClient.Proofs.Transaction.Record
/-!
# Archives read back

Whoever takes an archive without failing has taken its bytes, the header's and then the records'
(`write_of_ok`). Off a stream that delivers them, the reader gets the header and as many of the records as
the header has slots, and puts these into the canonical order (`read_of_delivers`). Where the records are
those of the header, in whatever order they were written, nothing is lost (`read_write`).
-/
namespace LightClient

namespace Sink

theorem writeAll_unlimited (pieces : List Bytes) :
    unlimited.writeAll none pieces = ⟨pieces.flatten, .ok ()⟩ := by
  induction pieces with
  | nil => rfl
  | cons piece pieces ih => simp only [writeAll, ih, List.flatten_cons]

end Sink

namespace Archive

variable {header : TickHeader} {txs : List Transaction} {sink : Sink} {bytes rest : Bytes} {s : Source}

theorem write_unlimited (header : TickHeader) (txs : List Transaction) :
    write .unlimited header txs = (toBytes header txs, .ok ()) := by
  have hall : Sink.unlimited.write (pieces header txs) = ⟨(pieces header txs).flatten, .ok ()⟩ :=
    Sink.writeAll_unlimited _
  simp only [write, hall, toBytes]
  rfl

theorem write_of_ok (h : write sink header txs = (bytes, .ok ())) : bytes = toBytes header txs := by
  have hwritten := congrArg Prod.fst h
  have hok := congrArg Prod.snd h
  simp only [write] at hwritten hok
  rw [← hwritten, toBytes]
  refine Sink.writeAll_of_ok ?_
  cases houtcome : (sink.write (pieces header txs)).outcome with
  | ok => exact houtcome
  | error fault => rw [houtcome] at hok; cases hok

/-! ## Reading -/

theorem readHeader_append (hs : s.Delivers (header.toBytes ++ rest)) :
    ∃ s', readHeader s = (.ok header, s') ∧ s'.Delivers rest := by
  obtain ⟨s', hread, hs'⟩ := Source.readExact_append hs (Layout.length_bytes TickHeader.layout header)
  exact ⟨s', by simp only [readHeader, hread, TickHeader.ofBytes_toBytes, Outcome.ofRecord_ok], hs'⟩

/-- A stream that ends before a whole header has come holds no archive. -/
theorem readHeader_of_short (hs : s.Delivers bytes) (h : bytes.length < TickHeader.layout.size) :
    ∃ s', readHeader s =
      (.error (.malformed ⟨"tick archive header", TickHeader.layout.size, 0⟩), s') := by
  obtain ⟨s', hread, -⟩ := Source.readExact_of_delivers hs TickHeader.layout.size
  rw [if_pos h] at hread
  exact ⟨s', by simp only [readHeader, hread]⟩

/-- Of the records behind a header, as many are read as it has slots, and the others stay unread. -/
theorem read_of_delivers (hinput : ∀ t ∈ txs, t.body.input.length ≤ Transfer.maxInput)
    (hs : s.Delivers (toBytes header txs)) :
    ∃ s', read s =
        ((canonicalOrder header (txs.take header.body.transactionCount)).map fun ts => ⟨header, ts⟩, s') ∧
      s'.Delivers ((txs.drop header.body.transactionCount).map Transaction.toBytes).flatten := by
  obtain ⟨s₁, hheader, hs₁⟩ := readHeader_append hs
  obtain ⟨s₂, hrecords, hs₂⟩ := Transaction.readMany_of_delivers header.body.transactionCount hinput hs₁
  exact ⟨s₂, by simp only [read, hheader, hrecords], hs₂⟩

/-- What was written of an archive is read back as the header with the records that fit its slots, in
canonical order; where the records are those of the header, all of them are, byte for byte. -/
theorem read_write (header : TickHeader) {txs : List Transaction}
    (hinput : ∀ t ∈ txs, t.body.input.length ≤ Transfer.maxInput) :
    write .unlimited header txs = (toBytes header txs, .ok ()) ∧
    ∀ (sink : Sink) (bytes : Bytes) (s : Source),
      write sink header txs = (bytes, .ok ()) → s.Delivers bytes →
      (read s).1 = (canonicalOrder header (txs.take header.body.transactionCount)).map
        (fun ts => ⟨header, ts⟩) ∧
      (header.body.listed.Nodup → (txs.map Transaction.hash).Perm header.body.listed →
        ∃ ts, (read s).1 = .ok ⟨header, ts⟩ ∧ ts.Perm txs ∧
          ts.map Transaction.hash = header.body.listed ∧
          (ts.map Transaction.toBytes).Perm (txs.map Transaction.toBytes)) := by
  refine ⟨write_unlimited header txs, fun sink bytes s hwrite hs => ?_⟩
  obtain rfl := write_of_ok hwrite
  obtain ⟨s', hread, -⟩ := read_of_delivers hinput hs
  rw [hread]
  refine ⟨rfl, fun hnodup hperm => ?_⟩
  obtain ⟨ts, hts, hkept, hhash⟩ := canonicalOrder_perm hnodup hperm
  -- There are as many records as slots, so reading stops after the last of them.
  have hall : txs.take header.body.transactionCount = txs := by
    rw [← TickData.length_listed, ← hperm.length_eq, List.length_map, List.take_length]
  exact ⟨ts, by rw [hall, hts]; rfl, hkept, hhash, hkept.map _⟩

/-! ## Two records in the wrong order -/

/-- A header that lists two transactions. -/
def twoRecords : TickHeader := .listing 5 [.blank 1 [], .blank 2 [7]] (by decide)

theorem listed_twoRecords :
    twoRecords.body.listed = [(Transaction.blank 1 []).hash, (Transaction.blank 2 [7]).hash] :=
  TickHeader.listed_listing (by simpa using Transaction.isZero_hash_blank)

/-- Written the second first, they are read in the order of their slots, from a stream that gives a few
bytes and is interrupted before it gives the others. -/
theorem read_write_swapped :
    ∃ ts, (read ⟨toBytes twoRecords [.blank 2 [7], .blank 1 []], [.deliver 3, .interrupt], .closed⟩).1 =
        .ok ⟨twoRecords, ts⟩ ∧
      ts.map Transaction.hash = [(Transaction.blank 1 []).hash, (Transaction.blank 2 [7]).hash] := by
  have hinput : ∀ t ∈ [Transaction.blank 2 [7], .blank 1 []],
      t.body.input.length ≤ Transfer.maxInput := by decide
  have hdistinct : twoRecords.body.listed.Nodup := by
    rw [listed_twoRecords]
    simpa using Transaction.hash_blank_ne
  have hperm : ([Transaction.blank 2 [7], .blank 1 []].map Transaction.hash).Perm
      twoRecords.body.listed := by
    rw [listed_twoRecords]
    exact .swap ..
  obtain ⟨hwrite, hread⟩ := read_write twoRecords hinput
  have hs : Source.Delivers ⟨toBytes twoRecords [.blank 2 [7], .blank 1 []],
      [.deliver 3, .interrupt], .closed⟩ (toBytes twoRecords [.blank 2 [7], .blank 1 []]) :=
    ⟨rfl, by simp [ReadStep.Gentle], rfl⟩
  obtain ⟨-, hall⟩ := hread .unlimited _ _ hwrite hs
  obtain ⟨ts, hts, -, hhash, -⟩ := hall hdistinct hperm
  exact ⟨ts, hts, by rw [hhash, listed_twoRecords]⟩

end Archive

end LightClient
