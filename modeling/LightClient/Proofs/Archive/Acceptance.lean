import LightClient.Proofs.Archive.RoundTrip
import LightClient.Proofs.Transaction.Next
/-!
# Which streams hold an archive

`Parts bs` is a division of the bytes `bs` into a header, the records that the header lists, each once, and
whatever comes behind. A stream is read as an archive exactly where its bytes have such parts; then the
archive has the header and these records in the order of the slots, and what comes behind stays unread
(`read_ok_iff_parts`).
-/
namespace LightClient.Archive

/-- The parts of a byte string that begins with an archive. -/
structure Parts (bs : Bytes) where
  /-- The bytes of the header. -/
  front : Bytes
  /-- The bytes of each record. -/
  records : List Bytes
  /-- What comes behind the archive. -/
  rest : Bytes
  header : TickHeader
  transactions : List Transaction
  bytes_eq : bs = front ++ records.flatten ++ rest
  length_front : front.length = 41328
  header_eq : TickHeader.ofBytes front = .ok header
  /-- There are as many records as the header lists digests. -/
  length_records : records.length = header.body.listed.length
  decoded : List.Forall₂ (fun record t => Transaction.ofBytes record = .ok t) records transactions
  nodup_listed : header.body.listed.Nodup
  perm_listed : (transactions.map Transaction.hash).Perm header.body.listed

variable {s s' : Source} {bs : Bytes} {archive : Archive} {header : TickHeader} {txs : List Transaction}

namespace Parts

/-- The parts in a byte string that was put together from a header and its records. -/
def ofRecords (header : TickHeader) (txs : List Transaction) (rest : Bytes)
    (hinput : ∀ t ∈ txs, t.body.input.length ≤ Transfer.maxInput) (hnodup : header.body.listed.Nodup)
    (hperm : (txs.map Transaction.hash).Perm header.body.listed) : Parts (toBytes header txs ++ rest) where
  front := header.toBytes
  records := txs.map Transaction.toBytes
  rest := rest
  header := header
  transactions := txs
  bytes_eq := rfl
  length_front := Layout.length_bytes TickHeader.layout header
  header_eq := TickHeader.ofBytes_toBytes header
  length_records := by rw [← hperm.length_eq, List.length_map, List.length_map]
  decoded := by
    rw [List.forall₂_map_left_iff, List.forall₂_same]
    exact fun t ht => Transaction.ofBytes_toBytes (hinput t ht)
  nodup_listed := hnodup
  perm_listed := hperm

variable (parts : Parts bs)

theorem front_eq : parts.front = parts.header.toBytes :=
  (TickHeader.layout.parse_eq_ok_iff "tick header" parts.front parts.header).mp parts.header_eq

theorem input_le : ∀ t ∈ parts.transactions, t.body.input.length ≤ Transfer.maxInput := by
  intro t ht
  obtain ⟨i, hi, rfl⟩ := List.mem_iff_getElem.mp ht
  have hi' : i < parts.records.length := by rwa [parts.decoded.length_eq]
  exact (Transaction.ofBytes_eq_ok_iff.mp (parts.decoded.get hi' hi)).2

theorem records_eq : parts.records = parts.transactions.map Transaction.toBytes := by
  have hall : List.Forall₂ Eq parts.records (parts.transactions.map Transaction.toBytes) :=
    List.forall₂_map_right_iff.mpr
      (parts.decoded.imp fun _ _ h => (Transaction.ofBytes_eq_ok_iff.mp h).1)
  rwa [List.forall₂_eq_eq_eq] at hall

theorem bytes_eq_toBytes : bs = toBytes parts.header parts.transactions ++ parts.rest := by
  calc bs = parts.front ++ parts.records.flatten ++ parts.rest := parts.bytes_eq
    _ = toBytes parts.header parts.transactions ++ parts.rest := by
      rw [parts.front_eq, parts.records_eq]
      rfl

end Parts

/-- The parts are read as an archive, and what comes behind is left. -/
theorem read_of_parts (hs : s.Delivers bs) (parts : Parts bs) :
    ∃ ts s', read s = (.ok ⟨parts.header, ts⟩, s') ∧ ts.Perm parts.transactions ∧
      ts.map Transaction.hash = parts.header.body.listed ∧ s'.Delivers parts.rest := by
  have hbytes : bs = parts.header.toBytes ++
      ((parts.transactions.map Transaction.toBytes).flatten ++ parts.rest) := by
    rw [← List.append_assoc]
    exact parts.bytes_eq_toBytes
  rw [hbytes] at hs
  obtain ⟨s₁, hheader, hs₁⟩ := readHeader_append hs
  obtain ⟨s₂, hs₂, hrecords⟩ := Transaction.readMany_append 0 parts.input_le hs₁
  have hcount : parts.header.body.transactionCount = parts.transactions.length + 0 := by
    rw [← TickData.length_listed, ← parts.perm_listed.length_eq, List.length_map, Nat.add_zero]
  obtain ⟨ts, horder, hperm, hhash⟩ := canonicalOrder_perm parts.nodup_listed parts.perm_listed
  refine ⟨ts, s₂, ?_, hperm, hhash, hs₂⟩
  simp only [read, hheader, hcount, hrecords, Transaction.readMany, Except.map, List.append_nil, horder]

/-- What is read as an archive begins with its parts. -/
theorem nonempty_parts (hs : s.Delivers bs) (h : read s = (.ok archive, s')) : Nonempty (Parts bs) := by
  by_cases hshort : bs.length < TickHeader.layout.size
  · obtain ⟨s₁, hheader⟩ := readHeader_of_short hs hshort
    simp [read, hheader] at h
  obtain ⟨header, tail, rfl⟩ := TickHeader.layout.exists_bytes_append (Nat.not_lt.mp hshort)
  obtain ⟨s₁, hheader, hs₁⟩ := readHeader_append hs
  simp only [read, hheader] at h
  rcases hrecords : Transaction.readMany header.body.transactionCount s₁ with ⟨_ | txs, s₂⟩ <;>
    simp only [hrecords] at h
  · cases h
  · cases horder : canonicalOrder header txs with
    | error e => simp [horder, Except.map] at h
    | ok ts =>
      obtain ⟨rest, rfl, -, hinput, hlength⟩ := Transaction.append_of_readMany hs₁ hrecords
      obtain ⟨hnodup, hperm⟩ := perm_of_canonicalOrder horder hlength
      have parts := Parts.ofRecords header txs rest hinput hnodup hperm
      rw [← List.append_assoc]
      exact ⟨parts⟩

/-- A stream is read as an archive exactly where its bytes have the parts of one. The archive consists of
these parts, the records in the order of the slots, and what comes behind them is left; any other stream
gives an error. -/
theorem read_ok_iff_parts (hs : s.Delivers bs) :
    ((∃ archive, (read s).1 = .ok archive) ↔ Nonempty (Parts bs)) ∧
    (∀ parts : Parts bs, ∃ ts s', read s = (.ok ⟨parts.header, ts⟩, s') ∧
      ts.Perm parts.transactions ∧ ts.map Transaction.hash = parts.header.body.listed ∧
      s'.Delivers parts.rest) ∧
    (Nonempty (Parts bs) ∨ ∃ e, (read s).1 = .error e) := by
  have hforward : (∃ archive, (read s).1 = .ok archive) → Nonempty (Parts bs) := by
    rintro ⟨archive, h⟩
    exact nonempty_parts hs (Prod.ext h rfl)
  have hbackward (parts : Parts bs) : ∃ archive, (read s).1 = .ok archive := by
    obtain ⟨ts, s', hread, -⟩ := read_of_parts hs parts
    exact ⟨⟨parts.header, ts⟩, by rw [hread]⟩
  refine ⟨⟨hforward, fun ⟨parts⟩ => hbackward parts⟩, read_of_parts hs, ?_⟩
  cases hread : (read s).1 with
  | ok archive => exact .inl (hforward ⟨archive, hread⟩)
  | error e => exact .inr ⟨e, rfl⟩

/-! ## Two records and something behind them -/

/-- The records of a header with two slots, the second slot's first. -/
def swapped : List Transaction := [.blank 2 [7], .blank 1 []]

theorem input_swapped : ∀ t ∈ swapped, t.body.input.length ≤ Transfer.maxInput := by decide

theorem nodup_twoRecords : twoRecords.body.listed.Nodup := by
  rw [listed_twoRecords]
  simpa using Transaction.hash_blank_ne

theorem perm_swapped : (swapped.map Transaction.hash).Perm twoRecords.body.listed := by
  rw [listed_twoRecords]
  exact .swap ..

/-- A stream that is interrupted in the middle of the header is read as the archive, in the order of the
slots; the two bytes behind it are left. -/
theorem read_ok_iff_parts_swapped :
    ∃ ts s', read ⟨toBytes twoRecords swapped ++ [9, 9], [.deliver 3, .interrupt], .closed⟩ =
        (.ok ⟨twoRecords, ts⟩, s') ∧
      ts.map Transaction.hash = [(Transaction.blank 1 []).hash, (Transaction.blank 2 [7]).hash] ∧
      s'.Delivers [9, 9] := by
  have hs : Source.Delivers ⟨toBytes twoRecords swapped ++ [9, 9], [.deliver 3, .interrupt], .closed⟩
      (toBytes twoRecords swapped ++ [9, 9]) := ⟨rfl, by simp [ReadStep.Gentle], rfl⟩
  obtain ⟨-, hread, -⟩ := read_ok_iff_parts hs
  obtain ⟨ts, s', hts, -, hhash, hrest⟩ :=
    hread (.ofRecords twoRecords swapped [9, 9] input_swapped nodup_twoRecords perm_swapped)
  exact ⟨ts, s', hts, hhash.trans listed_twoRecords, hrest⟩

end LightClient.Archive
