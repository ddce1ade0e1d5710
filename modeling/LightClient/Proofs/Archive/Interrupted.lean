import LightClient.Proofs.Archive.Acceptance
import Mathlib.Algebra.GroupWithZero.Nat
/-!
# Saves that are interrupted

A stream that is written takes the bytes of an archive up to the room it has, and reports success only if it
took them all and could flush them (`Sink.writeAll_some`). What it took before it failed ends inside the
header, between two records or inside one (`exists_place`), and reading never takes that for an archive: bytes
that end inside a part are malformed, and where they end between two records, the first slot whose record was
not written is reported (`interrupted_save`).
-/
namespace LightClient

namespace Sink

variable {sink : Sink}

theorem flush_eq_ok_iff : sink.flush = .ok () ↔ sink.onFlush = none := by
  rw [flush]
  cases sink.onFlush <;> simp

theorem writeAll_none (sink : Sink) (pieces : List Bytes) :
    sink.writeAll none pieces = ⟨pieces.flatten, sink.flush⟩ := by
  induction pieces with
  | nil => rfl
  | cons piece pieces ih => simp only [writeAll, ih, List.flatten_cons]

/-- With limited room the first bytes are taken, as many as there is room for. -/
theorem writeAll_some (sink : Sink) (room : Nat) (pieces : List Bytes) :
    sink.writeAll (some room) pieces =
      ⟨pieces.flatten.take room,
        if pieces.flatten.length ≤ room then sink.flush else .error sink.onFull⟩ := by
  induction pieces generalizing room with
  | nil =>
    have hfits : ([] : Bytes).length ≤ room := Nat.zero_le room
    rw [writeAll, List.flatten_nil, List.take_nil, if_pos hfits]
  | cons piece pieces ih =>
    rw [writeAll, List.flatten_cons, List.length_append]
    by_cases hfits : piece.length ≤ room
    · have hroom : piece.length + pieces.flatten.length ≤ room ↔
          pieces.flatten.length ≤ room - piece.length := by omega
      rw [if_pos hfits, ih, List.take_append, List.take_of_length_le hfits]
      simp only [hroom]
    · have hfull : ¬ piece.length + pieces.flatten.length ≤ room := by omega
      rw [if_neg hfits, if_neg hfull, List.take_append_of_le_length (by omega)]

end Sink

namespace Archive

variable {header : TickHeader} {txs before after : List Transaction} {t : Transaction} {s : Source}
  {bytes : Bytes} {room : Nat} {onFull : Fault} {onFlush : Option Fault}

theorem write_eq_ok_iff (sink : Sink) (header : TickHeader) (txs : List Transaction) :
    (write sink header txs).2 = .ok () ↔ (sink.write (pieces header txs)).outcome = .ok () := by
  simp only [write]
  cases (sink.write (pieces header txs)).outcome <;> simp [Except.mapError]

theorem write_some (header : TickHeader) (txs : List Transaction) (room : Nat) (onFull : Fault)
    (onFlush : Option Fault) :
    (write ⟨some room, onFull, onFlush⟩ header txs).1 = (toBytes header txs).take room ∧
      ((write ⟨some room, onFull, onFlush⟩ header txs).2 = .ok () ↔
        (toBytes header txs).length ≤ room ∧ onFlush = none) := by
  have hwritten := Sink.writeAll_some ⟨some room, onFull, onFlush⟩ room (pieces header txs)
  refine ⟨congrArg Written.bytes hwritten, ?_⟩
  rw [write_eq_ok_iff, Sink.write, hwritten, toBytes]
  by_cases hroom : (pieces header txs).flatten.length ≤ room
  · simp only [hroom, if_true, true_and, Sink.flush_eq_ok_iff]
  · simp only [hroom, if_false, reduceCtorEq, false_and]

theorem write_none (header : TickHeader) (txs : List Transaction) (onFull : Fault)
    (onFlush : Option Fault) :
    (write ⟨none, onFull, onFlush⟩ header txs).1 = toBytes header txs ∧
      ((write ⟨none, onFull, onFlush⟩ header txs).2 = .ok () ↔ onFlush = none) := by
  have hwritten := Sink.writeAll_none ⟨none, onFull, onFlush⟩ (pieces header txs)
  refine ⟨congrArg Written.bytes hwritten, ?_⟩
  rw [write_eq_ok_iff, Sink.write, hwritten, Sink.flush_eq_ok_iff]

/-! ## Where the bytes of an archive can end -/

/-- The place in an archive's bytes at which the record with a number begins, or the place behind the
last record. -/
def recordStart (header : TickHeader) (txs : List Transaction) (k : Nat) : Nat :=
  (toBytes header (txs.take k)).length

theorem toBytes_append (header : TickHeader) (before after : List Transaction) :
    toBytes header (before ++ after) = toBytes header before ++ (after.map Transaction.toBytes).flatten := by
  simp only [toBytes, pieces, List.map_append, List.flatten_cons, List.flatten_append, List.append_assoc]

theorem length_toBytes (header : TickHeader) (txs : List Transaction) :
    (toBytes header txs).length = 41328 + (txs.map fun t => t.toBytes.length).sum := by
  have hheader : header.toBytes.length = 41328 := Layout.length_bytes TickHeader.layout header
  rw [toBytes, pieces, List.flatten_cons, List.length_append, hheader, List.length_flatten, List.map_map]
  rfl

theorem recordStart_zero (header : TickHeader) (txs : List Transaction) :
    recordStart header txs 0 = 41328 := by
  rw [recordStart, List.take_zero, length_toBytes, List.map_nil, List.sum_nil, Nat.add_zero]

theorem toBytes_take_succ (header : TickHeader) {k : Nat} (hk : txs[k]? = some t) :
    toBytes header (txs.take (k + 1)) = toBytes header (txs.take k) ++ t.toBytes := by
  rw [List.take_add_one, hk, toBytes_append, Option.toList_some, List.map_singleton, List.flatten_singleton]

theorem recordStart_succ (header : TickHeader) {k : Nat} (hk : txs[k]? = some t) :
    recordStart header txs (k + 1) = recordStart header txs k + t.toBytes.length := by
  rw [recordStart, toBytes_take_succ header hk, List.length_append]
  rfl

theorem recordStart_length (header : TickHeader) (txs : List Transaction) :
    recordStart header txs txs.length = (toBytes header txs).length := by
  rw [recordStart, List.take_length]

/-- The bytes before the end of an archive lie in the header or in one of the records. -/
theorem exists_place {n : Nat} (h : n < (toBytes header txs).length) :
    n < 41328 ∨ ∃ k < txs.length, recordStart header txs k ≤ n ∧ n < recordStart header txs (k + 1) := by
  rw [← recordStart_length] at h
  suffices hsuff : ∀ m ≤ txs.length, n < recordStart header txs m → n < 41328 ∨
      ∃ k < txs.length, recordStart header txs k ≤ n ∧ n < recordStart header txs (k + 1) from
    hsuff txs.length (Nat.le_refl _) h
  intro m hm hn
  induction m with
  | zero =>
    rw [recordStart_zero] at hn
    exact .inl hn
  | succ m ih =>
    by_cases hbefore : n < recordStart header txs m
    · exact ih (by omega) hbefore
    · exact .inr ⟨m, by omega, by omega, hn⟩

/-- The archive's bytes up to a place between two records are those of the records before it. -/
theorem take_recordStart (header : TickHeader) (txs : List Transaction) (k : Nat) :
    (toBytes header txs).take (recordStart header txs k) = toBytes header (txs.take k) := by
  conv_lhs => rw [← List.take_append_drop k txs]
  rw [toBytes_append, recordStart, List.take_append_drop, List.take_left']
  rfl

/-- The archive's bytes up to a place inside a record are those of the records before it and some of its
own. -/
theorem take_of_recordStart_lt {n k : Nat} (hk : txs[k]? = some t) (hlt : recordStart header txs k < n)
    (hgt : n < recordStart header txs (k + 1)) :
    ∃ m, 0 < m ∧ m < t.toBytes.length ∧
      (toBytes header txs).take n = toBytes header (txs.take k) ++ t.toBytes.take m := by
  have hwhole : toBytes header txs =
      toBytes header (txs.take (k + 1)) ++ ((txs.drop (k + 1)).map Transaction.toBytes).flatten := by
    rw [← toBytes_append, List.take_append_drop]
  have hnext := recordStart_succ header hk
  rw [recordStart, recordStart] at hnext
  rw [recordStart] at hlt hgt
  refine ⟨n - (toBytes header (txs.take k)).length, by omega, by omega, ?_⟩
  rw [hwhole, List.take_append_of_le_length (by omega), toBytes_take_succ header hk, List.take_append,
    List.take_of_length_le (by omega)]

/-! ## Reading what was taken -/

theorem read_of_header_cut (hs : s.Delivers bytes) (h : bytes.length < 41328) :
    (read s).1 = .error (.malformed ⟨"tick archive header", 41328, 0⟩) := by
  obtain ⟨s', hheader⟩ := readHeader_of_short hs h
  simp only [read, hheader]
  rfl

/-- Of records with different digests none has that of a later one. -/
theorem hash_notMem_take (hdistinct : (txs.map Transaction.hash).Nodup) {k : Nat} (hk : k < txs.length) :
    txs[k].hash ∉ (txs.take k).map Transaction.hash := by
  have hsplit : txs.map Transaction.hash =
      (txs.take k).map Transaction.hash ++ txs[k].hash :: (txs.drop (k + 1)).map Transaction.hash := by
    rw [← List.map_cons, ← List.map_append, ← List.drop_eq_getElem_cons hk, List.take_append_drop]
  rw [hsplit] at hdistinct
  intro hmem
  exact (List.nodup_append.mp hdistinct).2.2 _ hmem _ (List.mem_cons_self ..) rfl

/-- Where the bytes end between two records, the first slot whose record was not written is reported. -/
theorem read_of_record_missing (hinput : ∀ t ∈ txs, t.body.input.length ≤ Transfer.maxInput)
    (hnodup : header.body.listed.Nodup) (hperm : (txs.map Transaction.hash).Perm header.body.listed)
    {k : Nat} (hk : k < txs.length)
    (hs : s.Delivers (toBytes header (txs.take k))) :
    ∃ d, header.body.listed.find? (fun d => !((txs.take k).map Transaction.hash).contains d) = some d ∧
      (read s).1 = .error (.incompleteArchive d) := by
  have hmissing := hash_notMem_take (hperm.nodup_iff.mpr hnodup) hk
  have hlisted : txs[k].hash ∈ header.body.listed :=
    hperm.subset (List.mem_map_of_mem (List.getElem_mem hk))
  obtain ⟨d, hd⟩ : ∃ d, header.body.listed.find?
      (fun d => !((txs.take k).map Transaction.hash).contains d) = some d := by
    rw [← Option.isSome_iff_exists, List.find?_isSome]
    exact ⟨_, hlisted, by simpa using hmissing⟩
  refine ⟨d, hd, ?_⟩
  obtain ⟨s', hread, -⟩ := read_of_delivers (fun t ht => hinput t (List.mem_of_mem_take ht)) hs
  have hall : (txs.take k).take header.body.transactionCount = txs.take k := by
    rw [← TickData.length_listed, ← hperm.length_eq, List.length_map, List.take_take]
    congr 1
    omega
  rw [hread, hall, canonicalOrder_of_missing hnodup hd]
  rfl

/-- Where the bytes end inside a record, this is malformed. -/
theorem read_of_record_cut (hinput : ∀ t ∈ txs, t.body.input.length ≤ Transfer.maxInput)
    (hperm : (txs.map Transaction.hash).Perm header.body.listed) {k m : Nat} (hk : txs[k]? = some t)
    (hm : 0 < m) (hlt : m < t.toBytes.length)
    (hs : s.Delivers (toBytes header (txs.take k) ++ t.toBytes.take m)) :
    ∃ flaw, (read s).1 = .error (.malformed flaw) := by
  obtain ⟨hklt, -⟩ := List.getElem?_eq_some_iff.mp hk
  obtain ⟨flaw, hnext⟩ := Transaction.next_take (hinput t (List.mem_of_getElem? hk)) hm hlt
  have hsplit : toBytes header (txs.take k) ++ t.toBytes.take m = header.toBytes ++
      (((txs.take k).map Transaction.toBytes).flatten ++ t.toBytes.take m) := by
    rw [← List.append_assoc]
    rfl
  rw [hsplit] at hs
  obtain ⟨s₁, hheader, hs₁⟩ := readHeader_append hs
  have hcount : header.body.transactionCount = (txs.take k).length + (txs.length - k - 1 + 1) := by
    rw [← TickData.length_listed, ← hperm.length_eq, List.length_map, List.length_take_of_le (by omega)]
    omega
  obtain ⟨s₂, hs₂, hrecords⟩ := Transaction.readMany_append (txs.length - k - 1 + 1)
    (fun t ht => hinput t (List.mem_of_mem_take ht)) hs₁
  obtain ⟨s₃, hcut, -⟩ := Transaction.readNext_of_next hnext hs₂
  refine ⟨flaw, ?_⟩
  simp only [read, hheader, hcount, hrecords, Transaction.readMany, hcut, Except.map]

/-- Whoever takes only some bytes of an archive, or cannot flush them, says so, and has taken the first ones.
These are never read as an archive: they are malformed where they end inside the header or inside a record,
and where they end between two records, the first slot whose record was not written is reported. -/
theorem interrupted_save (hinput : ∀ t ∈ txs, t.body.input.length ≤ Transfer.maxInput)
    (hnodup : header.body.listed.Nodup) (hperm : (txs.map Transaction.hash).Perm header.body.listed) :
    (∀ room onFull onFlush,
      (write ⟨some room, onFull, onFlush⟩ header txs).1 = (toBytes header txs).take room ∧
      ((write ⟨some room, onFull, onFlush⟩ header txs).2 = .ok () ↔
        (toBytes header txs).length ≤ room ∧ onFlush = none)) ∧
    (∀ onFull onFlush,
      (write ⟨none, onFull, onFlush⟩ header txs).1 = toBytes header txs ∧
      ((write ⟨none, onFull, onFlush⟩ header txs).2 = .ok () ↔ onFlush = none)) ∧
    ∀ room onFull onFlush (s : Source), room < (toBytes header txs).length →
      s.Delivers (write ⟨some room, onFull, onFlush⟩ header txs).1 →
      (∃ e, (read s).1 = .error e) ∧
      (room < 41328 → (read s).1 = .error (.malformed ⟨"tick archive header", 41328, 0⟩)) ∧
      (∀ k < txs.length, room = recordStart header txs k →
        ∃ d, header.body.listed.find? (fun d => !((txs.take k).map Transaction.hash).contains d) = some d ∧
          (read s).1 = .error (.incompleteArchive d)) ∧
      (∀ k < txs.length, recordStart header txs k < room → room < recordStart header txs (k + 1) →
        ∃ flaw, (read s).1 = .error (.malformed flaw)) := by
  refine ⟨write_some header txs, write_none header txs, fun room onFull onFlush s hroom hs => ?_⟩
  rw [(write_some header txs room onFull onFlush).1] at hs
  have hheader (h : room < 41328) : (read s).1 = .error (.malformed ⟨"tick archive header", 41328, 0⟩) :=
    read_of_header_cut hs (by rw [List.length_take]; omega)
  have hbetween (k) (hk : k < txs.length) (h : room = recordStart header txs k) :
      ∃ d, header.body.listed.find? (fun d => !((txs.take k).map Transaction.hash).contains d) = some d ∧
        (read s).1 = .error (.incompleteArchive d) := by
    rw [h, take_recordStart] at hs
    exact read_of_record_missing hinput hnodup hperm hk hs
  have hinside (k) (hk : k < txs.length) (hlt : recordStart header txs k < room)
      (hgt : room < recordStart header txs (k + 1)) : ∃ flaw, (read s).1 = .error (.malformed flaw) := by
    have hrecord := List.getElem?_eq_getElem hk
    obtain ⟨m, hm, hlen, htake⟩ := take_of_recordStart_lt hrecord hlt hgt
    rw [htake] at hs
    exact read_of_record_cut hinput hperm hrecord hm hlen hs
  refine ⟨?_, hheader, hbetween, hinside⟩
  obtain h | ⟨k, hk, hle, hlt⟩ := exists_place hroom
  · exact ⟨_, hheader h⟩
  · rcases Nat.eq_or_lt_of_le hle with heq | hgt
    · obtain ⟨d, -, hread⟩ := hbetween k hk heq.symm
      exact ⟨_, hread⟩
    · obtain ⟨flaw, hread⟩ := hinside k hk hgt hlt
      exact ⟨_, hread⟩

/-! ## A save cut off at three places -/

theorem recordStart_swapped :
    recordStart twoRecords swapped 1 = 41473 ∧ recordStart twoRecords swapped 2 = 41617 := by
  have hlong : (Transaction.blank 2 [7]).toBytes.length = 145 := Transaction.length_toBytes (by decide)
  have hshort : (Transaction.blank 1 []).toBytes.length = 144 := Transaction.length_toBytes (by decide)
  simp only [recordStart, length_toBytes, swapped, List.take_succ_cons, List.take_zero, List.map_cons,
    List.map_nil, hlong, hshort, List.sum_cons, List.sum_nil, Nat.reduceAdd, and_self]

theorem find?_missing_swapped :
    twoRecords.body.listed.find? (fun d => !((swapped.take 1).map Transaction.hash).contains d) =
      some (Transaction.blank 1 []).hash := by
  rw [listed_twoRecords, List.find?_cons_of_pos]
  simpa [swapped] using Transaction.hash_blank_ne

/-- Cut off inside the header, behind the first record, which is that of the second slot, and inside the
second. -/
theorem interrupted_save_swapped :
    (read (.ofBytes (write ⟨some 100, .full, none⟩ twoRecords swapped).1)).1 =
        .error (.malformed ⟨"tick archive header", 41328, 0⟩) ∧
      (read (.ofBytes (write ⟨some 41473, .full, none⟩ twoRecords swapped).1)).1 =
        .error (.incompleteArchive (Transaction.blank 1 []).hash) ∧
      ∃ flaw, (read (.ofBytes (write ⟨some 41500, .full, none⟩ twoRecords swapped).1)).1 =
        .error (.malformed flaw) := by
  have hlength : (toBytes twoRecords swapped).length = 41617 :=
    (recordStart_length twoRecords swapped).symm.trans recordStart_swapped.2
  obtain ⟨-, -, hread⟩ := interrupted_save input_swapped nodup_twoRecords perm_swapped
  obtain ⟨-, hheader, -, -⟩ := hread 100 .full none _ (by omega) (Source.delivers_ofBytes _)
  obtain ⟨-, -, hbetween, -⟩ := hread 41473 .full none _ (by omega) (Source.delivers_ofBytes _)
  obtain ⟨-, -, -, hinside⟩ := hread 41500 .full none _ (by omega) (Source.delivers_ofBytes _)
  refine ⟨hheader (by decide), ?_, hinside 1 (by decide) ?_ ?_⟩
  · obtain ⟨d, hd, hmissing⟩ := hbetween 1 (by decide) recordStart_swapped.1.symm
    rw [find?_missing_swapped] at hd
    cases hd
    exact hmissing
  · rw [recordStart_swapped.1]
    decide
  · rw [recordStart_swapped.2]
    decide

end Archive

end LightClient
