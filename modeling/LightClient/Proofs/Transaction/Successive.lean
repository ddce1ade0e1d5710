import LightClient.Proofs.Transaction.Accepted
/-!
# Records off a stream and records by themselves

There are two readers of transactions: one for bytes that are a whole record, and one for a stream, which has to
find out where the record ends. They agree. What the second one takes off a stream is what the first one accepts,
wherever it is followed by other bytes, and what the second one makes of all other streams depends on how many bytes
there are and on the length that they declare (`readNext_cases`). So records that were written one after the other
are read one after the other, and then there are no more (`readTimes_of_delivers`). However many are read, it is the
bytes that decide, and not how they come (`bytesDecide_readTimes`, `bytesDecide_readMany`).
-/
namespace LightClient.Transaction

variable {bs rest : Bytes} {t : Transaction} {ts : List Transaction} {s : Source} {e : Error}

/-- What several calls give that read one transaction each, and what they leave of the stream. -/
def readTimes : Nat → Source → List (Outcome (Option Transaction)) × Source
  | 0, s => ([], s)
  | n + 1, s =>
      let (outcome, s') := readNext s
      let (outcomes, s'') := readTimes n s'
      (outcome :: outcomes, s'')

theorem readTimes_succ (n : Nat) (s : Source) :
    readTimes (n + 1) s =
      ((readNext s).1 :: (readTimes n (readNext s).2).1, (readTimes n (readNext s).2).2) := rfl

/-- A record with other bytes behind it declares the input that it has. -/
theorem declaredInput_append (h : t.body.input.length ≤ 1024) (rest : Bytes) :
    declaredInput (t.toBytes ++ rest) = t.body.input.length := by
  rw [toBytes_append]
  exact (Transfer.FixedPart.numberAt_inputSize ..).trans (Transfer.toNat_inputSize h)

theorem length_append (t : Transaction) (rest : Bytes) :
    (t.toBytes ++ rest).length = 80 + t.body.input.length + 64 + rest.length := by
  rw [List.length_append, length_toBytes_eq]
  rfl

/-! ## What is read off a stream -/

/-- A stream holds nothing, a part of a fixed part, a fixed part that declares too long an input, a part of a record
behind its fixed part, or a whole record. -/
theorem readNext_cases (hs : s.Delivers bs) :
    (bs = [] ∧ (readNext s).1 = .ok none) ∨
    (bs ≠ [] ∧ bs.length < 80 ∧ (readNext s).1 = .error (.malformed ⟨"transaction", 80, bs.length⟩)) ∨
    (80 ≤ bs.length ∧ 1024 < declaredInput bs ∧
      (readNext s).1 = .error (.protocolViolation (.longInput (declaredInput bs)))) ∨
    (80 ≤ bs.length ∧ declaredInput bs ≤ 1024 ∧ bs.length < 80 + declaredInput bs + 64 ∧
      (readNext s).1 = .error (.malformed ⟨"transaction", 80 + declaredInput bs + 64, bs.length⟩)) ∨
    (80 ≤ bs.length ∧ declaredInput bs ≤ 1024 ∧ 80 + declaredInput bs + 64 ≤ bs.length ∧
      ∃ t rest, t.body.input.length ≤ 1024 ∧ bs = t.toBytes ++ rest ∧ (readNext s).1 = .ok (some t) ∧
        (readNext s).2.Delivers rest) := by
  obtain ⟨outcome, rest, hnext⟩ := exists_next bs
  obtain ⟨s', hread, hs'⟩ := readNext_of_next hnext hs
  rw [hread]
  cases hnext with
  | nothing => exact .inl ⟨rfl, rfl⟩
  | record t rest fits =>
    have hdeclared := declaredInput_append fits rest
    have hlength := length_append t rest
    rw [hdeclared]
    exact .inr (.inr (.inr (.inr ⟨by omega, fits, by omega, t, rest, fits, rfl, rfl, hs'⟩)))
  | inFixedPart _ begun cut =>
    exact .inr (.inl ⟨List.length_pos_iff.mp begun, cut, rfl⟩)
  | longInput part rest long =>
    have hdeclared : declaredInput (Transfer.FixedPart.layout.bytes part ++ rest) = part.inputSize.toNat :=
      part.numberAt_inputSize rest
    rw [hdeclared]
    refine .inr (.inr (.inl ⟨?_, long, rfl⟩))
    rw [List.length_append, length_fixedPart, Transfer.FixedPart.size]
    omega
  | afterFixedPart part rest fits cut =>
    have hdeclared : declaredInput (Transfer.FixedPart.layout.bytes part ++ rest) = part.inputSize.toNat :=
      part.numberAt_inputSize rest
    have hlength : (Transfer.FixedPart.layout.bytes part ++ rest).length = 80 + rest.length := by
      rw [List.length_append, length_fixedPart, Transfer.FixedPart.size]
    rw [hdeclared, hlength]
    rw [signatureSize] at cut
    exact .inr (.inr (.inr (.inl ⟨by omega, fits, by omega, rfl⟩)))

theorem readNext_eq_none_iff (hs : s.Delivers bs) : (readNext s).1 = .ok none ↔ bs = [] := by
  rcases readNext_cases hs with ⟨rfl, hread⟩ | ⟨hne, -, hread⟩ | ⟨hsize, -, hread⟩ | ⟨hsize, -, -, hread⟩ |
    ⟨hsize, -, -, t, rest, -, -, hread, -⟩ <;> rw [hread]
  · simp
  · simp [hne]
  all_goals
    simp only [Except.ok.injEq, reduceCtorEq, false_iff]
    rintro rfl
    simp at hsize

theorem readNext_eq_some_iff (hs : s.Delivers bs) :
    (readNext s).1 = .ok (some t) ∧ (readNext s).2.Delivers rest ↔
      ∃ record, ofBytes record = .ok t ∧ bs = record ++ rest := by
  constructor
  · rintro ⟨hread, hrest⟩
    obtain ⟨outcome, rest', hnext⟩ := exists_next bs
    obtain ⟨s', hread', hs'⟩ := readNext_of_next hnext hs
    rw [hread'] at hread hrest
    obtain rfl : rest' = rest := hs'.bytes.symm.trans hrest.bytes
    cases hnext with
    | record t' _ fits =>
      cases hread
      exact ⟨t.toBytes, ofBytes_toBytes fits, rfl⟩
    | nothing => cases hread
    | inFixedPart => cases hread
    | longInput => cases hread
    | afterFixedPart => cases hread
  · rintro ⟨record, hrecord, rfl⟩
    obtain ⟨rfl, fits⟩ := ofBytes_eq_ok_iff.mp hrecord
    obtain ⟨s', hread, hs'⟩ := readNext_of_delivers fits hs
    rw [hread]
    exact ⟨rfl, hs'⟩

/-- A byte string has one beginning at most that is a record. -/
theorem record_unique {record record' rest' : Bytes} {t' : Transaction} (hrecord : ofBytes record = .ok t)
    (hrecord' : ofBytes record' = .ok t') (h : record ++ rest = record' ++ rest') : record = record' := by
  obtain ⟨rfl, fits⟩ := ofBytes_eq_ok_iff.mp hrecord
  obtain ⟨rfl, fits'⟩ := ofBytes_eq_ok_iff.mp hrecord'
  have hinput : t.body.input.length = t'.body.input.length := by
    rw [← declaredInput_append fits rest, h, declaredInput_append fits' rest']
  refine (List.append_inj h ?_).1
  rw [length_toBytes_eq, length_toBytes_eq, hinput]

theorem readNext_eq_error_iff (hs : s.Delivers bs) :
    (readNext s).1 = .error e ↔
      (80 ≤ bs.length ∧ 1024 < declaredInput bs ∧ e = .protocolViolation (.longInput (declaredInput bs))) ∨
      (bs ≠ [] ∧ bs.length < 80 ∧ e = .malformed ⟨"transaction", 80, bs.length⟩) ∨
      (80 ≤ bs.length ∧ declaredInput bs ≤ 1024 ∧ bs.length < 80 + declaredInput bs + 64 ∧
        e = .malformed ⟨"transaction", 80 + declaredInput bs + 64, bs.length⟩) := by
  rcases readNext_cases hs with ⟨rfl, hread⟩ | ⟨hne, hshort, hread⟩ | ⟨hsize, hlong, hread⟩ |
    ⟨hsize, hfits, hcut, hread⟩ | ⟨hsize, hfits, hwhole, t, rest, -, -, hread, -⟩ <;> rw [hread]
  · simp
  · simp [hne, hshort, Nat.not_le.mpr hshort, eq_comm]
  · simp [hsize, hlong, Nat.not_lt.mpr hsize, Nat.not_le.mpr hlong, eq_comm]
  · simp [hsize, hfits, hcut, Nat.not_lt.mpr hsize, Nat.not_lt.mpr hfits, eq_comm]
  · simp [Nat.not_lt.mpr hsize, Nat.not_lt.mpr hfits, Nat.not_lt.mpr hwhole]

/-! ## Several records -/

/-- Records are read one after the other, and each further call finds that there are no more. -/
theorem readTimes_of_delivers (n : Nat) (h : ∀ t ∈ ts, t.body.input.length ≤ 1024)
    (hs : s.Delivers (ts.map toBytes).flatten) :
    (readTimes (ts.length + n) s).1 = ts.map (fun t => .ok (some t)) ++ List.replicate n (.ok none) := by
  induction ts generalizing s with
  | nil =>
    rw [List.length_nil, Nat.zero_add]
    induction n generalizing s with
    | zero => rfl
    | succ n ih =>
      obtain ⟨s', hread, hs'⟩ := readNext_of_end hs
      rw [readTimes_succ, hread, ih hs']
      rfl
  | cons t ts ih =>
    obtain ⟨ht, hts⟩ := List.forall_mem_cons.mp h
    rw [List.map_cons, List.flatten_cons] at hs
    obtain ⟨s', hread, hs'⟩ := readNext_of_delivers ht hs
    rw [List.length_cons, Nat.add_right_comm, readTimes_succ, hread, ih hts hs']
    rfl

/-! ## How the bytes came -/

theorem bytesDecide_readNext : Source.BytesDecide readNext := by
  intro bs
  obtain ⟨outcome, rest, hnext⟩ := exists_next bs
  exact ⟨outcome, rest, fun _ hs => readNext_of_next hnext hs⟩

theorem bytesDecide_readTimes (n : Nat) : Source.BytesDecide (readTimes n) := by
  induction n with
  | zero => exact .const []
  | succ n ih =>
    refine bytesDecide_readNext.bind fun outcome => ⟨_, ih.map (outcome :: ·), fun s s' hread => ?_⟩
    rw [readTimes_succ, hread]

theorem bytesDecide_readMany (n : Nat) : Source.BytesDecide (readMany n) := by
  induction n with
  | zero => exact .const (.ok [] : Outcome (List Transaction))
  | succ n ih =>
    refine bytesDecide_readNext.bind fun outcome => ?_
    rcases outcome with e | _ | t
    · exact ⟨fun s => (.error e, s), .const _, fun s s' hread => by simp only [readMany, hread]⟩
    · exact ⟨fun s => (.ok [], s), .const _, fun s s' hread => by simp only [readMany, hread]⟩
    · exact ⟨_, ih.map (·.map (t :: ·)), fun s s' hread => by simp only [readMany, hread]⟩

/-! ## The two readers -/

/-- **The stream reader and the reader of whole records agree.** A stream holds no transaction exactly if it is
empty. A transaction is taken off it exactly if it begins with bytes that are read as this transaction, and what
comes behind them is left; there is only one such beginning. The protocol is broken exactly if a whole fixed part
declares more than 1024 input bytes. Otherwise the stream is malformed exactly if it ends inside the fixed part or
inside the record that this declares, and then the failure says how many bytes there were. So the records of several
transactions are read as these transactions, and nothing after them. -/
theorem readNext_agrees (hs : s.Delivers bs) :
    ((readNext s).1 = .ok none ↔ bs = []) ∧
    (∀ t rest, (readNext s).1 = .ok (some t) ∧ (readNext s).2.Delivers rest ↔
      ∃ record, ofBytes record = .ok t ∧ bs = record ++ rest) ∧
    (∀ record record' rest rest' t t', ofBytes record = .ok t → bs = record ++ rest →
      ofBytes record' = .ok t' → bs = record' ++ rest' → record = record') ∧
    (∀ violation, (readNext s).1 = .error (.protocolViolation violation) ↔
      80 ≤ bs.length ∧ 1024 < declaredInput bs ∧ violation = .longInput (declaredInput bs)) ∧
    (∀ flaw, (readNext s).1 = .error (.malformed flaw) ↔
      (bs ≠ [] ∧ bs.length < 80 ∧ flaw = ⟨"transaction", 80, bs.length⟩) ∨
      (80 ≤ bs.length ∧ declaredInput bs ≤ 1024 ∧ bs.length < 80 + declaredInput bs + 64 ∧
        flaw = ⟨"transaction", 80 + declaredInput bs + 64, bs.length⟩)) ∧
    ∀ ts : List Transaction, (∀ t ∈ ts, t.body.input.length ≤ 1024) → bs = (ts.map toBytes).flatten →
      (readTimes (ts.length + 1) s).1 = ts.map (fun t => .ok (some t)) ++ [.ok none] := by
  refine ⟨readNext_eq_none_iff hs, fun t rest => readNext_eq_some_iff hs, ?_, fun violation => ?_, fun flaw => ?_, ?_⟩
  · intro record record' rest rest' t t' hrecord h hrecord' h'
    exact record_unique hrecord hrecord' (h.symm.trans h')
  · rw [readNext_eq_error_iff hs]
    simp
  · rw [readNext_eq_error_iff hs]
    simp
  · rintro ts hts rfl
    exact readTimes_of_delivers 1 hts hs

/-- Two records are read off a stream that is interrupted inside the first one, and then no more; a record of which
the last bytes are missing is malformed. -/
theorem readNext_agrees_interrupted :
    (readTimes 3 ⟨(blank 1 []).toBytes ++ (blank 2 [7]).toBytes, [.deliver 3, .interrupt], .closed⟩).1 =
        [.ok (some (blank 1 [])), .ok (some (blank 2 [7])), .ok none] ∧
      (readNext (.ofBytes ((blank 2 [7]).toBytes.take 140))).1 = .error (.malformed ⟨"transaction", 145, 140⟩) := by
  have hfirst : (⟨(blank 1 []).toBytes ++ (blank 2 [7]).toBytes, [.deliver 3, .interrupt], .closed⟩ :
      Source).Delivers ((blank 1 []).toBytes ++ (blank 2 [7]).toBytes) :=
    ⟨rfl, by simp [ReadStep.Gentle], rfl⟩
  obtain ⟨-, -, -, -, -, hrecords⟩ := readNext_agrees hfirst
  obtain ⟨-, -, -, -, hmalformed, -⟩ := readNext_agrees (Source.delivers_ofBytes ((blank 2 [7]).toBytes.take 140))
  refine ⟨hrecords [blank 1 [], blank 2 [7]] (by decide) (by simp), ?_⟩
  have hlength : ((blank 2 [7]).toBytes.take 140).length = 140 := by decide +kernel
  have hdeclared : declaredInput ((blank 2 [7]).toBytes.take 140) = 1 := by decide +kernel
  rw [hmalformed, hlength, hdeclared]
  exact .inr ⟨by decide, by decide, by decide, rfl⟩

end LightClient.Transaction
