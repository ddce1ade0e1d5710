import LightClient.Proofs.Stream.Transcript
import LightClient.Transaction.Stream
/-!
# What the reads give that a transaction is read with

`reads s` is what the reads give, one after the other, that reading a transaction off `s` makes
(`readsTo_readNext`). It is all that reading sees of the stream (`readNext_after`). Where one of the reads finds the
end or fails, no transaction comes of them: the stream holds no more if the end was found before any byte, and
anything else is an error (`readNext_of_stops`, `readNext_eq_none_iff_reads`). So of several transactions fewer are
read than were asked for (`readMany_of_stops`).

The proofs go by how far the reading comes (`readNext_stages`, `readInput_stages`): a record is read in three parts,
and where one of them is not whole, nothing is read behind it.
-/
namespace LightClient.Transaction

/-- What the reads give that are made behind a fixed part. -/
def restReads (part : Transfer.FixedPart) (s : Source) : List ReadResult :=
  s.reads part.inputSize.toNat ++
    match s.fill part.inputSize.toNat with
    | (.error _, _) => []
    | (.ok input, s') => if input.length < part.inputSize.toNat then [] else s'.reads signatureSize

/-- What the reads give that are made for a transaction. -/
def reads (s : Source) : List ReadResult :=
  s.reads Transfer.FixedPart.size ++
    match s.fill Transfer.FixedPart.size with
    | (.error _, _) => []
    | (.ok got, s') =>
        if got.length < Transfer.FixedPart.size then []
        else
          match readFixedPart got with
          | .error _ => []
          | .ok part => restReads part s'

/-- What the reads give that are made for up to `n` transactions. -/
def manyReads : Nat → Source → List ReadResult
  | 0, _ => []
  | n + 1, s =>
      reads s ++
        match readNext s with
        | (.ok (some _), s') => manyReads n s'
        | _ => []

variable {s s' u : Source} {part : Transfer.FixedPart} {n : Nat}

/-! ## How far the reading comes -/

/-- Reading is over after the reads for the input, or goes on with the signature. -/
theorem readInput_stages (part : Transfer.FixedPart) (s : Source) :
    (restReads part s = s.reads part.inputSize.toNat ∧ (readInput part s).2 = (s.fill part.inputSize.toNat).2 ∧
      ∃ e, (readInput part s).1 = .error e) ∨
    ∃ input s', s.fill part.inputSize.toNat = (.ok input, s') ∧ ¬ input.length < part.inputSize.toNat ∧
      restReads part s = s.reads part.inputSize.toNat ++ s'.reads signatureSize ∧
      readInput part s = readSignature part input s' := by
  rw [readInput, restReads]
  rcases s.fill part.inputSize.toNat with ⟨fault | input, s'⟩
  · exact .inl ⟨List.append_nil _, rfl, .io fault, rfl⟩
  by_cases hshort : input.length < part.inputSize.toNat
  · simp only [hshort, if_true, List.append_nil, true_and]
    exact .inl ⟨_, rfl⟩
  · simp only [hshort, if_false]
    exact .inr ⟨input, s', rfl, hshort, rfl, rfl⟩

/-- Reading is over after the reads for the fixed part, or goes on with the input that a whole one declares. -/
theorem readNext_stages (s : Source) :
    (reads s = s.reads Transfer.FixedPart.size ∧ (readNext s).2 = (s.fill Transfer.FixedPart.size).2 ∧
      ((s.fill Transfer.FixedPart.size).1 = .ok [] ∧ (readNext s).1 = .ok none ∨
        (s.fill Transfer.FixedPart.size).1 ≠ .ok [] ∧ ∃ e, (readNext s).1 = .error e)) ∨
    ∃ got part s', s.fill Transfer.FixedPart.size = (.ok got, s') ∧ ¬ got.length < Transfer.FixedPart.size ∧
      reads s = s.reads Transfer.FixedPart.size ++ restReads part s' ∧ readNext s = readInput part s' := by
  rw [readNext, reads]
  rcases s.fill Transfer.FixedPart.size with ⟨fault | got, s'⟩
  · exact .inl ⟨List.append_nil _, rfl, .inr ⟨nofun, .io fault, rfl⟩⟩
  cases hnone : got.isEmpty with
  | true =>
    obtain rfl := List.isEmpty_iff.mp hnone
    exact .inl ⟨List.append_nil _, rfl, .inl ⟨rfl, rfl⟩⟩
  | false =>
    have hsome : (.ok got : Except Fault Bytes) ≠ .ok [] := by simpa using hnone
    by_cases hshort : got.length < Transfer.FixedPart.size
    · simp only [hnone, hshort, Bool.false_eq_true, if_true, if_false, List.append_nil, true_and]
      exact .inl (.inr ⟨hsome, _, rfl⟩)
    cases hpart : readFixedPart got with
    | error e =>
      simp only [hnone, hshort, hpart, Bool.false_eq_true, if_false, List.append_nil, true_and]
      exact .inl (.inr ⟨hsome, e, rfl⟩)
    | ok part =>
      simp only [hnone, hshort, hpart, Bool.false_eq_true, if_false]
      exact .inr ⟨got, part, s', rfl, hshort, rfl, rfl⟩

/-! ## The reads that are made -/

theorem readsTo_readSignature (part : Transfer.FixedPart) (input : Bytes) (s : Source) :
    s.ReadsTo (s.reads signatureSize) (readSignature part input s).2 := by
  have hfill := Source.readsTo_fill signatureSize s
  rw [readSignature]
  rcases hread : s.fill signatureSize with ⟨fault | got, s'⟩ <;> rw [hread] at hfill
  · exact hfill
  · cases hoctets : Tuple.ofList? signatureSize got <;> simpa only [hoctets] using hfill

theorem readsTo_readInput (part : Transfer.FixedPart) (s : Source) :
    s.ReadsTo (restReads part s) (readInput part s).2 := by
  have hfill := Source.readsTo_fill part.inputSize.toNat s
  obtain ⟨hreads, hleft, -⟩ | ⟨input, s', hinput, -, hreads, hread⟩ := readInput_stages part s
  · rw [hreads, hleft]
    exact hfill
  · rw [hinput] at hfill
    rw [hreads, hread]
    exact hfill.append (readsTo_readSignature part input s')

theorem readsTo_readNext (s : Source) : s.ReadsTo (reads s) (readNext s).2 := by
  have hfill := Source.readsTo_fill Transfer.FixedPart.size s
  obtain ⟨hreads, hleft, -⟩ | ⟨got, part, s', hfixed, -, hreads, hread⟩ := readNext_stages s
  · rw [hreads, hleft]
    exact hfill
  · rw [hfixed] at hfill
    rw [hreads, hread]
    exact hfill.append (readsTo_readInput part s')

theorem readsTo_readMany (n : Nat) (s : Source) : s.ReadsTo (manyReads n s) (readMany n s).2 := by
  induction n generalizing s with
  | zero => exact .nil s
  | succ n ih =>
    have hfirst := readsTo_readNext s
    rw [readMany, manyReads]
    rcases hread : readNext s with ⟨e | _ | t, s'⟩ <;> rw [hread] at hfirst
    · exact hfirst.append (.nil s')
    · exact hfirst.append (.nil s')
    · exact hfirst.append (ih s')

/-! ## Reading again -/

theorem readSignature_after (u : Source) (part : Transfer.FixedPart) (input : Bytes) (s : Source) :
    readSignature part input (u.after (s.reads signatureSize)) = ((readSignature part input s).1, u) := by
  rw [readSignature, readSignature, Source.fill_after]
  rcases s.fill signatureSize with ⟨fault | got, s'⟩
  · rfl
  · cases hoctets : Tuple.ofList? signatureSize got <;> simp only [hoctets]

theorem readInput_after (u : Source) (part : Transfer.FixedPart) (s : Source) :
    readInput part (u.after (restReads part s)) = ((readInput part s).1, u) := by
  rw [readInput, readInput, restReads, Source.after_append, Source.fill_after]
  rcases s.fill part.inputSize.toNat with ⟨fault | input, s'⟩
  · rfl
  · by_cases hshort : input.length < part.inputSize.toNat <;>
      simp only [hshort, if_true, if_false, Source.after_nil, readSignature_after]

/-- Reading makes the reads that it made, comes to the same, and leaves the stream where it goes on. -/
theorem readNext_after (u s : Source) : readNext (u.after (reads s)) = ((readNext s).1, u) := by
  rw [readNext, readNext, reads, Source.after_append, Source.fill_after]
  rcases s.fill Transfer.FixedPart.size with ⟨fault | got, s'⟩
  · rfl
  cases hnone : got.isEmpty with
  | true =>
    obtain rfl := List.isEmpty_iff.mp hnone
    rfl
  | false =>
    by_cases hshort : got.length < Transfer.FixedPart.size
    · simp only [hnone, hshort, Bool.false_eq_true, if_true, if_false, Source.after_nil]
    cases hpart : readFixedPart got with
    | error e => simp only [hnone, hshort, hpart, Bool.false_eq_true, if_false, Source.after_nil]
    | ok part => simp only [hnone, hshort, hpart, Bool.false_eq_true, if_false, readInput_after]

theorem readMany_after (u : Source) (n : Nat) (s : Source) :
    readMany n (u.after (manyReads n s)) = ((readMany n s).1, u) := by
  induction n generalizing s with
  | zero => rfl
  | succ n ih =>
    rw [readMany, readMany, manyReads, Source.after_append, readNext_after]
    rcases readNext s with ⟨e | _ | t, s'⟩
    · rfl
    · rfl
    · simp only [ih]

/-! ## Reads that stop -/

theorem readSignature_of_stops {input : Bytes} (h : ∃ r ∈ s.reads signatureSize, r.Stops) :
    ∃ e, (readSignature part input s).1 = .error e := by
  rw [readSignature]
  rcases hfill : s.fill signatureSize with ⟨fault | got, s'⟩
  · exact ⟨.io fault, rfl⟩
  by_cases hfull : got.length = signatureSize
  · exact absurd h (Source.not_stops_of_full hfill (by omega))
  · have hnone : Tuple.ofList? signatureSize got = none := dif_neg hfull
    simp only [hnone]
    exact ⟨_, rfl⟩

theorem readInput_of_stops (h : ∃ r ∈ restReads part s, r.Stops) : ∃ e, (readInput part s).1 = .error e := by
  obtain ⟨-, -, herror⟩ | ⟨input, s', hfill, hwhole, hreads, hread⟩ := readInput_stages part s
  · exact herror
  · rw [hreads] at h
    simp only [List.mem_append, or_and_right, exists_or] at h
    rw [hread]
    rcases h with hinput | hsignature
    · exact absurd hinput (Source.not_stops_of_full hfill hwhole)
    · exact readSignature_of_stops hsignature

/-- Where a read finds the end or fails, reading comes to an error, or to nothing if no byte was there before. -/
theorem readNext_of_stops (h : ∃ r ∈ reads s, r.Stops) :
    (∃ e, (readNext s).1 = .error e) ∨ (readNext s).1 = .ok none := by
  obtain ⟨-, -, ⟨-, hnone⟩ | ⟨-, herror⟩⟩ | ⟨got, part, s', hfixed, hwhole, hreads, hread⟩ := readNext_stages s
  · exact .inr hnone
  · exact .inl herror
  · rw [hreads] at h
    simp only [List.mem_append, or_and_right, exists_or] at h
    rw [hread]
    rcases h with hfirst | hrest
    · exact absurd hfirst (Source.not_stops_of_full hfixed hwhole)
    · exact .inl (readInput_of_stops hrest)

theorem readSignature_ne_none {input : Bytes} : (readSignature part input s).1 ≠ .ok none := by
  rw [readSignature]
  rcases s.fill signatureSize with ⟨fault | got, s'⟩
  · simp
  · cases hoctets : Tuple.ofList? signatureSize got <;> simp [hoctets]

theorem readInput_ne_none : (readInput part s).1 ≠ .ok none := by
  obtain ⟨-, -, e, herror⟩ | ⟨input, s', -, -, -, hread⟩ := readInput_stages part s
  · simp [herror]
  · rw [hread]
    exact readSignature_ne_none

theorem readNext_eq_none_iff_fill :
    (readNext s).1 = .ok none ↔ (s.fill Transfer.FixedPart.size).1 = .ok [] := by
  obtain ⟨-, -, ⟨hfill, hnone⟩ | ⟨hfill, e, herror⟩⟩ | ⟨got, part, s', hfixed, hwhole, -, hread⟩ := readNext_stages s
  · simp only [hfill, hnone]
  · simp [hfill, herror]
  · have hgot : got ≠ [] := by
      rintro rfl
      exact hwhole (by decide)
    simp [hfixed, hgot, hread, readInput_ne_none]

/-- There is no further transaction exactly if nothing but interruptions came before the end. -/
theorem readNext_eq_none_iff_reads : (readNext s).1 = .ok none ↔ Source.NothingRead (reads s) := by
  have hsize : Transfer.FixedPart.size ≠ 0 := by decide
  constructor
  · intro h
    have hfill : s.fill Transfer.FixedPart.size = (.ok [], (s.fill Transfer.FixedPart.size).2) :=
      Prod.ext (readNext_eq_none_iff_fill.mp h) rfl
    have hreads : reads s = s.reads Transfer.FixedPart.size := by
      rw [reads, hfill]
      exact List.append_nil _
    rw [hreads]
    exact Source.nothingRead_of_fill hsize hfill
  · intro h
    -- Reading again makes the same reads, and now they are known.
    have hagain := readNext_after s s
    have hfill := Source.fill_of_nothingRead hsize h s
    have hnone := readNext_eq_none_iff_fill.mpr (congrArg Prod.fst hfill)
    rw [hagain] at hnone
    exact hnone

/-- Fewer transactions are read than were asked for where a read finds the end or fails. -/
theorem readMany_of_stops (h : ∃ r ∈ manyReads n s, r.Stops) :
    (∃ e, (readMany n s).1 = .error e) ∨ ∃ ts, (readMany n s).1 = .ok ts ∧ ts.length < n := by
  induction n generalizing s with
  | zero => simp [manyReads] at h
  | succ n ih =>
    rw [manyReads] at h
    simp only [List.mem_append, or_and_right, exists_or] at h
    rw [readMany]
    rcases hread : readNext s with ⟨e | _ | t, s'⟩
    · exact .inl ⟨e, rfl⟩
    · exact .inr ⟨[], rfl, Nat.succ_pos n⟩
    rcases h with hfirst | hmore
    · -- The first transaction was read, so its reads did not stop.
      rcases readNext_of_stops hfirst with ⟨e, he⟩ | hnone
      · rw [hread] at he
        cases he
      · rw [hread] at hnone
        cases hnone
    · rw [hread] at hmore
      rcases ih hmore with ⟨e, he⟩ | ⟨ts, hts, hlength⟩
      · exact .inl ⟨e, by simp only [he, Except.map]⟩
      · refine .inr ⟨t :: ts, by simp only [hts, Except.map], ?_⟩
        rw [List.length_cons]
        omega

end LightClient.Transaction
