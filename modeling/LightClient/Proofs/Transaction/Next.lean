import LightClient.Proofs.Transaction.Record
/-!
# What a stream of records holds next

`Next bs outcome rest` says what the bytes `bs` hold first, as the form of a record has it: nothing, a whole
record, a record that is cut off in one of its parts, or one that declares too long an input. Every byte
string holds exactly one of these (`exists_next`), and it is what reading gives (`readNext_of_next`). Reading
several records takes whole ones off one after the other (`readMany_append`), and a reading that succeeds has
met nothing else (`append_of_readMany`). A single record is accepted where it is the whole of the bytes
(`ofBytes_eq_ok_iff`).
-/
namespace LightClient.Transaction

/-- What reading a record finds at the beginning of some bytes, and what it leaves of them. -/
inductive Next : Bytes → Outcome (Option Transaction) → Bytes → Prop where
  /-- Nothing is left. -/
  | nothing : Next [] (.ok none) []
  /-- A whole record comes first. -/
  | record (t : Transaction) (rest : Bytes) (fits : t.body.input.length ≤ Transfer.maxInput) :
      Next (t.toBytes ++ rest) (.ok (some t)) rest
  /-- The bytes end inside the fixed part. -/
  | inFixedPart (bs : Bytes) (begun : 0 < bs.length) (cut : bs.length < Transfer.FixedPart.size) :
      Next bs (.error (cutOff Transfer.FixedPart.size bs.length)) []
  /-- The fixed part declares a longer input than is accepted. -/
  | longInput (part : Transfer.FixedPart) (rest : Bytes) (long : Transfer.maxInput < part.inputSize.toNat) :
      Next (Transfer.FixedPart.layout.bytes part ++ rest)
        (.error (.protocolViolation (.longInput part.inputSize.toNat))) rest
  /-- The bytes end inside the input or the signature. -/
  | afterFixedPart (part : Transfer.FixedPart) (rest : Bytes)
      (fits : part.inputSize.toNat ≤ Transfer.maxInput)
      (cut : rest.length < part.inputSize.toNat + signatureSize) :
      Next (Transfer.FixedPart.layout.bytes part ++ rest)
        (.error (cutOff (recordSize part) (Transfer.FixedPart.size + rest.length))) []

variable {t : Transaction} {ts : List Transaction} {s s' : Source} {bs rest : Bytes}
  {part : Transfer.FixedPart} {outcome : Outcome (Option Transaction)}

/-! ## Every byte string holds something next -/

/-- A fixed part with enough bytes behind it begins a record. -/
theorem exists_record (part : Transfer.FixedPart) (rest : Bytes)
    (h : part.inputSize.toNat + signatureSize ≤ rest.length) :
    ∃ (t : Transaction) (rest' : Bytes), Transfer.FixedPart.layout.bytes part ++ rest = t.toBytes ++ rest' ∧
      t.body.input.length = part.inputSize.toNat ∧ t.body.fixedPart = part := by
  have hinput : (rest.take part.inputSize.toNat).length = part.inputSize.toNat :=
    List.length_take_of_le (by omega)
  have hsignature : ((rest.drop part.inputSize.toNat).take signatureSize).length = signatureSize := by
    rw [List.length_take, List.length_drop]
    omega
  have hpart := Transfer.fixedPart_withInput hinput
  refine ⟨⟨part.withInput (rest.take part.inputSize.toNat), ⟨⟨_, hsignature⟩⟩⟩,
    (rest.drop part.inputSize.toNat).drop signatureSize, ?_, hinput, hpart⟩
  rw [toBytes_append, hpart]
  congr 1
  rw [List.take_append_drop]
  exact (List.take_append_drop ..).symm

theorem exists_next (bs : Bytes) : ∃ outcome rest, Next bs outcome rest := by
  by_cases hnone : bs = []
  · subst hnone
    exact ⟨_, _, .nothing⟩
  have hbegun : 0 < bs.length := List.length_pos_iff.mpr hnone
  by_cases hcut : bs.length < Transfer.FixedPart.size
  · exact ⟨_, _, .inFixedPart bs hbegun hcut⟩
  obtain ⟨part, tail, rfl⟩ := Transfer.FixedPart.layout.exists_bytes_append (Nat.not_lt.mp hcut)
  by_cases hlong : Transfer.maxInput < part.inputSize.toNat
  · exact ⟨_, _, .longInput part tail hlong⟩
  by_cases hend : tail.length < part.inputSize.toNat + signatureSize
  · exact ⟨_, _, .afterFixedPart part tail (Nat.not_lt.mp hlong) hend⟩
  obtain ⟨t, rest, hbytes, hinput, -⟩ := exists_record part tail (Nat.not_lt.mp hend)
  rw [hbytes]
  exact ⟨_, _, .record t rest (by omega)⟩

/-! ## Reading gives it -/

theorem readInput_of_cut (hs : s.Delivers rest) (hcut : rest.length < part.inputSize.toNat + signatureSize) :
    ∃ s', readInput part s =
        (.error (cutOff (recordSize part) (Transfer.FixedPart.size + rest.length)), s') ∧
      s'.Delivers [] := by
  obtain ⟨s₁, hinput, hs₁⟩ := Source.fill_of_delivers hs part.inputSize.toNat
  by_cases hshort : rest.length < part.inputSize.toNat
  · -- The bytes end inside the input.
    rw [List.take_of_length_le (by omega)] at hinput
    rw [List.drop_of_length_le (by omega)] at hs₁
    exact ⟨s₁, by simp only [readInput, hinput, hshort, if_true], hs₁⟩
  · -- They end inside the signature.
    obtain ⟨s₂, hsignature, hs₂⟩ := Source.fill_of_delivers hs₁ signatureSize
    rw [List.take_of_length_le (by rw [List.length_drop]; omega)] at hsignature
    rw [List.drop_of_length_le (by rw [List.length_drop]; omega)] at hs₂
    have hwhole : (rest.take part.inputSize.toNat).length = part.inputSize.toNat :=
      List.length_take_of_le (by omega)
    have hnone : Tuple.ofList? signatureSize (rest.drop part.inputSize.toNat) = none :=
      dif_neg (by rw [List.length_drop]; omega)
    have hgot : Transfer.FixedPart.size + part.inputSize.toNat +
        (rest.drop part.inputSize.toNat).length = Transfer.FixedPart.size + rest.length := by
      rw [List.length_drop]
      omega
    refine ⟨s₂, ?_, hs₂⟩
    simp only [readInput, hinput, hwhole, Nat.lt_irrefl, if_false, readSignature, hsignature, hnone, hgot]

theorem readNext_of_next (h : Next bs outcome rest) (hs : s.Delivers bs) :
    ∃ s', readNext s = (outcome, s') ∧ s'.Delivers rest := by
  cases h with
  | nothing => exact readNext_of_end hs
  | record t rest fits => exact readNext_of_delivers fits hs
  | inFixedPart _ begun cut =>
    obtain ⟨s', hfill, hs'⟩ := Source.fill_of_delivers hs Transfer.FixedPart.size
    rw [List.take_of_length_le (by omega)] at hfill
    rw [List.drop_of_length_le (by omega)] at hs'
    have hsome : bs.isEmpty = false := by
      rw [List.isEmpty_eq_false_iff, ← List.length_pos_iff]
      exact begun
    exact ⟨s', by simp only [readNext, hfill, hsome, Bool.false_eq_true, if_false, cut, if_true], hs'⟩
  | longInput part rest long =>
    obtain ⟨s', hs', hread⟩ := readNext_of_fixedPart hs
    exact ⟨s', by rw [hread, if_pos long], hs'⟩
  | afterFixedPart part tail fits cut =>
    obtain ⟨s₁, hs₁, hread⟩ := readNext_of_fixedPart hs
    obtain ⟨s₂, hcut, hs₂⟩ := readInput_of_cut hs₁ cut
    exact ⟨s₂, by rw [hread, if_neg (Nat.not_lt.mpr fits), hcut], hs₂⟩

/-- A record of which only a beginning is there is malformed. -/
theorem next_take {n : Nat} (h : t.body.input.length ≤ Transfer.maxInput) (hn : 0 < n)
    (hlt : n < t.toBytes.length) :
    ∃ flaw, Next (t.toBytes.take n) (.error (.malformed flaw)) [] := by
  have hlength : (t.toBytes.take n).length = n := List.length_take_of_le (Nat.le_of_lt hlt)
  rw [length_toBytes h, recordSize] at hlt
  by_cases hcut : n < Transfer.FixedPart.size
  · exact ⟨_, .inFixedPart _ (by omega) (by omega)⟩
  · have hbytes : t.toBytes.take n = Transfer.FixedPart.layout.bytes t.body.fixedPart ++
        (t.body.input ++ t.signature.octets.toList).take (n - Transfer.FixedPart.size) := by
      have happend := toBytes_append t []
      simp only [List.append_nil] at happend
      rw [happend, List.take_append, length_fixedPart,
        List.take_of_length_le (by rw [length_fixedPart]; omega)]
    rw [hbytes]
    refine ⟨_, .afterFixedPart _ _ (by rw [Transfer.toNat_inputSize h]; exact h) ?_⟩
    rw [List.length_take]
    omega

/-! ## Several records -/

/-- Records that come first are taken off, and reading goes on behind them. -/
theorem readMany_append (n : Nat) (h : ∀ t ∈ ts, t.body.input.length ≤ Transfer.maxInput)
    (hs : s.Delivers ((ts.map toBytes).flatten ++ rest)) :
    ∃ s', s'.Delivers rest ∧
      readMany (ts.length + n) s = ((readMany n s').1.map (ts ++ ·), (readMany n s').2) := by
  induction ts generalizing s with
  | nil =>
    refine ⟨s, hs, ?_⟩
    rw [List.length_nil, Nat.zero_add]
    rcases readMany n s with ⟨_ | more, s'⟩ <;> rfl
  | cons t ts ih =>
    obtain ⟨ht, hts⟩ := List.forall_mem_cons.mp h
    rw [List.map_cons, List.flatten_cons, List.append_assoc] at hs
    obtain ⟨s₁, hread, hs₁⟩ := readNext_of_delivers ht hs
    obtain ⟨s₂, hs₂, hmore⟩ := ih hts hs₁
    refine ⟨s₂, hs₂, ?_⟩
    rw [List.length_cons, Nat.add_right_comm, readMany, hread]
    simp only [hmore]
    rcases readMany n s₂ with ⟨_ | more, s'⟩ <;> rfl

/-- Reading that succeeds has taken whole records off the stream, no more than it was asked for. -/
theorem append_of_readMany {n : Nat} (hs : s.Delivers bs) (h : readMany n s = (.ok ts, s')) :
    ∃ rest, bs = (ts.map toBytes).flatten ++ rest ∧ s'.Delivers rest ∧
      (∀ t ∈ ts, t.body.input.length ≤ Transfer.maxInput) ∧ ts.length ≤ n := by
  induction n generalizing s bs ts with
  | zero =>
    cases h
    exact ⟨bs, rfl, hs, by simp, Nat.le_refl 0⟩
  | succ n ih =>
    obtain ⟨outcome, tail, hnext⟩ := exists_next bs
    obtain ⟨s₁, hread, hs₁⟩ := readNext_of_next hnext hs
    rw [readMany, hread] at h
    cases hnext with
    | nothing =>
      cases h
      exact ⟨[], rfl, hs₁, by simp, Nat.zero_le _⟩
    | record t tail fits =>
      simp only at h
      rcases hmore : readMany n s₁ with ⟨_ | more, s₂⟩ <;> rw [hmore] at h <;> cases h
      obtain ⟨rest, rfl, hrest, hinput, hlength⟩ := ih hs₁ hmore
      refine ⟨rest, ?_, hrest, List.forall_mem_cons.mpr ⟨fits, hinput⟩, Nat.succ_le_succ hlength⟩
      rw [List.map_cons, List.flatten_cons, List.append_assoc]
    | inFixedPart => cases h
    | longInput => cases h
    | afterFixedPart => cases h

/-! ## A single record -/

/-- What is accepted has the length that its fixed part declares. -/
theorem length_of_ofBytes (h : ofBytes bs = .ok t) :
    ∃ part, readFixedPart bs = .ok part ∧ bs.length = recordSize part := by
  simp only [ofBytes, bind, Except.bind] at h
  cases hpart : readFixedPart bs with
  | error e => simp [hpart] at h
  | ok part =>
    refine ⟨part, rfl, ?_⟩
    by_cases hlength : bs.length = recordSize part
    · exact hlength
    · simp [hpart, expectLength, hlength] at h

/-- A record is accepted exactly if it is the bytes of the transaction, and its input is not too long. -/
theorem ofBytes_eq_ok_iff : ofBytes bs = .ok t ↔ bs = t.toBytes ∧ t.body.input.length ≤ Transfer.maxInput := by
  constructor
  · intro h
    obtain ⟨part, hpart, hlength⟩ := length_of_ofBytes h
    rw [recordSize] at hlength
    -- The bytes are enough for a record with this fixed part, and nothing is left behind it.
    have hsize : Transfer.FixedPart.layout.size ≤ bs.length := by
      rw [hlength, Nat.add_assoc]
      exact Nat.le_add_right _ _
    obtain ⟨part', tail, rfl⟩ := Transfer.FixedPart.layout.exists_bytes_append hsize
    rw [readFixedPart_bytes] at hpart
    split at hpart <;> cases hpart
    rename_i hlong
    rw [List.length_append, length_fixedPart] at hlength
    obtain ⟨t', rest, hbytes, hinput, hpart'⟩ := exists_record part tail (by omega)
    have hfits : t'.body.input.length ≤ Transfer.maxInput := by omega
    have hlengths := congrArg List.length hbytes
    rw [List.length_append, List.length_append, length_fixedPart, length_toBytes hfits, hpart',
      recordSize] at hlengths
    obtain rfl : rest = [] := List.length_eq_zero_iff.mp (by omega)
    rw [List.append_nil] at hbytes
    rw [hbytes, ofBytes_toBytes hfits] at h
    cases h
    exact ⟨hbytes, hfits⟩
  · rintro ⟨rfl, h⟩
    exact ofBytes_toBytes h

end LightClient.Transaction
