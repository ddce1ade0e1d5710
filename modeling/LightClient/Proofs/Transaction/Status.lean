import LightClient.Proofs.Bytes.Reading
import LightClient.Proofs.FirstPlace
import LightClient.Transaction.Status
/-!
# Execution status reports read back

A report says how many digests it has, and its length must fit. What is read is the record of a report with at most 1024
digests (`ofBytes_eq_ok_iff`); everything else is malformed, be the fixed part cut or the digests miscounted
(`ofBytes_eq_error_iff`). So the bit of a digest is in one of the 128 bytes (`exists_byte`): it says whether money moved,
and there is no status for a digest that the report does not have (`statusOf_of_read`, `statusOf_eq_unknown_iff`).
-/
namespace LightClient

namespace TxStatus

variable {bs : Bytes} {r : TxStatus} {d : Digest} {i : Nat}

/-! ## The digests -/

theorem run_readDigests {ds : List Digest} {c : Cursor} {rest : Bytes}
    (h : c.rest = ds.flatMap Tuple.toList ++ rest) :
    ∃ c', ExceptT.run (readDigests ds.length) c = (.ok ds, c') := by
  induction ds generalizing c with
  | nil => exact ⟨c, rfl⟩
  | cons d ds ih =>
    have hfirst : c.rest = (Layout.octets 32).bytes d ++ (ds.flatMap Tuple.toList ++ rest) := by
      rw [h, List.flatMap_cons, List.append_assoc]
      rfl
    obtain ⟨c', hmore⟩ := ih (c := c.advance (Layout.octets 32).size (ds.flatMap Tuple.toList ++ rest)) rfl
    refine ⟨c', ?_⟩
    rw [List.length_cons, readDigests, Read.octets_eq_value, Read.run_value_bind _ hfirst,
      Read.run_bind_of_ok hmore]
    rfl

theorem length_flatMap_digests (ds : List Digest) : (ds.flatMap Tuple.toList).length = ds.length * 32 := by
  induction ds with
  | nil => rfl
  | cons d ds ih => rw [List.flatMap_cons, List.length_append, d.length_toList, ih, List.length_cons]; omega

theorem exists_digests {n : Nat} (h : bs.length = n * 32) :
    ∃ ds : List Digest, ds.length = n ∧ bs = ds.flatMap Tuple.toList := by
  induction n generalizing bs with
  | zero => exact ⟨[], rfl, List.length_eq_zero_iff.mp (by omega)⟩
  | succ n ih =>
    have hlong : 32 ≤ bs.length := by omega
    obtain ⟨d, rest, rfl⟩ := (Layout.octets 32).exists_bytes_append hlong
    have hrest : rest.length = n * 32 := by
      have hsize : (Layout.octets 32).size = 32 := rfl
      rw [List.length_append, Layout.length_bytes] at h
      omega
    obtain ⟨ds, hlength, rfl⟩ := ih hrest
    exact ⟨d :: ds, congrArg (· + 1) hlength, rfl⟩

/-! ## The fixed part -/

/-- What a report has before its digests: the two ticks, the number of digests and the bits. -/
def fixedLayout : Layout (UInt32 × UInt32 × UInt32 × Octets 128) :=
  Layout.u32.pair (Layout.u32.pair (Layout.u32.pair (Layout.octets 128)))

/-- The sizes of the fields of the fixed part. -/
def fieldSizes : List Nat := [4, 4, 4, 128]

/-- The number of digests that the bytes of a report declare. -/
def declaredDigests (bs : Bytes) : Nat := leNat ((bs.drop 8).take 4)

section FixedPart

variable (currentTick tick count : UInt32) (bits : Octets 128) (rest : Bytes)

theorem fixed_append : fixedLayout.bytes (currentTick, tick, count, bits) ++ rest =
    Layout.u32.bytes currentTick ++ (Layout.u32.bytes tick ++ (Layout.u32.bytes count ++
      ((Layout.octets 128).bytes bits ++ rest))) := by
  simp only [fixedLayout, Layout.bytes_pair, List.append_assoc]

theorem length_fixed :
    (fixedLayout.bytes (currentTick, tick, count, bits) ++ rest).length = fixedSize + rest.length := by
  rw [List.length_append, Layout.length_bytes]
  rfl

theorem declaredDigests_fixed :
    declaredDigests (fixedLayout.bytes (currentTick, tick, count, bits) ++ rest) = count.toNat := by
  have hticks : (Layout.u32.bytes currentTick ++ Layout.u32.bytes tick).length = 8 := by
    rw [List.length_append, Layout.length_bytes, Layout.length_bytes]
    rfl
  have hcount : (Layout.u32.bytes count).length = 4 := Layout.length_bytes ..
  rw [declaredDigests, fixed_append, ← List.append_assoc, List.drop_left' hticks, List.take_left' hcount]
  exact leNat_leBytes_of_lt count.toNat_lt

/-- A report whose fixed part is whole is refused if it declares too many digests or has others behind it than it
declares; else the digests are read. -/
theorem ofBytes_fixed : ofBytes (fixedLayout.bytes (currentTick, tick, count, bits) ++ rest) =
    if maxDigests < count.toNat ∨ rest.length ≠ count.toNat * 32 then
      .error ⟨"transaction status", fixedSize + min count.toNat maxDigests * 32, fixedSize + rest.length⟩
    else (ExceptT.run (readDigests count.toNat) ⟨"transaction status", fixedSize, rest⟩).1.map
      fun digests => ⟨currentTick, tick, bits, digests⟩ := by
  rw [ofBytes, length_fixed, fixed_append, Read.run, read, Read.run_value_bind _ rfl, Read.run_value_bind _ rfl,
    Read.run_value_bind _ rfl, Read.octets_eq_value, Read.run_value_bind _ rfl, Read.run_remaining_bind]
  generalize hplace : Cursor.advance _ (Layout.octets 128).size _ = c
  obtain rfl : c = ⟨"transaction status", fixedSize, rest⟩ := hplace.symm
  have hremaining : Cursor.remaining ⟨"transaction status", fixedSize, rest⟩ = rest.length := rfl
  rw [hremaining]
  by_cases hrefused : maxDigests < count.toNat ∨ rest.length ≠ count.toNat * 32
  · simp only [if_pos hrefused]
    rfl
  · simp only [if_neg hrefused]
    exact Read.fst_run_bind_pure _ _ _

end FixedPart

/-- Enough bytes begin with the fixed part of a report. -/
theorem exists_fixed (h : fixedSize ≤ bs.length) : ∃ currentTick tick count bits rest,
    bs = fixedLayout.bytes (currentTick, tick, count, bits) ++ rest ∧ bs.length = fixedSize + rest.length ∧
      declaredDigests bs = count.toNat := by
  obtain ⟨⟨currentTick, tick, count, bits⟩, rest, rfl⟩ := fixedLayout.exists_bytes_append h
  exact ⟨currentTick, tick, count, bits, rest, rfl, length_fixed .., declaredDigests_fixed ..⟩

/-! ## Reading a report -/

theorem needs_read (total : Nat) : Read.Needs (read total) fieldSizes := by
  rw [read, Read.octets_eq_value]
  exact Read.needs_value_bind fun _ => Read.needs_value_bind fun _ => Read.needs_value_bind fun _ =>
    Read.needs_value_bind fun _ => Read.needs_nil _

theorem ofBytes_of_short (h : bs.length < fixedSize) :
    ofBytes bs = .error ⟨"transaction status", cutEnd fieldSizes bs.length, bs.length⟩ := by
  have hread : ofBytes bs = .error ⟨"transaction status", 0 + cutEnd fieldSizes bs.length, 0 + bs.length⟩ :=
    needs_read bs.length (Cursor.start "transaction status" bs) h
  rwa [Nat.zero_add, Nat.zero_add] at hread

/-- The fixed part declares more digests than there may be, or others than there are. -/
def Miscounted (bs : Bytes) : Prop :=
  maxDigests < declaredDigests bs ∨ bs.length ≠ fixedSize + declaredDigests bs * 32

instance : Decidable (Miscounted bs) := inferInstanceAs (Decidable (_ ∨ _))

theorem toNat_count {n : Nat} (h : n ≤ maxDigests) : (UInt32.ofNat n).toNat = n :=
  UInt32.toNat_ofNat_of_lt (Nat.lt_of_le_of_lt h (by decide))

theorem toBytes_eq (h : r.digests.length ≤ maxDigests) :
    r.toBytes = fixedLayout.bytes (r.currentTick, r.tick, UInt32.ofNat r.digests.length, r.moneyFlew) ++
      r.digests.flatMap Tuple.toList := by
  have hbytes : Layout.u32.bytes (UInt32.ofNat r.digests.length) = leBytes 4 r.digests.length :=
    congrArg (leBytes 4) (toNat_count h)
  rw [fixed_append, hbytes]
  simp only [toBytes, List.append_assoc]
  rfl

/-- Reading gives the report that was written. -/
theorem ofBytes_toBytes (h : r.digests.length ≤ maxDigests) : ofBytes r.toBytes = .ok r := by
  obtain ⟨c, hdigests⟩ : ∃ c, ExceptT.run (readDigests r.digests.length)
      ⟨"transaction status", fixedSize, r.digests.flatMap Tuple.toList⟩ = (.ok r.digests, c) :=
    run_readDigests (List.append_nil _).symm
  rw [toBytes_eq h, ofBytes_fixed, toNat_count h, length_flatMap_digests, if_neg (by omega), hdigests]
  rfl

/-- A report whose fixed part is whole is read if the number of its digests is right. -/
theorem ofBytes_of_fixed (h : fixedSize ≤ bs.length) :
    if Miscounted bs then
      ofBytes bs = .error ⟨"transaction status", fixedSize + min (declaredDigests bs) maxDigests * 32, bs.length⟩
    else ∃ r, ofBytes bs = .ok r ∧ bs = r.toBytes ∧ r.digests.length ≤ maxDigests := by
  obtain ⟨currentTick, tick, count, bits, rest, hbytes, hlength, hdeclared⟩ := exists_fixed h
  have hcounted : Miscounted bs ↔ maxDigests < count.toNat ∨ rest.length ≠ count.toNat * 32 := by
    rw [Miscounted, hdeclared, hlength]
    omega
  by_cases hwrong : Miscounted bs
  · rw [if_pos hwrong, hdeclared, hlength, hbytes, ofBytes_fixed, if_pos (hcounted.mp hwrong)]
  · rw [if_neg hwrong]
    rw [hcounted, not_or, Nat.not_lt, not_not] at hwrong
    obtain ⟨digests, hnumber, rfl⟩ := exists_digests hwrong.2
    let r : TxStatus := ⟨currentTick, tick, bits, digests⟩
    have hfew : r.digests.length ≤ maxDigests := Nat.le_trans (Nat.le_of_eq hnumber) hwrong.1
    have hsame : bs = r.toBytes := by
      rw [toBytes_eq hfew, hbytes, hnumber, UInt32.ofNat_toNat]
    exact ⟨r, hsame ▸ ofBytes_toBytes hfew, hsame, hfew⟩

theorem ofBytes_cases (bs : Bytes) :
    (fixedSize ≤ bs.length ∧ ¬ Miscounted bs ∧
      ∃ r, ofBytes bs = .ok r ∧ bs = r.toBytes ∧ r.digests.length ≤ maxDigests) ∨
    (bs.length < fixedSize ∧
      ofBytes bs = .error ⟨"transaction status", cutEnd fieldSizes bs.length, bs.length⟩) ∨
    (fixedSize ≤ bs.length ∧ Miscounted bs ∧ ofBytes bs =
      .error ⟨"transaction status", fixedSize + min (declaredDigests bs) maxDigests * 32, bs.length⟩) := by
  by_cases hshort : bs.length < fixedSize
  · exact .inr (.inl ⟨hshort, ofBytes_of_short hshort⟩)
  have hwhole : fixedSize ≤ bs.length := Nat.not_lt.mp hshort
  have hread := ofBytes_of_fixed hwhole
  by_cases hwrong : Miscounted bs
  · rw [if_pos hwrong] at hread
    exact .inr (.inr ⟨hwhole, hwrong, hread⟩)
  · rw [if_neg hwrong] at hread
    exact .inl ⟨hwhole, hwrong, hread⟩

theorem ofBytes_eq_ok_iff : ofBytes bs = .ok r ↔ bs = r.toBytes ∧ r.digests.length ≤ maxDigests := by
  constructor
  · intro hread
    rcases ofBytes_cases bs with ⟨-, -, r', hread', hbytes, hfew⟩ | ⟨-, hfail⟩ | ⟨-, -, hfail⟩
    · obtain rfl : r = r' := Except.ok.inj (hread.symm.trans hread')
      exact ⟨hbytes, hfew⟩
    · cases hread.symm.trans hfail
    · cases hread.symm.trans hfail
  · rintro ⟨rfl, hfew⟩
    exact ofBytes_toBytes hfew

/-- A report that was read has no more digests than there are bits. -/
theorem length_digests_le (h : ofBytes bs = .ok r) : r.digests.length ≤ maxDigests :=
  (ofBytes_eq_ok_iff.mp h).2

theorem ofBytes_eq_error_iff {flaw : Malformed} :
    ofBytes bs = .error flaw ↔
      (bs.length < fixedSize ∧ flaw = ⟨"transaction status", cutEnd fieldSizes bs.length, bs.length⟩) ∨
      (fixedSize ≤ bs.length ∧ Miscounted bs ∧
        flaw = ⟨"transaction status", fixedSize + min (declaredDigests bs) maxDigests * 32, bs.length⟩) := by
  rcases ofBytes_cases bs with ⟨hwhole, hright, r, hread, -⟩ | ⟨hshort, hfail⟩ | ⟨hwhole, hwrong, hfail⟩
  · simp [hread, Nat.not_lt.mpr hwhole, hright]
  · simp [hfail, hshort, Nat.not_le.mpr hshort, eq_comm]
  · simp [hfail, Nat.not_lt.mpr hwhole, hwhole, hwrong, eq_comm]

/-! ## The bit of a digest -/

theorem statusOf_of_firstPlace (h : FirstPlace r.digests d i) :
    r.statusOf d = if r.bit i then .moneyFlew else .noMoneyFlew := by
  rw [statusOf, FirstPlace.findIdx?_eq_some_iff.mpr h]

theorem statusOf_eq_unknown_iff : r.statusOf d = .unknown ↔ d ∉ r.digests := by
  rw [← FirstPlace.findIdx?_eq_none_iff, statusOf]
  cases r.digests.findIdx? (· == d) with
  | none => simp
  | some i => cases hbit : r.bit i <;> simp [hbit]

/-- Each of the first 1024 bits is one of a byte of the report. -/
theorem exists_byte (h : i < maxDigests) :
    ∃ b, r.moneyFlew.get? (i / 8) = some b ∧ r.bit i = b.toNat.testBit (i % 8) := by
  have hlt : i / 8 < r.moneyFlew.toList.length := by
    rw [r.moneyFlew.length_toList]
    simp only [maxDigests, TickData.slotCount] at h
    omega
  have hget : r.moneyFlew.get? (i / 8) = some r.moneyFlew.toList[i / 8] := List.getElem?_eq_getElem hlt
  exact ⟨_, hget, by rw [bit, hget]⟩

/-- What a report that was read says of a digest at its first place: a bit of a byte that the report has. -/
theorem statusOf_of_read (h : ofBytes bs = .ok r) (hplace : FirstPlace r.digests d i) :
    ∃ b, r.moneyFlew.get? (i / 8) = some b ∧
      r.statusOf d = if b.toNat.testBit (i % 8) then .moneyFlew else .noMoneyFlew := by
  obtain ⟨b, hbyte, hbit⟩ := exists_byte (r := r) (Nat.lt_of_lt_of_le hplace.lt_length (length_digests_le h))
  exact ⟨b, hbyte, by rw [statusOf_of_firstPlace hplace, hbit]⟩

/-- **Reports, exactly.** What is read is the record of a report with at most 1024 digests, and nothing else. Other bytes
are malformed: the failure names the end of the first field that is not whole; or, where the fixed part is whole, the
length that the number of digests asks for, taken as 1024 if it is larger. A report that was read answers for each
digest: there is no status if it does not list the digest, and if it does, the digest's first place says in which of the
128 bytes the bit is. -/
theorem reports_exactly (bs : Bytes) :
    (∀ r, ofBytes bs = .ok r ↔ bs = r.toBytes ∧ r.digests.length ≤ 1024) ∧
    (∀ flaw, ofBytes bs = .error flaw ↔
      (bs.length < 140 ∧ flaw = ⟨"transaction status", cutEnd [4, 4, 4, 128] bs.length, bs.length⟩) ∨
      (140 ≤ bs.length ∧ (1024 < declaredDigests bs ∨ bs.length ≠ 140 + declaredDigests bs * 32) ∧
        flaw = ⟨"transaction status", 140 + min (declaredDigests bs) 1024 * 32, bs.length⟩)) ∧
    ∀ r, ofBytes bs = .ok r → ∀ d,
      (r.statusOf d = .unknown ↔ d ∉ r.digests) ∧
      (d ∈ r.digests → ∃ i b, FirstPlace r.digests d i ∧ r.moneyFlew.get? (i / 8) = some b ∧
        r.statusOf d = if b.toNat.testBit (i % 8) then .moneyFlew else .noMoneyFlew) := by
  refine ⟨fun r => ofBytes_eq_ok_iff, fun flaw => ofBytes_eq_error_iff, fun r hread d => ?_⟩
  refine ⟨statusOf_eq_unknown_iff, fun hlisted => ?_⟩
  obtain ⟨i, hplace⟩ := FirstPlace.exists_of_mem hlisted
  obtain ⟨b, hbyte, hstatus⟩ := statusOf_of_read hread hplace
  exact ⟨i, b, hplace, hbyte, hstatus⟩

/-- A report whose second bit of the second byte is set, for the tenth digest, which it lists again. -/
def repetitive : TxStatus where
  currentTick := 6
  tick := 5
  moneyFlew := ⟨[0, 2] ++ List.replicate 126 0, rfl⟩
  digests := List.replicate 9 (.replicate 32 1) ++ [.replicate 32 2, .replicate 32 2]

/-- Of a digest that is listed twice, the first place counts. -/
theorem reports_exactly_repetitive :
    ofBytes repetitive.toBytes = .ok repetitive ∧ repetitive.statusOf (.replicate 32 2) = .moneyFlew ∧
      repetitive.statusOf (.replicate 32 3) = .unknown := by
  obtain ⟨hok, -, hanswers⟩ := reports_exactly repetitive.toBytes
  have hread : ofBytes repetitive.toBytes = .ok repetitive := (hok repetitive).mpr ⟨rfl, by decide⟩
  obtain ⟨-, hlisted⟩ := hanswers repetitive hread (.replicate 32 2)
  obtain ⟨i, b, hplace, hbyte, hstatus⟩ := hlisted (by decide)
  have htenth : FirstPlace repetitive.digests (.replicate 32 2) 9 := FirstPlace.findIdx?_eq_some_iff.mp (by decide)
  obtain rfl := hplace.unique htenth
  obtain rfl : 2 = b := Option.some.inj hbyte
  exact ⟨hread, hstatus, (hanswers repetitive hread (.replicate 32 3)).1.mpr (by decide)⟩

end TxStatus

end LightClient
