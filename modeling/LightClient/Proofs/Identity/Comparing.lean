import LightClient.Proofs.Identity.Decoding
/-!
# Which texts name the same bytes

The 60 letters of an identity have no blanks among them, so nothing is trimmed from them and comparing sees
them all (`comparable_encode`): a text names the same bytes as an identity if its first 60 bytes are the letters,
whatever their case (`same_encode_iff`). The letters tell the bytes apart (`smallLetters_injective`), so a text names
at most one identity (`eq_of_same`); and a text that is read as some bytes names these (`same_iff_of_decode`).
-/
namespace LightClient.Identity

variable {cs : List Char} {ds : List Nat} {key : Octets 32}

/-! ## Small letters -/

/-- The bytes of an identity in small letters. -/
def smallLetters (b : Octets 32) : Bytes := (allDigits b).map fun d => UInt8.ofNat (97 + d)

theorem length_smallLetters (b : Octets 32) : (smallLetters b).length = length := by
  rw [smallLetters, List.length_map, length_allDigits]

theorem map_smallLetters (b : Octets 32) : (smallLetters b).map (fun c => c.toNat - 97) = allDigits b := by
  have hdigit : ∀ d ∈ allDigits b, (UInt8.ofNat (97 + d)).toNat - 97 = d := by
    intro d hd
    have hlt := allDigits_lt b d hd
    have hnat : (UInt8.ofNat (97 + d)).toNat = (97 + d) % 256 := UInt8.toNat_ofNat' ..
    omega
  rw [smallLetters, List.map_map]
  exact (List.map_congr_left hdigit).trans (List.map_id _)

theorem smallLetters_injective {b b' : Octets 32} (h : smallLetters b = smallLetters b') : b = b' :=
  allDigits_inj (by rw [← map_smallLetters, h, map_smallLetters])

/-! ## Comparing texts -/

theorem utf8_letter (case : Case) : ∀ d < 26,
    (String.utf8EncodeChar (letter case d)).map foldCase = [UInt8.ofNat (97 + d)] := by
  cases case <;> decide

/-- Letters with capitals made small. -/
theorem Spells.map_foldCase (h : Spells cs ds) :
    (Text.utf8 cs).map foldCase = ds.map fun d => UInt8.ofNat (97 + d) := by
  refine Spells.induct ?nil ?cons h
  case nil => rfl
  case cons =>
    intro case d cs ds hd ih
    rw [Text.utf8] at ih ⊢
    rw [List.flatMap_cons, List.map_append, utf8_letter case d hd, ih]
    rfl

/-- A text that is read as some bytes is compared as their identity. -/
theorem comparable_of_decode {text : String} (h : decode text = .ok key) :
    comparable text = some (smallLetters key) := by
  have hbytes : (Text.utf8 (Text.trim text.toList)).map foldCase = smallLetters key :=
    (spells_iff_letters.mpr (decode_eq_ok_iff.mp h)).map_foldCase
  have hlength : (Text.utf8 (Text.trim text.toList)).length = length := by
    rw [← List.length_map foldCase, hbytes, length_smallLetters]
  simp only [comparable, hlength, Nat.le_refl, if_true, List.take_of_length_le (Nat.le_of_eq hlength), hbytes]

theorem comparable_encode (case : Case) (b : Octets 32) : comparable (encode case b) = some (smallLetters b) :=
  comparable_of_decode (decode_encode case b)

/-- A text names the same bytes as an identity if its first letters are those of the identity, in either case. -/
theorem same_encode_iff {case : Case} {b : Octets 32} {text : String} :
    same (encode case b) text = true ↔ comparable text = some (smallLetters b) := by
  rw [same, comparable_encode]
  cases comparable text with
  | none => simp
  | some x =>
    simp only [beq_iff_eq, Option.some.injEq]
    exact eq_comm

/-- Of a text that names the same bytes as an identity, blanks around it removed, the first 60 bytes are the letters
of the identity up to their case. -/
theorem take_of_same {case : Case} {b : Octets 32} {text : String} (h : same (encode case b) text = true) :
    length ≤ (Text.utf8 (Text.trim text.toList)).length ∧
      ((Text.utf8 (Text.trim text.toList)).take length).map foldCase =
        (Text.utf8 (encode case b).toList).map foldCase := by
  rw [same_encode_iff, comparable] at h
  have hletters : (Text.utf8 (letters case b)).map foldCase = smallLetters b := (spells_letters case b).map_foldCase
  rw [encode, String.toList_ofList, hletters]
  split at h
  · rename_i hlength
    exact ⟨hlength, Option.some.inj h⟩
  · cases h

theorem same_encode_self (case : Case) (b : Octets 32) : same (encode case b) (encode case b) = true :=
  same_encode_iff.mpr (comparable_encode case b)

/-- A text names at most one identity. -/
theorem eq_of_same {case case' : Case} {b b' : Octets 32} {text : String}
    (h : same (encode case b) text = true) (h' : same (encode case' b') text = true) : b = b' := by
  rw [same_encode_iff] at h h'
  exact smallLetters_injective (Option.some.inj (h.symm.trans h'))

/-- A text that is read as some bytes names these and no others. -/
theorem same_iff_of_decode {case : Case} {text : String} {other : Octets 32} (h : decode text = .ok key) :
    same (encode case other) text = true ↔ other = key := by
  rw [same_encode_iff, comparable_of_decode h, Option.some.injEq]
  constructor
  · intro hletters
    exact (smallLetters_injective hletters).symm
  · rintro rfl
    rfl

end LightClient.Identity
