import LightClient.Proofs.Identity.Digits
/-!
# Which texts are identities

A text without blanks around it is the identity of some bytes, or it is not 60 letters, or a group of its letters
spells too large a number, or its last four letters do not fit the others. It is exactly one of these (`exists_reads`),
and that is what reading it gives (`decode_eq_iff`). So a text is read as some bytes if and only if, blanks around it
removed, it is their identity up to case (`decode_eq_ok_iff`).
-/
namespace LightClient

theorem Text.trim_eq_self {cs : List Char} (h : ∀ c ∈ cs, isBlank c = false) : trim cs = cs := by
  have hdrop {cs : List Char} (h : ∀ c ∈ cs, isBlank c = false) : cs.dropWhile isBlank = cs := by
    cases cs with
    | nil => rfl
    | cons c cs => exact List.dropWhile_cons_of_neg (by simp [h c (List.mem_cons_self ..)])
  rw [trim, hdrop h, hdrop (fun c hc => h c (List.mem_reverse.mp hc)), List.reverse_reverse]

namespace Identity

variable {cs : List Char} {ds : List Nat} {key : Octets 32}

/-! ## The letters of an identity -/

theorem allDigits_lt (key : Octets 32) : ∀ d ∈ allDigits key, d < 26 :=
  List.forall_mem_append.mpr ⟨bodyDigits_lt _ _, digits_lt _ _⟩

theorem length_allDigits (key : Octets 32) : (allDigits key).length = length := by
  rw [allDigits, List.length_append, length_bodyDigits, length_digits]
  rfl

theorem spells_letters (case : Case) (key : Octets 32) : Spells (letters case key) (allDigits key) := by
  refine ⟨allDigits_lt key, ?_⟩
  rw [letters, List.map_map]
  exact List.map_congr_left fun d hd => toUpper_letter case d (allDigits_lt key d hd)

theorem isBlank_letter (case : Case) : ∀ d < 26, Text.isBlank (letter case d) = false := by
  cases case <;> decide

theorem trim_letters (case : Case) (key : Octets 32) : Text.trim (letters case key) = letters case key := by
  refine Text.trim_eq_self fun c hc => ?_
  obtain ⟨d, hd, rfl⟩ := List.mem_map.mp hc
  exact isBlank_letter case d (allDigits_lt key d hd)

/-! ## Texts that are identities -/

theorem spells_iff_letters : Spells cs (allDigits key) ↔ cs.map Char.toUpper = letters .upper key :=
  ⟨fun h => h.letters, fun h => ⟨allDigits_lt key, h⟩⟩

theorem take_allDigits (key : Octets 32) : (allDigits key).take (4 * groupLetters) = bodyDigits 4 key.toList :=
  List.take_left' (length_bodyDigits ..)

theorem drop_allDigits (key : Octets 32) : (allDigits key).drop (4 * groupLetters) = digits 4 (checksum key) :=
  List.drop_left' (length_bodyDigits ..)

theorem value_drop_allDigits (key : Octets 32) : value ((allDigits key).drop (4 * groupLetters)) = checksum key := by
  have hlt : checksum key < Nat.pow 26 4 := Nat.lt_trans (Nat.mod_lt _ (by decide)) (by decide)
  rw [drop_allDigits, value_digits_of_lt hlt]

/-- What a text says that has no blanks around it. -/
inductive Reads (cs : List Char) : Except Flaw (Octets 32) → Prop
  /-- It is the identity of some bytes, up to the case of its letters. -/
  | identity (key : Octets 32) (letters : cs.map Char.toUpper = letters .upper key) : Reads cs (.ok key)
  /-- It is not 60 letters. -/
  | notLetters (other : cs.length ≠ length ∨ ∃ c ∈ cs, c.isAlpha = false) : Reads cs (.error (.notLetters cs))
  /-- It is 60 letters, of which a group spells a number that 8 bytes have no room for; those before it do not. -/
  | overflow (ds : List Nat) (spelled : Spells cs ds) (whole : ds.length = length) (i : Nat) (hi : i < 4)
      (before : ∀ j < i, value (group ds j) < UInt64.size) (large : UInt64.size ≤ value (group ds i)) :
      Reads cs (.error (.overflow i))
  /-- It is 60 letters, the groups those of some bytes, and the last four are not the letters of their checksum. -/
  | checksum (key : Octets 32) (ds : List Nat) (spelled : Spells cs ds) (whole : ds.length = length)
      (body : (cs.map Char.toUpper).take (4 * groupLetters) = (letters .upper key).take (4 * groupLetters))
      (other : (cs.map Char.toUpper).drop (4 * groupLetters) ≠ (letters .upper key).drop (4 * groupLetters)) :
      Reads cs (.error (.checksum cs))

theorem take_letters_iff (h : Spells cs ds) :
    (cs.map Char.toUpper).take (4 * groupLetters) = (letters .upper key).take (4 * groupLetters) ↔
      ds.take (4 * groupLetters) = bodyDigits 4 key.toList := by
  rw [letters, ← List.map_take, ← List.map_take, take_allDigits]
  exact (h.take _).letters_iff (bodyDigits_lt 4 key.toList)

theorem drop_letters_iff (h : Spells cs ds) (hlength : ds.length = length) :
    (cs.map Char.toUpper).drop (4 * groupLetters) = (letters .upper key).drop (4 * groupLetters) ↔
      value (ds.drop (4 * groupLetters)) = checksum key := by
  rw [letters, ← List.map_drop, ← List.map_drop, drop_allDigits, (h.drop _).letters_iff (digits_lt 4 (checksum key))]
  constructor
  · intro hdigits
    rw [hdigits, ← drop_allDigits, value_drop_allDigits]
  · intro hvalue
    have hfour : (ds.drop (4 * groupLetters)).length = 4 := by
      rw [List.length_drop, hlength]
      rfl
    have hdigits := digits_value (h.drop (4 * groupLetters)).lt
    rw [hfour, hvalue] at hdigits
    exact hdigits.symm

theorem exists_reads (cs : List Char) : ∃ result, Reads cs result := by
  cases hdigits : digitsOf? cs with
  | none => exact ⟨_, .notLetters (.inr (digitsOf?_eq_none_iff.mp hdigits))⟩
  | some ds =>
    have hspelled := digitsOf?_eq_some_iff.mp hdigits
    by_cases hlength : ds.length = length
    · cases hgroups : groupBytes 4 0 ds with
      | error flaw =>
        obtain ⟨i, hi, hbefore, hover, -⟩ := groupBytes_eq_error_iff.mp hgroups
        exact ⟨_, .overflow ds hspelled hlength i hi hbefore hover⟩
      | ok key =>
        have hbody := bodyDigits_of_groupBytes (b := key) hspelled.lt (hlength ▸ by decide) hgroups
        have htake := (take_letters_iff hspelled).mpr hbody.symm
        by_cases hsum : value (ds.drop (4 * groupLetters)) = checksum key
        · have hdrop := (drop_letters_iff hspelled hlength).mpr hsum
          refine ⟨_, .identity key ?_⟩
          rw [← List.take_append_drop (4 * groupLetters) (cs.map Char.toUpper), htake, hdrop, List.take_append_drop]
        · exact ⟨_, .checksum key ds hspelled hlength htake fun h => hsum ((drop_letters_iff hspelled hlength).mp h)⟩
    · exact ⟨_, .notLetters (.inl (hspelled.length_eq ▸ hlength))⟩

/-- What decoding does with the digits of 60 letters. -/
theorem decode_of_spells {text : String} (h : Spells (Text.trim text.toList) ds) (hlength : ds.length = length) :
    decode text = (groupBytes 4 0 ds).bind fun key =>
      if value (ds.drop (4 * groupLetters)) = checksum key then .ok key
      else .error (.checksum (Text.trim text.toList)) := by
  simp only [decode, digitsOf?_eq_some_iff.mpr h, hlength, if_true]
  rfl

theorem groupBytes_of_body (h : ds.take (4 * groupLetters) = bodyDigits 4 key.toList) :
    groupBytes 4 0 ds = .ok key := by
  rw [← List.take_append_drop (4 * groupLetters) ds, h]
  exact groupBytes_bodyDigits (n := 4) key 0 _

theorem allDigits_inj {key' : Octets 32} (h : allDigits key = allDigits key') : key = key' := by
  have hkey := groupBytes_of_body (take_allDigits key)
  rw [h, groupBytes_of_body (take_allDigits key')] at hkey
  exact (Except.ok.inj hkey).symm

theorem decode_of_reads {text : String} {result : Except Flaw (Octets 32)} (h : Reads (Text.trim text.toList) result) :
    decode text = result := by
  cases h with
  | identity key hletters =>
    rw [decode_of_spells (spells_iff_letters.mpr hletters) (length_allDigits key),
      groupBytes_of_body (take_allDigits key), value_drop_allDigits]
    exact if_pos rfl
  | notLetters hother =>
    unfold decode
    cases hdigits : digitsOf? (Text.trim text.toList) with
    | none => simp only [hdigits]
    | some ds =>
      have hspelled := digitsOf?_eq_some_iff.mp hdigits
      have hlength : ds.length ≠ length := by
        rcases hother with hlength | hchar
        · exact hspelled.length_eq ▸ hlength
        · rw [digitsOf?_eq_none_iff.mpr hchar] at hdigits
          cases hdigits
      simp only [hdigits, if_neg hlength]
  | overflow ds hspelled hlength i hi hbefore hover =>
    have hgroups : groupBytes 4 0 ds = .error (.overflow (0 + i)) :=
      groupBytes_eq_error_iff.mpr ⟨i, hi, hbefore, hover, rfl⟩
    rw [decode_of_spells hspelled hlength, hgroups, Nat.zero_add]
    rfl
  | checksum key ds hspelled hlength hbody hother =>
    have hgroups := groupBytes_of_body ((take_letters_iff hspelled).mp hbody)
    have hsum : value (ds.drop (4 * groupLetters)) ≠ checksum key :=
      fun h => hother ((drop_letters_iff hspelled hlength).mpr h)
    rw [decode_of_spells hspelled hlength, hgroups]
    exact if_neg hsum

/-- Reading gives what the text says, and every text says one thing. -/
theorem decode_eq_iff {text : String} {result : Except Flaw (Octets 32)} :
    decode text = result ↔ Reads (Text.trim text.toList) result := by
  constructor
  · rintro rfl
    obtain ⟨result, h⟩ := exists_reads (Text.trim text.toList)
    exact decode_of_reads h ▸ h
  · exact decode_of_reads

theorem decode_eq_ok_iff {text : String} :
    decode text = .ok key ↔ (Text.trim text.toList).map Char.toUpper = letters .upper key := by
  rw [decode_eq_iff]
  constructor
  · intro h
    cases h with
    | identity _ hletters => exact hletters
  · exact .identity key

/-- Reading an identity gives the bytes back, in either case. -/
theorem decode_encode (case : Case) (key : Octets 32) : decode (encode case key) = .ok key := by
  rw [decode_eq_ok_iff, encode, String.toList_ofList, trim_letters]
  exact (spells_letters case key).letters

/-- A letter shows its case. -/
theorem case_of_letter {case case' : Case} : ∀ d < 26, letter case d = letter case' d → case = case' := by
  cases case <;> cases case' <;> decide

/-- An identity is that of one key, in one case. -/
theorem encode_inj {case case' : Case} {key key' : Octets 32} (h : encode case key = encode case' key') :
    case = case' ∧ key = key' := by
  have hkey := decode_encode case key
  rw [h, decode_encode] at hkey
  obtain rfl := Except.ok.inj hkey
  have hletters : letters case key' = letters case' key' := String.ofList_injective h
  have hlength := length_allDigits key'
  have hlt := allDigits_lt key'
  rw [letters, letters] at hletters
  cases hdigits : allDigits key' with
  | nil =>
    rw [hdigits] at hlength
    cases hlength
  | cons d ds =>
    rw [hdigits] at hletters hlt
    exact ⟨case_of_letter d (hlt d List.mem_cons_self) (List.cons.inj hletters).1, rfl⟩

example : decode (String.ofList (List.replicate 60 'Z')) = .error (.overflow 0) := by decide +kernel

end Identity

end LightClient
