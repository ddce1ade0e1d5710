import LightClient.Proofs.Identity.Decoding
/-!
# Identities worked out in machine words

A machine reads an identity byte by byte, and works with words of 1, 4 and 8 bytes. The steps of Horner's rule have
room in their word exactly if the result has (`hornerIn_eq`). So a group of letters is refused if and only if 8 bytes
have no room for its number, and no other step of the reading leaves its word: what is worked out in words is what is
read with numbers of any size (`decodeInWords_eq`).
-/
namespace LightClient.Identity

variable {size n i : Nat} {case : Case} {c : Char} {cs : List Char} {d : Nat} {ds : List Nat} {bs : Bytes}

/-! ## Arithmetic in words -/

/-- A number in a word that has `size` values, if there is room for it. -/
def fit (size n : Nat) : Option Nat := if n < size then some n else none

theorem fit_of_lt (h : n < size) : fit size n = some n := if_pos h

theorem fit_of_le (h : size ≤ n) : fit size n = none := if_neg (Nat.not_lt.mpr h)

/-- The number that digits spell, from the last digit on: there is none if a product or a sum on the way has no room
in its word. -/
def hornerIn (size : Nat) : List Nat → Option Nat
  | [] => some 0
  | d :: ds => do
      let high ← hornerIn size ds
      let product ← fit size (high * 26)
      fit size (product + d)

/-- Numbers only grow on the way, so that each step has room exactly if the last one has. -/
theorem hornerIn_eq (hsize : 0 < size) (ds : List Nat) : hornerIn size ds = fit size (value ds) := by
  induction ds with
  | nil => exact (fit_of_lt hsize).symm
  | cons d ds ih =>
    rw [hornerIn, ih, value, Nat.add_comm, Nat.mul_comm]
    by_cases hproduct : value ds * 26 < size
    · rw [fit_of_lt (by omega : value ds < size)]
      simp only [bind, Option.bind_some, fit_of_lt hproduct]
    · rw [fit_of_le (by omega : size ≤ value ds * 26 + d)]
      by_cases hhigh : value ds < size
      · simp only [bind, Option.bind_some, fit_of_lt hhigh, fit_of_le (Nat.not_lt.mp hproduct), Option.bind_none]
      · simp only [bind, Option.bind_none, fit_of_le (Nat.not_lt.mp hhigh)]

/-- Digits are too few to leave a word that has room for as many of the largest. -/
theorem value_lt (h : ∀ d ∈ ds, d < 26) : value ds < Nat.pow 26 ds.length := by
  have hdigits := value_digits ds.length (value ds)
  rw [digits_value h] at hdigits
  rw [hdigits]
  exact Nat.mod_lt _ (Nat.pow_pos (by decide))

/-! ## Letters as bytes -/

/-- Whether a byte is a letter. -/
def isLetterByte (b : UInt8) : Bool := (65 ≤ b && b ≤ 90) || (97 ≤ b && b ≤ 122)

/-- How far a byte, made a capital, is above the byte of `A`; none if it is below. -/
def byteDigit? (b : UInt8) : Option Nat :=
  let capital := if 97 ≤ b ∧ b ≤ 122 then b - 32 else b
  if 65 ≤ capital then some (capital - 65).toNat else none

theorem utf8_letter_eq (case : Case) : ∀ d < 26, ∃ b, String.utf8EncodeChar (letter case d) = [b] ∧
    isLetterByte b = true ∧ byteDigit? b = some d := by
  have hbyte : ∀ d < 26, let b := UInt8.ofNat (letter case d).toNat
      String.utf8EncodeChar (letter case d) = [b] ∧ isLetterByte b = true ∧ byteDigit? b = some d := by
    cases case <;> decide
  exact fun d hd => ⟨_, hbyte d hd⟩

/-- Letters are written in one byte each, and the bytes have the letters' digits. -/
theorem utf8_of_spells (h : Spells cs ds) : (Text.utf8 cs).length = cs.length ∧
    (Text.utf8 cs).all isLetterByte = true ∧ (Text.utf8 cs).mapM byteDigit? = some ds := by
  refine Spells.induct ⟨rfl, rfl, rfl⟩ ?cons h
  case cons =>
    intro case d cs ds hd ih
    obtain ⟨hlength, hletters, hdigits⟩ := ih
    obtain ⟨b, hbyte, hletter, hdigit⟩ := utf8_letter_eq case d hd
    have hutf8 : Text.utf8 (letter case d :: cs) = b :: Text.utf8 cs := by
      rw [Text.utf8, List.flatMap_cons, hbyte]
      rfl
    rw [hutf8]
    refine ⟨by rw [List.length_cons, List.length_cons, hlength], ?_, ?_⟩
    · rw [List.all_cons, hletter, hletters]
      rfl
    · rw [List.mapM_cons, hdigit, hdigits]
      rfl

theorem isLetterByte_ascii : ∀ n < 128, isLetterByte (UInt8.ofNat n) = (Char.ofNat n).isAlpha := by decide

theorem isLetterByte_of_ge {b : UInt8} (h : 128 ≤ b.toNat) : isLetterByte b = false := by
  have habove (top : UInt8) (htop : top.toNat < 128) : decide (b ≤ top) = false :=
    decide_eq_false (Nat.not_le.mpr (Nat.lt_of_lt_of_le htop h))
  rw [isLetterByte, habove 90 (by decide), habove 122 (by decide), Bool.and_false, Bool.and_false]
  rfl

/-- A character that is no letter has a byte that is none. -/
theorem exists_byte_of_not_isAlpha (h : c.isAlpha = false) : ∃ b ∈ String.utf8EncodeChar c, isLetterByte b = false := by
  -- A character of several bytes ends in a byte that only continues one.
  have hlast (n : Nat) : isLetterByte (UInt8.ofNat (n % 64 + 128)) = false := by
    have hnat : (UInt8.ofNat (n % 64 + 128)).toNat = (n % 64 + 128) % 256 := UInt8.toNat_ofNat' ..
    exact isLetterByte_of_ge (by omega)
  fun_cases String.utf8EncodeChar c with
  | case1 v hascii =>
    refine ⟨_, .head _, ?_⟩
    rw [isLetterByte_ascii _ (Nat.lt_succ_of_le hascii)]
    exact (congrArg Char.isAlpha (Char.ofNat_toNat c)).trans h
  | case2 v => exact ⟨_, .tail _ (.head _), hlast v⟩
  | case3 v => exact ⟨_, .tail _ (.tail _ (.head _)), hlast v⟩
  | case4 v => exact ⟨_, .tail _ (.tail _ (.tail _ (.head _))), hlast v⟩

theorem all_isLetterByte_of_none (h : digitsOf? cs = none) : (Text.utf8 cs).all isLetterByte = false := by
  obtain ⟨c, hc, halpha⟩ := digitsOf?_eq_none_iff.mp h
  obtain ⟨b, hb, hbyte⟩ := exists_byte_of_not_isAlpha halpha
  rw [List.all_eq_false]
  exact ⟨b, List.mem_flatMap.mpr ⟨c, hc, hb⟩, by rw [hbyte]; exact Bool.false_ne_true⟩

/-! ## Reading -/

/-- The bytes of `n` groups of digits, the number of each group worked out in a word of 8 bytes. -/
def groupsInWords : (n : Nat) → (i : Nat) → List Nat → Except Flaw (Octets (8 * n))
  | 0, _, _ => .ok noBytes
  | n + 1, i, ds =>
      match hornerIn UInt64.size (ds.take groupLetters) with
      | some v => (groupsInWords n (i + 1) (ds.drop groupLetters)).map (consBytes v)
      | none => .error (.overflow i)

/-- The checksum of 32 bytes, worked out in a word of 4 bytes with a mask of 18 bits. -/
def checksumInWord (key : Octets 32) : Option Nat :=
  (fit UInt32.size (leNat ((sha256 key.toList).toList.take 3))).map (· &&& 0x3ffff)

/-- The bytes that an identity stands for, worked out on the bytes of its text and in words: there is no result if a
step leaves its word that is not checked. -/
def decodeInWords (text : String) : Option (Except Flaw (Octets 32)) :=
  let cs := Text.trim text.toList
  let bs := Text.utf8 cs
  if bs.length = length ∧ bs.all isLetterByte = true then do
    let ds ← bs.mapM byteDigit?
    match groupsInWords 4 0 ds with
    | .error flaw => return .error flaw
    | .ok key =>
        let claimed ← hornerIn UInt32.size (ds.drop (4 * groupLetters))
        let sum ← checksumInWord key
        return if claimed = sum then .ok key else .error (.checksum cs)
  else return .error (.notLetters cs)

theorem groupsInWords_eq (n i : Nat) (ds : List Nat) : groupsInWords n i ds = groupBytes n i ds := by
  induction n generalizing i ds with
  | zero => rfl
  | succ n ih =>
    rw [groupsInWords, hornerIn_eq (by decide)]
    by_cases hfit : value (ds.take groupLetters) < UInt64.size
    · rw [fit_of_lt hfit, groupBytes_of_fit hfit, ih]
    · rw [fit_of_le (Nat.not_lt.mp hfit), groupBytes_of_not_fit hfit]

theorem checksumInWord_eq (key : Octets 32) : checksumInWord key = some (checksum key) := by
  have hthree : ((sha256 key.toList).toList.take 3).length = 3 := List.length_take_of_le (by simp)
  have hlt := leNat_lt ((sha256 key.toList).toList.take 3)
  rw [hthree] at hlt
  rw [checksumInWord, fit_of_lt (Nat.lt_trans hlt (by decide)), Option.map_some, checksum]
  exact congrArg some (Nat.and_two_pow_sub_one_eq_mod _ 18)

/-- What is worked out in words is what is read, and no step leaves its word but where a group is refused for it. -/
theorem decodeInWords_eq (text : String) : decodeInWords text = some (decode text) := by
  unfold decodeInWords
  cases hdigits : digitsOf? (Text.trim text.toList) with
  | none =>
    have hother := digitsOf?_eq_none_iff.mp hdigits
    rw [if_neg fun h => by rw [all_isLetterByte_of_none hdigits] at h; exact Bool.false_ne_true h.2]
    rw [decode_eq_iff.mpr (.notLetters (.inr hother))]
    rfl
  | some ds =>
    have hspelled := digitsOf?_eq_some_iff.mp hdigits
    obtain ⟨hbytes, hletters, hmap⟩ := utf8_of_spells hspelled
    by_cases hlength : ds.length = length
    · have hfour : (ds.drop (4 * groupLetters)).length = 4 := by
        rw [List.length_drop, hlength]
        rfl
      have hclaimed : value (ds.drop (4 * groupLetters)) < UInt32.size := by
        have hlt := value_lt (hspelled.drop (4 * groupLetters)).lt
        rw [hfour] at hlt
        exact Nat.lt_trans hlt (by decide)
      rw [if_pos ⟨by rw [hbytes, ← hspelled.length_eq, hlength], hletters⟩, hmap, decode_of_spells hspelled hlength]
      simp only [bind, Option.bind_some, groupsInWords_eq]
      cases groupBytes 4 0 ds with
      | error flaw => rfl
      | ok key =>
        simp only [hornerIn_eq (by decide : 0 < UInt32.size), fit_of_lt hclaimed, checksumInWord_eq, Option.bind_some]
        rfl
    · have hshort : (Text.trim text.toList).length ≠ length := hspelled.length_eq ▸ hlength
      rw [if_neg fun h => hshort (hbytes ▸ h.1), decode_eq_iff.mpr (.notLetters (.inl hshort))]
      rfl

/-! ## The code -/

/-- Identities are an exact code. A text is read as some bytes if and only if, blanks around it removed, it is the
identity of these bytes up to case; so reading undoes writing in either case, and no two keys are written alike. Every
other text is refused for what it is (`Reads`), and reading never leaves a machine word. -/
theorem decode_exact :
    (∀ key text, decode text = .ok key ↔
      (Text.trim text.toList).map Char.toUpper = (encode .upper key).toList) ∧
    (∀ case key, decode (encode case key) = .ok key) ∧
    (Function.Injective fun written : Case × Octets 32 => encode written.1 written.2) ∧
    (∀ text result, decode text = result ↔ Reads (Text.trim text.toList) result) ∧
    ∀ text, decodeInWords text = some (decode text) := by
  refine ⟨fun key text => ?_, decode_encode, fun written written' h => ?_, fun _ _ => decode_eq_iff, decodeInWords_eq⟩
  · rw [decode_eq_ok_iff, encode, String.toList_ofList]
  · obtain ⟨hcase, hkey⟩ := encode_inj h
    exact Prod.ext hcase hkey

end LightClient.Identity
