import LightClient.Identity
import Mathlib.Data.List.Basic
/-!
# The digits of a text

A character has a digit exactly if it is a letter, and the digit says which letter it is up to its case
(`digit?_eq_some_iff`, `digit?_eq_none_iff`); so the digits of a text say what it is in capitals
(`digitsOf?_eq_some_iff`). As many digits as a value has are those of this value only (`digits_value`). Groups of
digits that fit into 8 bytes each are the digits of the bytes they give (`bodyDigits_of_groupBytes`,
`groupBytes_bodyDigits`), and the first group that does not fit is reported (`groupBytes_eq_error_iff`).
-/
namespace LightClient.Identity

variable {case : Case} {c : Char} {cs : List Char} {d n i : Nat} {ds : List Nat} {flaw : Flaw}

/-! ## Letters and digits -/

theorem digit?_letter (case : Case) : ∀ d < 26, digit? (letter case d) = some d := by
  cases case <;> decide

theorem toUpper_letter (case : Case) : ∀ d < 26, (letter case d).toUpper = letter .upper d := by
  cases case <;> decide

theorem isAlpha_iff : c.isAlpha = true ↔ ('A' ≤ c ∧ c ≤ 'Z') ∨ ('a' ≤ c ∧ c ≤ 'z') := by
  unfold Char.isAlpha Char.isUpper Char.isLower
  rw [Bool.or_eq_true, Bool.and_eq_true, decide_eq_true_iff, decide_eq_true_iff, decide_eq_true_iff]
  rfl

theorem exists_letter_of_isAlpha (h : c.isAlpha = true) : ∃ case, ∃ d < 26, c = letter case d := by
  have hletter (case : Case) (first : Nat) (hfirst : letter case = fun d => Char.ofNat (first + d))
      (hlow : first ≤ c.toNat) (hhigh : c.toNat < first + 26) : ∃ d < 26, c = letter case d := by
    refine ⟨c.toNat - first, by omega, ?_⟩
    simp only [hfirst, Nat.add_sub_cancel' hlow, Char.ofNat_toNat]
  rcases isAlpha_iff.mp h with ⟨hlow, hhigh⟩ | ⟨hlow, hhigh⟩
  · exact ⟨.upper, hletter .upper 65 rfl hlow (Nat.lt_succ_of_le hhigh)⟩
  · exact ⟨.lower, hletter .lower 97 rfl hlow (Nat.lt_succ_of_le hhigh)⟩

theorem digit?_eq_none_iff : digit? c = none ↔ c.isAlpha = false := by
  rw [← Bool.not_eq_true, isAlpha_iff, not_or]
  unfold digit?
  constructor
  · intro h
    split at h
    · cases h
    · split at h
      · cases h
      · exact ⟨‹_›, ‹_›⟩
  · rintro ⟨hupper, hlower⟩
    rw [if_neg hupper, if_neg hlower]

/-- The letters have digits, the same ones in both cases, and nothing else has. -/
theorem digit?_eq_some_iff : digit? c = some d ↔ d < 26 ∧ ∃ case, c = letter case d := by
  constructor
  · intro h
    have halpha : c.isAlpha = true := by
      rw [← Bool.not_eq_false, ← digit?_eq_none_iff, h]
      exact Option.some_ne_none d
    obtain ⟨case, d', hd', rfl⟩ := exists_letter_of_isAlpha halpha
    obtain rfl : d' = d := Option.some.inj ((digit?_letter case d' hd').symm.trans h)
    exact ⟨hd', case, rfl⟩
  · rintro ⟨hd, case, rfl⟩
    exact digit?_letter case d hd

theorem toUpper_eq_letter_iff (hd : d < 26) : c.toUpper = letter .upper d ↔ digit? c = some d := by
  rw [digit?_eq_some_iff]
  constructor
  · intro h
    by_cases halpha : c.isAlpha = true
    · obtain ⟨case, d', hd', rfl⟩ := exists_letter_of_isAlpha halpha
      rw [toUpper_letter case d' hd'] at h
      have hdigit := congrArg digit? h
      rw [digit?_letter .upper d' hd', digit?_letter .upper d hd] at hdigit
      obtain rfl := Option.some.inj hdigit
      exact ⟨hd, case, rfl⟩
    · -- What is no letter is left as it is.
      have hsame : c.toUpper = c := by
        unfold Char.toUpper
        exact dif_neg fun hlower => halpha (isAlpha_iff.mpr (.inr hlower))
      exact ⟨hd, .upper, hsame ▸ h⟩
  · rintro ⟨-, case, rfl⟩
    exact toUpper_letter case d hd

theorem digitsOf?_cons : digitsOf? (c :: cs) = (digit? c).bind fun d => (digitsOf? cs).map (d :: ·) := by
  unfold digitsOf?
  rw [List.mapM_cons]
  cases digit? c with
  | none => rfl
  | some d => cases List.mapM digit? cs <;> rfl

/-- A text of letters has these digits, whatever the case of the letters. -/
structure Spells (cs : List Char) (ds : List Nat) : Prop where
  lt : ∀ d ∈ ds, d < 26
  letters : cs.map Char.toUpper = ds.map (letter .upper)

theorem Spells.length_eq (h : Spells cs ds) : ds.length = cs.length := by
  have hlength := congrArg List.length h.letters
  rwa [List.length_map, List.length_map, eq_comm] at hlength

theorem Spells.drop (h : Spells cs ds) (n : Nat) : Spells (cs.drop n) (ds.drop n) :=
  ⟨fun d hd => h.lt d (List.mem_of_mem_drop hd), by rw [List.map_drop, h.letters, List.map_drop]⟩

theorem Spells.take (h : Spells cs ds) (n : Nat) : Spells (cs.take n) (ds.take n) :=
  ⟨fun d hd => h.lt d (List.mem_of_mem_take hd), by rw [List.map_take, h.letters, List.map_take]⟩

theorem digitsOf?_eq_some_iff : digitsOf? cs = some ds ↔ Spells cs ds := by
  induction cs generalizing ds with
  | nil =>
    constructor
    · intro h
      obtain rfl := Option.some.inj h
      exact ⟨fun d hd => absurd hd List.not_mem_nil, rfl⟩
    · rintro ⟨-, hmap⟩
      rw [List.map_nil, @eq_comm _ [], List.map_eq_nil_iff] at hmap
      rw [hmap]
      rfl
  | cons c cs ih =>
    rw [digitsOf?_cons, Option.bind_eq_some_iff]
    simp only [Option.map_eq_some_iff]
    constructor
    · rintro ⟨d, hd, ds, hds, rfl⟩
      obtain ⟨hlt, hmap⟩ := ih.mp hds
      have hd26 : d < 26 := (digit?_eq_some_iff.mp hd).1
      refine ⟨List.forall_mem_cons.mpr ⟨hd26, hlt⟩, ?_⟩
      rw [List.map_cons, List.map_cons, hmap, (toUpper_eq_letter_iff hd26).mpr hd]
    · rintro ⟨hlt, hmap⟩
      cases ds with
      | nil => cases hmap
      | cons d ds =>
        obtain ⟨hd26, hlt⟩ := List.forall_mem_cons.mp hlt
        obtain ⟨hfirst, hmap⟩ := List.cons.inj hmap
        exact ⟨d, (toUpper_eq_letter_iff hd26).mp hfirst, ds, ih.mpr ⟨hlt, hmap⟩, rfl⟩

/-- What holds of no text, and of a letter in front of a text that it holds of, holds of every text of letters. -/
@[elab_as_elim] theorem Spells.induct {motive : List Char → List Nat → Prop} (nil : motive [] [])
    (cons : ∀ case d cs ds, d < 26 → motive cs ds → motive (letter case d :: cs) (d :: ds))
    (h : Spells cs ds) : motive cs ds := by
  rw [← digitsOf?_eq_some_iff] at h
  induction cs generalizing ds with
  | nil =>
    obtain rfl := Option.some.inj h
    exact nil
  | cons c cs ih =>
    rw [digitsOf?_cons, Option.bind_eq_some_iff] at h
    obtain ⟨d, hd, h⟩ := h
    obtain ⟨ds, hds, rfl⟩ := Option.map_eq_some_iff.mp h
    obtain ⟨hd26, case, rfl⟩ := digit?_eq_some_iff.mp hd
    exact cons case d cs ds hd26 (ih hds)

theorem digitsOf?_eq_none_iff : digitsOf? cs = none ↔ ∃ c ∈ cs, c.isAlpha = false := by
  induction cs with
  | nil => exact iff_of_false (Option.some_ne_none []) (by simp)
  | cons c cs ih =>
    rw [digitsOf?_cons, List.exists_mem_cons_iff, ← ih, ← digit?_eq_none_iff]
    cases digit? c with
    | none => exact iff_of_true rfl (.inl rfl)
    | some d => simp

/-- A text has no other digits. -/
theorem Spells.letters_iff {ds' : List Nat} (h : Spells cs ds) (hds' : ∀ d ∈ ds', d < 26) :
    cs.map Char.toUpper = ds'.map (letter .upper) ↔ ds = ds' := by
  constructor
  · intro hletters
    have h' : Spells cs ds' := ⟨hds', hletters⟩
    exact Option.some.inj ((digitsOf?_eq_some_iff.mpr h).symm.trans (digitsOf?_eq_some_iff.mpr h'))
  · rintro rfl
    exact h.letters

/-! ## Digits and values -/

theorem digits_lt (n value : Nat) : ∀ d ∈ digits n value, d < 26 := by
  induction n generalizing value with
  | zero => exact fun d hd => nomatch hd
  | succ n ih => exact List.forall_mem_cons.mpr ⟨Nat.mod_lt _ (by decide), ih _⟩

theorem length_digits (n value : Nat) : (digits n value).length = n := by
  induction n generalizing value with
  | zero => rfl
  | succ n ih => rw [digits, List.length_cons, ih]

theorem value_digits (n v : Nat) : value (digits n v) = v % Nat.pow 26 n := by
  induction n generalizing v with
  | zero => exact (Nat.mod_one v).symm
  | succ n ih => rw [digits, value, ih, Nat.pow_eq, Nat.pow_eq, Nat.pow_succ', Nat.mod_mul]

theorem digits_value (h : ∀ d ∈ ds, d < 26) : digits ds.length (value ds) = ds := by
  induction ds with
  | nil => rfl
  | cons d ds ih =>
    obtain ⟨hd, hds⟩ := List.forall_mem_cons.mp h
    rw [List.length_cons, digits, value, Nat.add_mul_mod_self_left, Nat.mod_eq_of_lt hd,
      Nat.add_mul_div_left _ _ (by decide), Nat.div_eq_of_lt hd, Nat.zero_add, ih hds]

theorem value_digits_of_lt {v : Nat} (h : v < Nat.pow 26 n) : value (digits n v) = v := by
  rw [value_digits, Nat.mod_eq_of_lt h]

/-! ## Groups -/

theorem bodyDigits_lt (n : Nat) (bs : Bytes) : ∀ d ∈ bodyDigits n bs, d < 26 := by
  induction n generalizing bs with
  | zero => exact fun d hd => nomatch hd
  | succ n ih => exact List.forall_mem_append.mpr ⟨digits_lt _ _, ih _⟩

theorem length_bodyDigits (n : Nat) (bs : Bytes) : (bodyDigits n bs).length = n * groupLetters := by
  induction n generalizing bs with
  | zero => rw [bodyDigits, List.length_nil, Nat.zero_mul]
  | succ n ih => rw [bodyDigits, List.length_append, length_digits, ih, Nat.succ_mul, Nat.add_comm]

/-- The group at a place: its digits. -/
def group (ds : List Nat) (i : Nat) : List Nat := (ds.drop (groupLetters * i)).take groupLetters

theorem group_succ (ds : List Nat) (i : Nat) : group ds (i + 1) = group (ds.drop groupLetters) i := by
  rw [group, group, List.drop_drop, Nat.mul_succ, Nat.add_comm]

theorem length_noBytes : ([] : Bytes).length = 8 * 0 := rfl

theorem length_consBytes (v : Nat) (more : Octets (8 * n)) :
    (leBytes 8 v ++ more.toList).length = 8 * (n + 1) := by
  rw [List.length_append, length_leBytes, more.length_toList]
  omega

/-- The bytes of no group. -/
def noBytes : Octets (8 * 0) := ⟨[], length_noBytes⟩

/-- The bytes of a group, and those of the groups behind it. -/
def consBytes (v : Nat) (more : Octets (8 * n)) : Octets (8 * (n + 1)) :=
  ⟨leBytes 8 v ++ more.toList, length_consBytes v more⟩

theorem toList_consBytes (v : Nat) (more : Octets (8 * n)) :
    (consBytes v more).toList = leBytes 8 v ++ more.toList := rfl

theorem groupBytes_of_fit (h : value (ds.take groupLetters) < UInt64.size) :
    groupBytes (n + 1) i ds =
      (groupBytes n (i + 1) (ds.drop groupLetters)).map (consBytes (value (ds.take groupLetters))) := by
  rw [groupBytes, if_pos h]
  cases groupBytes n (i + 1) (ds.drop groupLetters) <;> rfl

theorem groupBytes_of_not_fit (h : ¬ value (ds.take groupLetters) < UInt64.size) :
    groupBytes (n + 1) i ds = .error (.overflow i) := by
  rw [groupBytes, if_neg h]

theorem bodyDigits_consBytes {v : Nat} (h : v < UInt64.size) (more : Octets (8 * n)) :
    bodyDigits (n + 1) (consBytes v more).toList = digits groupLetters v ++ bodyDigits n more.toList := by
  have hlength : (leBytes 8 v).length = 8 := length_leBytes 8 v
  have hvalue : leNat (leBytes 8 v) = v := leNat_leBytes_of_lt h
  rw [toList_consBytes, bodyDigits, List.take_left' hlength, List.drop_left' hlength, hvalue]

/-- Groups that fit are the digits of the bytes they give. -/
theorem bodyDigits_of_groupBytes {b : Octets (8 * n)} (hds : ∀ d ∈ ds, d < 26) (hlength : n * groupLetters ≤ ds.length)
    (h : groupBytes n i ds = .ok b) : bodyDigits n b.toList = ds.take (n * groupLetters) := by
  induction n generalizing i ds with
  | zero => rw [bodyDigits, Nat.zero_mul, List.take_zero]
  | succ n ih =>
    have hsplit : ds.take ((n + 1) * groupLetters) =
        ds.take groupLetters ++ (ds.drop groupLetters).take (n * groupLetters) := by
      rw [← List.take_add, Nat.succ_mul, Nat.add_comm]
    rw [Nat.succ_mul] at hlength
    by_cases hfit : value (ds.take groupLetters) < UInt64.size
    · rw [groupBytes_of_fit hfit] at h
      cases hmore : groupBytes n (i + 1) (ds.drop groupLetters) with
      | error flaw => simp [hmore, Except.map] at h
      | ok more =>
        obtain rfl : consBytes (value (ds.take groupLetters)) more = b := by simpa [hmore, Except.map] using h
        have hfirst : digits groupLetters (value (ds.take groupLetters)) = ds.take groupLetters := by
          have htake : (ds.take groupLetters).length = groupLetters := List.length_take_of_le (by omega)
          have hvalue := digits_value fun d hd => hds d (List.mem_of_mem_take (i := groupLetters) hd)
          rwa [htake] at hvalue
        have hrest := ih (fun d hd => hds d (List.mem_of_mem_drop hd)) (by rw [List.length_drop]; omega) hmore
        rw [bodyDigits_consBytes hfit, hfirst, hrest, hsplit]
    · rw [groupBytes_of_not_fit hfit] at h
      cases h

/-- The digits of bytes are read as these bytes, whatever comes behind. -/
theorem groupBytes_bodyDigits (b : Octets (8 * n)) (i : Nat) (rest : List Nat) :
    groupBytes n i (bodyDigits n b.toList ++ rest) = .ok b := by
  induction n generalizing i rest with
  | zero =>
    have hnil : b.toList = [] := List.length_eq_zero_iff.mp b.length_toList
    exact congrArg Except.ok (Tuple.ext hnil.symm)
  | succ n ih =>
    have hlength : b.toList.length = 8 * n + 8 := b.length_toList
    have htake : (b.toList.take 8).length = 8 := List.length_take_of_le (by omega)
    have hfit : leNat (b.toList.take 8) < UInt64.size := by
      have hlt := leNat_lt (b.toList.take 8)
      rwa [htake] at hlt
    let more : Octets (8 * n) := ⟨b.toList.drop 8, by rw [List.length_drop]; omega⟩
    have hb : b = consBytes (leNat (b.toList.take 8)) more := by
      have hfirst := leBytes_leNat (b.toList.take 8)
      rw [htake] at hfirst
      refine Tuple.ext ?_
      rw [toList_consBytes, hfirst]
      exact (List.take_append_drop 8 b.toList).symm
    have hvalue : value (digits groupLetters (leNat (b.toList.take 8))) = leNat (b.toList.take 8) :=
      value_digits_of_lt (Nat.lt_trans hfit (by decide))
    rw [bodyDigits, List.append_assoc, groupBytes_of_fit, List.take_left' (length_digits ..),
      List.drop_left' (length_digits ..), hvalue]
    · rw [show b.toList.drop 8 = more.toList from rfl, ih more]
      exact congrArg Except.ok hb.symm
    · rwa [List.take_left' (length_digits ..), hvalue]

/-- The first group that does not fit is reported. -/
theorem groupBytes_eq_error_iff :
    groupBytes n i ds = .error flaw ↔ ∃ j < n, (∀ k < j, value (group ds k) < UInt64.size) ∧
      UInt64.size ≤ value (group ds j) ∧ flaw = .overflow (i + j) := by
  induction n generalizing i ds with
  | zero => simp [groupBytes]
  | succ n ih =>
    by_cases hfit : value (ds.take groupLetters) < UInt64.size
    · have herror : groupBytes (n + 1) i ds = .error flaw ↔
          groupBytes n (i + 1) (ds.drop groupLetters) = .error flaw := by
        rw [groupBytes_of_fit hfit]
        cases groupBytes n (i + 1) (ds.drop groupLetters) <;> simp [Except.map]
      rw [herror, ih]
      simp only [← group_succ]
      constructor
      · rintro ⟨j, hj, hbefore, hover, rfl⟩
        refine ⟨j + 1, by omega, fun k hk => ?_, hover, by rw [Nat.add_right_comm, Nat.add_assoc]⟩
        cases k with
        | zero => exact hfit
        | succ k => exact hbefore k (by omega)
      · rintro ⟨j, hj, hbefore, hover, rfl⟩
        cases j with
        | zero => exact absurd hfit (Nat.not_lt.mpr hover)
        | succ j =>
          exact ⟨j, by omega, fun k hk => hbefore (k + 1) (by omega), hover, by rw [Nat.add_right_comm, Nat.add_assoc]⟩
    · rw [groupBytes_of_not_fit hfit]
      constructor
      · intro h
        exact ⟨0, by omega, by simp, Nat.not_lt.mp hfit, (Except.error.inj h).symm⟩
      · rintro ⟨j, -, hbefore, -, rfl⟩
        cases j with
        | zero => rfl
        | succ j => exact absurd (hbefore 0 (by omega)) hfit

end LightClient.Identity
