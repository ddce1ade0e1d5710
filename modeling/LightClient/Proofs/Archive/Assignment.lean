import LightClient.Archive
import Mathlib.Data.List.Forall2
import Mathlib.Data.List.Nodup
/-!
# Assigning records to digests

An assignment gives every digest the record that the index has for it, and takes the records of that digest out. What
the index has for the other digests stays the same (`record?_without_of_ne`). So an assignment succeeds exactly if no
digest comes twice and each has a record, and then gives the records that the whole index has (`assign_eq_ok_iff`); it
fails at the first digest that has none, or that was used up at an earlier place (`assign_eq_error_iff`).
-/
namespace LightClient.Archive

variable {ds : List Digest} {entries entries' : List (Digest × Transaction)} {ts : List Transaction} {d : Digest}
  {t : Transaction} {e : Error}

/-! ## The record of a digest -/

/-- The record that an index has for a digest. -/
def record? (entries : List (Digest × Transaction)) (d : Digest) : Option Transaction :=
  (entries.find? fun e => e.1 == d).map (·.2)

/-- The index without the records of a digest. -/
def without (d : Digest) (entries : List (Digest × Transaction)) : List (Digest × Transaction) :=
  entries.filter fun e => !(e.1 == d)

theorem record?_eq_none_iff : record? entries d = none ↔ ¬ ∃ t, (d, t) ∈ entries := by
  unfold record?
  rw [Option.map_eq_none_iff, List.find?_eq_none]
  constructor
  · rintro h ⟨t, ht⟩
    exact h (d, t) ht (beq_self_eq_true d)
  · rintro h ⟨d', t⟩ ht heq
    obtain rfl : d' = d := by simpa using heq
    exact h ⟨t, ht⟩

/-- Taking out the records of one digest changes nothing for another. -/
theorem record?_without_of_ne {d' : Digest} (h : d' ≠ d) : record? (without d entries) d' = record? entries d' := by
  have hsame (e : Digest × Transaction) : decide ((!(e.1 == d)) = true ∧ (e.1 == d') = true) = (e.1 == d') := by
    by_cases he : e.1 = d'
    · simp [he, h]
    · simp [he]
  simp only [record?, without, List.find?_filter, hsame]

/-- They are all taken out. -/
theorem record?_without_self : record? (without d entries) d = none := by
  rw [record?_eq_none_iff]
  rintro ⟨t, hmem⟩
  simpa using (List.mem_filter.mp hmem).2

theorem map_record?_without (h : d ∉ ds) : ds.map (record? (without d entries)) = ds.map (record? entries) :=
  List.map_congr_left fun _ hd' => record?_without_of_ne fun heq => h (heq ▸ hd')

/-! ## One digest -/

theorem assign_cons (h : record? entries d = some t) :
    assign (d :: ds) entries = (assign ds (without d entries)).map (t :: ·) := by
  unfold record? at h
  obtain ⟨entry, hfind, rfl⟩ := Option.map_eq_some_iff.mp h
  simp only [assign, hfind, without]

theorem assign_cons_of_none (h : record? entries d = none) :
    assign (d :: ds) entries = .error (.incompleteArchive d) := by
  simp only [assign, Option.map_eq_none_iff.mp h]

theorem assign_cons_eq_ok_iff :
    assign (d :: ds) entries = .ok ts ↔
      ∃ t more, record? entries d = some t ∧ assign ds (without d entries) = .ok more ∧ ts = t :: more := by
  cases hrecord : record? entries d with
  | none => simp [assign_cons_of_none hrecord]
  | some t =>
    rw [assign_cons hrecord]
    cases assign ds (without d entries) with
    | error e => simp [Except.map]
    | ok more => simp [Except.map, eq_comm]

theorem assign_cons_eq_error_iff :
    assign (d :: ds) entries = .error e ↔
      (record? entries d = none ∧ e = .incompleteArchive d) ∨
        ∃ t, record? entries d = some t ∧ assign ds (without d entries) = .error e := by
  cases hrecord : record? entries d with
  | none => simp [assign_cons_of_none hrecord, eq_comm]
  | some t =>
    rw [assign_cons hrecord]
    cases assign ds (without d entries) <;> simp [Except.map]

/-! ## All digests -/

theorem assign_eq_ok_iff :
    assign ds entries = .ok ts ↔ ds.Nodup ∧ ds.map (record? entries) = ts.map some := by
  induction ds generalizing entries ts with
  | nil =>
    rw [assign, Except.ok.injEq, List.map_nil, eq_comm, @eq_comm _ [] (ts.map some), List.map_eq_nil_iff]
    exact ⟨fun h => ⟨List.nodup_nil, h⟩, fun h => h.2⟩
  | cons d ds ih =>
    rw [assign_cons_eq_ok_iff]
    constructor
    · rintro ⟨t, more, hrecord, hmore, rfl⟩
      obtain ⟨hnodup, hmap⟩ := ih.mp hmore
      -- Another place of `d` would find none of its records left.
      have hd : d ∉ ds := by
        intro hd
        have hmem := List.mem_map_of_mem (f := record? (without d entries)) hd
        rw [record?_without_self, hmap] at hmem
        simp at hmem
      rw [map_record?_without hd] at hmap
      exact ⟨List.nodup_cons.mpr ⟨hd, hnodup⟩, by rw [List.map_cons, List.map_cons, hrecord, hmap]⟩
    · rintro ⟨hnodup, hmap⟩
      obtain ⟨hd, hnodup⟩ := List.nodup_cons.mp hnodup
      cases ts with
      | nil => cases hmap
      | cons t more =>
        obtain ⟨hrecord, hmap⟩ := List.cons.inj hmap
        rw [← map_record?_without hd] at hmap
        exact ⟨t, more, hrecord, ih.mpr ⟨hnodup, hmap⟩, rfl⟩

/-- An assignment fails at the first digest that has no record, or has used up its record at an earlier place. -/
theorem assign_eq_error_iff :
    assign ds entries = .error e ↔
      ∃ before d after, ds = before ++ d :: after ∧ before.Nodup ∧ (∀ d' ∈ before, record? entries d' ≠ none) ∧
        (d ∈ before ∨ record? entries d = none) ∧ e = .incompleteArchive d := by
  induction ds generalizing entries with
  | nil => simp [assign]
  | cons d₀ ds ih =>
    rw [assign_cons_eq_error_iff]
    constructor
    · rintro (⟨hnone, rfl⟩ | ⟨t, hrecord, hrest⟩)
      · exact ⟨[], d₀, ds, rfl, List.nodup_nil, by simp, .inr hnone, rfl⟩
      · obtain ⟨before, d, after, rfl, hnodup, hbefore, hd, rfl⟩ := ih.mp hrest
        have hfirst : record? entries d₀ ≠ none := by simp [hrecord]
        have hne : ∀ d' ∈ before, d' ≠ d₀ := by
          rintro d' hd' rfl
          exact hbefore d' hd' record?_without_self
        refine ⟨d₀ :: before, d, after, rfl, List.nodup_cons.mpr ⟨fun hmem => hne d₀ hmem rfl, hnodup⟩, ?_, ?_, rfl⟩
        · refine List.forall_mem_cons.mpr ⟨hfirst, fun d' hd' => ?_⟩
          rw [← record?_without_of_ne (hne d' hd')]
          exact hbefore d' hd'
        · by_cases heq : d = d₀
          · exact .inl (heq ▸ List.mem_cons_self)
          · rw [record?_without_of_ne heq] at hd
            exact hd.imp_left (List.mem_cons_of_mem d₀)
    · rintro ⟨before, d, after, hds, hnodup, hbefore, hd, rfl⟩
      cases before with
      | nil =>
        obtain ⟨rfl, rfl⟩ := List.cons.inj hds
        exact .inl ⟨hd.resolve_left List.not_mem_nil, rfl⟩
      | cons d' before =>
        obtain ⟨rfl, rfl⟩ := List.cons.inj hds
        obtain ⟨hd₀, hnodup⟩ := List.nodup_cons.mp hnodup
        obtain ⟨hfirst, hbefore⟩ := List.forall_mem_cons.mp hbefore
        obtain ⟨t, hrecord⟩ := Option.ne_none_iff_exists'.mp hfirst
        refine .inr ⟨t, hrecord, ih.mpr ⟨before, d, after, rfl, hnodup, fun d' hd' => ?_, ?_, rfl⟩⟩
        · have hne : d' ≠ d₀ := by
            rintro rfl
            exact hd₀ hd'
          rw [record?_without_of_ne hne]
          exact hbefore d' hd'
        · by_cases heq : d = d₀
          · exact .inr (heq ▸ record?_without_self)
          · rw [record?_without_of_ne heq]
            exact hd.imp_left fun hmem => (List.mem_cons.mp hmem).resolve_left heq

/-- An assignment sees of an index only which record it has for each digest. -/
theorem assign_congr (h : ∀ d, record? entries d = record? entries' d) : assign ds entries = assign ds entries' := by
  induction ds generalizing entries entries' with
  | nil => rfl
  | cons d ds ih =>
    have hrest : assign ds (without d entries) = assign ds (without d entries') := by
      refine ih fun d' => ?_
      by_cases heq : d' = d
      · subst heq
        rw [record?_without_self, record?_without_self]
      · rw [record?_without_of_ne heq, record?_without_of_ne heq, h]
    cases hrecord : record? entries d with
    | none => rw [assign_cons_of_none hrecord, assign_cons_of_none (h d ▸ hrecord)]
    | some t => rw [assign_cons hrecord, assign_cons (h d ▸ hrecord), hrest]

end LightClient.Archive
