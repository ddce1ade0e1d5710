import LightClient.Stream.Source
/-!
# What the reads of a stream give

`reads wanted s` is what the reads give that filling makes, one after the other (`readsTo_fill`). It decides the
result of filling: on any stream whose first reads go like this, filling makes just these reads and comes to the
same (`fill_after`). A read that finds the end or fails is the last one, and then fewer bytes come than were wanted,
or none (`short_of_stops`). Where nothing comes, there were interruptions and then the end (`nothingRead_of_fill`).
-/
namespace LightClient

namespace ReadResult

/-- A read that finds the end of the stream, or fails. -/
def Stops : ReadResult → Prop
  | ended | failed _ => True
  | data _ | interrupted => False

/-- The bytes that a read gives. -/
def bytes : ReadResult → Bytes
  | data got => got
  | ended | interrupted | failed _ => []

/-- How a read goes that gives this. -/
def step : ReadResult → ReadStep
  | data got => .deliver got.length
  | ended => .deliver 0
  | interrupted => .interrupt
  | failed fault => .fail fault

end ReadResult

namespace Source

/-- What the reads give that filling makes. -/
def reads (wanted : Nat) (s : Source) : List ReadResult :=
  if wanted = 0 then []
  else
    match _h : s.read wanted with
    | (.data got, s') => .data got :: s'.reads (wanted - got.length)
    | (.ended, _) => [.ended]
    | (.interrupted, s') => .interrupted :: s'.reads wanted
    | (.failed fault, _) => [.failed fault]
termination_by s.pending
decreasing_by
  · exact pending_of_data _h
  · exact pending_of_interrupted _h

/-- A stream of which the first reads give certain results, before it goes on as another one. -/
def after (results : List ReadResult) (s : Source) : Source :=
  ⟨results.flatMap ReadResult.bytes ++ s.bytes, results.map ReadResult.step ++ s.schedule, s.ending⟩

variable {s s' u : Source} {n : Nat} {got : Bytes}

@[simp] theorem after_nil (u : Source) : u.after [] = u := rfl

theorem after_append (first more : List ReadResult) (u : Source) :
    u.after (first ++ more) = (u.after more).after first := by
  simp only [after, List.flatMap_append, List.map_append, List.append_assoc]

theorem length_of_data (h : s.read n = (.data got, s')) : 0 < got.length ∧ got.length ≤ n := by
  unfold read at h
  split at h
  · obtain ⟨rfl, hpos, -⟩ := give_data h
    exact ⟨hpos, List.length_take_le ..⟩
  · obtain ⟨rfl, hpos, -⟩ := give_data h
    exact ⟨hpos, Nat.le_trans (List.length_take_le ..) (Nat.min_le_right ..)⟩
  · simp at h
  · simp at h

/-! ## One read more -/

theorem fill_eq (hn : n ≠ 0) (s : Source) :
    s.fill n =
      match s.read n with
      | (.data got, s') => ((s'.fill (n - got.length)).1.map (got ++ ·), (s'.fill (n - got.length)).2)
      | (.ended, s') => (.ok [], s')
      | (.interrupted, s') => s'.fill n
      | (.failed fault, s') => (.error fault, s') := by
  rw [fill, if_neg hn]
  split <;> simp only [*]

theorem reads_eq (hn : n ≠ 0) (s : Source) :
    s.reads n =
      match s.read n with
      | (.data got, s') => .data got :: s'.reads (n - got.length)
      | (.ended, _) => [.ended]
      | (.interrupted, s') => .interrupted :: s'.reads n
      | (.failed fault, _) => [.failed fault] := by
  rw [reads, if_neg hn]
  split <;> simp only [*]

/-! ## The reads that are made -/

/-- Reads that are made one after the other, starting from one stream and leaving another, give certain results. -/
inductive ReadsTo : Source → List ReadResult → Source → Prop where
  | nil (s : Source) : ReadsTo s [] s
  | cons {s s' s'' : Source} {wanted : Nat} {r : ReadResult} {results : List ReadResult}
      (first : s.read wanted = (r, s')) (others : ReadsTo s' results s'') : ReadsTo s (r :: results) s''

theorem ReadsTo.append {s'' : Source} {first others : List ReadResult} (h : ReadsTo s first s')
    (h' : ReadsTo s' others s'') : ReadsTo s (first ++ others) s'' := by
  induction h with
  | nil s => exact h'
  | cons hread _ ih => exact .cons hread (ih h')

theorem readsTo_fill (n : Nat) (s : Source) : ReadsTo s (s.reads n) (s.fill n).2 := by
  fun_induction fill n s with
  | case1 s =>
    rw [reads, if_pos rfl]
    exact .nil s
  | case2 s n hn got s' hread more s'' hfill ih =>
    rw [hfill] at ih
    rw [reads_eq hn, hread]
    exact .cons hread ih
  | case3 s n hn s' hread =>
    rw [reads_eq hn, hread]
    exact .cons hread (.nil s')
  | case4 s n hn s' hread ih =>
    rw [reads_eq hn, hread]
    exact .cons hread ih
  | case5 s n hn fault s' hread =>
    rw [reads_eq hn, hread]
    exact .cons hread (.nil s')

/-! ## Filling again -/

/-- The first read gives what it should, and no more bytes than are wanted. -/
theorem read_after_data (hpos : 0 < got.length) (hle : got.length ≤ n) (results : List ReadResult) :
    (u.after (.data got :: results)).read n = (.data got, u.after results) := by
  have hbytes : (u.after (.data got :: results)).bytes = got ++ (u.after results).bytes := List.append_assoc ..
  have hread : (u.after (.data got :: results)).read n =
      give got.length ⟨got ++ (u.after results).bytes, (u.after results).schedule, u.ending⟩ := by
    rw [← hbytes, ← Nat.min_eq_left hle]
    rfl
  rw [hread]
  obtain ⟨b, bs, rfl⟩ := List.exists_cons_of_length_pos hpos
  simp [give, after]

theorem read_after_interrupted (results : List ReadResult) :
    (u.after (.interrupted :: results)).read n = (.interrupted, u.after results) := rfl

theorem read_after_failed (fault : Fault) (results : List ReadResult) :
    (u.after (.failed fault :: results)).read n = (.failed fault, u.after results) := rfl

theorem read_after_ended (results : List ReadResult) :
    (u.after (.ended :: results)).read n = (.ended, u.after results) := by
  have hread : (u.after (.ended :: results)).read n = give 0 (u.after results) := by
    rw [← Nat.zero_min n]
    rfl
  rw [hread, give, List.take_zero]
  cases (u.after results).ending <;> rfl

/-- Filling makes the reads that it made, comes to the same, and leaves the stream where it goes on. -/
theorem fill_after (u s : Source) (n : Nat) : (u.after (s.reads n)).fill n = ((s.fill n).1, u) := by
  fun_induction fill n s with
  | case1 s => simp [reads, fill]
  | case2 n s hn got s' hread more s'' hfill ih =>
    obtain ⟨hpos, hle⟩ := length_of_data hread
    rw [hfill] at ih
    rw [reads_eq hn, hread, fill_eq hn]
    simp only [read_after_data hpos hle, ih]
  | case3 n s hn s' hread =>
    rw [reads_eq hn, hread, fill_eq hn]
    simp only [read_after_ended, after_nil]
  | case4 n s hn s' hread ih =>
    rw [reads_eq hn, hread, fill_eq hn]
    simp only [read_after_interrupted, ih]
  | case5 n s hn fault s' hread =>
    rw [reads_eq hn, hread, fill_eq hn]
    simp only [read_after_failed, after_nil]

/-! ## Reads that stop -/

/-- Where a read finds the end or fails, filling fails or comes to fewer bytes than were wanted. -/
theorem short_of_stops (h : ∃ r ∈ s.reads n, r.Stops) :
    (∃ fault, (s.fill n).1 = .error fault) ∨ ∃ got, (s.fill n).1 = .ok got ∧ got.length < n := by
  fun_induction fill n s with
  | case1 s => simp [reads] at h
  | case2 n s hn got s' hread more s'' hfill ih =>
    rw [reads_eq hn, hread] at h
    simp only [List.mem_cons, exists_eq_or_imp, ReadResult.Stops, false_or] at h
    rw [hfill] at ih
    obtain ⟨fault, rfl⟩ | ⟨later, rfl, hshort⟩ := ih h
    · exact .inl ⟨fault, rfl⟩
    · refine .inr ⟨got ++ later, rfl, ?_⟩
      rw [List.length_append]
      omega
  | case3 n s hn s' hread => exact .inr ⟨[], rfl, Nat.pos_of_ne_zero hn⟩
  | case4 n s hn s' hread ih =>
    rw [reads_eq hn, hread] at h
    simp only [List.mem_cons, exists_eq_or_imp, ReadResult.Stops, false_or] at h
    exact ih h
  | case5 n s hn fault s' hread => exact .inl ⟨fault, rfl⟩

/-- Filling that comes to all that was wanted has not met the end of the stream. -/
theorem not_stops_of_full (hfill : s.fill n = (.ok got, s')) (hfull : ¬ got.length < n) :
    ¬ ∃ r ∈ s.reads n, r.Stops := by
  intro hstops
  obtain ⟨fault, hfault⟩ | ⟨_, hgot, hshort⟩ := short_of_stops hstops
  · rw [hfill] at hfault
    cases hfault
  · rw [hfill] at hgot
    cases hgot
    exact hfull hshort

/-! ## The end before any byte -/

/-- Interruptions, and then the end. -/
def NothingRead (results : List ReadResult) : Prop := ∃ k, results = List.replicate k .interrupted ++ [.ended]

theorem nothingRead_of_fill (hn : n ≠ 0) (h : s.fill n = (.ok [], s')) : NothingRead (s.reads n) := by
  fun_induction fill n s generalizing s' with
  | case1 s => exact absurd rfl hn
  | case2 s n hn got s₁ hread more s₂ hfill ih =>
    obtain ⟨hpos, -⟩ := length_of_data hread
    have hgot : got ≠ [] := List.length_pos_iff.mp hpos
    cases more <;> simp [Except.map, hgot] at h
  | case3 s n hn s₁ hread =>
    rw [reads_eq hn, hread]
    exact ⟨0, rfl⟩
  | case4 s n hn s₁ hread ih =>
    obtain ⟨k, hk⟩ := ih hn h
    rw [reads_eq hn, hread]
    exact ⟨k + 1, congrArg (ReadResult.interrupted :: ·) hk⟩
  | case5 s n hn fault s₁ hread => cases h

theorem fill_of_nothingRead {results : List ReadResult} (hn : n ≠ 0) (h : NothingRead results) (u : Source) :
    (u.after results).fill n = (.ok [], u) := by
  obtain ⟨k, rfl⟩ := h
  induction k with
  | zero =>
    rw [fill_eq hn, List.replicate_zero, List.nil_append, read_after_ended]
    rfl
  | succ k ih =>
    rw [fill_eq hn, List.replicate_succ, List.cons_append, read_after_interrupted]
    exact ih

/-! ## Reading exactly -/

theorem readsTo_readExact (n : Nat) (s : Source) : ReadsTo s (s.reads n) (s.readExact n).2 := by
  have hfill := readsTo_fill n s
  rw [readExact]
  rcases hread : s.fill n with ⟨fault | got, s'⟩ <;> rw [hread] at hfill
  · exact hfill
  · by_cases hshort : got.length < n <;> simpa only [hshort, if_true, if_false] using hfill

theorem readExact_after (u s : Source) (n : Nat) : (u.after (s.reads n)).readExact n = ((s.readExact n).1, u) := by
  rw [readExact, readExact, fill_after]
  rcases s.fill n with ⟨fault | got, s'⟩
  · rfl
  · by_cases hshort : got.length < n <;> simp only [hshort, if_true, if_false]

theorem readExact_of_stops (h : ∃ r ∈ s.reads n, r.Stops) : ∃ fault, (s.readExact n).1 = .error fault := by
  rw [readExact]
  rcases hfill : s.fill n with ⟨fault | got, s'⟩
  · exact ⟨fault, rfl⟩
  · by_cases hshort : got.length < n
    · exact ⟨.endOfStream, by simp only [hshort, if_true]⟩
    · exact absurd h (not_stops_of_full hfill hshort)

end Source

end LightClient
