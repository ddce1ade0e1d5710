import LightClient.Proofs.Stream.Delivery
/-!
# Streams that are not interrupted

A stream is steady if its reads give something or find the end: they may be short, but none is interrupted. Reads
use the schedule of a stream up from the front (`schedule_fill`), so what is left of a steady stream is steady.
-/
namespace LightClient.Source

/-- A stream that gives some bytes in whatever pieces, without an interruption, and is closed after the last
one. -/
structure Steady (s : Source) (bs : Bytes) : Prop where
  delivers : s.Delivers bs
  uninterrupted : .interrupt ∉ s.schedule

variable {s s' : Source} {bs rest : Bytes} {n : Nat}

theorem schedule_give (n : Nat) (s : Source) : (s.give n).2.schedule = s.schedule := by
  unfold give
  split <;> rfl

theorem schedule_read (n : Nat) (s : Source) : (s.read n).2.schedule <:+ s.schedule := by
  unfold read
  split
  · simp only [schedule_give, List.suffix_refl]
  · rename_i steps hs
    rw [schedule_give, hs]
    exact List.suffix_cons ..
  · rename_i steps hs
    rw [hs]
    exact List.suffix_cons ..
  · rename_i steps hs
    rw [hs]
    exact List.suffix_cons ..

theorem schedule_fill (n : Nat) (s : Source) : (s.fill n).2.schedule <:+ s.schedule := by
  have step {n : Nat} {s s' : Source} {r : ReadResult} (h : s.read n = (r, s')) :
      s'.schedule <:+ s.schedule := by
    have := schedule_read n s
    rwa [h] at this
  fun_induction fill n s with
  | case1 s => exact List.suffix_refl _
  | case2 s n hn got s' h more s'' hf ih =>
    rw [hf] at ih
    exact ih.trans (step h)
  | case3 s n hn s' h => exact step h
  | case4 s n hn s' h ih => exact ih.trans (step h)
  | case5 s n hn fault s' h => exact step h

theorem schedule_readExact (n : Nat) (s : Source) : (s.readExact n).2.schedule <:+ s.schedule := by
  have h := schedule_fill n s
  unfold readExact
  split
  · rename_i hfill
    rw [hfill] at h
    split <;> exact h
  · rename_i hfill
    rw [hfill] at h
    exact h

theorem Steady.of_suffix (h : s.Steady bs) (hs' : s'.Delivers rest) (hsuffix : s'.schedule <:+ s.schedule) :
    s'.Steady rest :=
  ⟨hs', fun hmem => h.uninterrupted (hsuffix.subset hmem)⟩

/-- One read of a steady stream finds the end, or gives a piece. -/
theorem read_of_steady (h : s.Steady bs) (hn : 0 < n) :
    ∃ s', (bs = [] ∧ s.read n = (.ended, s') ∧ s'.Steady []) ∨
      ∃ m, 0 < m ∧ m ≤ n ∧ m ≤ bs.length ∧ s.read n = (.data (bs.take m), s') ∧ s'.Steady (bs.drop m) := by
  have hsuffix := schedule_read n s
  obtain ⟨s', ⟨hread, hs'⟩ | ⟨hbs, hread, hs'⟩ | ⟨m, hpos, hle, hlen, hread, hs'⟩⟩ :=
    read_of_delivers h.delivers hn
  · -- Only an interruption in the schedule interrupts a read.
    exfalso
    unfold read at hread
    split at hread
    · exact give_ne_interrupted _ _ _ hread
    · exact give_ne_interrupted _ _ _ hread
    · rename_i hs
      exact h.uninterrupted (hs ▸ List.mem_cons_self ..)
    · cases hread
  · rw [hread] at hsuffix
    exact ⟨s', .inl ⟨hbs, hread, h.of_suffix hs' hsuffix⟩⟩
  · rw [hread] at hsuffix
    exact ⟨s', .inr ⟨m, hpos, hle, hlen, hread, h.of_suffix hs' hsuffix⟩⟩

/-- Reading exactly so many bytes fails where fewer come before the end. -/
theorem readExact_of_steady (h : s.Steady bs) (n : Nat) :
    ∃ s', s.readExact n = (if bs.length < n then .error .endOfStream else .ok (bs.take n), s') ∧
      s'.Steady (bs.drop n) := by
  have hsuffix := schedule_readExact n s
  obtain ⟨s', hread, hs'⟩ := readExact_of_delivers h.delivers n
  rw [hread] at hsuffix
  exact ⟨s', hread, h.of_suffix hs' hsuffix⟩

end LightClient.Source
