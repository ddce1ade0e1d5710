import LightClient.Stream.Source
/-!
# Streams that deliver their bytes

`Delivers s bs`: reading `s` gives `bs`, in whatever pieces and with whatever interruptions, and then the
stream is closed. `read_of_delivers` is one read of such a stream; `fill` puts the pieces together again
(`fill_of_delivers`), so whoever reads through it cannot tell how the bytes came. `BytesDecide` is that property of a
reader: from all streams that deliver the same bytes it takes the same, and leaves the same (`BytesDecide.same`); so
does a reader that goes on with such readers after such a one (`BytesDecide.bind`).
-/
namespace LightClient

/-- A read that gives something, or that is interrupted and can be made again. -/
def ReadStep.Gentle : ReadStep → Prop
  | deliver n => 0 < n
  | interrupt => True
  | fail _ => False

namespace Source

/-- A stream that gives some bytes and is closed after the last one. -/
structure Delivers (s : Source) (bs : Bytes) : Prop where
  bytes : s.bytes = bs
  schedule : ∀ step ∈ s.schedule, step.Gentle
  ending : s.ending = .closed

variable {s : Source} {bs : Bytes} {n : Nat}

theorem delivers_ofBytes (bs : Bytes) : (ofBytes bs).Delivers bs := ⟨rfl, by simp [ofBytes], rfl⟩

theorem give_of_delivers (h : s.Delivers bs) (hn : 0 < n) :
    (bs = [] ∧ s.give n = (.ended, s)) ∨
      ∃ m s', 0 < m ∧ m ≤ n ∧ m ≤ bs.length ∧ s.give n = (.data (bs.take m), s') ∧
        s'.Delivers (bs.drop m) := by
  obtain ⟨bytes, schedule, ending⟩ := s
  obtain ⟨rfl, hschedule, rfl⟩ := h
  cases bytes with
  | nil => exact .inl ⟨rfl, by simp [give]⟩
  | cons b bs =>
    right
    have hgive : give n ⟨b :: bs, schedule, .closed⟩ =
        (.data ((b :: bs).take n), ⟨(b :: bs).drop n, schedule, .closed⟩) := by
      cases n with
      | zero => cases hn
      | succ n => rfl
    rcases Nat.le_total n (b :: bs).length with hle | hle
    · exact ⟨n, _, hn, Nat.le_refl n, hle, hgive, rfl, hschedule, rfl⟩
    · rw [List.take_of_length_le hle, List.drop_of_length_le hle] at hgive
      refine ⟨(b :: bs).length, ⟨[], schedule, .closed⟩, Nat.succ_pos _, hle, Nat.le_refl _, ?_,
        List.drop_length.symm, hschedule, rfl⟩
      rw [List.take_length]
      exact hgive

/-- One read is interrupted, finds the end, or gives a piece. -/
theorem read_of_delivers (h : s.Delivers bs) (hn : 0 < n) :
    ∃ s', (s.read n = (.interrupted, s') ∧ s'.Delivers bs) ∨
      (bs = [] ∧ s.read n = (.ended, s') ∧ s'.Delivers []) ∨
      ∃ m, 0 < m ∧ m ≤ n ∧ m ≤ bs.length ∧ s.read n = (.data (bs.take m), s') ∧
        s'.Delivers (bs.drop m) := by
  have hrest {step : ReadStep} {steps : List ReadStep} (hs : s.schedule = step :: steps) :
      step.Gentle ∧ ({ s with schedule := steps } : Source).Delivers bs := by
    have hall := List.forall_mem_cons.mp (hs ▸ h.schedule)
    exact ⟨hall.1, h.bytes, hall.2, h.ending⟩
  match hs : s.schedule with
  | [] =>
    have hread : s.read n = s.give n := by simp only [read, hs]
    rw [hread]
    rcases give_of_delivers h hn with ⟨rfl, hgive⟩ | ⟨m, s', hm⟩
    · exact ⟨s, .inr (.inl ⟨rfl, hgive, h⟩)⟩
    · exact ⟨s', .inr (.inr ⟨m, hm⟩)⟩
  | .interrupt :: steps =>
    exact ⟨_, .inl ⟨by simp only [read, hs], (hrest hs).2⟩⟩
  | .fail fault :: steps => exact (hrest hs).1.elim
  | .deliver k :: steps =>
    obtain ⟨hk, hsteps⟩ := hrest hs
    have hread : s.read n = ({ s with schedule := steps } : Source).give (min k n) := by
      simp only [read, hs]
    rw [hread]
    rcases give_of_delivers hsteps (Nat.lt_min.mpr ⟨hk, hn⟩) with ⟨rfl, hgive⟩ | ⟨m, s', h0, hle, hm⟩
    · exact ⟨_, .inr (.inl ⟨rfl, hgive, hsteps⟩)⟩
    · exact ⟨s', .inr (.inr ⟨m, h0, Nat.le_trans hle (Nat.min_le_right k n), hm⟩)⟩

/-- Filling gives the bytes asked for, fewer where the stream ends, and leaves the others. -/
theorem fill_of_delivers (h : s.Delivers bs) (n : Nat) :
    ∃ s', s.fill n = (.ok (bs.take n), s') ∧ s'.Delivers (bs.drop n) := by
  fun_induction fill n s generalizing bs with
  | case1 s => exact ⟨s, by simp, by simpa using h⟩
  | case2 s n hn got s' hr more s'' hf ih =>
    obtain ⟨t, ⟨e, -⟩ | ⟨-, e, -⟩ | ⟨m, h0, hle, hlen, e, ht⟩⟩ :=
      read_of_delivers h (Nat.pos_of_ne_zero hn) <;> rw [hr] at e <;> cases e
    obtain ⟨u, hu, hdelivers⟩ := ih ht
    rw [hf] at hu
    cases hu
    -- What was got is exactly `m` bytes, and the rest of the filling asks for the others.
    rw [List.length_take_of_le hlen, List.drop_drop, Nat.add_sub_cancel' hle] at hdelivers
    refine ⟨s'', ?_, hdelivers⟩
    rw [List.length_take_of_le hlen, Except.map, ← List.take_add, Nat.add_sub_cancel' hle]
  | case3 s n hn s' hr =>
    obtain ⟨t, ⟨e, -⟩ | ⟨rfl, e, ht⟩ | ⟨m, -, -, -, e, -⟩⟩ :=
      read_of_delivers h (Nat.pos_of_ne_zero hn) <;> rw [hr] at e <;> cases e
    exact ⟨s', by simp, by simpa using ht⟩
  | case4 s n hn s' hr ih =>
    obtain ⟨t, ⟨e, ht⟩ | ⟨-, e, -⟩ | ⟨m, -, -, -, e, -⟩⟩ :=
      read_of_delivers h (Nat.pos_of_ne_zero hn) <;> rw [hr] at e <;> cases e
    exact ih ht
  | case5 s n hn fault s' hr =>
    obtain ⟨t, ⟨e, -⟩ | ⟨-, e, -⟩ | ⟨m, -, -, -, e, -⟩⟩ :=
      read_of_delivers h (Nat.pos_of_ne_zero hn) <;> rw [hr] at e <;> cases e

/-- Where enough bytes come, filling gives exactly those asked for. -/
theorem fill_append {front rest : Bytes} (h : s.Delivers (front ++ rest)) (hn : front.length = n) :
    ∃ s', s.fill n = (.ok front, s') ∧ s'.Delivers rest := by
  obtain ⟨s', hfill, hs'⟩ := fill_of_delivers h n
  rw [List.take_left' hn] at hfill
  rw [List.drop_left' hn] at hs'
  exact ⟨s', hfill, hs'⟩

/-- Reading exactly so many bytes fails where fewer come before the end. -/
theorem readExact_of_delivers (h : s.Delivers bs) (n : Nat) :
    ∃ s', s.readExact n = (if bs.length < n then .error .endOfStream else .ok (bs.take n), s') ∧
      s'.Delivers (bs.drop n) := by
  obtain ⟨s', hfill, hs'⟩ := fill_of_delivers h n
  refine ⟨s', ?_, hs'⟩
  by_cases hshort : bs.length < n
  · have hgot : (bs.take n).length < n := by rw [List.length_take]; omega
    simp only [readExact, hfill, hgot, hshort, if_true]
  · have hgot : ¬ (bs.take n).length < n := by rw [List.length_take]; omega
    simp only [readExact, hfill, hgot, hshort, if_false]

theorem readExact_append {front rest : Bytes} (h : s.Delivers (front ++ rest)) (hn : front.length = n) :
    ∃ s', s.readExact n = (.ok front, s') ∧ s'.Delivers rest := by
  obtain ⟨s', hread, hs'⟩ := readExact_of_delivers h n
  rw [List.drop_left' hn] at hs'
  have henough : ¬ (front ++ rest).length < n := by rw [List.length_append]; omega
  rw [if_neg henough, List.take_left' hn] at hread
  exact ⟨s', hread, hs'⟩

/-! ## Readers that cannot tell how the bytes came -/

/-- What a reader gives, and what it leaves, depends on the bytes that the stream delivers and on nothing else. -/
def BytesDecide {α : Type} (f : Source → α × Source) : Prop :=
  ∀ bs, ∃ outcome rest, ∀ s : Source, s.Delivers bs → ∃ s', f s = (outcome, s') ∧ s'.Delivers rest

namespace BytesDecide

variable {α β : Type} {f : Source → α × Source} {k : Source → β × Source}

theorem const (a : α) : BytesDecide fun s => (a, s) := fun bs => ⟨a, bs, fun s hs => ⟨s, rfl, hs⟩⟩

theorem map (hf : BytesDecide f) (change : α → β) : BytesDecide fun s => (change (f s).1, (f s).2) := by
  intro bs
  obtain ⟨outcome, rest, hread⟩ := hf bs
  refine ⟨change outcome, rest, fun s hs => ?_⟩
  obtain ⟨s', hs', hrest⟩ := hread s hs
  exact ⟨s', by simp only [hs'], hrest⟩

/-- A reader that goes on with a reader for each outcome of the first one. -/
theorem bind (hf : BytesDecide f)
    (hk : ∀ a, ∃ g : Source → β × Source, BytesDecide g ∧ ∀ s s', f s = (a, s') → k s = g s') : BytesDecide k := by
  intro bs
  obtain ⟨outcome, rest, hread⟩ := hf bs
  obtain ⟨g, hg, hgoes⟩ := hk outcome
  obtain ⟨last, rest', hlast⟩ := hg rest
  refine ⟨last, rest', fun s hs => ?_⟩
  obtain ⟨s₁, hs₁, hrest⟩ := hread s hs
  rw [hgoes s s₁ hs₁]
  exact hlast s₁ hrest

theorem same (h : BytesDecide f) {s₁ s₂ : Source} (h₁ : s₁.Delivers bs) (h₂ : s₂.Delivers bs) :
    (f s₁).1 = (f s₂).1 ∧ ∃ rest, (f s₁).2.Delivers rest ∧ (f s₂).2.Delivers rest := by
  obtain ⟨outcome, rest, hf⟩ := h bs
  obtain ⟨s₁', hread₁, hrest₁⟩ := hf s₁ h₁
  obtain ⟨s₂', hread₂, hrest₂⟩ := hf s₂ h₂
  rw [hread₁, hread₂]
  exact ⟨rfl, rest, hrest₁, hrest₂⟩

end BytesDecide

theorem bytesDecide_readExact (n : Nat) : BytesDecide (readExact n) := by
  intro bs
  exact ⟨if bs.length < n then .error .endOfStream else .ok (bs.take n), bs.drop n, fun s hs =>
    readExact_of_delivers hs n⟩

end Source

end LightClient
