import LightClient.Proofs.Archive.CanonicalOrder
import LightClient.Proofs.FirstPlace
/-!
# The slot of a digest

A digest that is not zero is looked up among all slots, the empty ones included, and found in the first that holds
it (`slotOf?_eq_some_iff`); it is found exactly if the header lists it (`slotOf?_eq_none_iff`).
-/
namespace LightClient.TickData

variable {d : TickData} {digest : Digest} {slot : Nat}

theorem mem_listed_iff : digest ∈ d.listed ↔ digest ∈ d.digests.toList ∧ digest.isZero = false := by
  rw [listed, List.mem_filter, Bool.not_eq_true']

theorem slotOf?_eq_none_iff : d.slotOf? digest = none ↔ digest ∉ d.listed := by
  rw [slotOf?, Option.map_eq_none_iff, List.find?_eq_none, ← map_slots, List.mem_map]
  constructor
  · rintro hnone ⟨s, hs, rfl⟩
    exact hnone s hs (beq_self_eq_true _)
  · intro hnone s hs heq
    exact hnone ⟨s, hs, eq_of_beq heq⟩

theorem exists_slotOf?_iff : (∃ slot, d.slotOf? digest = some slot) ↔ digest ∈ d.listed := by
  rw [← Option.ne_none_iff_exists', ne_eq, slotOf?_eq_none_iff, Decidable.not_not]

theorem find?_slots (hdigest : digest.isZero = false) (ds : List Digest) (k : Nat) :
    ((((ds.zipIdx k).filter fun p => !p.1.isZero).map fun p => (p.2, p.1)).find? fun s => s.2 == digest).map
      (·.1) = (ds.findIdx? (· == digest)).map (· + k) := by
  induction ds generalizing k with
  | nil => rfl
  | cons d ds ih =>
    rw [List.zipIdx_cons, List.findIdx?_cons]
    by_cases heq : d = digest
    · subst heq
      rw [List.filter_cons_of_pos (by simpa using hdigest), List.map_cons, List.find?_cons_of_pos (by simp)]
      simp
    · have hne : (d == digest) = false := by simpa using heq
      have hshift : ((ds.findIdx? (· == digest)).map (· + 1)).map (· + k) =
          (ds.findIdx? (· == digest)).map (· + (k + 1)) := by
        rw [Option.map_map]
        congr 1
        funext i
        exact Nat.add_right_comm i 1 k
      rw [hne, if_neg Bool.false_ne_true, hshift, ← ih]
      -- Another digest takes up its place, whether its slot is empty or not.
      cases hzero : d.isZero with
      | true => rw [List.filter_cons_of_neg (by simp [hzero])]
      | false =>
        rw [List.filter_cons_of_pos (by simp [hzero]), List.map_cons, List.find?_cons_of_neg (by simpa using heq)]

/-- The slot of a digest is the first that holds it; an empty slot holds none. -/
theorem slotOf?_eq_some_iff :
    d.slotOf? digest = some slot ↔ digest.isZero = false ∧ FirstPlace d.digests.toList digest slot := by
  have hfirst (hdigest : digest.isZero = false) :
      d.slotOf? digest = some slot ↔ FirstPlace d.digests.toList digest slot := by
    rw [← FirstPlace.findIdx?_eq_some_iff, slotOf?, slots, find?_slots hdigest]
    simp only [Nat.add_zero, Option.map_id']
  constructor
  · intro h
    have hlisted : digest ∈ d.listed := exists_slotOf?_iff.mp ⟨slot, h⟩
    have hdigest := (mem_listed_iff.mp hlisted).2
    exact ⟨hdigest, (hfirst hdigest).mp h⟩
  · rintro ⟨hdigest, h⟩
    exact (hfirst hdigest).mpr h

end LightClient.TickData
