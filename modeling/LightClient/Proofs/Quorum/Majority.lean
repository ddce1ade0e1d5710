import LightClient.Proofs.Quorum.Grouping
import Mathlib.Data.List.Nodup
/-!
# Why at most one outcome decides

The voters of all candidates of a tick are distinct indices below 676. Two quorums need 902 voters,
so two candidates cannot both have one (`countP_hasQuorum_le_one`), and it does not matter in which
order the candidates are searched (`majority_perm`). Quorums of two different ticks' reports, or of
two reports on one tick, share at least 226 voters (`overlap_of_quorums`).
-/
namespace LightClient

namespace Computor

theorem length_le_count {l : List UInt16} (hn : l.Nodup) (hlt : ∀ i ∈ l, i.toNat < count) :
    l.length ≤ count := by
  have hnat : (l.map UInt16.toNat).Nodup := hn.map fun _ _ h => UInt16.toNat_inj.mp h
  have hsub : l.map UInt16.toNat ⊆ List.range count := by
    intro n h
    obtain ⟨i, hi, rfl⟩ := List.mem_map.mp h
    exact List.mem_range.mpr (hlt i hi)
  simpa using hnat.length_le_of_subset hsub

/-- The indices of two lists that do not fit below the number of computors are shared. -/
theorem length_add_length_le {a b : List UInt16} (ha : a.Nodup) (hb : b.Nodup)
    (hlta : ∀ i ∈ a, i.toNat < count) (hltb : ∀ i ∈ b, i.toNat < count) :
    a.length + b.length ≤ count + (a.filter (· ∈ b)).length := by
  have hsplit := (List.filter_append_perm (· ∈ b) a).length_eq
  rw [List.length_append] at hsplit
  have hunion : (a.filter (fun i => !decide (i ∈ b)) ++ b).length ≤ count := by
    apply length_le_count
    · refine List.nodup_append.mpr ⟨ha.filter _, hb, ?_⟩
      rintro i hi j hj rfl
      simp [hj] at hi
    · intro i hi
      rcases List.mem_append.mp hi with h | h
      · exact hlta i (List.mem_of_mem_filter h)
      · exact hltb i h
  rw [List.length_append] at hunion
  omega

theorem overlap_of_quorums {a b : List UInt16} (ha : a.Nodup) (hb : b.Nodup)
    (hlta : ∀ i ∈ a, i.toNat < count) (hltb : ∀ i ∈ b, i.toNat < count)
    (hqa : quorum ≤ a.length) (hqb : quorum ≤ b.length) : 226 ≤ (a.filter (· ∈ b)).length := by
  have h := length_add_length_le ha hb hlta hltb
  simp only [quorum, count] at hqa hqb h
  omega

end Computor

namespace Candidate

variable {cs cs' : List Candidate}

theorem quorum_mul_countP_le (cs : List Candidate) :
    Computor.quorum * cs.countP hasQuorum ≤ (cs.flatMap voters).length := by
  induction cs with
  | nil => simp
  | cons c cs ih =>
    rw [List.countP_cons, List.flatMap_cons, List.length_append, Nat.mul_add]
    split
    · rename_i hq
      have hc : Computor.quorum ≤ c.voters.length := of_decide_eq_true hq
      omega
    · omega

theorem countP_hasQuorum_le_one (hn : (cs.flatMap voters).Nodup)
    (hlt : ∀ i ∈ cs.flatMap voters, i.toNat < Computor.count) : cs.countP hasQuorum ≤ 1 := by
  have h1 := quorum_mul_countP_le cs
  have h2 := Computor.length_le_count hn hlt
  simp only [Computor.quorum, Computor.count] at h1 h2
  omega

theorem majority_perm (h : cs.countP hasQuorum ≤ 1) (hp : cs'.Perm cs) :
    majority cs' = majority cs := by
  have hf := hp.filter hasQuorum
  rw [List.countP_eq_length_filter] at h
  unfold majority
  rw [← List.head?_filter, ← List.head?_filter]
  match hcs : cs.filter hasQuorum, h with
  | [], _ =>
    rw [hcs] at hf
    rw [hf.eq_nil]
  | [c], _ =>
    rw [hcs] at hf
    rw [List.perm_singleton.mp hf]

end Candidate

end LightClient
