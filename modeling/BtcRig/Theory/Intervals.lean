/-
# BtcRig.Theory.Intervals — ranges handed out one after another

A range is a pair of its first element and its length.  `Consecutive lo rs hi`
says that the nonempty ranges `rs` follow one another from `lo` to `hi` with no
gap: then they are pairwise disjoint and together cover exactly `[lo, hi)`.
-/
import Mathlib

namespace BtcRig.Theory.Intervals

set_option autoImplicit false

def Consecutive : Nat → List (Nat × Nat) → Nat → Prop
  | lo, [], hi => lo = hi
  | lo, r :: rs, hi => r.1 = lo ∧ 1 ≤ r.2 ∧ Consecutive (lo + r.2) rs hi

theorem consecutive_snoc {lo mid n : Nat} {rs : List (Nat × Nat)}
    (chain : Consecutive lo rs mid) (positive : 1 ≤ n) :
    Consecutive lo (rs ++ [(mid, n)]) (mid + n) := by
  induction rs generalizing lo with
  | nil =>
      cases chain
      exact ⟨rfl, positive, rfl⟩
  | cons r rs ih => exact ⟨chain.1, chain.2.1, ih chain.2.2⟩

theorem consecutive_le {lo hi : Nat} {rs : List (Nat × Nat)} (chain : Consecutive lo rs hi) :
    lo ≤ hi := by
  induction rs generalizing lo with
  | nil => exact chain.le
  | cons r rs ih => exact (Nat.le_add_right lo r.2).trans (ih chain.2.2)

/-- Consecutive ranges cover exactly the interval they span. -/
theorem consecutive_cover {lo hi : Nat} {rs : List (Nat × Nat)} (chain : Consecutive lo rs hi)
    (n : Nat) : (∃ r ∈ rs, n ∈ Set.Ico r.1 (r.1 + r.2)) ↔ n ∈ Set.Ico lo hi := by
  induction rs generalizing lo with
  | nil =>
      cases chain
      simp
  | cons r rs ih =>
      obtain ⟨first, -, rest⟩ := chain
      have upper := consecutive_le rest
      rw [List.exists_mem_cons_iff, ih rest]
      simp only [Set.mem_Ico]
      omega

theorem consecutive_bounds {lo hi : Nat} {rs : List (Nat × Nat)} (chain : Consecutive lo rs hi) :
    ∀ r ∈ rs, lo ≤ r.1 ∧ 1 ≤ r.2 ∧ r.1 + r.2 ≤ hi := by
  induction rs generalizing lo with
  | nil => simp
  | cons r rs ih =>
      obtain ⟨first, positive, rest⟩ := chain
      have upper := consecutive_le rest
      rw [List.forall_mem_cons]
      refine ⟨by omega, fun r' member => ?_⟩
      have := ih rest r' member
      omega

theorem consecutive_disjoint {lo hi : Nat} {rs : List (Nat × Nat)}
    (chain : Consecutive lo rs hi) :
    rs.Pairwise fun r r' => Disjoint (Set.Ico r.1 (r.1 + r.2)) (Set.Ico r'.1 (r'.1 + r'.2)) := by
  induction rs generalizing lo with
  | nil => exact .nil
  | cons r rs ih =>
      obtain ⟨first, -, rest⟩ := chain
      refine .cons (fun r' member => ?_) (ih rest)
      have later := (consecutive_bounds rest r' member).1
      rw [Set.disjoint_left]
      intro n inside inside'
      simp only [Set.mem_Ico] at inside inside'
      omega

end BtcRig.Theory.Intervals
