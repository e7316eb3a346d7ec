/-
# BtcRig.Theory.RollCall — reports checked against a list of expected keys

A checker receives reports, one at a time and in any order: a key and what is said about
it.  It remembers the keys seen so far and whether anything went wrong: a key that is not
expected, a key reported twice, or a report that is not good.

* `calls_seen`, `calls_failed` — what a whole sequence of reports leaves of either;
* `passes_iff` — a call goes well when every expected key was reported once, and well.
-/
import Mathlib

namespace BtcRig.Theory.RollCall

set_option autoImplicit false

variable {K R : Type} [DecidableEq K]

structure Roll (K : Type) where
  seen : Finset K
  failed : Bool

def Roll.empty : Roll K := ⟨∅, false⟩

/-- A bad report counts as seen all the same. -/
def call (expected : List K) (good : K → R → Bool) (roll : Roll K) (report : K × R) : Roll K :=
  if report.1 ∉ expected then { roll with failed := true }
  else if report.1 ∈ roll.seen then { roll with failed := true }
  else ⟨insert report.1 roll.seen, roll.failed || !good report.1 report.2⟩

def calls (expected : List K) (good : K → R → Bool) (reports : List (K × R)) : Roll K :=
  reports.foldl (call expected good) .empty

def Roll.passes (expected : List K) (roll : Roll K) : Prop :=
  roll.failed = false ∧ roll.seen = expected.toFinset

section Calls

variable (expected : List K) (good : K → R → Bool)

/-- What one report adds to the keys seen, whichever way it goes. -/
theorem call_seen (roll : Roll K) (report : K × R) (key : K) :
    key ∈ (call expected good roll report).seen ↔
      key ∈ roll.seen ∨ key = report.1 ∧ key ∈ expected := by
  rw [call]
  split
  · rename_i unexpected
    refine ⟨.inl, fun seen => seen.elim id fun ⟨same, isExpected⟩ => ?_⟩
    exact absurd (same ▸ isExpected) unexpected
  rename_i isExpected
  split
  · rename_i twice
    exact ⟨.inl, fun seen => seen.elim id fun ⟨same, _⟩ => same ▸ twice⟩
  · rw [Finset.mem_insert]
    constructor
    · rintro (same | seen)
      · exact .inr ⟨same, same ▸ not_not.mp isExpected⟩
      · exact .inl seen
    · rintro (seen | ⟨same, -⟩)
      · exact .inr seen
      · exact .inl same

/-- A failure is never forgotten. -/
theorem call_failed (roll : Roll K) (report : K × R) :
    (call expected good roll report).failed = false ↔
      roll.failed = false ∧ report.1 ∈ expected ∧ report.1 ∉ roll.seen ∧
        good report.1 report.2 = true := by
  rw [call]
  split
  · rename_i unexpected
    simp [unexpected]
  rename_i isExpected
  split
  · rename_i twice
    simp [twice]
  · rename_i once
    simp [not_not.mp isExpected, once]

theorem calls_snoc (reports : List (K × R)) (report : K × R) :
    calls expected good (reports ++ [report]) =
      call expected good (calls expected good reports) report := by
  rw [calls, List.foldl_append]
  rfl

theorem calls_seen (reports : List (K × R)) (key : K) :
    key ∈ (calls expected good reports).seen ↔ key ∈ reports.map Prod.fst ∧ key ∈ expected := by
  induction reports using List.reverseRecOn with
  | nil => simp [calls, Roll.empty]
  | append_singleton reports report ih =>
      rw [calls_snoc, call_seen, ih, List.map_append, List.mem_append, List.map_singleton,
        List.mem_singleton, or_and_right]

theorem calls_failed (reports : List (K × R)) :
    (calls expected good reports).failed = false ↔
      (reports.map Prod.fst).Nodup ∧
        ∀ report ∈ reports, report.1 ∈ expected ∧ good report.1 report.2 = true := by
  induction reports using List.reverseRecOn with
  | nil => simp [calls, Roll.empty]
  | append_singleton reports report ih =>
      rw [calls_snoc, call_failed, ih, calls_seen, List.map_append, List.map_singleton,
        List.nodup_append]
      constructor
      · rintro ⟨⟨nodup, fine⟩, isExpected, unseen, isGood⟩
        refine ⟨⟨nodup, List.nodup_singleton _, fun key before other last => ?_⟩, fun r member => ?_⟩
        · rintro rfl
          exact unseen ⟨List.mem_singleton.mp last ▸ before, isExpected⟩
        · rcases List.mem_append.mp member with before | last
          · exact fine r before
          · rw [List.mem_singleton.mp last]
            exact ⟨isExpected, isGood⟩
      · rintro ⟨⟨nodup, -, apart⟩, fine⟩
        obtain ⟨isExpected, isGood⟩ := fine report (by simp)
        refine ⟨⟨nodup, fun r member => fine r (List.mem_append_left _ member)⟩, isExpected, ?_, isGood⟩
        rintro ⟨before, -⟩
        exact apart _ before _ (List.mem_singleton_self _) rfl

/-- **Every expected key once, each of them well, in any order, and nothing else.** -/
theorem passes_iff {expected : List K} (nodup : expected.Nodup) (reports : List (K × R)) :
    (calls expected good reports).passes expected ↔
      (reports.map Prod.fst).Perm expected ∧
        ∀ report ∈ reports, good report.1 report.2 = true := by
  rw [Roll.passes, calls_failed]
  constructor
  · rintro ⟨⟨once, fine⟩, all⟩
    refine ⟨(List.perm_ext_iff_of_nodup once nodup).mpr fun key => ⟨fun reported => ?_, fun isExpected => ?_⟩,
      fun report member => (fine report member).2⟩
    · obtain ⟨report, member, rfl⟩ := List.mem_map.mp reported
      exact (fine report member).1
    · have seen : key ∈ (calls expected good reports).seen := all ▸ List.mem_toFinset.mpr isExpected
      exact ((calls_seen expected good reports key).mp seen).1
  · rintro ⟨perm, fine⟩
    refine ⟨⟨perm.nodup_iff.mpr nodup, fun report member => ⟨?_, fine report member⟩⟩, ?_⟩
    · exact perm.mem_iff.mp (List.mem_map_of_mem member)
    · refine Finset.ext fun key => ?_
      rw [calls_seen, List.mem_toFinset, perm.mem_iff, and_self]

end Calls

end BtcRig.Theory.RollCall
