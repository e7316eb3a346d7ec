/-
# BtcRig.Theory.Aliases — one setting under several names

A setting that may be given under several names has a candidate for each, in the order
in which they are read; a name that is missing or carries nothing usable gives none.
The last candidate decides.

* `resolve_eq_foldl`: reading the names one after another, each with the value so far
  to fall back to, is `resolve`;
* `collect_eq`, `collect_if`: a loop that stops adding at a limit keeps the first so many.
-/
import Mathlib

namespace BtcRig.Theory.Aliases

set_option autoImplicit false

variable {α β : Type*}

/-- The last candidate there is, or else the previous value. -/
def resolve (candidates : List (Option β)) (previous : β) : β :=
  (candidates.reduceOption.getLast?).getD previous

@[simp] theorem resolve_nil (previous : β) : resolve [] previous = previous := rfl

@[simp] theorem resolve_snoc (candidates : List (Option β)) (last : Option β) (previous : β) :
    resolve (candidates ++ [last]) previous = last.getD (resolve candidates previous) := by
  cases last with
  | none => simp [resolve, List.reduceOption_append]
  | some value => simp [resolve, List.reduceOption_append]

/-- Reading the names in turn, each with the value so far as its fallback, is the same. -/
theorem resolve_eq_foldl (candidates : List (Option β)) (previous : β) :
    resolve candidates previous =
      candidates.foldl (fun current candidate => candidate.getD current) previous := by
  induction candidates using List.reverseRecOn with
  | nil => rfl
  | append_singleton candidates last ih => simp [ih]

theorem resolve_none {candidates : List (Option β)} (previous : β)
    (absent : ∀ candidate ∈ candidates, candidate = none) :
    resolve candidates previous = previous := by
  induction candidates using List.reverseRecOn with
  | nil => rfl
  | append_singleton candidates last ih =>
      have lastAbsent : last = none := absent last (by simp)
      rw [resolve_snoc, lastAbsent, Option.getD_none]
      exact ih fun candidate member => absent candidate (by simp [member])

theorem resolve_some_cons (value : β) (candidates : List (Option β)) (previous : β) :
    resolve (some value :: candidates) previous = resolve candidates value := by
  simp only [resolve_eq_foldl, List.foldl_cons, Option.getD_some]

theorem resolve_none_cons (candidates : List (Option β)) (previous : β) :
    resolve (none :: candidates) previous = resolve candidates previous := by
  simp only [resolve_eq_foldl, List.foldl_cons, Option.getD_none]

/-- The last candidate, if there is any, is this value. -/
def Agrees (candidates : List (Option β)) (value : β) : Prop :=
  ∀ last, candidates.reduceOption.getLast? = some last → last = value

/-- When a value survives all the names. -/
theorem resolve_eq_self_iff (candidates : List (Option β)) (value : β) :
    resolve candidates value = value ↔ Agrees candidates value := by
  unfold resolve Agrees
  cases candidates.reduceOption.getLast? with
  | none => simp
  | some last => simp

/-- The loop body of a reader that keeps at most `limit` of the entries it accepts. -/
def collectStep (limit : Nat) (accept : α → Option β) (kept : List β) (entry : α) : List β :=
  if kept.length ≥ limit then kept else kept ++ (accept entry).toList

/-- A loop that collects up to a limit keeps the first entries it accepts. -/
theorem collect_eq (limit : Nat) (accept : α → Option β) (entries : List α) :
    entries.foldl (collectStep limit accept) [] = (entries.filterMap accept).take limit := by
  induction entries using List.reverseRecOn with
  | nil => simp
  | append_singleton entries entry ih =>
      rw [List.foldl_append, List.foldl_cons, List.foldl_nil, ih, List.filterMap_append,
        List.take_append, collectStep, List.length_take]
      by_cases full : limit ≤ (entries.filterMap accept).length
      · rw [if_pos (by omega), Nat.sub_eq_zero_of_le full, List.take_zero, List.append_nil]
      · rw [if_neg (by omega)]
        cases accepted : accept entry with
        | none => simp [accepted]
        | some value =>
            have room : 1 ≤ limit - (entries.filterMap accept).length := by omega
            simp [accepted, room]

/-- As `collect_eq`, for a loop that skips entries and converts the others. -/
theorem collect_if (limit : Nat) (wanted : α → Bool) (convert : α → β) (entries : List α) :
    entries.foldl (collectStep limit fun e => if wanted e then some (convert e) else none) [] =
      ((entries.filter wanted).take limit).map convert := by
  rw [collect_eq, List.map_take]
  congr 1
  induction entries with
  | nil => rfl
  | cons e entries ih =>
      cases isWanted : wanted e <;> simp [isWanted, ih]

end BtcRig.Theory.Aliases
