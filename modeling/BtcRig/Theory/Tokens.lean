/-
# BtcRig.Theory.Tokens — the tokens of a text, by the places where they start

The tokens of a text are what its separators leave.  A search for a token looks for the
occurrences of a word and tests the two ends of each.

* `TokenAt` is the test, and `mem_splitOn_iff` says that it finds the tokens;
* `TokenAt.not_inside` — no token starts inside an occurrence of a word without
  separators, however the word overlaps itself;
* `tokenAt_skip` — so a search that rejects the first occurrence may go on after the
  whole word.
-/
import Mathlib

namespace BtcRig.Theory.Tokens

set_option autoImplicit false

section Places

variable {A : Type} {sep : A} {text word : List A} {i j : Nat}

/-! ## Occurrences -/

def OccursAt (text word : List A) (i : Nat) : Prop := word <+: text.drop i

/-- There is room for the word. -/
theorem OccursAt.le (occurs : OccursAt text word i) (nonempty : word ≠ []) :
    i + word.length ≤ text.length := by
  have fits := occurs.length_le
  have positive := List.length_pos_iff.mpr nonempty
  rw [List.length_drop] at fits
  omega

theorem OccursAt.getElem? (occurs : OccursAt text word i) {k : Nat} (inside : k < word.length) :
    text[i + k]? = word[k]? := by
  obtain ⟨after, isAfter⟩ := occurs
  rw [← List.getElem?_drop, ← isAfter, List.getElem?_append_left inside]

/-! ## Tokens -/

/-- The word stands at `i`, with a separator or the end of the text on either side. -/
structure TokenAt (sep : A) (text word : List A) (i : Nat) : Prop where
  occurs : OccursAt text word i
  left : i = 0 ∨ text[i - 1]? = some sep
  right : i + word.length = text.length ∨ text[i + word.length]? = some sep

theorem TokenAt.le (token : TokenAt sep text word i) : i ≤ text.length := by
  rcases token.left with rfl | separated
  · exact Nat.zero_le _
  · have inside := (List.getElem?_eq_some_iff.mp separated).1
    omega

/-- The text is taken apart at a token. -/
theorem TokenAt.parts (token : TokenAt sep text word i) :
    ∃ before after, text = before ++ (word ++ after) ∧
      (before = [] ∨ ∃ earlier, before = earlier ++ [sep]) ∧
      (after = [] ∨ ∃ later, after = sep :: later) := by
  obtain ⟨after, isAfter⟩ := token.occurs
  have isText : text = text.take i ++ (word ++ after) := by rw [isAfter, List.take_append_drop]
  have isLength : (text.take i).length = i := List.length_take_of_le token.le
  refine ⟨text.take i, after, isText, ?_, ?_⟩
  · rcases token.left with rfl | separated
    · exact .inl rfl
    · rcases List.eq_nil_or_concat' (text.take i) with empty | ⟨earlier, last, isBefore⟩
      · exact .inl empty
      · right
        rw [isBefore] at isText isLength
        have isLast : text[i - 1]? = some last := by
          rw [isText, ← isLength]
          simp
        exact ⟨earlier, by rw [isBefore, Option.some.inj (isLast.symm.trans separated)]⟩
  · have isNext : text[i + word.length]? = after[0]? := by
      rw [← List.getElem?_drop, ← isAfter, List.getElem?_append_right le_rfl, Nat.sub_self]
    rcases after with _ | ⟨next, later⟩
    · exact .inl rfl
    · right
      rcases token.right with ends | separated
      · have isLength' := congrArg List.length isText
        simp only [List.length_append, List.length_cons, isLength] at isLength'
        omega
      · rw [separated] at isNext
        exact ⟨later, by rw [Option.some.inj isNext]⟩

theorem tokenAt_self : TokenAt sep word word 0 where
  occurs := List.prefix_rfl
  left := .inl rfl
  right := .inl (Nat.zero_add _)

theorem tokenAt_cons {rest : List A} : TokenAt sep (word ++ sep :: rest) word 0 where
  occurs := List.prefix_append word (sep :: rest)
  left := .inl rfl
  right := .inr (by simp)

/-- A token of what follows a separator is one of the whole text. -/
theorem TokenAt.after {before : List A} (token : TokenAt sep text word i) :
    TokenAt sep (before ++ sep :: text) word (before.length + 1 + i) := by
  have shifted (k : Nat) : (before ++ sep :: text)[before.length + 1 + k]? = text[k]? := by
    rw [Nat.add_assoc, List.getElem?_append_right (Nat.le_add_right _ _), Nat.add_sub_cancel_left,
      Nat.add_comm, List.getElem?_cons_succ]
  refine ⟨?_, .inr ?_, ?_⟩
  · have dropped : (before ++ sep :: text).drop (before.length + 1 + i) = text.drop i := by
      rw [Nat.add_assoc, ← List.drop_drop, List.drop_left, Nat.add_comm, List.drop_succ_cons]
    rw [OccursAt, dropped]
    exact token.occurs
  · rcases i with _ | i
    · simp
    · have separated := token.left.resolve_left (Nat.succ_ne_zero i)
      exact (shifted i).trans separated
  · rw [Nat.add_assoc _ i, shifted]
    refine token.right.imp_left fun ends => ?_
    simp only [List.length_append, List.length_cons]
    omega

/-- **No token starts inside a word** without separators: in front of it there would be one. -/
theorem TokenAt.not_inside {other : List A} (token : TokenAt sep text other j)
    (occurs : OccursAt text word i) (unseparated : sep ∉ word) : j ≤ i ∨ i + word.length ≤ j := by
  by_contra inside
  push Not at inside
  have separated := token.left.resolve_left (by omega)
  have isInside := occurs.getElem? (k := j - 1 - i) (by omega)
  rw [show i + (j - 1 - i) = j - 1 by omega, separated] at isInside
  exact unseparated (List.mem_of_getElem? isInside.symm)

end Places

section Search

variable {A : Type} [DecidableEq A] {sep : A} {text word : List A} {i j : Nat}

instance : Decidable (OccursAt text word i) := inferInstanceAs (Decidable (word <+: text.drop i))

/-! ## The tokens of a text -/

theorem exists_tokenAt {text : List A} (member : word ∈ text.splitOn sep) :
    ∃ i, TokenAt sep text word i := by
  by_cases contains : sep ∈ text
  · obtain ⟨before, after, isText, absent⟩ := List.eq_append_cons_of_mem contains
    have shorter : after.length < text.length := by
      rw [isText, List.length_append, List.length_cons]
      omega
    rw [isText, List.splitOn_append_cons_self_of_not_mem absent] at member
    rw [isText]
    rcases List.mem_cons.mp member with rfl | later
    · exact ⟨0, tokenAt_cons⟩
    · obtain ⟨i, token⟩ := exists_tokenAt later
      exact ⟨before.length + 1 + i, token.after⟩
  · rw [List.splitOn_eq_singleton contains, List.mem_singleton] at member
    subst member
    exact ⟨0, tokenAt_self⟩
termination_by text.length

theorem TokenAt.mem_splitOn (token : TokenAt sep text word i) (unseparated : sep ∉ word) :
    word ∈ text.splitOn sep := by
  obtain ⟨before, after, rfl, isBefore, isAfter⟩ := token.parts
  have first : word ∈ (word ++ after).splitOn sep := by
    rcases isAfter with rfl | ⟨later, rfl⟩
    · rw [List.append_nil, List.splitOn_eq_singleton unseparated]
      exact List.mem_singleton_self word
    · rw [List.splitOn_append_cons_self_of_not_mem unseparated]
      exact List.mem_cons_self
  rcases isBefore with rfl | ⟨earlier, rfl⟩
  · exact first
  · rw [List.append_assoc, List.singleton_append, List.splitOn_append_cons_self]
    exact List.mem_append_right _ first

/-- **The test finds the tokens.** -/
theorem mem_splitOn_iff (unseparated : sep ∉ word) :
    word ∈ text.splitOn sep ↔ ∃ i, TokenAt sep text word i :=
  ⟨exists_tokenAt, fun ⟨_, token⟩ => token.mem_splitOn unseparated⟩

/-! ## The first occurrence -/

/-- From `i` on. -/
def findFrom (text word : List A) (i : Nat) : Option Nat :=
  (List.range' i (text.length + 1 - i)).find? fun j => decide (OccursAt text word j)

theorem findFrom_some (found : findFrom text word i = some j) :
    i ≤ j ∧ OccursAt text word j ∧ ∀ k, i ≤ k → k < j → ¬OccursAt text word k := by
  obtain ⟨occurs, member, first⟩ := List.find?_range'_eq_some.mp found
  refine ⟨(List.mem_range'_1.mp member).1, of_decide_eq_true occurs, fun k above below => ?_⟩
  simpa using first k above below

theorem findFrom_none (missing : findFrom text word i = none) (nonempty : word ≠ []) :
    ∀ k, i ≤ k → ¬OccursAt text word k := by
  intro k above occurs
  have room := occurs.le nonempty
  have absent := List.find?_range'_eq_none.mp missing k above (by omega)
  simp [occurs] at absent

/-- A search that rejects the first occurrence loses nothing if it goes on after it. -/
theorem tokenAt_skip (found : findFrom text word i = some j) (unseparated : sep ∉ word)
    (rejected : ¬TokenAt sep text word j) {k : Nat} (from_ : i ≤ k) (token : TokenAt sep text word k) :
    j + word.length ≤ k := by
  obtain ⟨_, occurs, first⟩ := findFrom_some found
  rcases token.not_inside occurs unseparated with before | after
  · rcases before.lt_or_eq with earlier | rfl
    · exact absurd token.occurs (first k from_ earlier)
    · exact absurd token rejected
  · exact after

end Search

end BtcRig.Theory.Tokens
