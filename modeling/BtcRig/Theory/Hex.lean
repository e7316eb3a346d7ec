/-
# BtcRig.Theory.Hex — hexadecimal text and the numbers it stands for

A text is a list of characters.  `value` reads any string of digits in either
case, `format` writes a number in lower case with at least the given width (the
`%0*x` of C), and `value_format` says that reading undoes writing whatever the
width was.
-/
import Mathlib

namespace BtcRig.Theory.Hex

set_option autoImplicit false

/-- The value of one digit of either case. -/
def digit (c : Char) : Option Nat :=
  if '0' ≤ c ∧ c ≤ '9' then some (c.toNat - '0'.toNat)
  else if 'a' ≤ c ∧ c ≤ 'f' then some (c.toNat - 'a'.toNat + 10)
  else if 'A' ≤ c ∧ c ≤ 'F' then some (c.toNat - 'A'.toNat + 10)
  else none

theorem digit_lt {c : Char} {d : Nat} (found : digit c = some d) : d < 16 := by
  simp only [digit, Char.le_def, UInt32.le_iff_toNat_le] at found
  split at found
  · rename_i range
    cases found
    have upper : c.val.toNat ≤ 57 := range.2
    show c.val.toNat - 48 < 16
    omega
  · split at found
    · rename_i range
      cases found
      have upper : c.val.toNat ≤ 102 := range.2
      show c.val.toNat - 97 + 10 < 16
      omega
    · split at found
      · rename_i range
        cases found
        have upper : c.val.toNat ≤ 70 := range.2
        show c.val.toNat - 65 + 10 < 16
        omega
      · cases found

/-- Every character is a digit. -/
def IsHex (text : List Char) : Prop := ∀ c ∈ text, (digit c).isSome

instance (text : List Char) : Decidable (IsHex text) :=
  inferInstanceAs (Decidable (∀ c ∈ text, _))

theorem isHex_append {xs ys : List Char} : IsHex (xs ++ ys) ↔ IsHex xs ∧ IsHex ys := by
  simp only [IsHex, List.mem_append]
  exact ⟨fun all => ⟨fun c h => all c (.inl h), fun c h => all c (.inr h)⟩,
    fun ⟨left, right⟩ c h => h.elim (left c) (right c)⟩

/-- The number a text stands for, most significant digit first. -/
def value (text : List Char) : Nat := text.foldl (fun n c => 16 * n + (digit c).getD 0) 0

theorem foldl_value (text : List Char) (n : Nat) :
    text.foldl (fun n c => 16 * n + (digit c).getD 0) n = 16 ^ text.length * n + value text := by
  induction text using List.reverseRecOn with
  | nil => simp [value]
  | append_singleton text c ih =>
      simp only [value, List.foldl_append, List.foldl_cons, List.foldl_nil, List.length_append,
        List.length_singleton] at ih ⊢
      rw [ih]
      ring

/-- The digits behind weigh less. -/
theorem value_append (xs ys : List Char) :
    value (xs ++ ys) = 16 ^ ys.length * value xs + value ys := by
  rw [value, List.foldl_append, foldl_value]
  rfl

@[simp] theorem value_singleton (c : Char) : value [c] = (digit c).getD 0 := by
  simp [value]

theorem value_replicate_zero (n : Nat) : value (List.replicate n '0') = 0 := by
  induction n with
  | zero => rfl
  | succ n ih => rw [List.replicate_succ', value_append, ih]; rfl

/-! ## Formatting -/

/-- Lower-case digits, padded on the left with zeros to at least `width`. -/
def format (width n : Nat) : List Char := (Nat.toDigits 16 n).leftpad width '0'

theorem digit_digitChar (d : Nat) (small : d < 16) : digit d.digitChar = some d := by
  interval_cases d <;> rfl

/-- A number is read back from its digits. -/
theorem toDigits_spec (n : Nat) :
    IsHex (Nat.toDigits 16 n) ∧ value (Nat.toDigits 16 n) = n := by
  induction n using Nat.strongRecOn with
  | _ n ih =>
      rw [Nat.toDigits_eq_if (by decide)]
      split
      · rename_i small
        simp [IsHex, digit_digitChar n small]
      · rename_i large
        obtain ⟨hex, exact⟩ := ih (n / 16) (by omega)
        have last := digit_digitChar (n % 16) (by omega)
        refine ⟨isHex_append.mpr ⟨hex, by simp [IsHex, last]⟩, ?_⟩
        rw [value_append, exact, value_singleton, last]
        simp only [List.length_singleton, pow_one, Option.getD_some]
        omega

theorem length_format (width n : Nat) :
    (format width n).length = max width (Nat.toDigits 16 n).length := by
  simp [format, List.leftpad]
  omega

theorem isHex_format (width n : Nat) : IsHex (format width n) := by
  refine isHex_append.mpr ⟨fun c member => ?_, (toDigits_spec n).1⟩
  rw [List.eq_of_mem_replicate member]
  rfl

/-- Padding does not change the number. -/
@[simp] theorem value_format (width n : Nat) : value (format width n) = n := by
  rw [format, List.leftpad, value_append, value_replicate_zero, (toDigits_spec n).2]
  simp

theorem length_format_of_lt {width n : Nat} (positive : 0 < width) (fits : n < 16 ^ width) :
    (format width n).length = width := by
  have digits := (Nat.length_toDigits_le_iff (by decide) positive).mpr fits
  rw [length_format]
  omega

/-! ## Lower case -/

def lowerDigits : List Char := "0123456789abcdef".toList

/-- Every character is a digit, and none is in upper case. -/
def IsLower (text : List Char) : Prop := ∀ c ∈ text, c ∈ lowerDigits

instance (text : List Char) : Decidable (IsLower text) :=
  inferInstanceAs (Decidable (∀ c ∈ text, _))

theorem digitChar_mem (d : Nat) (small : d < 16) : d.digitChar ∈ lowerDigits := by
  interval_cases d <;> decide

theorem isLower_toDigits (n : Nat) : IsLower (Nat.toDigits 16 n) := by
  induction n using Nat.strongRecOn with
  | _ n ih =>
      rw [Nat.toDigits_eq_if (by decide)]
      split
      · rename_i small
        intro c member
        rw [List.mem_singleton.mp member]
        exact digitChar_mem n small
      · rename_i large
        intro c member
        rcases List.mem_append.mp member with front | last
        · exact ih (n / 16) (by omega) c front
        · rw [List.mem_singleton.mp last]
          exact digitChar_mem (n % 16) (by omega)

theorem isLower_format (width n : Nat) : IsLower (format width n) := by
  intro c member
  rcases List.mem_append.mp member with padding | digits
  · rw [List.eq_of_mem_replicate padding]
    decide
  · exact isLower_toDigits n c digits

/-- A number has the width asked for exactly when it has no more digits. -/
theorem length_format_iff {width n : Nat} (positive : 0 < width) :
    (format width n).length = width ↔ n < 16 ^ width := by
  rw [← Nat.length_toDigits_le_iff (by decide) positive, length_format]
  omega

end BtcRig.Theory.Hex
