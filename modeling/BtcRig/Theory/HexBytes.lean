/-
# BtcRig.Theory.HexBytes — bytes written as pairs of digits

`decode` reads a text two digits at a time, `rev4` turns every group of four
bytes around.  Both work from the front, and both respect concatenation where
the cut falls between two groups (`decode_append`, `rev4_append`), which is what
a decoder that fills its output from left to right needs.
-/
import BtcRig.Theory.Hex
import BtcRig.Theory.Words

namespace BtcRig.Theory.HexBytes

open BtcRig.Theory
open BtcRig.Theory.Words

set_option autoImplicit false

/-- The byte each pair of digits stands for. -/
def decode : List Char → List Byte
  | hi :: lo :: rest => BitVec.ofNat 8 (Hex.value [hi, lo]) :: decode rest
  | _ => []

/-- Each group of four bytes in the other order. -/
def rev4 : List Byte → List Byte
  | b₀ :: b₁ :: b₂ :: b₃ :: rest => b₃ :: b₂ :: b₁ :: b₀ :: rev4 rest
  | _ => []

/-- Texts of whole bytes are decoded one after the other. -/
theorem decode_append (xs ys : List Char) (even : xs.length % 2 = 0) :
    decode (xs ++ ys) = decode xs ++ decode ys := by
  induction xs using decode.induct with
  | case1 hi lo rest ih =>
      have even' : rest.length % 2 = 0 := by
        simp only [List.length_cons] at even
        omega
      simp only [List.cons_append, decode, ih even']
  | case2 xs short =>
      match xs, even with
      | [], _ => rfl
      | hi :: lo :: rest, _ => exact absurd rfl (short hi lo rest)

theorem length_decode (text : List Char) : (decode text).length = text.length / 2 := by
  induction text using decode.induct with
  | case1 hi lo rest ih =>
      simp only [decode, List.length_cons, ih]
      omega
  | case2 text short =>
      match text with
      | [] => rfl
      | [_] => simp [decode]
      | hi :: lo :: rest => exact absurd rfl (short hi lo rest)

/-- Whole groups of four are reversed one after the other. -/
theorem rev4_append (xs ys : List Byte) (whole : xs.length % 4 = 0) :
    rev4 (xs ++ ys) = rev4 xs ++ rev4 ys := by
  induction xs using rev4.induct with
  | case1 b₀ b₁ b₂ b₃ rest ih =>
      have whole' : rest.length % 4 = 0 := by
        simp only [List.length_cons] at whole
        omega
      simp only [List.cons_append, rev4, ih whole']
  | case2 xs short =>
      match xs, whole with
      | [], _ => rfl
      | b₀ :: b₁ :: b₂ :: b₃ :: rest, _ => exact absurd rfl (short b₀ b₁ b₂ b₃ rest)

end BtcRig.Theory.HexBytes
