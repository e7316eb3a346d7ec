/-
# BtcRig.Theory.Words — bytes, 32-bit words and the two byte orders

The vocabulary every hash and header format below is written in.  A byte is a
`BitVec 8`, a word a `BitVec 32`; a memory buffer is the list of its bytes, so
that the address `p + n` is `p.drop n`.

* `Vector.word0` to `word7`, `Vector.quad0` to `quad3` — the entries of a buffer of eight
  and of one of four.
* `ofBe`/`toBe` — a word and its four bytes, most significant first; `ofLe` is
  the other order and `byteSwap` turns one reading into the other.
* `loadBe`/`loadLe` — the word a buffer starts with; `loadBe_flatMap_toBe` reads
  back word `i` of a buffer written word by word.
* `leNat` — a buffer as one little-endian natural.
* `leFrom` — the comparison loop that walks down from the most significant
  digit; `leFrom_iff` says it decides `≤` of the numbers the digits stand for.
-/
import Mathlib

namespace Vector

set_option autoImplicit false

variable {A : Type}

/-! ## The entries of a buffer of eight, and of one of four -/

@[simp] abbrev word0 (v : Vector A 8) : A := v[0]
@[simp] abbrev word1 (v : Vector A 8) : A := v[1]
@[simp] abbrev word2 (v : Vector A 8) : A := v[2]
@[simp] abbrev word3 (v : Vector A 8) : A := v[3]
@[simp] abbrev word4 (v : Vector A 8) : A := v[4]
@[simp] abbrev word5 (v : Vector A 8) : A := v[5]
@[simp] abbrev word6 (v : Vector A 8) : A := v[6]
@[simp] abbrev word7 (v : Vector A 8) : A := v[7]

@[simp] abbrev quad0 (v : Vector A 4) : A := v[0]
@[simp] abbrev quad1 (v : Vector A 4) : A := v[1]
@[simp] abbrev quad2 (v : Vector A 4) : A := v[2]
@[simp] abbrev quad3 (v : Vector A 4) : A := v[3]

/-- The buffer with its last entry replaced. -/
@[simp] abbrev setQuad3 (v : Vector A 4) (x : A) : Vector A 4 := v.set 3 x

abbrev ofFour (a b c d : A) : Vector A 4 := #v[a, b, c, d]

abbrev ofEight (a b c d e f g h : A) : Vector A 8 := #v[a, b, c, d, e, f, g, h]

end Vector

namespace BtcRig.Theory.Words

set_option autoImplicit false

abbrev Byte := BitVec 8
abbrev Word := BitVec 32

/-! ## One word and its four bytes -/

/-- The word whose bytes are `b₀ b₁ b₂ b₃`, most significant first. -/
def ofBe (b₀ b₁ b₂ b₃ : Byte) : Word :=
  (b₀.setWidth 32 <<< 24) ||| (b₁.setWidth 32 <<< 16) ||| (b₂.setWidth 32 <<< 8) |||
    b₃.setWidth 32

def ofLe (b₀ b₁ b₂ b₃ : Byte) : Word := ofBe b₃ b₂ b₁ b₀

/-- Byte `i` of a word, least significant first. -/
def byteAt (w : Word) (i : Nat) : Byte := (w >>> (8 * i)).setWidth 8

def toBe (w : Word) : List Byte := [byteAt w 3, byteAt w 2, byteAt w 1, byteAt w 0]

def byteSwap (w : Word) : Word := ofBe (byteAt w 0) (byteAt w 1) (byteAt w 2) (byteAt w 3)

@[simp] theorem byteAt_ofBe_three (b₀ b₁ b₂ b₃ : Byte) : byteAt (ofBe b₀ b₁ b₂ b₃) 3 = b₀ := by
  ext i hi
  simp only [byteAt, ofBe, BitVec.getElem_setWidth, BitVec.getLsbD_ushiftRight,
    BitVec.getLsbD_or, BitVec.getLsbD_shiftLeft, BitVec.getLsbD_setWidth]
  grind

@[simp] theorem byteAt_ofBe_two (b₀ b₁ b₂ b₃ : Byte) : byteAt (ofBe b₀ b₁ b₂ b₃) 2 = b₁ := by
  ext i hi
  simp only [byteAt, ofBe, BitVec.getElem_setWidth, BitVec.getLsbD_ushiftRight,
    BitVec.getLsbD_or, BitVec.getLsbD_shiftLeft, BitVec.getLsbD_setWidth]
  grind

@[simp] theorem byteAt_ofBe_one (b₀ b₁ b₂ b₃ : Byte) : byteAt (ofBe b₀ b₁ b₂ b₃) 1 = b₂ := by
  ext i hi
  simp only [byteAt, ofBe, BitVec.getElem_setWidth, BitVec.getLsbD_ushiftRight,
    BitVec.getLsbD_or, BitVec.getLsbD_shiftLeft, BitVec.getLsbD_setWidth]
  grind

@[simp] theorem byteAt_ofBe_zero (b₀ b₁ b₂ b₃ : Byte) : byteAt (ofBe b₀ b₁ b₂ b₃) 0 = b₃ := by
  ext i hi
  simp only [byteAt, ofBe, BitVec.getElem_setWidth, BitVec.getLsbD_ushiftRight,
    BitVec.getLsbD_or, BitVec.getLsbD_shiftLeft, BitVec.getLsbD_setWidth]
  grind

@[simp] theorem ofBe_byteAt (w : Word) :
    ofBe (byteAt w 3) (byteAt w 2) (byteAt w 1) (byteAt w 0) = w := by
  ext i hi
  simp [byteAt, ofBe]
  grind

@[simp] theorem length_toBe (w : Word) : (toBe w).length = 4 := rfl

@[simp] theorem toBe_ofBe (b₀ b₁ b₂ b₃ : Byte) : toBe (ofBe b₀ b₁ b₂ b₃) = [b₀, b₁, b₂, b₃] := by
  simp [toBe]

@[simp] theorem byteSwap_ofBe (b₀ b₁ b₂ b₃ : Byte) :
    byteSwap (ofBe b₀ b₁ b₂ b₃) = ofLe b₀ b₁ b₂ b₃ := by
  simp [byteSwap, ofLe]

@[simp] theorem byteSwap_byteSwap (w : Word) : byteSwap (byteSwap w) = w := by
  conv_lhs => rw [byteSwap.eq_def w, byteSwap_ofBe, ofLe, ofBe_byteAt]

theorem ofBe_eq_append (b₀ b₁ b₂ b₃ : Byte) : ofBe b₀ b₁ b₂ b₃ = b₀ ++ b₁ ++ b₂ ++ b₃ := by
  apply BitVec.eq_of_getLsbD_eq
  intro i hi
  simp [ofBe]
  grind

/-- A word from its four bytes, the highest first. -/
theorem toNat_ofBe (b₀ b₁ b₂ b₃ : Byte) :
    (ofBe b₀ b₁ b₂ b₃).toNat =
      b₀.toNat * 2 ^ 24 + b₁.toNat * 2 ^ 16 + b₂.toNat * 2 ^ 8 + b₃.toNat := by
  have h₁ := b₁.isLt
  have h₂ := b₂.isLt
  have h₃ := b₃.isLt
  rw [ofBe_eq_append]
  simp only [BitVec.toNat_append]
  rw [← Nat.shiftLeft_add_eq_or_of_lt h₁, ← Nat.shiftLeft_add_eq_or_of_lt h₂,
    ← Nat.shiftLeft_add_eq_or_of_lt h₃]
  simp only [Nat.shiftLeft_eq]
  omega

/-- The bits outside a mask and the bits inside it. -/
theorem toNat_and_not_add (x mask : Word) : (x &&& ~~~mask).toNat + (x &&& mask).toNat = x.toNat := by
  have apart : (x &&& ~~~mask) &&& (x &&& mask) = 0#32 := by
    ext i hi
    simp only [BitVec.getElem_and, BitVec.getElem_not, BitVec.getElem_zero]
    cases x[i] <;> cases mask[i] <;> rfl
  have together : (x &&& ~~~mask) ||| (x &&& mask) = x := by
    ext i hi
    simp only [BitVec.getElem_or, BitVec.getElem_and, BitVec.getElem_not]
    cases x[i] <;> cases mask[i] <;> rfl
  rw [← BitVec.toNat_add_of_and_eq_zero apart, BitVec.add_eq_or_of_and_eq_zero _ _ apart, together]

/-! ## Buffers of words -/

/-- The big-endian word at the start of a buffer. -/
def loadBe (p : List Byte) : Word := ofBe (p.getD 0 0) (p.getD 1 0) (p.getD 2 0) (p.getD 3 0)

/-- The little-endian word at the start of a buffer. -/
def loadLe (p : List Byte) : Word := ofLe (p.getD 0 0) (p.getD 1 0) (p.getD 2 0) (p.getD 3 0)

@[simp] theorem loadBe_toBe_append (w : Word) (rest : List Byte) :
    loadBe (toBe w ++ rest) = w := by
  simp [loadBe, toBe]

theorem loadLe_eq_byteSwap (p : List Byte) : loadLe p = byteSwap (loadBe p) := by
  simp [loadLe, loadBe]

theorem drop_flatMap_toBe (ws : List Word) (i : Nat) (rest : List Byte) (hi : i ≤ ws.length) :
    (ws.flatMap toBe ++ rest).drop (4 * i) = (ws.drop i).flatMap toBe ++ rest := by
  induction i generalizing ws with
  | zero => simp
  | succ i ih =>
      cases ws with
      | nil => simp at hi
      | cons w ws =>
          have hi' : i ≤ ws.length := by simpa using hi
          have step : (toBe w ++ (ws.flatMap toBe ++ rest)).drop (4 + 4 * i) =
              (ws.flatMap toBe ++ rest).drop (4 * i) := by
            rw [← List.drop_drop]
            rfl
          rw [List.flatMap_cons, List.append_assoc, Nat.mul_succ, Nat.add_comm, step, ih ws hi']
          rfl

/-- Word `i` of a buffer written big-endian word by word. -/
theorem loadBe_flatMap_toBe (ws : List Word) (i : Nat) (rest : List Byte) (hi : i < ws.length) :
    loadBe ((ws.flatMap toBe ++ rest).drop (4 * i)) = ws[i] := by
  rw [drop_flatMap_toBe ws i rest hi.le, List.drop_eq_getElem_cons hi, List.flatMap_cons,
    List.append_assoc, loadBe_toBe_append]

/-- The bytes a buffer's own word consists of. -/
theorem toBe_loadBe (p : List Byte) (long : 4 ≤ p.length) : toBe (loadBe p) = p.take 4 := by
  obtain ⟨b₀, b₁, b₂, b₃, rest, rfl⟩ : ∃ b₀ b₁ b₂ b₃ rest, p = b₀ :: b₁ :: b₂ :: b₃ :: rest := by
    match p, long with
    | b₀ :: b₁ :: b₂ :: b₃ :: rest, _ => exact ⟨b₀, b₁, b₂, b₃, rest, rfl⟩
  simp [loadBe]

/-- A buffer of `n` words is its words, written back. -/
theorem flatMap_toBe_loadBe (n : Nat) (p : List Byte) (size : p.length = 4 * n) :
    ((List.range n).map fun i => loadBe (p.drop (4 * i))).flatMap toBe = p := by
  induction n generalizing p with
  | zero => exact (List.length_eq_zero_iff.mp size).symm
  | succ n ih =>
      have rest := ih (p.drop 4) (by rw [List.length_drop, size]; omega)
      have shift : ((List.range n).map fun i => loadBe (p.drop (4 * (i + 1)))) =
          (List.range n).map fun i => loadBe ((p.drop 4).drop (4 * i)) :=
        List.map_congr_left fun i _ => by
          rw [List.drop_drop, show 4 * (i + 1) = 4 + 4 * i by omega]
      rw [List.range_succ_eq_map, List.map_cons, List.map_map, List.flatMap_cons, Nat.mul_zero,
        List.drop_zero, toBe_loadBe p (by omega)]
      show p.take 4 ++ ((List.range n).map fun i => loadBe (p.drop (4 * (i + 1)))).flatMap toBe = p
      rw [shift, rest, List.take_append_drop]

/-! ## Little-endian numbers -/

/-- A buffer as one little-endian natural. -/
def leNat (bytes : List Byte) : Nat := Nat.ofDigits 256 (bytes.map BitVec.toNat)

/-- Bytes behind weigh more. -/
theorem leNat_append (xs ys : List Byte) :
    leNat (xs ++ ys) = leNat xs + 256 ^ xs.length * leNat ys := by
  simp [leNat, Nat.ofDigits_append]

theorem leNat_toBe (w : Word) : leNat (toBe w) = (byteSwap w).toNat := by
  rw [byteSwap, toNat_ofBe]
  simp [leNat, toBe, Nat.ofDigits_cons]
  omega

theorem leNat_flatMap_toBe (ws : List Word) :
    leNat (ws.flatMap toBe) = Nat.ofDigits (2 ^ 32) (ws.map fun w => (byteSwap w).toNat) := by
  induction ws with
  | nil => rfl
  | cons w ws ih =>
      rw [List.flatMap_cons, leNat_append, ih, leNat_toBe, length_toBe, List.map_cons,
        Nat.ofDigits_cons]
      rfl

/-- Numbers of the same length in bytes are equal only if the bytes are. -/
theorem leNat_inj {xs ys : List Byte} (size : xs.length = ys.length) (same : leNat xs = leNat ys) :
    xs = ys := by
  have digits : xs.map BitVec.toNat = ys.map BitVec.toNat := by
    refine Nat.ofDigits_inj_of_len_eq (by decide) (by simpa using size) ?_ ?_ same
    · intro d member
      obtain ⟨byte, -, rfl⟩ := List.mem_map.mp member
      exact byte.isLt
    · intro d member
      obtain ⟨byte, -, rfl⟩ := List.mem_map.mp member
      exact byte.isLt
  exact (List.map_injective_iff.mpr fun _ _ => BitVec.eq_of_toNat_eq) digits

/-! ## Comparing from the most significant digit -/

/-- Walk down from digit `n - 1`: the first difference decides, equality accepts. -/
def leFrom (h t : Nat → Nat) : Nat → Bool
  | 0 => true
  | i + 1 => if h i < t i then true else if t i < h i then false else leFrom h t i

/-- The number of `n` digits in base `b`, least significant first. -/
def digitSum (b : Nat) (d : Nat → Nat) (n : Nat) : Nat := ∑ i ∈ Finset.range n, d i * b ^ i

theorem digitSum_succ (b : Nat) (d : Nat → Nat) (n : Nat) :
    digitSum b d (n + 1) = digitSum b d n + d n * b ^ n :=
  Finset.sum_range_succ _ n

theorem digitSum_lt {b : Nat} {d : Nat → Nat} (n : Nat) (small : ∀ i < n, d i < b) :
    digitSum b d n < b ^ n := by
  induction n with
  | zero => simp [digitSum]
  | succ n ih =>
      have low := ih fun i hi => small i (by omega)
      have top : (d n + 1) * b ^ n ≤ b * b ^ n := Nat.mul_le_mul_right _ (small n (by omega))
      rw [digitSum_succ, pow_succ, Nat.mul_comm (b ^ n)]
      linarith

/-- A larger top digit wins whatever the lower digits are. -/
theorem digitSum_lt_of_top_lt {b : Nat} {h t : Nat → Nat} (n : Nat)
    (small : ∀ i < n, h i < b) (top : h n < t n) :
    digitSum b h (n + 1) < digitSum b t (n + 1) := by
  have low := digitSum_lt n small
  have step : (h n + 1) * b ^ n ≤ t n * b ^ n := Nat.mul_le_mul_right _ top
  rw [digitSum_succ, digitSum_succ]
  linarith [Nat.zero_le (digitSum b t n)]

/-- Comparing digit by digit from the highest is comparing the numbers. -/
theorem leFrom_iff {b : Nat} {h t : Nat → Nat} (n : Nat) (hsmall : ∀ i < n, h i < b)
    (tsmall : ∀ i < n, t i < b) :
    leFrom h t n = true ↔ digitSum b h n ≤ digitSum b t n := by
  induction n with
  | zero => simp [leFrom, digitSum]
  | succ n ih =>
      have hlow : ∀ i < n, h i < b := fun i hi => hsmall i (by omega)
      have tlow : ∀ i < n, t i < b := fun i hi => tsmall i (by omega)
      simp only [leFrom]
      split
      · rename_i less
        simpa using (digitSum_lt_of_top_lt n hlow less).le
      · split
        · rename_i greater
          simpa using digitSum_lt_of_top_lt n tlow greater
        · have same : h n = t n := by omega
          rw [ih hlow tlow, digitSum_succ, digitSum_succ, same]
          omega

theorem ofDigits_eq_digitSum (b : Nat) (ds : List Nat) :
    Nat.ofDigits b ds = digitSum b (fun i => ds.getD i 0) ds.length := by
  induction ds with
  | nil => simp [digitSum]
  | cons d ds ih =>
      rw [Nat.ofDigits_cons, ih, digitSum, digitSum, List.length_cons, Finset.sum_range_succ',
        Finset.mul_sum]
      simp only [List.getD_cons_succ, List.getD_cons_zero, pow_zero, mul_one, pow_succ]
      rw [add_comm]
      congr 1
      exact Finset.sum_congr rfl fun i _ => by ring

end BtcRig.Theory.Words
