/-
# BtcRig.Mining.Target — how close a target is to its difficulty

Over exact rationals a difficulty `d` asks for hashes up to
`idealTarget d = 65535 * 2 ^ 208 / d`.  `minerTargetFromDifficulty` scales a
mantissa by 256 in two loops, drops its fraction and stores its three low bytes.

* `scaled_normal`: the loops end, with the guards of both false, in a normal
  mantissa and exponent of the ideal target;
* `target_accurate`: below `2 ^ 256` the stored target is the ideal one cut to
  the mantissa, and an accepted hash has at least the difficulty asked for;
* `target_ordered_iff`: the first loop stops at exponent 32 whatever the mantissa
  is.  From `2 ^ 256` on the mantissa has a fourth byte, which is not stored, and
  the branch that would store `2 ^ 256 - 1` is never taken;
* `ordered_from_iff`: for the order alone the bound is no better.
-/
import BtcRig.Mining.Job
import BtcRig.Theory.Truncation

namespace BtcRig.Mining.Target

open BtcRig.Theory
open BtcRig.Theory.Words
open BtcRig.Theory.Truncation
open BtcRig.Hash.Sha256d
open BtcRig.Mining.Job

set_option autoImplicit false

def idealTarget (difficulty : ℚ) : ℚ := 65535 * 2 ^ 208 / difficulty

/-- The target as the number hashes are compared with. -/
def targetNat (difficulty : ℚ) : ℕ := leNat (minerTargetFromDifficulty difficulty).toList

/-- `mant` and `exp` after both loops. -/
def scaled (difficulty : ℚ) : ℚ × ℕ :=
  scaleUp ((scaleDown 3 (65535 / difficulty)).2 - 3) (scaleDown 3 (65535 / difficulty)).1

/-! ## The two loops -/

/-- What the first loop keeps and how it ends, from exponent `32 - room` on. -/
theorem scaleDown_spec (room : ℕ) (within : room ≤ 32) (mant : ℚ) :
    (scaleDown room mant).1 * 256 ^ (scaleDown room mant).2 = mant * 256 ^ (32 - room) ∧
      32 - room ≤ (scaleDown room mant).2 ∧ (scaleDown room mant).2 ≤ 32 ∧
      ((scaleDown room mant).2 = 32 ∨ (scaleDown room mant).1 < 0x800000) := by
  induction room generalizing mant with
  | zero => exact ⟨rfl, le_refl 32, le_refl 32, .inl rfl⟩
  | succ room ih =>
      rw [scaleDown]
      split
      · obtain ⟨exact, above, bounded, exit⟩ := ih (by omega) (mant / 256)
        refine ⟨?_, by omega, bounded, exit⟩
        rw [exact, show 32 - room = 32 - (room + 1) + 1 by omega, pow_succ]
        ring
      · rename_i small
        exact ⟨rfl, le_refl _, Nat.sub_le _ _, .inr (not_le.mp small)⟩

theorem scaleDown_pos (room : ℕ) {mant : ℚ} (positive : 0 < mant) : 0 < (scaleDown room mant).1 := by
  induction room generalizing mant with
  | zero => exact positive
  | succ room ih =>
      rw [scaleDown]
      split
      · exact ih (by positivity)
      · exact positive

/-- What the second loop keeps and how it ends, from exponent `3 + room` on. -/
theorem scaleUp_spec (room : ℕ) {mant : ℚ} (positive : 0 < mant) :
    (scaleUp room mant).1 * 256 ^ (scaleUp room mant).2 = mant * 256 ^ (3 + room) ∧
      3 ≤ (scaleUp room mant).2 ∧ (scaleUp room mant).2 ≤ 3 + room ∧
      ((scaleUp room mant).2 = 3 ∨ 0x8000 ≤ (scaleUp room mant).1) ∧
      (scaleUp room mant = (mant, 3 + room) ∨ (scaleUp room mant).1 < 0x800000) := by
  induction room generalizing mant with
  | zero => exact ⟨rfl, le_refl 3, le_refl 3, .inl rfl, .inl rfl⟩
  | succ room ih =>
      rw [scaleUp]
      split
      · rename_i small
        obtain ⟨exact, above, bounded, exit, below⟩ := ih (show 0 < mant * 256 by positivity)
        refine ⟨?_, above, by omega, exit, .inr ?_⟩
        · rw [exact, ← Nat.add_assoc, pow_succ]
          ring
        · rcases below with unchanged | below
          · rw [unchanged]
            show mant * 256 < 0x800000
            linarith [small.2]
          · exact below
      · rename_i stopped
        refine ⟨rfl, by omega, le_refl _, .inr ?_, .inl rfl⟩
        exact not_lt.mp fun small => stopped ⟨positive, small⟩

/-- **The loops end in a normal mantissa of the ideal target.** -/
theorem scaled_normal {difficulty : ℚ} (positive : 0 < difficulty) :
    3 ≤ (scaled difficulty).2 ∧ (scaled difficulty).2 ≤ 32 ∧
      Normal 256 0x8000 29 (idealTarget difficulty) (scaled difficulty).1
        ((scaled difficulty).2 - 3) := by
  have start : 0 < 65535 / difficulty := by positivity
  obtain ⟨downExact, downAbove, downBounded, downExit⟩ :=
    scaleDown_spec 3 (by omega) (65535 / difficulty)
  obtain ⟨exact, above, bounded, exit, below⟩ :=
    scaleUp_spec ((scaleDown 3 (65535 / difficulty)).2 - 3) (scaleDown_pos 3 start)
  have resume : 3 + ((scaleDown 3 (65535 / difficulty)).2 - 3) =
      (scaleDown 3 (65535 / difficulty)).2 := by omega
  rw [resume] at exact bounded below
  rw [downExact] at exact
  refine ⟨above, bounded.trans downBounded, ?_, ?_, ?_, ?_⟩
  · show (scaled difficulty).1 * 256 ^ ((scaled difficulty).2 - 3) = idealTarget difficulty
    have split : (256 : ℚ) ^ (scaled difficulty).2 =
        256 ^ ((scaled difficulty).2 - 3) * 256 ^ 3 := by
      rw [← pow_add]
      congr 1
      have : 3 ≤ (scaled difficulty).2 := above
      omega
    have whole : (scaled difficulty).1 * 256 ^ (scaled difficulty).2 =
        65535 / difficulty * 256 ^ 29 := exact
    rw [split, ← mul_assoc] at whole
    have cancelled : (scaled difficulty).1 * 256 ^ ((scaled difficulty).2 - 3) =
        65535 / difficulty * 256 ^ 26 := by
      have cube : (256 : ℚ) ^ 3 ≠ 0 := by positivity
      apply mul_right_cancel₀ cube
      rw [whole]
      ring
    rw [cancelled, idealTarget]
    ring
  · have : (scaled difficulty).2 ≤ 32 := bounded.trans downBounded
    omega
  · rcases exit with least | large
    · exact .inl (by rw [scaled, least])
    · exact .inr (by rw [scaled]; exact_mod_cast large)
  · intro room
    rcases below with unchanged | below
    · rw [scaled, unchanged] at room ⊢
      have inside : (scaleDown 3 (65535 / difficulty)).2 ≠ 32 := by
        intro full
        rw [full] at room
        omega
      have small := downExit.resolve_left inside
      norm_num
      exact small
    · norm_num
      exact below

/-! ## The stored bytes -/

/-- Three bytes at index `idx` of the big-endian target, read from the other end. -/
theorem placed (idx : ℕ) (room : idx + 2 < 32) (hi mid lo : Byte) :
    (((((Vector.replicate 32 0 : Vector Byte 32).setIfInBounds idx hi).setIfInBounds (idx + 1)
      mid).setIfInBounds (idx + 2) lo).reverse).toList =
      List.replicate (29 - idx) 0 ++ [lo, mid, hi] ++ List.replicate idx 0 := by
  have small : idx < 30 := by omega
  rw [Vector.toList_reverse, Vector.toList_setIfInBounds, Vector.toList_setIfInBounds,
    Vector.toList_setIfInBounds, Vector.toList_replicate]
  interval_cases idx <;> rfl

theorem leNat_zeros (n : ℕ) : leNat (List.replicate n 0) = 0 := by
  induction n with
  | zero => rfl
  | succ n ih =>
      rw [List.replicate_succ', leNat_append, ih]
      simp [leNat]

/-- The three low bytes of a word. -/
theorem leNat_low (m : Word) :
    leNat [m.setWidth 8, (m >>> 8).setWidth 8, (m >>> 16).setWidth 8] = m.toNat % 2 ^ 24 := by
  simp only [leNat, List.map_cons, List.map_nil, Nat.ofDigits_cons, Nat.ofDigits_nil,
    BitVec.toNat_setWidth, BitVec.toNat_ushiftRight, Nat.shiftRight_eq_div_pow]
  omega

/-- The word the mantissa is converted to, modulo `2 ^ 32`. -/
theorem toNat_mantissa {mant : ℚ} (nonneg : 0 ≤ mant) :
    (BitVec.ofInt 32 ⌊mant⌋).toNat = ⌊mant⌋₊ % 2 ^ 32 := by
  rw [← Int.natCast_floor_eq_floor nonneg, BitVec.ofInt_natCast, BitVec.toNat_ofNat]

/-- Three bytes of the mantissa are stored, at the place of the exponent. -/
theorem targetNat_eq {difficulty : ℚ} (positive : 0 < difficulty) :
    targetNat difficulty =
      ⌊(scaled difficulty).1⌋₊ % 2 ^ 24 * 256 ^ ((scaled difficulty).2 - 3) := by
  obtain ⟨above, bounded, normal⟩ := scaled_normal positive
  have nonneg : 0 ≤ (scaled difficulty).1 :=
    normal.mant_nonneg (by decide) (by rw [idealTarget]; positivity)
  have room : 32 - (scaled difficulty).2 + 2 < 32 := by omega
  have index : ((32 : ℤ) - ((scaled difficulty).2 : ℤ)).toNat = 32 - (scaled difficulty).2 := by
    omega
  have bytes : (minerTargetFromDifficulty difficulty).toList =
      List.replicate ((scaled difficulty).2 - 3) (0 : Byte) ++
        [(BitVec.ofInt 32 ⌊(scaled difficulty).1⌋).setWidth 8,
          (BitVec.ofInt 32 ⌊(scaled difficulty).1⌋ >>> 8).setWidth 8,
          (BitVec.ofInt 32 ⌊(scaled difficulty).1⌋ >>> 16).setWidth 8] ++
        List.replicate (32 - (scaled difficulty).2) 0 := by
    have stored := placed _ room
      ((BitVec.ofInt 32 ⌊(scaled difficulty).1⌋ >>> 16).setWidth 8)
      ((BitVec.ofInt 32 ⌊(scaled difficulty).1⌋ >>> 8).setWidth 8)
      ((BitVec.ofInt 32 ⌊(scaled difficulty).1⌋).setWidth 8)
    rw [show 29 - (32 - (scaled difficulty).2) = (scaled difficulty).2 - 3 by omega] at stored
    rw [← stored, ← index, minerTargetFromDifficulty, if_neg (not_le.mpr positive)]
    show Vector.toList (if 0 ≤ (32 : ℤ) - ((scaled difficulty).2 : ℤ) ∧
      (32 : ℤ) - ((scaled difficulty).2 : ℤ) + 2 < 32 then _ else _) = _
    rw [if_pos (by omega)]
    rfl
  rw [targetNat, bytes, leNat_append, leNat_append, leNat_zeros, leNat_zeros, leNat_low,
    toNat_mantissa nonneg, List.length_replicate, Nat.mod_mod_of_dvd _ (by decide)]
  ring

/-- The ideal target fits into 256 bits exactly when its mantissa has three bytes. -/
theorem fits_iff {difficulty : ℚ} (positive : 0 < difficulty) :
    idealTarget difficulty < 2 ^ 256 ↔ (scaled difficulty).1 < 2 ^ 24 := by
  obtain ⟨above, bounded, normal⟩ := scaled_normal positive
  have exact := normal.exact
  constructor
  · intro fits
    by_cases top : (scaled difficulty).2 = 32
    · rw [← exact, top] at fits
      norm_num at fits ⊢
      linarith
    · have small := normal.small (by omega)
      norm_num at small ⊢
      linarith
  · intro short
    have power : (256 : ℚ) ^ ((scaled difficulty).2 - 3) ≤ 256 ^ 29 :=
      pow_le_pow_right₀ (by norm_num) (by omega)
    have unit : (0 : ℚ) < 256 ^ ((scaled difficulty).2 - 3) := by positivity
    calc idealTarget difficulty
        = (scaled difficulty).1 * 256 ^ ((scaled difficulty).2 - 3) := exact.symm
      _ < 2 ^ 24 * 256 ^ ((scaled difficulty).2 - 3) := mul_lt_mul_of_pos_right short unit
      _ ≤ 2 ^ 24 * 256 ^ 29 := mul_le_mul_of_nonneg_left power (by positivity)
      _ = 2 ^ 256 := by norm_num

/-- Below `2 ^ 256` the target is the ideal one, cut to its mantissa. -/
theorem targetNat_trunc {difficulty : ℚ} (positive : 0 < difficulty)
    (fits : idealTarget difficulty < 2 ^ 256) :
    targetNat difficulty = trunc 256 (scaled difficulty).1 ((scaled difficulty).2 - 3) := by
  have short := (fits_iff positive).mp fits
  have small : ⌊(scaled difficulty).1⌋₊ < 2 ^ 24 := by
    apply (Nat.floor_lt' (by norm_num)).mpr
    exact_mod_cast short
  rw [targetNat_eq positive, Nat.mod_eq_of_lt small, trunc]

/-! ## Hashes under a target -/

theorem leNat_eq_digitSum (v : Vector Byte 32) :
    leNat v.toList = digitSum 256 (fun i => (v.toList.getD i 0).toNat) 32 := by
  have digit (i : ℕ) : (v.toList.map BitVec.toNat).getD i 0 = (v.toList.getD i 0).toNat :=
    List.getD_map (f := BitVec.toNat) (d := 0) ..
  rw [leNat, ofDigits_eq_digitSum, List.length_map, Vector.length_toList]
  simp only [digit]

theorem minerHashMeetsTarget_iff (hash target : Vector Byte 32) :
    minerHashMeetsTarget hash target = true ↔ leNat hash.toList ≤ leNat target.toList := by
  rw [leNat_eq_digitSum, leNat_eq_digitSum]
  exact leFrom_iff 32 (fun i _ => BitVec.isLt _) (fun i _ => BitVec.isLt _)

theorem foldl_bytes (bytes : List Byte) :
    bytes.reverse.foldl (fun (value : ℚ) byte => value * 256 + byte.toNat) 0 = leNat bytes := by
  induction bytes with
  | nil => simp [leNat]
  | cons byte bytes ih =>
      rw [List.reverse_cons, List.foldl_append, ih]
      simp only [List.foldl_cons, List.foldl_nil, leNat, List.map_cons, Nat.ofDigits_cons]
      push_cast
      ring

theorem minerHashDifficulty_eq {hash : Vector Byte 32} (positive : 0 < leNat hash.toList) :
    minerHashDifficulty hash = ((65535 * 2 ^ 208 / leNat hash.toList : ℚ) : WithTop ℚ) := by
  have cast : (0 : ℚ) < leNat hash.toList := by exact_mod_cast positive
  simp only [minerHashDifficulty, foldl_bytes]
  rw [if_neg (not_le.mpr cast)]
  norm_num

/-- **Below `2 ^ 256` the target is exact to one part in `2 ^ 15`, from below, and
every hash it accepts has at least the difficulty it was made for.** -/
theorem target_accurate (difficulty : ℚ) (positive : 0 < difficulty)
    (fits : idealTarget difficulty < 2 ^ 256) :
    (targetNat difficulty : ℚ) ≤ idealTarget difficulty ∧
      idealTarget difficulty <
        targetNat difficulty + max 1 (targetNat difficulty / 2 ^ 15 : ℚ) ∧
      ∀ hash : Vector Byte 32, 0 < leNat hash.toList →
        minerHashMeetsTarget hash (minerTargetFromDifficulty difficulty) = true →
          minerHashDifficulty hash = ((65535 * 2 ^ 208 / leNat hash.toList : ℚ) : WithTop ℚ) ∧
          (difficulty : WithTop ℚ) ≤ minerHashDifficulty hash := by
  obtain ⟨-, -, normal⟩ := scaled_normal positive
  have ideal : 0 ≤ idealTarget difficulty := by rw [idealTarget]; positivity
  have below : (targetNat difficulty : ℚ) ≤ idealTarget difficulty := by
    rw [targetNat_trunc positive fits]
    exact trunc_le normal (by decide) ideal
  refine ⟨below, ?_, ?_⟩
  · rw [targetNat_trunc positive fits]
    exact_mod_cast lt_trunc_add normal (by decide) (by decide)
  · intro hash nonzero accepted
    have meets := (minerHashMeetsTarget_iff hash _).mp accepted
    have bound : (leNat hash.toList : ℚ) ≤ 65535 * 2 ^ 208 / difficulty :=
      le_trans (by exact_mod_cast meets) below
    have cast : (0 : ℚ) < leNat hash.toList := by exact_mod_cast nonzero
    refine ⟨minerHashDifficulty_eq nonzero, ?_⟩
    rw [minerHashDifficulty_eq nonzero, WithTop.coe_le_coe, le_div_iff₀ cast, mul_comm]
    exact (le_div_iff₀ positive).mp bound

/-- Difficulty one, and the hash that is exactly its target. -/
theorem target_accurate_example :
    (0 : ℚ) < 1 ∧ idealTarget 1 < 2 ^ 256 ∧ (targetNat 1 : ℚ) ≤ idealTarget 1 ∧
      (1 : WithTop ℚ) ≤ minerHashDifficulty (minerTargetFromDifficulty 1) := by
  have fits : idealTarget 1 < 2 ^ 256 := by
    rw [idealTarget]
    norm_num
  obtain ⟨below, -, accepted⟩ := target_accurate 1 one_pos fits
  obtain ⟨-, reached⟩ := accepted (minerTargetFromDifficulty 1) (by decide +kernel)
    (by decide +kernel)
  exact ⟨one_pos, fits, below, reached⟩

/-! ## Difficulties too small for 256 bits -/

/-- What the branch that fills the target with `0xff` is for. -/
def Saturates (difficulty : ℚ) : Prop :=
  2 ^ 256 ≤ idealTarget difficulty → targetNat difficulty = 2 ^ 256 - 1

/-- The conversion of the mantissa to `uint32_t` is defined. -/
def MantissaFits (difficulty : ℚ) : Prop :=
  0 ≤ ⌊(scaled difficulty).1⌋ ∧ ⌊(scaled difficulty).1⌋ < 2 ^ 32

theorem idealTarget_antitone {d₁ d₂ : ℚ} (positive : 0 < d₁) (ordered : d₁ ≤ d₂) :
    idealTarget d₂ ≤ idealTarget d₁ := by
  rw [idealTarget, idealTarget]
  exact div_le_div_of_nonneg_left (by positivity) positive ordered

theorem idealTarget_lt_iff {difficulty : ℚ} (positive : 0 < difficulty) :
    idealTarget difficulty < 2 ^ 256 ↔ 65535 / 2 ^ 48 < difficulty := by
  rw [idealTarget, div_lt_iff₀ positive, div_lt_iff₀ (by positivity)]
  constructor
  · intro fits
    linarith
  · intro large
    linarith

/-- Only the three top bytes can be set at exponent 32. -/
theorem targetNat_ne_max {difficulty : ℚ} (positive : 0 < difficulty)
    (huge : 2 ^ 256 ≤ idealTarget difficulty) : targetNat difficulty ≠ 2 ^ 256 - 1 := by
  obtain ⟨above, bounded, normal⟩ := scaled_normal positive
  have wide : ¬ (scaled difficulty).1 < 2 ^ 24 := by
    rw [← fits_iff positive]
    exact not_lt.mpr huge
  have top : (scaled difficulty).2 = 32 := by
    by_contra inside
    apply wide
    have small := normal.small (by omega)
    norm_num at small ⊢
    linarith
  rw [targetNat_eq positive, top]
  intro full
  have even : 2 ∣ ⌊(scaled difficulty).1⌋₊ % 2 ^ 24 * 256 ^ (32 - 3) :=
    Dvd.dvd.mul_left (by decide) _
  rw [full] at even
  exact absurd even (by decide)

theorem mantissaFits_of_fits {difficulty : ℚ} (positive : 0 < difficulty)
    (fits : idealTarget difficulty < 2 ^ 256) : MantissaFits difficulty := by
  obtain ⟨-, -, normal⟩ := scaled_normal positive
  have nonneg : 0 ≤ (scaled difficulty).1 :=
    normal.mant_nonneg (by decide) (by rw [idealTarget]; positivity)
  have short := (fits_iff positive).mp fits
  refine ⟨Int.floor_nonneg.mpr nonneg, Int.floor_lt.mpr ?_⟩
  push_cast
  linarith

/-- Up to 256 bits a smaller difficulty has no smaller target. -/
theorem targetNat_antitone {d₁ d₂ : ℚ} (positive : 0 < d₁) (ordered : d₁ ≤ d₂)
    (fits : idealTarget d₁ < 2 ^ 256) : targetNat d₂ ≤ targetNat d₁ := by
  have below := idealTarget_antitone positive ordered
  have positive' := positive.trans_le ordered
  obtain ⟨-, -, normal₁⟩ := scaled_normal positive
  obtain ⟨-, -, normal₂⟩ := scaled_normal positive'
  rw [targetNat_trunc positive fits, targetNat_trunc positive' (below.trans_lt fits)]
  exact trunc_mono normal₂ normal₁ (by decide) (by rw [idealTarget]; positivity) below

/-- **Order, saturation and a mantissa that fits: all of them exactly above
`65535 / 2 ^ 48`.** -/
theorem target_ordered_iff (d₁ d₂ : ℚ) (positive : 0 < d₁) (ordered : d₁ ≤ d₂) :
    (targetNat d₂ ≤ targetNat d₁ ∧ Saturates d₁ ∧ Saturates d₂ ∧ MantissaFits d₁ ∧
      MantissaFits d₂) ↔ 65535 / 2 ^ 48 < d₁ := by
  rw [← idealTarget_lt_iff positive]
  constructor
  · rintro ⟨-, saturates, -⟩
    by_contra huge
    exact targetNat_ne_max positive (not_lt.mp huge) (saturates (not_lt.mp huge))
  · intro fits
    have positive' := positive.trans_le ordered
    have fits' := (idealTarget_antitone positive ordered).trans_lt fits
    refine ⟨targetNat_antitone positive ordered fits, ?_, ?_, mantissaFits_of_fits positive fits,
      mantissaFits_of_fits positive' fits'⟩
    · intro huge
      exact absurd fits huge.not_gt
    · intro huge
      exact absurd fits' huge.not_gt

/-- Difficulties one and one half lie above the bound: both sides of the
equivalence hold. -/
theorem target_ordered_iff_example :
    (0 : ℚ) < 1 / 2 ∧ (1 / 2 : ℚ) ≤ 1 ∧ (65535 / 2 ^ 48 : ℚ) < 1 / 2 ∧
      targetNat 1 ≤ targetNat (1 / 2) ∧ MantissaFits (1 / 2) := by
  have large : (65535 / 2 ^ 48 : ℚ) < 1 / 2 := by norm_num
  obtain ⟨ordered, -, -, fits, -⟩ :=
    (target_ordered_iff (1 / 2) 1 (by norm_num) (by norm_num)).mpr large
  exact ⟨by norm_num, by norm_num, large, ordered, fits⟩

/-- The fourth byte of the mantissa is all there is. -/
theorem targetNat_least : targetNat (65535 / 2 ^ 48) = 0 := by
  have wide : scaled (65535 / 2 ^ 48) = (2 ^ 24, 32) := by decide +kernel
  rw [targetNat_eq (by norm_num), wide]
  norm_num

theorem targetNat_one : targetNat 1 = 65535 * 2 ^ 208 := by
  have normal : scaled 1 = (65535, 29) := by decide +kernel
  rw [targetNat_eq (by norm_num), normal]
  norm_num

/-- A pool that asks for `65535 / 2 ^ 48` is given a target of zero, far below that
of difficulty one; the mantissa of `65535 / 2 ^ 56` no longer fits. -/
theorem target_wraps :
    (0 : ℚ) < 65535 / 2 ^ 48 ∧ (65535 / 2 ^ 48 : ℚ) ≤ 1 ∧
      ¬ targetNat 1 ≤ targetNat (65535 / 2 ^ 48) ∧ ¬ Saturates (65535 / 2 ^ 48) ∧
      ¬ MantissaFits (65535 / 2 ^ 56) := by
  have ideal : idealTarget (65535 / 2 ^ 48) = 2 ^ 256 := by
    rw [idealTarget]
    norm_num
  have wide : scaled (65535 / 2 ^ 56) = (2 ^ 32, 32) := by decide +kernel
  refine ⟨by norm_num, by norm_num, ?_, ?_, ?_⟩
  · rw [targetNat_least, targetNat_one]
    norm_num
  · intro saturates
    have full := saturates ideal.ge
    rw [targetNat_least] at full
    norm_num at full
  · rintro ⟨-, fits⟩
    rw [wide] at fits
    norm_num at fits

/-- Nor is there a larger range on which the order alone survives. -/
theorem ordered_from_iff {d₀ : ℚ} (positive : 0 < d₀) :
    (∀ d₁ d₂, d₀ ≤ d₁ → d₁ ≤ d₂ → targetNat d₂ ≤ targetNat d₁) ↔ 65535 / 2 ^ 48 < d₀ := by
  constructor
  · intro ordered
    by_contra small
    have wrong := ordered (65535 / 2 ^ 48) 1 (not_lt.mp small) (by norm_num)
    rw [targetNat_least, targetNat_one] at wrong
    norm_num at wrong
  · intro large d₁ d₂ above below
    have positive₁ := positive.trans_le above
    exact targetNat_antitone positive₁ below
      ((idealTarget_lt_iff positive₁).mpr (large.trans_le above))

end BtcRig.Mining.Target
