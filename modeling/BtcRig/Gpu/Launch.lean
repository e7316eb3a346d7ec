/-
# BtcRig.Gpu.Launch — which nonces the threads of a launch scan

A launch runs a kernel once for every thread, and a thread scans a share of the
range that it works out in 32-bit arithmetic.  Offsets into the range are naturals
here; `nonceAt` is the nonce of one.

The kernels bound their shares in three ways.  `share` covers two of them, a limit
cut by `base + limit > nonce_count` and a limit that starts as the rest of the range;
`guardedShare` is the third, which compares the thread with the number of shares
first.  `share_exact_iff` and `guardedShare_exact_iff` say when the shares of all
threads are the range: no thread's product may reach `2 ^ 32`, and where `base +
limit` is compared it must not reach it either.
-/
import BtcRig.Theory.Tiling
import BtcRig.Theory.Words

namespace BtcRig.Gpu.Launch

open BtcRig.Theory.Words
open BtcRig.Theory.Tiling

set_option autoImplicit false

/-! ## Scanning a range -/

def nonceAt (startNonce : Word) (offset : Nat) : Word := startNonce + BitVec.ofNat 32 offset

/-- Every nonce of the range exactly once, and no other. -/
def ScansExactly (startNonce : Word) (nonceCount : Nat) (nonces : List Word) : Prop :=
  ∀ nonce, nonces.count nonce =
    if startNonce.toNat ≤ nonce.toNat ∧ nonce.toNat < startNonce.toNat + nonceCount then 1 else 0

/-- The loop `for (item = 0; item < limit; ++item)` over `start_nonce + base_nonce + item`. -/
def items (startNonce baseNonce limit : Word) : List Word :=
  (List.range limit.toNat).map fun item => startNonce + baseNonce + BitVec.ofNat 32 item

theorem items_eq (startNonce baseNonce limit : Word) :
    items startNonce baseNonce limit =
      ((List.range limit.toNat).map (baseNonce.toNat + ·)).map (nonceAt startNonce) := by
  rw [items, List.map_map]
  apply List.map_congr_left
  intro item _
  rw [Function.comp_apply, nonceAt, BitVec.ofNat_add, BitVec.ofNat_toNat, BitVec.setWidth_eq,
    BitVec.add_assoc]

section Range

variable {startNonce : Word} {count : Nat}

theorem toNat_nonceAt {offset : Nat} (fits : startNonce.toNat + offset < 2 ^ 32) :
    (nonceAt startNonce offset).toNat = startNonce.toNat + offset := by
  rw [nonceAt, BitVec.toNat_add, BitVec.toNat_ofNat, Nat.add_mod_mod, Nat.mod_eq_of_lt fits]

theorem scansExactly_range (fits : startNonce.toNat + count ≤ 2 ^ 32) :
    ScansExactly startNonce count ((List.range count).map (nonceAt startNonce)) := by
  have distinct : ((List.range count).map (nonceAt startNonce)).Nodup := by
    refine List.Nodup.map_on ?_ List.nodup_range
    intro x inside y inside' same
    rw [List.mem_range] at inside inside'
    have values := congrArg BitVec.toNat same
    rw [toNat_nonceAt (by omega), toNat_nonceAt (by omega)] at values
    omega
  intro nonce
  rw [distinct.count]
  congr 1
  rw [List.mem_map, eq_iff_iff]
  constructor
  · rintro ⟨offset, inside, rfl⟩
    rw [List.mem_range] at inside
    rw [toNat_nonceAt (by omega)]
    omega
  · rintro ⟨low, high⟩
    refine ⟨nonce.toNat - startNonce.toNat, List.mem_range.mpr (by omega), ?_⟩
    apply BitVec.eq_of_toNat_eq
    rw [toNat_nonceAt (by have := nonce.isLt; omega)]
    omega

/-- A nonce that two threads scan is scanned twice. -/
theorem not_exactly_of_twice {threads g g' : Nat} {shares : Nat → List Word} {nonce : Word}
    (apart : g < g') (inside : g' < threads) (first : nonce ∈ shares g)
    (second : nonce ∈ shares g') :
    ¬ScansExactly startNonce count ((List.range threads).flatMap shares) := by
  intro exactly
  have split : List.range threads = List.range g' ++ List.map (g' + ·) (List.range (threads - g')) := by
    rw [← List.range_add]
    congr 1
    omega
  have early : 0 < ((List.range g').flatMap shares).count nonce :=
    List.count_pos_iff.mpr (List.mem_flatMap.mpr ⟨g, List.mem_range.mpr apart, first⟩)
  have late : 0 < ((List.map (g' + ·) (List.range (threads - g'))).flatMap shares).count nonce := by
    refine List.count_pos_iff.mpr (List.mem_flatMap.mpr ⟨g', ?_, second⟩)
    exact List.mem_map.mpr ⟨0, List.mem_range.mpr (by omega), rfl⟩
  have total := exactly nonce
  rw [split, List.flatMap_append, List.count_append] at total
  split at total <;> omega

/-- The nonce behind the range is not to be scanned. -/
theorem not_exactly_of_behind {threads g : Nat} {shares : Nat → List Word}
    (fits : startNonce.toNat + count ≤ 2 ^ 32) (short : count < 2 ^ 32) (inside : g < threads)
    (scanned : nonceAt startNonce count ∈ shares g) :
    ¬ScansExactly startNonce count ((List.range threads).flatMap shares) := by
  intro exactly
  have some_ : 0 < ((List.range threads).flatMap shares).count (nonceAt startNonce count) :=
    List.count_pos_iff.mpr (List.mem_flatMap.mpr ⟨g, List.mem_range.mpr inside, scanned⟩)
  have outside : ¬(startNonce.toNat ≤ (nonceAt startNonce count).toNat ∧
      (nonceAt startNonce count).toNat < startNonce.toNat + count) := by
    by_cases last : startNonce.toNat + count < 2 ^ 32
    · rw [toNat_nonceAt last]
      omega
    · -- the nonce behind the last one is zero
      have wrapped : (nonceAt startNonce count).toNat = 0 := by
        rw [nonceAt, BitVec.toNat_add, BitVec.toNat_ofNat, Nat.add_mod_mod,
          show startNonce.toNat + count = 2 ^ 32 by omega, Nat.mod_self]
      rw [wrapped]
      omega
  rw [exactly, if_neg outside] at some_
  exact lt_irrefl 0 some_

end Range

/-! ## Shares by a product -/

/-- The limit of a share that starts at `b`: the whole share unless `base + limit`, as
the kernel computes it, is larger than the range. -/
def clippedLimit (k n b : Nat) : Nat := if n < (b + k) % 2 ^ 32 then n - b else k

/-- The offsets of thread `g`, which starts at `g * k` modulo `2 ^ 32`. -/
def share (clips : Bool) (k n g : Nat) : List Nat :=
  let b := g * k % 2 ^ 32
  if b < n then (List.range (if clips then clippedLimit k n b else min k (n - b))).map (b + ·) else []

/-- The offsets of thread `g` of a kernel that compares `g` with the number of shares. -/
def guardedShare (k n g : Nat) : List Nat :=
  let gid := g % 2 ^ 32
  if gid < (n + k - 1) / k then (List.range (clippedLimit k n (gid * k))).map (gid * k + ·) else []

section Shares

variable {startNonce : Word} {k n threads : Nat}

theorem clippedLimit_of_small {b : Nat} (small : b + k < 2 ^ 32) (inside : b < n) :
    clippedLimit k n b = min k (n - b) := by
  rw [clippedLimit, Nat.mod_eq_of_lt small]
  split <;> omega

/-- Past `2 ^ 32` the comparison fails and the limit stays. -/
theorem clippedLimit_of_wrapped {b : Nat} (wrapped : 2 ^ 32 ≤ b + k) (start : b < n)
    (short : n < 2 ^ 32) (narrow : k ≤ 2 ^ 32) : clippedLimit k n b = k := by
  have round : (b + k) % 2 ^ 32 < n := by
    rw [Nat.mod_eq_sub_mod wrapped, Nat.mod_eq_of_lt (by omega)]
    omega
  rw [clippedLimit, if_neg (by omega)]

/-- The share of a thread whose product and whose end stay below `2 ^ 32`. -/
theorem share_eq_tile {clips : Bool} {g : Nat} (product : g * k < 2 ^ 32)
    (fits : clips = true → g * k < n → g * k + k < 2 ^ 32) : share clips k n g = tile k n g := by
  rw [share, Nat.mod_eq_of_lt product, tile]
  by_cases inside : g * k < n
  · rw [if_pos inside]
    cases clips with
    | false => rfl
    | true => rw [if_pos rfl, clippedLimit_of_small (fits rfl inside) inside]
  · rw [if_neg inside, show n - g * k = 0 by omega, Nat.min_zero, List.range_zero, List.map_nil]

/-- A share that starts inside the range holds its start. -/
theorem start_mem_share {clips : Bool} {g : Nat} (positive : 0 < k)
    (inside : g * k % 2 ^ 32 < n) : g * k % 2 ^ 32 ∈ share clips k n g := by
  rw [share, if_pos inside]
  refine List.mem_map.mpr ⟨0, List.mem_range.mpr ?_, by omega⟩
  split
  · rw [clippedLimit]
    split <;> omega
  · omega

/-- The first thread holds the offsets of one share. -/
theorem mem_share_zero {clips : Bool} {x : Nat} (narrow : k < 2 ^ 32) (below : x < k)
    (inside : x < n) : x ∈ share clips k n 0 := by
  have tiled : share clips k n 0 = tile k n 0 :=
    share_eq_tile (by omega) fun _ _ => by omega
  rw [tiled, mem_tile]
  omega

/-- The last share reaches behind the range if its end wraps round. -/
theorem behind_mem_clipped {b : Nat} (wrapped : 2 ^ 32 ≤ b + k) (start : b < n) (short : n < 2 ^ 32)
    (narrow : k ≤ 2 ^ 32) : n ∈ (List.range (clippedLimit k n b)).map (b + ·) := by
  rw [clippedLimit_of_wrapped wrapped start short narrow]
  exact List.mem_map.mpr ⟨n - b, List.mem_range.mpr (by omega), by omega⟩

/-- The last share starts before the end of the range, and ends at the rounded one. -/
theorem last_share (positive : 0 < k) (some_ : 0 < n) :
    ((n + k - 1) / k - 1) * k < n ∧ ((n + k - 1) / k - 1) * k + k = (n + k - 1) / k * k := by
  have behind := ceilDiv_mul_lt (n := n) positive
  have atLeast : 1 ≤ (n + k - 1) / k := Nat.div_pos (by omega) positive
  obtain ⟨w, isW⟩ : ∃ w, (n + k - 1) / k = w + 1 := ⟨(n + k - 1) / k - 1, by omega⟩
  rw [isW, Nat.succ_mul] at behind
  rw [isW, Nat.add_sub_cancel, Nat.succ_mul]
  omega

/-- **The shares are the range exactly when no product of a thread reaches `2 ^ 32`,
nor, where it is compared, the end of the last share.** -/
theorem share_exact_iff (clips : Bool) (positive : 0 < k) (narrow : k < 2 ^ 32) (some_ : 0 < n)
    (fits : startNonce.toNat + n ≤ 2 ^ 32) (short : n < 2 ^ 32) (enough : n ≤ threads * k)
    (wrapsInside : (2 ^ 32 + k - 1) / k * k - 2 ^ 32 < n ∨ (threads - 1) * k < 2 ^ 32) :
    ScansExactly startNonce n
        ((List.range threads).flatMap fun g => (share clips k n g).map (nonceAt startNonce)) ↔
      (threads - 1) * k < 2 ^ 32 ∧ (clips = true → (n + k - 1) / k * k < 2 ^ 32) := by
  obtain ⟨lastStart, lastEnd⟩ := last_share (n := n) positive some_
  have busy : (n + k - 1) / k ≤ threads := by
    rw [ceilDiv_le_iff positive, Nat.mul_comm]
    exact enough
  constructor
  · intro exactly
    have products : (threads - 1) * k < 2 ^ 32 := by
      by_contra wraps
      -- the first thread whose product wraps round scans an offset of thread 0 again
      have early : (2 ^ 32 + k - 1) / k ≤ threads - 1 := by
        rw [ceilDiv_le_iff positive, Nat.mul_comm]
        exact not_lt.mp wraps
      have low := le_ceilDiv_mul (n := 2 ^ 32) positive
      have high := ceilDiv_mul_lt (n := 2 ^ 32) positive
      have first : 0 < (2 ^ 32 + k - 1) / k := Nat.div_pos (by omega) positive
      have round : (2 ^ 32 + k - 1) / k * k % 2 ^ 32 = (2 ^ 32 + k - 1) / k * k - 2 ^ 32 := by
        rw [Nat.mod_eq_sub_mod low, Nat.mod_eq_of_lt (by omega)]
      have inside := wrapsInside.resolve_right wraps
      have again : (2 ^ 32 + k - 1) / k * k % 2 ^ 32 ∈ share clips k n ((2 ^ 32 + k - 1) / k) :=
        start_mem_share positive (by rw [round]; exact inside)
      rw [round] at again
      exact not_exactly_of_twice first (by omega)
        (List.mem_map_of_mem (mem_share_zero narrow (by omega) inside))
        (List.mem_map_of_mem again) exactly
    refine ⟨products, ?_⟩
    rintro rfl
    by_contra wraps
    have reached : (((n + k - 1) / k - 1) * k) % 2 ^ 32 = ((n + k - 1) / k - 1) * k :=
      Nat.mod_eq_of_lt (by omega)
    have atLeast : 1 ≤ (n + k - 1) / k := Nat.div_pos (by omega) positive
    refine not_exactly_of_behind fits short (g := (n + k - 1) / k - 1) (by omega)
      (List.mem_map_of_mem ?_) exactly
    rw [share, reached, if_pos lastStart, if_pos rfl]
    exact behind_mem_clipped (by omega) lastStart short narrow.le
  · rintro ⟨products, ends⟩
    have tiled : (List.range threads).flatMap (fun g => (share clips k n g).map (nonceAt startNonce)) =
        ((List.range threads).flatMap (tile k n)).map (nonceAt startNonce) := by
      rw [List.map_flatMap]
      apply List.flatMap_congr
      intro g isThread
      rw [List.mem_range] at isThread
      have product : g * k ≤ (threads - 1) * k := Nat.mul_le_mul_right k (by omega)
      rw [share_eq_tile (by omega)]
      intro isClipped inside
      have busyThread : g < (n + k - 1) / k := by
        by_contra idle
        have := le_ceilDiv_mul (n := n) positive
        have := Nat.mul_le_mul_right k (not_lt.mp idle)
        omega
      have stop : (g + 1) * k ≤ (n + k - 1) / k * k := Nat.mul_le_mul_right k busyThread
      have bound := ends isClipped
      rw [Nat.succ_mul] at stop
      omega
    rw [tiled, flatMap_tile_all enough]
    exact scansExactly_range fits

/-- **The same where the thread is compared with the number of shares first**: the
threads must be told apart by 32 bits. -/
theorem guardedShare_exact_iff (positive : 0 < k) (narrow : k < 2 ^ 32) (some_ : 0 < n)
    (fits : startNonce.toNat + n ≤ 2 ^ 32) (short : n < 2 ^ 32) (enough : n ≤ threads * k) :
    ScansExactly startNonce n
        ((List.range threads).flatMap fun g => (guardedShare k n g).map (nonceAt startNonce)) ↔
      threads ≤ 2 ^ 32 ∧ (n + k - 1) / k * k < 2 ^ 32 := by
  obtain ⟨lastStart, lastEnd⟩ := last_share (n := n) positive some_
  have atLeast : 1 ≤ (n + k - 1) / k := Nat.div_pos (by omega) positive
  have busy : (n + k - 1) / k ≤ threads := by
    rw [ceilDiv_le_iff positive, Nat.mul_comm]
    exact enough
  have few : (n + k - 1) / k ≤ n := by
    rw [ceilDiv_le_iff positive]
    exact Nat.le_mul_of_pos_left n positive
  constructor
  · intro exactly
    constructor
    · by_contra many
      have zero (g : Nat) (isZero : g % 2 ^ 32 = 0) : 0 ∈ guardedShare k n g := by
        rw [guardedShare, isZero, if_pos (by omega)]
        refine List.mem_map.mpr ⟨0, List.mem_range.mpr ?_, by omega⟩
        rw [clippedLimit]
        split <;> omega
      exact not_exactly_of_twice (show 0 < 2 ^ 32 by decide) (by omega)
        (List.mem_map_of_mem (zero 0 rfl)) (List.mem_map_of_mem (zero _ (Nat.mod_self _))) exactly
    · by_contra wraps
      refine not_exactly_of_behind fits short (g := (n + k - 1) / k - 1) (by omega)
        (List.mem_map_of_mem ?_) exactly
      rw [guardedShare, Nat.mod_eq_of_lt (show (n + k - 1) / k - 1 < 2 ^ 32 by omega),
        if_pos (by omega)]
      exact behind_mem_clipped (by omega) lastStart short narrow.le
  · rintro ⟨told, ends⟩
    have tiled : (List.range threads).flatMap (fun g => (guardedShare k n g).map (nonceAt startNonce)) =
        ((List.range threads).flatMap (tile k n)).map (nonceAt startNonce) := by
      rw [List.map_flatMap]
      apply List.flatMap_congr
      intro g isThread
      rw [List.mem_range] at isThread
      congr 1
      rw [guardedShare, Nat.mod_eq_of_lt (by omega), tile]
      have whole := le_ceilDiv_mul (n := n) positive
      by_cases busyThread : g < (n + k - 1) / k
      · have stop : (g + 1) * k ≤ (n + k - 1) / k * k := Nat.mul_le_mul_right k busyThread
        have start : g * k ≤ ((n + k - 1) / k - 1) * k := Nat.mul_le_mul_right k (by omega)
        rw [Nat.succ_mul] at stop
        rw [if_pos busyThread, clippedLimit_of_small (by omega) (by omega)]
      · have behind : (n + k - 1) / k * k ≤ g * k := Nat.mul_le_mul_right k (not_lt.mp busyThread)
        rw [if_neg busyThread, show n - g * k = 0 by omega, Nat.min_zero, List.range_zero,
          List.map_nil]
    rw [tiled, flatMap_tile_all enough]
    exact scansExactly_range fits

/-- The bound on the products, as a bound on the range: `n / k` rounded up to shares and
then to groups of `t` threads. -/
theorem products_iff {t : Nat} (positive : 0 < k) (group : 0 < t) :
    (((n + k - 1) / k + t - 1) / t * t - 1) * k < 2 ^ 32 ↔
      n ≤ k * (t * ((2 ^ 32 + k - 1) / k / t)) := by
  rw [← ceilDiv_le_iff positive, ← roundUp_le_iff group]
  have above := ceilDiv_le_iff (n := 2 ^ 32) positive
    (((n + k - 1) / k + t - 1) / t * t - 1)
  rw [Nat.mul_comm k] at above
  have some_ : 0 < (2 ^ 32 + k - 1) / k := Nat.div_pos (by omega) positive
  constructor
  · intro small
    by_contra large
    exact absurd (above.mp (by omega)) (not_le.mpr small)
  · intro small
    by_contra large
    have := above.mpr (not_lt.mp large)
    omega

/-- The bound on the end of the last share, as a bound on the range. -/
theorem ends_iff (positive : 0 < k) :
    (n + k - 1) / k * k < 2 ^ 32 ↔ n ≤ k * ((2 ^ 32 - 1) / k) := by
  rw [← ceilDiv_le_iff positive, Nat.le_div_iff_mul_le positive]
  omega

end Shares

/-! ## Kernels -/

section Kernels

variable {startNonce nonceCount npt gid : Word} {g : Nat}

theorem toNat_base (isThread : gid.toNat = g % 2 ^ 32) :
    (gid * npt).toNat = g * npt.toNat % 2 ^ 32 := by
  rw [BitVec.toNat_mul, isThread, Nat.mod_mul_mod]

/-- The limit cut by `base_nonce + limit > nonce_count`. -/
theorem items_clipped {baseNonce : Word} (inside : baseNonce < nonceCount) :
    items startNonce baseNonce
        (if baseNonce + npt > nonceCount then nonceCount - baseNonce else npt) =
      ((List.range (clippedLimit npt.toNat nonceCount.toNat baseNonce.toNat)).map
        (baseNonce.toNat + ·)).map (nonceAt startNonce) := by
  have below : baseNonce.toNat < nonceCount.toNat := BitVec.lt_def.mp inside
  have compare : nonceCount < baseNonce + npt ↔
      nonceCount.toNat < (baseNonce.toNat + npt.toNat) % 2 ^ 32 := by
    rw [BitVec.lt_def, BitVec.toNat_add]
  rw [items_eq, clippedLimit]
  congr 3
  by_cases past : nonceCount < baseNonce + npt
  · rw [if_pos past, if_pos (compare.mp past), BitVec.toNat_sub_of_le (BitVec.le_of_lt inside)]
  · rw [if_neg past, if_neg fun is => past (compare.mpr is)]

/-- The limit that starts as the rest of the range. -/
theorem items_rest {baseNonce : Word} (inside : baseNonce < nonceCount) :
    items startNonce baseNonce
        (if nonceCount - baseNonce > npt then npt else nonceCount - baseNonce) =
      ((List.range (min npt.toNat (nonceCount.toNat - baseNonce.toNat))).map
        (baseNonce.toNat + ·)).map (nonceAt startNonce) := by
  have rest : (nonceCount - baseNonce).toNat = nonceCount.toNat - baseNonce.toNat :=
    BitVec.toNat_sub_of_le (BitVec.le_of_lt inside)
  rw [items_eq]
  congr 3
  by_cases long : npt < nonceCount - baseNonce
  · have := BitVec.lt_def.mp long
    rw [if_pos long]
    omega
  · have := BitVec.le_def.mp (BitVec.not_lt.mp long)
    rw [if_neg long]
    omega

end Kernels

end BtcRig.Gpu.Launch
