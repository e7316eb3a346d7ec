/-
# BtcRig.Gpu.CudaLaunch — the launch of `cuda_miner_scan` and its nine kernels

The host rounds the range up to whole shares and the shares up to whole blocks; a
kernel finds its share from `ctaid * ntid + tid`.  Three kernels, the standard, the
lop3 and the dual one, cut the last share by comparing `base + limit` with the range;
the fixed ones start from the rest of the range instead.

`cuda_launch_exact_iff` says for which ranges the launched threads scan every nonce
once and no other.
-/
import BtcRig.Gpu.Launch
import BtcRig.Gpu.Cuda
import BtcRig.Config.Variants

namespace BtcRig.Gpu.CudaLaunch

open BtcRig.Theory.Words
open BtcRig.Theory.Tiling
open BtcRig.Gpu.Launch
open BtcRig.Config.Variants (CudaKernelVariant)

set_option autoImplicit false

/-! ## The configuration -/

def configU32Or (value fallback : Word) : Word := if value ≠ 0 then value else fallback

def minerCudaDefaultBatchSize : Word := 4194304
def minerCudaDefaultThreadsPerBlock : Word := 256
def minerCudaDefaultNoncesPerThread : Word := 1
def minerCudaDefaultMaxResults : Word := 256

def clampThreadsPerBlock (value : Word) : Word :=
  let value := configU32Or value minerCudaDefaultThreadsPerBlock
  if value < 32 then 32
  else if value > 1024 then 1024
  else (value + 31) &&& ~~~31

def clampNoncesPerThread (value : Word) : Word :=
  let value := configU32Or value minerCudaDefaultNoncesPerThread
  if value < 1 then 1
  else if value > 16 then 16
  else value

def kernelVariantForcedNpt : CudaKernelVariant → Word
  | .fixedNpt1 | .fixedLop3Npt1 => 1
  | .fixedNpt2 | .fixedLop3Npt2 => 2
  | .fixedNpt4 | .fixedLop3Npt4 => 4
  | .standard | .dual | .lop3 => 0

structure MinerCudaConfig where
  batchSize : Word
  threadsPerBlock : Word
  noncesPerThread : Word
  maxResults : Word
  kernelVariant : CudaKernelVariant

structure CudaMiner where
  batchSize : Word
  threadsPerBlock : Word
  noncesPerThread : Word
  maxResults : Word
  kernelVariant : CudaKernelVariant

/-- `effective`, as `cuda_miner_create` stores it. -/
def cudaMinerCreate (config : MinerCudaConfig) : CudaMiner :=
  let forcedNpt := kernelVariantForcedNpt config.kernelVariant
  { batchSize := configU32Or config.batchSize minerCudaDefaultBatchSize
    threadsPerBlock := clampThreadsPerBlock config.threadsPerBlock
    noncesPerThread :=
      if forcedNpt ≠ 0 then forcedNpt else clampNoncesPerThread config.noncesPerThread
    maxResults := configU32Or config.maxResults minerCudaDefaultMaxResults
    kernelVariant := config.kernelVariant }

/-! ## The kernels -/

/-- A call of one of the three scan routines. -/
inductive ScanCall where
  | scanOneNonce (nonce : Word)
  | scanOneNonceLop3 (nonce : Word)
  | scanTwoNonces (nonce0 nonce1 : Word)

def ScanCall.nonces : ScanCall → List Word
  | .scanOneNonce nonce => [nonce]
  | .scanOneNonceLop3 nonce => [nonce]
  | .scanTwoNonces nonce0 nonce1 => [nonce0, nonce1]

/-- The body of the kernels that take the number of nonces as an argument. -/
def scanNonceRange (scanOne : Word → ScanCall) (startNonce nonceCount noncesPerThread gid : Word) :
    List ScanCall :=
  let baseNonce := gid * noncesPerThread
  if baseNonce ≥ nonceCount then []
  else
    let limit :=
      if baseNonce + noncesPerThread > nonceCount then nonceCount - baseNonce else noncesPerThread
    (items startNonce baseNonce limit).map scanOne

/-- The body of the kernels for two and four nonces. -/
def scanNonceRangeFixed (scanOne : Word → ScanCall) (npt startNonce nonceCount gid : Word) :
    List ScanCall :=
  let baseNonce := gid * npt
  if baseNonce ≥ nonceCount then []
  else
    let limit := nonceCount - baseNonce
    let limit := if limit > npt then npt else limit
    (items startNonce baseNonce limit).map scanOne

/-- The body of the kernels for one nonce. -/
def scanNonceRangeSingle (scanOne : Word → ScanCall) (startNonce nonceCount gid : Word) :
    List ScanCall :=
  if gid ≥ nonceCount then [] else [scanOne (startNonce + gid)]

def btcrigCudaScanNonceRange (startNonce nonceCount noncesPerThread gid : Word) : List ScanCall :=
  scanNonceRange .scanOneNonce startNonce nonceCount noncesPerThread gid

def btcrigCudaScanNonceRangeLop3 (startNonce nonceCount noncesPerThread gid : Word) : List ScanCall :=
  scanNonceRange .scanOneNonceLop3 startNonce nonceCount noncesPerThread gid

/-- Both loops of the dual kernel, from `nonce` on with `left` nonces to go. -/
def dualCalls (nonce : Word) : (left : Nat) → List ScanCall
  | 0 => []
  | 1 => [.scanOneNonce nonce]
  | left + 2 => .scanTwoNonces nonce (nonce + 1) :: dualCalls (nonce + 2) left

def btcrigCudaScanNonceRangeDual (startNonce nonceCount noncesPerThread gid : Word) : List ScanCall :=
  let baseNonce := gid * noncesPerThread
  if baseNonce ≥ nonceCount then []
  else
    let limit :=
      if baseNonce + noncesPerThread > nonceCount then nonceCount - baseNonce else noncesPerThread
    dualCalls (startNonce + baseNonce) limit.toNat

def btcrigCudaScanNonceRangeFixedNpt1 (startNonce nonceCount gid : Word) : List ScanCall :=
  scanNonceRangeSingle .scanOneNonce startNonce nonceCount gid

def btcrigCudaScanNonceRangeFixedNpt2 (startNonce nonceCount gid : Word) : List ScanCall :=
  scanNonceRangeFixed .scanOneNonce 2 startNonce nonceCount gid

def btcrigCudaScanNonceRangeFixedNpt4 (startNonce nonceCount gid : Word) : List ScanCall :=
  scanNonceRangeFixed .scanOneNonce 4 startNonce nonceCount gid

def btcrigCudaScanNonceRangeFixedLop3Npt1 (startNonce nonceCount gid : Word) : List ScanCall :=
  scanNonceRangeSingle .scanOneNonceLop3 startNonce nonceCount gid

def btcrigCudaScanNonceRangeFixedLop3Npt2 (startNonce nonceCount gid : Word) : List ScanCall :=
  scanNonceRangeFixed .scanOneNonceLop3 2 startNonce nonceCount gid

def btcrigCudaScanNonceRangeFixedLop3Npt4 (startNonce nonceCount gid : Word) : List ScanCall :=
  scanNonceRangeFixed .scanOneNonceLop3 4 startNonce nonceCount gid

/-- The kernel of `cuda_miner_kernel_function_name`. -/
def kernelFunction (variant : CudaKernelVariant) (startNonce nonceCount noncesPerThread gid : Word) :
    List ScanCall :=
  match variant with
  | .fixedNpt1 => btcrigCudaScanNonceRangeFixedNpt1 startNonce nonceCount gid
  | .fixedNpt2 => btcrigCudaScanNonceRangeFixedNpt2 startNonce nonceCount gid
  | .fixedNpt4 => btcrigCudaScanNonceRangeFixedNpt4 startNonce nonceCount gid
  | .lop3 => btcrigCudaScanNonceRangeLop3 startNonce nonceCount noncesPerThread gid
  | .fixedLop3Npt1 => btcrigCudaScanNonceRangeFixedLop3Npt1 startNonce nonceCount gid
  | .fixedLop3Npt2 => btcrigCudaScanNonceRangeFixedLop3Npt2 startNonce nonceCount gid
  | .fixedLop3Npt4 => btcrigCudaScanNonceRangeFixedLop3Npt4 startNonce nonceCount gid
  | .dual => btcrigCudaScanNonceRangeDual startNonce nonceCount noncesPerThread gid
  | .standard => btcrigCudaScanNonceRange startNonce nonceCount noncesPerThread gid

/-! ## The launch -/

def workItems (miner : CudaMiner) (nonceCount : Word) : Nat :=
  (nonceCount.toNat + miner.noncesPerThread.toNat - 1) / miner.noncesPerThread.toNat

def grid (miner : CudaMiner) (nonceCount : Word) : Nat :=
  (workItems miner nonceCount + miner.threadsPerBlock.toNat - 1) / miner.threadsPerBlock.toNat

/-- The calls of all threads, block by block; `none` if nothing is launched. -/
def cudaMinerScan (miner : CudaMiner) (startNonce nonceCount : Word) : Option (List ScanCall) :=
  if grid miner nonceCount = 0 ∨ grid miner nonceCount > 2 ^ 32 - 1 then none
  else
    some <| (List.range (grid miner nonceCount)).flatMap fun ctaid =>
      (List.range miner.threadsPerBlock.toNat).flatMap fun tid =>
        kernelFunction miner.kernelVariant startNonce nonceCount miner.noncesPerThread
          (BitVec.ofNat 32 ctaid * miner.threadsPerBlock + BitVec.ofNat 32 tid)

/-! ## The configuration in force -/

/-- The kernels that compare `base_nonce + limit` with the range. -/
def clips : CudaKernelVariant → Bool
  | .standard | .dual | .lop3 => true
  | _ => false

structure Usable (miner : CudaMiner) : Prop where
  block_pos : 0 < miner.threadsPerBlock.toNat
  block_le : miner.threadsPerBlock.toNat ≤ 1024
  npt_pos : 0 < miner.noncesPerThread.toNat
  npt_le : miner.noncesPerThread.toNat ≤ 16
  forced : kernelVariantForcedNpt miner.kernelVariant ≠ 0 →
    miner.noncesPerThread = kernelVariantForcedNpt miner.kernelVariant

theorem toNat_and_not_31 (x : Word) : (x &&& ~~~31).toNat = x.toNat / 32 * 32 := by
  have low : (x &&& (31 : Word)).toNat = x.toNat % 32 := by
    rw [BitVec.toNat_and]
    exact Nat.and_two_pow_sub_one_eq_mod x.toNat 5
  have := toNat_and_not_add x 31
  omega

theorem clampThreadsPerBlock_range (value : Word) :
    32 ≤ (clampThreadsPerBlock value).toNat ∧ (clampThreadsPerBlock value).toNat ≤ 1024 := by
  unfold clampThreadsPerBlock
  generalize configU32Or value minerCudaDefaultThreadsPerBlock = value
  simp only
  split
  · decide
  · rename_i low
    split
    · decide
    · rename_i high
      have low' : 32 ≤ value.toNat := BitVec.le_def.mp (BitVec.not_lt.mp low)
      have high' : value.toNat ≤ 1024 := BitVec.le_def.mp (BitVec.not_lt.mp high)
      have sum : (value + 31).toNat = value.toNat + 31 := by
        rw [BitVec.toNat_add, show (31 : Word).toNat = 31 from rfl, Nat.mod_eq_of_lt (by omega)]
      rw [toNat_and_not_31, sum]
      omega

theorem clampNoncesPerThread_range (value : Word) :
    0 < (clampNoncesPerThread value).toNat ∧ (clampNoncesPerThread value).toNat ≤ 16 := by
  unfold clampNoncesPerThread
  generalize configU32Or value minerCudaDefaultNoncesPerThread = value
  simp only
  split
  · decide
  · rename_i low
    split
    · decide
    · rename_i high
      have low' : 1 ≤ value.toNat := BitVec.le_def.mp (BitVec.not_lt.mp low)
      have high' : value.toNat ≤ 16 := BitVec.le_def.mp (BitVec.not_lt.mp high)
      exact ⟨low', high'⟩

theorem kernelVariantForcedNpt_range (variant : CudaKernelVariant)
    (forced : kernelVariantForcedNpt variant ≠ 0) :
    0 < (kernelVariantForcedNpt variant).toNat ∧ (kernelVariantForcedNpt variant).toNat ≤ 16 := by
  revert forced
  cases variant <;> decide

theorem usable_cudaMinerCreate (config : MinerCudaConfig) : Usable (cudaMinerCreate config) := by
  obtain ⟨blockLow, blockHigh⟩ := clampThreadsPerBlock_range config.threadsPerBlock
  have npt : 0 < (cudaMinerCreate config).noncesPerThread.toNat ∧
      (cudaMinerCreate config).noncesPerThread.toNat ≤ 16 := by
    simp only [cudaMinerCreate]
    by_cases forced : kernelVariantForcedNpt config.kernelVariant ≠ 0
    · rw [if_pos forced]
      exact kernelVariantForcedNpt_range _ forced
    · rw [if_neg forced]
      exact clampNoncesPerThread_range _
  exact {
    block_pos := lt_of_lt_of_le (by decide) blockLow
    block_le := blockHigh
    npt_pos := npt.1
    npt_le := npt.2
    forced := fun forced => if_pos forced }

/-! ## The routines behind the calls -/

/-- The call of a routine, given the three routines. -/
def ScanCall.run {State : Type} (one lop3 : Word → State → State) (two : Word → Word → State → State)
    (r : State) : ScanCall → State
  | .scanOneNonce nonce => one nonce r
  | .scanOneNonceLop3 nonce => lop3 nonce r
  | .scanTwoNonces nonce0 nonce1 => two nonce0 nonce1 r

/-! ## What one thread scans -/

section Thread

variable {startNonce nonceCount npt gid : Word} {g : Nat} {scanOne : Word → ScanCall}

theorem flatMap_nonces_map (single : ∀ nonce, (scanOne nonce).nonces = [nonce])
    (nonces : List Word) : (nonces.map scanOne).flatMap ScanCall.nonces = nonces := by
  rw [List.flatMap_map]
  simp [single]

theorem flatMap_nonces_dualCalls (nonce : Word) (left : Nat) :
    (dualCalls nonce left).flatMap ScanCall.nonces =
      (List.range left).map fun item => nonce + BitVec.ofNat 32 item := by
  induction nonce, left using dualCalls.induct with
  | case1 nonce => rfl
  | case2 nonce => simp [dualCalls, ScanCall.nonces]
  | case3 nonce left ih =>
      rw [dualCalls, List.flatMap_cons, ih, show left.succ.succ = 2 + left by omega, List.range_add,
        List.map_append, List.map_map]
      congr 1
      · simp [ScanCall.nonces, List.range_succ]
      · apply List.map_congr_left
        intro item _
        rw [Function.comp_apply, BitVec.ofNat_add, BitVec.add_assoc]
        rfl

theorem scanNonceRange_nonces (single : ∀ nonce, (scanOne nonce).nonces = [nonce])
    (isThread : gid.toNat = g % 2 ^ 32) :
    (scanNonceRange scanOne startNonce nonceCount npt gid).flatMap ScanCall.nonces =
      (share true npt.toNat nonceCount.toNat g).map (nonceAt startNonce) := by
  have base : (gid * npt).toNat = g * npt.toNat % 2 ^ 32 := toNat_base isThread
  simp only [scanNonceRange, share, ← base]
  by_cases inside : gid * npt < nonceCount
  · rw [if_neg (BitVec.not_le.mpr inside), if_pos (BitVec.lt_def.mp inside), if_pos trivial,
      flatMap_nonces_map single, items_clipped inside]
  · rw [if_pos (BitVec.not_lt.mp inside), if_neg fun is => inside (BitVec.lt_def.mpr is)]
    rfl

theorem scanNonceRangeDual_nonces (isThread : gid.toNat = g % 2 ^ 32) :
    (btcrigCudaScanNonceRangeDual startNonce nonceCount npt gid).flatMap ScanCall.nonces =
      (share true npt.toNat nonceCount.toNat g).map (nonceAt startNonce) := by
  have same : (btcrigCudaScanNonceRangeDual startNonce nonceCount npt gid).flatMap ScanCall.nonces =
      (scanNonceRange .scanOneNonce startNonce nonceCount npt gid).flatMap ScanCall.nonces := by
    simp only [btcrigCudaScanNonceRangeDual, scanNonceRange]
    by_cases inside : gid * npt < nonceCount
    · rw [if_neg (BitVec.not_le.mpr inside), if_neg (BitVec.not_le.mpr inside),
        flatMap_nonces_dualCalls, flatMap_nonces_map fun _ => rfl]
      rfl
    · rw [if_pos (BitVec.not_lt.mp inside), if_pos (BitVec.not_lt.mp inside)]
  rw [same]
  exact scanNonceRange_nonces (fun _ => rfl) isThread

theorem scanNonceRangeFixed_nonces (single : ∀ nonce, (scanOne nonce).nonces = [nonce])
    (isThread : gid.toNat = g % 2 ^ 32) :
    (scanNonceRangeFixed scanOne npt startNonce nonceCount gid).flatMap ScanCall.nonces =
      (share false npt.toNat nonceCount.toNat g).map (nonceAt startNonce) := by
  have base : (gid * npt).toNat = g * npt.toNat % 2 ^ 32 := toNat_base isThread
  simp only [scanNonceRangeFixed, share, ← base]
  by_cases inside : gid * npt < nonceCount
  · rw [if_neg (BitVec.not_le.mpr inside), if_pos (BitVec.lt_def.mp inside), if_neg Bool.false_ne_true,
      flatMap_nonces_map single, items_rest inside]
  · rw [if_pos (BitVec.not_lt.mp inside), if_neg fun is => inside (BitVec.lt_def.mpr is)]
    rfl

/-- A thread with one nonce is a thread with a share of one. -/
theorem scanNonceRangeSingle_nonces (single : ∀ nonce, (scanOne nonce).nonces = [nonce])
    (isThread : gid.toNat = g % 2 ^ 32) :
    (scanNonceRangeSingle scanOne startNonce nonceCount gid).flatMap ScanCall.nonces =
      (share false 1 nonceCount.toNat g).map (nonceAt startNonce) := by
  simp only [scanNonceRangeSingle, share, Nat.mul_one, ← isThread]
  by_cases inside : gid < nonceCount
  · have below : gid.toNat < nonceCount.toNat := BitVec.lt_def.mp inside
    rw [if_neg (BitVec.not_le.mpr inside), if_pos below, if_neg Bool.false_ne_true,
      show min 1 (nonceCount.toNat - gid.toNat) = 1 by omega]
    simp [single, nonceAt]
  · rw [if_pos (BitVec.not_lt.mp inside), if_neg fun is => inside (BitVec.lt_def.mpr is)]
    rfl

theorem kernelFunction_nonces {miner : CudaMiner} (usable : Usable miner)
    (isThread : gid.toNat = g % 2 ^ 32) :
    (kernelFunction miner.kernelVariant startNonce nonceCount miner.noncesPerThread gid).flatMap
        ScanCall.nonces =
      (share (clips miner.kernelVariant) miner.noncesPerThread.toNat nonceCount.toNat g).map
        (nonceAt startNonce) := by
  have forced := usable.forced
  cases isVariant : miner.kernelVariant with
  | standard => exact scanNonceRange_nonces (fun _ => rfl) isThread
  | lop3 => exact scanNonceRange_nonces (fun _ => rfl) isThread
  | dual => exact scanNonceRangeDual_nonces isThread
  | fixedNpt1 | fixedLop3Npt1 =>
      rw [forced (by rw [isVariant]; decide), isVariant]
      exact scanNonceRangeSingle_nonces (fun _ => rfl) isThread
  | fixedNpt2 | fixedNpt4 | fixedLop3Npt2 | fixedLop3Npt4 =>
      rw [forced (by rw [isVariant]; decide), isVariant]
      exact scanNonceRangeFixed_nonces (fun _ => rfl) isThread

end Thread

/-! ## What the launch scans -/

section Scan

variable {miner : CudaMiner} {startNonce nonceCount : Word}

theorem grid_range (usable : Usable miner) (some_ : 0 < nonceCount.toNat) :
    0 < grid miner nonceCount ∧ grid miner nonceCount ≤ nonceCount.toNat := by
  constructor
  · by_contra zero
    have none_ := (ceilDiv_le_iff usable.block_pos 0).mp (not_lt.mp zero)
    rw [Nat.mul_zero] at none_
    have behind := (ceilDiv_le_iff usable.npt_pos 0).mp none_
    omega
  · rw [grid, ceilDiv_le_iff usable.block_pos, workItems, ceilDiv_le_iff usable.npt_pos]
    exact (Nat.le_mul_of_pos_left _ usable.block_pos).trans (Nat.le_mul_of_pos_left _ usable.npt_pos)

/-- The kernels of all threads, in the order of their numbers. -/
theorem cudaMinerScan_nonces (startNonce : Word) (usable : Usable miner) (some_ : 0 < nonceCount.toNat) :
    ∃ calls, cudaMinerScan miner startNonce nonceCount = some calls ∧
      calls.flatMap ScanCall.nonces =
        (List.range (grid miner nonceCount * miner.threadsPerBlock.toNat)).flatMap fun g =>
          (share (clips miner.kernelVariant) miner.noncesPerThread.toNat nonceCount.toNat g).map
            (nonceAt startNonce) := by
  obtain ⟨positive, few⟩ := grid_range usable some_
  have bounded := nonceCount.isLt
  refine ⟨_, if_neg (by omega), ?_⟩
  rw [← flatMap_groups, List.flatMap_assoc, List.flatMap_assoc]
  apply List.flatMap_congr
  intro ctaid _
  rw [List.flatMap_assoc, List.flatMap_map]
  apply List.flatMap_congr
  intro tid _
  apply kernelFunction_nonces usable
  rw [BitVec.toNat_add, BitVec.toNat_mul, BitVec.toNat_ofNat, BitVec.toNat_ofNat, ← Nat.add_mod,
    Nat.add_mod, Nat.mod_mul_mod, ← Nat.add_mod]

/-- Only a range of almost `2 ^ 32` nonces makes a product wrap round. -/
theorem wraps_inside (usable : Usable miner) :
    (2 ^ 32 + miner.noncesPerThread.toNat - 1) / miner.noncesPerThread.toNat *
        miner.noncesPerThread.toNat - 2 ^ 32 < nonceCount.toNat ∨
      (grid miner nonceCount * miner.threadsPerBlock.toNat - 1) * miner.noncesPerThread.toNat <
        2 ^ 32 := by
  have round := ceilDiv_mul_lt (n := 2 ^ 32) usable.npt_pos
  have narrow := usable.npt_le
  by_cases many : 16 ≤ nonceCount.toNat
  · left
    omega
  · right
    have items : workItems miner nonceCount ≤ nonceCount.toNat := by
      rw [workItems, ceilDiv_le_iff usable.npt_pos]
      exact Nat.le_mul_of_pos_left _ usable.npt_pos
    have blocks : grid miner nonceCount * miner.threadsPerBlock.toNat <
        workItems miner nonceCount + miner.threadsPerBlock.toNat :=
      ceilDiv_mul_lt usable.block_pos
    have block := usable.block_le
    calc (grid miner nonceCount * miner.threadsPerBlock.toNat - 1) * miner.noncesPerThread.toNat
        ≤ 1040 * 16 := Nat.mul_le_mul (by omega) narrow
      _ < 2 ^ 32 := by decide

theorem enough_threads (usable : Usable miner) :
    nonceCount.toNat ≤
      grid miner nonceCount * miner.threadsPerBlock.toNat * miner.noncesPerThread.toNat :=
  (le_ceilDiv_mul usable.npt_pos).trans
    (Nat.mul_le_mul_right _ (le_ceilDiv_mul (n := workItems miner nonceCount) usable.block_pos))

/-- Some calls are made, and they scan the range exactly. -/
def ScansRange (miner : CudaMiner) (startNonce nonceCount : Word) : Prop :=
  ∃ calls, cudaMinerScan miner startNonce nonceCount = some calls ∧
    ScansExactly startNonce nonceCount.toNat (calls.flatMap ScanCall.nonces)

theorem scansRange_iff (usable : Usable miner) (some_ : 1 ≤ nonceCount.toNat)
    (fits : startNonce.toNat + nonceCount.toNat ≤ 2 ^ 32) :
    ScansRange miner startNonce nonceCount ↔
      nonceCount.toNat ≤ miner.noncesPerThread.toNat * (miner.threadsPerBlock.toNat *
          ((2 ^ 32 + miner.noncesPerThread.toNat - 1) / miner.noncesPerThread.toNat /
            miner.threadsPerBlock.toNat)) ∧
        (clips miner.kernelVariant = true → nonceCount.toNat ≤
          miner.noncesPerThread.toNat * ((2 ^ 32 - 1) / miner.noncesPerThread.toNat)) := by
  obtain ⟨calls, launched, scanned⟩ := cudaMinerScan_nonces startNonce usable some_
  rw [ScansRange, launched]
  simp only [Option.some.injEq, exists_eq_left', scanned]
  rw [share_exact_iff _ usable.npt_pos (lt_of_le_of_lt usable.npt_le (by decide)) some_ fits
    nonceCount.isLt (enough_threads usable) (wraps_inside usable), ends_iff usable.npt_pos]
  exact and_congr_left' (products_iff usable.npt_pos usable.block_pos)

end Scan

/-- **A CUDA launch scans every nonce of its range exactly once, and no other, exactly
when no thread's product reaches `2 ^ 32` and, in the kernels that compare it, neither
does the end of the last share.** -/
theorem cuda_launch_exact_iff (config : MinerCudaConfig) (startNonce nonceCount : Word)
    (some_ : 1 ≤ nonceCount.toNat) (fits : startNonce.toNat + nonceCount.toNat ≤ 2 ^ 32) :
    let miner := cudaMinerCreate config
    let npt := miner.noncesPerThread.toNat
    let block := miner.threadsPerBlock.toNat
    ScansRange miner startNonce nonceCount ↔
      nonceCount.toNat ≤ npt * (block * ((2 ^ 32 + npt - 1) / npt / block)) ∧
        (clips miner.kernelVariant = true → nonceCount.toNat ≤ npt * ((2 ^ 32 - 1) / npt)) := by
  intro miner npt block
  exact scansRange_iff (usable_cudaMinerCreate config) some_ fits

/-- The default batch, at the defaults of the standard kernel. -/
theorem cuda_launch_exact_iff_example :
    ScansRange (cudaMinerCreate ⟨0, 0, 0, 0, .standard⟩) 0x10000000 4194304 :=
  (cuda_launch_exact_iff ⟨0, 0, 0, 0, .standard⟩ 0x10000000 4194304 (by decide) (by decide)).mpr
    ⟨by decide, fun _ => by decide⟩

/-- The largest batch, with sixteen nonces a thread: the end of the last share is
`2 ^ 32`, the comparison reads zero, and nonce `0xffffffff` is scanned behind the range. -/
theorem cuda_launch_overruns :
    let miner := cudaMinerCreate ⟨0xffffffff, 256, 16, 256, .standard⟩
    (0xffffffff : Word) ≤ miner.batchSize ∧
      (0 : Word).toNat + (0xffffffff : Word).toNat ≤ 2 ^ 32 ∧
      ¬ScansRange miner 0 0xffffffff := by
  intro miner
  refine ⟨by decide, by decide, ?_⟩
  rw [scansRange_iff (usable_cudaMinerCreate _) (by decide) (by decide)]
  decide

end BtcRig.Gpu.CudaLaunch
