/-
# BtcRig.Gpu.OpenClLaunch — the launch of `opencl_miner_scan` and its eight kernels

`opencl_miner_create` settles the variant, the nonces per work-item and the local size
together; the kernel follows from the first two.  A kernel for one, two or four nonces
checks every nonce against the range, the register-heavy one passes the check on as
`second_valid`, and the general kernel compares its number with the number of shares
and cuts the last share by `base_nonce + limit`.

`opencl_launch_exact_iff` says for which ranges the work-items scan every nonce once
and no other.
-/
import BtcRig.Gpu.Launch
import BtcRig.Config.Variants

namespace BtcRig.Gpu.OpenClLaunch

open BtcRig.Theory.Words
open BtcRig.Theory.Tiling
open BtcRig.Gpu.Launch
open BtcRig.Gpu.OpenCl (BackendVariant KernelVariant Source kernelVariantFixedNpi buildProgram)
open BtcRig.Config.Variants (asciiTolowerChar)

set_option autoImplicit false

/-! ## The kernels -/

/-- A call of one of the two scan routines. -/
inductive ScanCall where
  | scanOneNonce (nonce : Word)
  | scanTwoNoncesVec (nonce0 : Word) (secondValid : Bool)

def ScanCall.nonces : ScanCall → List Word
  | .scanOneNonce nonce => [nonce]
  | .scanTwoNoncesVec nonce0 secondValid => if secondValid then [nonce0, nonce0 + 1] else [nonce0]

/-- `SCAN_ONE` of every nonce of a work-item that is in the range, `base_nonce` first. -/
def scanNonceRangeNpi (npi : Nat) (startNonce nonceCount gid : Word) : List ScanCall :=
  let baseNonce := gid * BitVec.ofNat 32 npi
  if baseNonce ≥ nonceCount then []
  else
    .scanOneNonce (startNonce + baseNonce) ::
      ((List.range' 1 (npi - 1)).filter fun item => baseNonce + BitVec.ofNat 32 item < nonceCount).map
        fun item => .scanOneNonce (startNonce + (baseNonce + BitVec.ofNat 32 item))

def scanNonceRangeNpi1 (startNonce nonceCount gid : Word) : List ScanCall :=
  if gid ≥ nonceCount then [] else [.scanOneNonce (startNonce + gid)]

def scanNonceRangeNpi2 (startNonce nonceCount gid : Word) : List ScanCall :=
  scanNonceRangeNpi 2 startNonce nonceCount gid

def scanNonceRangeNpi4 (startNonce nonceCount gid : Word) : List ScanCall :=
  scanNonceRangeNpi 4 startNonce nonceCount gid

def scanNonceRange (startNonce nonceCount noncesPerWorkItem gid : Word) : List ScanCall :=
  if nonceCount = 0 then []
  else
    let workItems := (nonceCount - 1) / noncesPerWorkItem + 1
    if gid ≥ workItems then []
    else
      let baseNonce := gid * noncesPerWorkItem
      let limit :=
        if baseNonce + noncesPerWorkItem > nonceCount then nonceCount - baseNonce
        else noncesPerWorkItem
      (List.range limit.toNat).map fun item =>
        .scanOneNonce (startNonce + (baseNonce + BitVec.ofNat 32 item))

def modernScanNonceRangeFixedNpi1 (startNonce nonceCount gid : Word) : List ScanCall :=
  if gid ≥ nonceCount then [] else [.scanOneNonce (startNonce + gid)]

def modernScanNonceRangeFixedNpi2 (startNonce nonceCount gid : Word) : List ScanCall :=
  scanNonceRangeNpi 2 startNonce nonceCount gid

def modernScanNonceRangeFixedNpi4 (startNonce nonceCount gid : Word) : List ScanCall :=
  scanNonceRangeNpi 4 startNonce nonceCount gid

def modernScanNonceRangeRegisterHeavy (startNonce nonceCount gid : Word) : List ScanCall :=
  let baseNonce := gid * 2
  if baseNonce ≥ nonceCount then []
  else [.scanTwoNoncesVec (startNonce + baseNonce) (baseNonce + 1 < nonceCount)]

inductive KernelName where
  | scanNonceRangeNpi1
  | scanNonceRangeNpi2
  | scanNonceRangeNpi4
  | scanNonceRange
  | modernScanNonceRangeFixedNpi1
  | modernScanNonceRangeFixedNpi2
  | modernScanNonceRangeFixedNpi4
  | modernScanNonceRangeRegisterHeavy
deriving DecidableEq

/-- The string that defines a kernel. -/
def KernelName.source : KernelName → Source
  | .scanNonceRangeNpi1 | .scanNonceRangeNpi2 | .scanNonceRangeNpi4 | .scanNonceRange => .tailKernels
  | .modernScanNonceRangeFixedNpi1 | .modernScanNonceRangeFixedNpi2
  | .modernScanNonceRangeFixedNpi4 => .modernFixedKernels
  | .modernScanNonceRangeRegisterHeavy => .modernRegisterKernel

def KernelName.run (name : KernelName) (startNonce nonceCount noncesPerWorkItem gid : Word) :
    List ScanCall :=
  match name with
  | .scanNonceRangeNpi1 => OpenClLaunch.scanNonceRangeNpi1 startNonce nonceCount gid
  | .scanNonceRangeNpi2 => OpenClLaunch.scanNonceRangeNpi2 startNonce nonceCount gid
  | .scanNonceRangeNpi4 => OpenClLaunch.scanNonceRangeNpi4 startNonce nonceCount gid
  | .scanNonceRange => OpenClLaunch.scanNonceRange startNonce nonceCount noncesPerWorkItem gid
  | .modernScanNonceRangeFixedNpi1 =>
      OpenClLaunch.modernScanNonceRangeFixedNpi1 startNonce nonceCount gid
  | .modernScanNonceRangeFixedNpi2 =>
      OpenClLaunch.modernScanNonceRangeFixedNpi2 startNonce nonceCount gid
  | .modernScanNonceRangeFixedNpi4 =>
      OpenClLaunch.modernScanNonceRangeFixedNpi4 startNonce nonceCount gid
  | .modernScanNonceRangeRegisterHeavy =>
      OpenClLaunch.modernScanNonceRangeRegisterHeavy startNonce nonceCount gid

def kernelNameForNpi (noncesPerWorkItem : Word) : KernelName :=
  if noncesPerWorkItem = 1 then .scanNonceRangeNpi1
  else if noncesPerWorkItem = 2 then .scanNonceRangeNpi2
  else if noncesPerWorkItem = 4 then .scanNonceRangeNpi4
  else .scanNonceRange

def kernelNameForVariant (variant : KernelVariant) (noncesPerWorkItem : Word) : KernelName :=
  match variant with
  | .fixedNpi1 => .modernScanNonceRangeFixedNpi1
  | .fixedNpi2 => .modernScanNonceRangeFixedNpi2
  | .fixedNpi4 => .modernScanNonceRangeFixedNpi4
  | .registerHeavy => .modernScanNonceRangeRegisterHeavy
  | _ => kernelNameForNpi noncesPerWorkItem

/-! ## The configuration -/

def openclDefaultBatchSize : Word := 1048576
def openclDefaultMaxResults : Word := 256
def openclDefaultNoncesPerWorkItem : Word := 1
def openclMaxNoncesPerWorkItem : Word := 64

def configU32Or (value fallback : Word) : Word := if value = 0 then fallback else value

def clampNoncesPerWorkItem (value : Word) : Word :=
  if value = 0 then openclDefaultNoncesPerWorkItem
  else if value > openclMaxNoncesPerWorkItem then openclMaxNoncesPerWorkItem
  else value

def kernelVariantForcedNpi (variant : KernelVariant) : Word :=
  let fixedNpi := BitVec.ofNat 32 (kernelVariantFixedNpi variant)
  if fixedNpi ≠ 0 then fixedNpi else if variant = .registerHeavy then 2 else 0

def kernelVariantModernOnly (variant : KernelVariant) : Bool :=
  kernelVariantFixedNpi variant ≠ 0 || variant = .registerHeavy

def stringContainsCi (text needle : List Char) : Bool :=
  text.tails.any fun p => (needle.map asciiTolowerChar).isPrefixOf (p.map asciiTolowerChar)

def chooseLocalWorkSize (preferred : Word) (maxWorkGroup : Nat) : Word :=
  if maxWorkGroup = 0 then 0
  else if preferred > 0 ∧ preferred.toNat ≤ maxWorkGroup then preferred
  else (([512, 256, 128, 64, 32, 16, 8, 4, 2, 1] : List Word).find? (·.toNat ≤ maxWorkGroup)).getD 0

def defaultLocalWorkSizeForDevice (vendor name : List Char) (maxWorkGroup : Nat) : Word :=
  -- the branches for AMD and NVIDIA leave the 256 they find
  let preferred : Word :=
    if stringContainsCi vendor "intel".toList || stringContainsCi name "intel".toList then 128
    else 256
  chooseLocalWorkSize preferred maxWorkGroup

/-- What the driver says about a device, and what it makes of a program. -/
structure Device where
  vendor : List Char
  name : List Char
  /-- The version that `parse_opencl_version` reads. -/
  version : Option (Int × Int)
  globalInt32BaseAtomics : Bool
  maxWorkGroup : Nat
  builds : List Source → KernelName → Bool

def openclVersionAtLeast (device : Device) (major minor : Int) : Bool :=
  match device.version with
  | none => false
  | some (parsedMajor, parsedMinor) =>
      parsedMajor > major || (parsedMajor = major && parsedMinor ≥ minor)

def validateCompat10Device (device : Device) : Bool :=
  openclVersionAtLeast device 1 0 &&
    (openclVersionAtLeast device 1 1 || device.globalInt32BaseAtomics)

def resolveBackendVariant (device : Device) (requested : BackendVariant) : Option BackendVariant :=
  let requested :=
    if requested = .auto then
      if openclVersionAtLeast device 1 2 then .modern else .compat10
    else requested
  if requested = .modern then
    if openclVersionAtLeast device 1 2 then some .modern else none
  else if validateCompat10Device device then some .compat10 else none

structure MinerOpenclConfig where
  batchSize : Word
  localWorkSize : Word
  noncesPerWorkItem : Word
  maxResults : Word
  backendVariant : BackendVariant
  kernelVariant : KernelVariant

structure OpenclMiner where
  batchSize : Word
  localWorkSize : Word
  noncesPerWorkItem : Word
  maxResults : Word
  backendVariant : BackendVariant
  kernelVariant : KernelVariant

def OpenclMiner.kernelName (miner : OpenclMiner) : KernelName :=
  kernelNameForVariant miner.kernelVariant miner.noncesPerWorkItem

def OpenclMiner.builds (miner : OpenclMiner) (device : Device) : Bool :=
  device.builds (buildProgram miner.backendVariant miner.kernelVariant) miner.kernelName

/-- The fields that `opencl_miner_create` fills from the configuration and the device. -/
def openclMinerOf (config : MinerOpenclConfig) (device : Device) (backendVariant : BackendVariant)
    (kernelVariant : KernelVariant) : OpenclMiner :=
  let batchSize := configU32Or config.batchSize openclDefaultBatchSize
  let maxResults := configU32Or config.maxResults openclDefaultMaxResults
  let forcedNpi := kernelVariantForcedNpi kernelVariant
  { batchSize := if batchSize < 1024 then 1024 else batchSize
    localWorkSize :=
      if config.localWorkSize = 0 then
        defaultLocalWorkSizeForDevice device.vendor device.name device.maxWorkGroup
      else if device.maxWorkGroup > 0 ∧ config.localWorkSize.toNat > device.maxWorkGroup then
        BitVec.ofNat 32 device.maxWorkGroup
      else config.localWorkSize
    noncesPerWorkItem :=
      if forcedNpi ≠ 0 then forcedNpi else clampNoncesPerWorkItem config.noncesPerWorkItem
    maxResults := if maxResults < 1 then 1 else maxResults
    backendVariant := backendVariant
    kernelVariant := kernelVariant }

/-- `none` where no miner is made; buffers are always found. -/
def openclMinerCreate (config : MinerOpenclConfig) (device : Device) : Option OpenclMiner :=
  let kernelVariant := if config.kernelVariant = .auto then .unrolled else config.kernelVariant
  match resolveBackendVariant device config.backendVariant with
  | none => none
  | some backendVariant =>
      let miner := openclMinerOf config device backendVariant kernelVariant
      if kernelVariantModernOnly kernelVariant ∧ backendVariant ≠ .modern then none
      else if miner.builds device then some miner
      -- a program that the driver does not take is tried once more with rolled rounds
      else if config.kernelVariant = .auto ∧
          { miner with kernelVariant := .compact }.builds device then
        some { miner with kernelVariant := .compact }
      else none

/-! ## The launch -/

def globalSize (miner : OpenclMiner) (nonceCount : Word) : Nat :=
  let global :=
    (nonceCount.toNat + miner.noncesPerWorkItem.toNat - 1) / miner.noncesPerWorkItem.toNat
  let localSize := miner.localWorkSize.toNat
  if localSize > 0 then
    let rem := global % localSize
    if rem ≠ 0 then global + (localSize - rem) else global
  else global

/-- The calls of all work-items, each with the low word of its global id. -/
def openclMinerScan (miner : OpenclMiner) (startNonce nonceCount : Word) : List ScanCall :=
  if nonceCount = 0 then []
  else
    (List.range (globalSize miner nonceCount)).flatMap fun globalId =>
      miner.kernelName.run startNonce nonceCount miner.noncesPerWorkItem (BitVec.ofNat 32 globalId)

/-! ## The configuration in force -/

structure Usable (miner : OpenclMiner) : Prop where
  npi_pos : 0 < miner.noncesPerWorkItem.toNat
  npi_le : miner.noncesPerWorkItem.toNat ≤ 64
  forced : kernelVariantForcedNpi miner.kernelVariant ≠ 0 →
    miner.noncesPerWorkItem = kernelVariantForcedNpi miner.kernelVariant
  settled : miner.kernelVariant ≠ .auto
  modern : kernelVariantModernOnly miner.kernelVariant = true → miner.backendVariant = .modern

theorem clampNoncesPerWorkItem_range (value : Word) :
    0 < (clampNoncesPerWorkItem value).toNat ∧ (clampNoncesPerWorkItem value).toNat ≤ 64 := by
  unfold clampNoncesPerWorkItem
  split
  · decide
  · rename_i some_
    split
    · decide
    · rename_i high
      have high' : value.toNat ≤ 64 := BitVec.le_def.mp (BitVec.not_lt.mp high)
      refine ⟨?_, high'⟩
      by_contra zero
      exact some_ (BitVec.eq_of_toNat_eq (Nat.eq_zero_of_not_pos zero))

theorem kernelVariantForcedNpi_range (variant : KernelVariant)
    (forced : kernelVariantForcedNpi variant ≠ 0) :
    0 < (kernelVariantForcedNpi variant).toNat ∧ (kernelVariantForcedNpi variant).toNat ≤ 64 := by
  revert forced
  cases variant <;> decide

theorem npi_openclMinerOf (config : MinerOpenclConfig) (device : Device)
    (backendVariant : BackendVariant) (kernelVariant : KernelVariant) :
    let npi := (openclMinerOf config device backendVariant kernelVariant).noncesPerWorkItem.toNat
    0 < npi ∧ npi ≤ 64 := by
  simp only [openclMinerOf]
  by_cases forced : kernelVariantForcedNpi kernelVariant ≠ 0
  · rw [if_pos forced]
    exact kernelVariantForcedNpi_range _ forced
  · rw [if_neg forced]
    exact clampNoncesPerWorkItem_range _

theorem usable_openclMinerCreate {config : MinerOpenclConfig} {device : Device} {miner : OpenclMiner}
    (created : openclMinerCreate config device = some miner) : Usable miner := by
  unfold openclMinerCreate at created
  simp only at created
  generalize isVariant :
    (if config.kernelVariant = .auto then KernelVariant.unrolled else config.kernelVariant) = variant
    at created
  have settled : variant ≠ .auto := by
    rw [← isVariant]
    split
    · decide
    · assumption
  split at created
  · contradiction
  · rename_i backend _
    obtain ⟨low, high⟩ := npi_openclMinerOf config device backend variant
    split at created
    · contradiction
    · rename_i allowed
      split at created
      · obtain rfl := Option.some.inj created
        refine ⟨low, high, fun forced => if_pos forced, settled, ?_⟩
        intro only
        by_contra other
        exact allowed ⟨only, other⟩
      · split at created
        · obtain rfl := Option.some.inj created
          -- the rolled rounds force nothing
          exact ⟨low, high, fun forced => absurd rfl forced, nofun, nofun⟩
        · contradiction

/-- A miner has the backend that was resolved for it. -/
theorem resolved_openclMinerCreate {config : MinerOpenclConfig} {device : Device}
    {miner : OpenclMiner} (created : openclMinerCreate config device = some miner) :
    resolveBackendVariant device config.backendVariant = some miner.backendVariant := by
  unfold openclMinerCreate at created
  simp only at created
  split at created
  · cases created
  · rename_i backend resolved
    split_ifs at created <;> obtain rfl := Option.some.inj created <;> exact resolved

/-- The kernel of a miner is in its program. -/
theorem kernelName_source_mem {miner : OpenclMiner} (usable : Usable miner) :
    miner.kernelName.source ∈ buildProgram miner.backendVariant miner.kernelVariant := by
  have forNpi (npi : Word) : (kernelNameForNpi npi).source = .tailKernels := by
    unfold kernelNameForNpi
    repeat' split <;> try rfl
  have modern := usable.modern
  cases isVariant : miner.kernelVariant with
  | auto => exact absurd isVariant usable.settled
  | compact | unrolled =>
      rw [OpenclMiner.kernelName, isVariant]
      show (kernelNameForNpi _).source ∈ _
      rw [forNpi]
      cases miner.backendVariant <;> decide
  | fixedNpi1 | fixedNpi2 | fixedNpi4 =>
      rw [OpenclMiner.kernelName, isVariant, modern (by rw [isVariant]; decide)]
      show Source.modernFixedKernels ∈ _
      decide
  | registerHeavy =>
      rw [OpenclMiner.kernelName, isVariant, modern (by rw [isVariant]; decide)]
      show Source.modernRegisterKernel ∈ _
      decide

/-! ## The routines behind the calls -/

/-- The call of a routine, given the two routines. -/
def ScanCall.run {State : Type} (one : Word → State → State) (two : Word → Bool → State → State)
    (r : State) : ScanCall → State
  | .scanOneNonce nonce => one nonce r
  | .scanTwoNoncesVec nonce0 secondValid => two nonce0 secondValid r

/-! ## What one work-item scans -/

section WorkItem

variable {startNonce nonceCount gid : Word} {g npi : Nat}

theorem flatMap_nonces_map (nonceOf : Nat → Word) (items : List Nat) :
    (items.map fun item => .scanOneNonce (nonceOf item)).flatMap ScanCall.nonces =
      items.map nonceOf := by
  rw [List.flatMap_map]
  exact List.map_eq_flatMap.symm

/-- The first nonce needs no check of its own. -/
theorem scanNonceRangeNpi_nonces (positive : 0 < npi)
    (inside : gid * BitVec.ofNat 32 npi < nonceCount) :
    (scanNonceRangeNpi npi startNonce nonceCount gid).flatMap ScanCall.nonces =
      ((List.range npi).filter fun item =>
          gid * BitVec.ofNat 32 npi + BitVec.ofNat 32 item < nonceCount).map
        fun item => startNonce + (gid * BitVec.ofNat 32 npi + BitVec.ofNat 32 item) := by
  obtain ⟨m, rfl⟩ : ∃ m, npi = m + 1 := ⟨npi - 1, by omega⟩
  generalize isBase : gid * BitVec.ofNat 32 (m + 1) = baseNonce at inside
  have first : baseNonce + BitVec.ofNat 32 0 = baseNonce := BitVec.add_zero baseNonce
  simp only [scanNonceRangeNpi, isBase]
  rw [if_neg (BitVec.not_le.mpr inside), List.range_eq_range', List.range'_succ,
    List.filter_cons_of_pos (by rw [first]; exact decide_eq_true inside), List.map_cons, first,
    List.flatMap_cons, flatMap_nonces_map]
  rfl

/-- A share of a divisor of `2 ^ 32` never runs over the end of the words. -/
theorem scanNonceRangeNpi_share (positive : 0 < npi) (narrow : npi < 2 ^ 32) (divides : npi ∣ 2 ^ 32)
    (isThread : gid.toNat = g % 2 ^ 32) :
    (scanNonceRangeNpi npi startNonce nonceCount gid).flatMap ScanCall.nonces =
      (share false npi nonceCount.toNat g).map (nonceAt startNonce) := by
  have base : (gid * BitVec.ofNat 32 npi).toNat = g * npi % 2 ^ 32 := by
    rw [toNat_base isThread, BitVec.toNat_ofNat, Nat.mod_eq_of_lt narrow]
  have room : g * npi % 2 ^ 32 + npi ≤ 2 ^ 32 := by
    obtain ⟨r, isR⟩ := divides
    have below := Nat.mod_lt g (show 0 < r by rcases r with _ | r <;> omega)
    rw [isR, Nat.mul_comm g, Nat.mul_mod_mul_left, ← Nat.mul_succ]
    exact Nat.mul_le_mul_left npi below
  by_cases inside : gid * BitVec.ofNat 32 npi < nonceCount
  · rw [scanNonceRangeNpi_nonces positive inside]
    generalize gid * BitVec.ofNat 32 npi = baseNonce at base inside
    have below : baseNonce.toNat < nonceCount.toNat := BitVec.lt_def.mp inside
    simp only [share, ← base]
    rw [if_pos below, if_neg Bool.false_ne_true, ← filter_range_lt, List.map_map]
    have checked : (List.range npi).filter (fun item =>
          decide (baseNonce + BitVec.ofNat 32 item < nonceCount)) =
        (List.range npi).filter fun item => decide (item < nonceCount.toNat - baseNonce.toNat) := by
      apply List.filter_congr
      intro item isItem
      rw [List.mem_range] at isItem
      rw [decide_eq_decide, BitVec.lt_def, BitVec.toNat_add, BitVec.toNat_ofNat, Nat.add_mod_mod,
        Nat.mod_eq_of_lt (by omega)]
      omega
    rw [checked]
    apply List.map_congr_left
    intro item _
    rw [Function.comp_apply, nonceAt, BitVec.ofNat_add, BitVec.ofNat_toNat, BitVec.setWidth_eq]
  · rw [scanNonceRangeNpi, if_pos (BitVec.not_lt.mp inside), share, ← base,
      if_neg fun is => inside (BitVec.lt_def.mpr is)]
    rfl

theorem scanNonceRangeNpi1_eq :
    scanNonceRangeNpi1 startNonce nonceCount gid = scanNonceRangeNpi 1 startNonce nonceCount gid := by
  simp [scanNonceRangeNpi1, scanNonceRangeNpi]

/-- The pair of the register-heavy kernel is the two checked nonces. -/
theorem registerHeavy_nonces :
    (modernScanNonceRangeRegisterHeavy startNonce nonceCount gid).flatMap ScanCall.nonces =
      (scanNonceRangeNpi 2 startNonce nonceCount gid).flatMap ScanCall.nonces := by
  simp only [modernScanNonceRangeRegisterHeavy, scanNonceRangeNpi]
  show List.flatMap ScanCall.nonces (if gid * 2 ≥ nonceCount then _ else _) =
    List.flatMap ScanCall.nonces (if gid * 2 ≥ nonceCount then _ else _)
  by_cases inside : gid * 2 < nonceCount
  · rw [if_neg (BitVec.not_le.mpr inside), if_neg (BitVec.not_le.mpr inside), List.flatMap_cons,
      List.flatMap_cons, flatMap_nonces_map]
    generalize gid * 2 = baseNonce
    show (if decide (baseNonce + 1 < nonceCount) = true then _ else _) ++ [] =
      [_] ++ List.map _ (List.filter _ [1])
    by_cases second : decide (baseNonce + 1 < nonceCount) = true
    · have kept : [1].filter (fun item => decide (baseNonce + BitVec.ofNat 32 item < nonceCount)) = [1] :=
        List.filter_cons_of_pos second
      rw [if_pos second, kept]
      simp [BitVec.add_assoc]
    · have dropped : [1].filter (fun item => decide (baseNonce + BitVec.ofNat 32 item < nonceCount)) = [] :=
        List.filter_cons_of_neg second
      rw [if_neg second, dropped]
      simp
  · rw [if_pos (BitVec.not_lt.mp inside), if_pos (BitVec.not_lt.mp inside)]

/-- The general kernel: the number of shares is `(n - 1) / k + 1`, and a share that
passes the comparison has a product below `2 ^ 32`. -/
theorem scanNonceRange_share {noncesPerWorkItem : Word} (positive : 0 < noncesPerWorkItem.toNat)
    (some_ : 0 < nonceCount.toNat) (isThread : gid.toNat = g % 2 ^ 32) :
    (scanNonceRange startNonce nonceCount noncesPerWorkItem gid).flatMap ScanCall.nonces =
      (guardedShare noncesPerWorkItem.toNat nonceCount.toNat g).map (nonceAt startNonce) := by
  have bounded := nonceCount.isLt
  have nonzero : nonceCount ≠ 0 := by
    rintro rfl
    exact lt_irrefl 0 some_
  have rounded : (nonceCount.toNat + noncesPerWorkItem.toNat - 1) / noncesPerWorkItem.toNat =
      (nonceCount.toNat - 1) / noncesPerWorkItem.toNat + 1 := by
    rw [show nonceCount.toNat + noncesPerWorkItem.toNat - 1 =
      nonceCount.toNat - 1 + noncesPerWorkItem.toNat by omega, Nat.add_div_right _ positive]
  have one_le : (1 : Word) ≤ nonceCount := BitVec.le_def.mpr some_
  have few := Nat.div_le_self (nonceCount.toNat - 1) noncesPerWorkItem.toNat
  have workItems : ((nonceCount - 1) / noncesPerWorkItem + 1).toNat =
      (nonceCount.toNat - 1) / noncesPerWorkItem.toNat + 1 := by
    rw [BitVec.toNat_add, BitVec.toNat_udiv, BitVec.toNat_sub_of_le one_le]
    show ((nonceCount.toNat - 1) / noncesPerWorkItem.toNat + 1) % 2 ^ 32 = _
    exact Nat.mod_eq_of_lt (by omega)
  simp only [scanNonceRange, guardedShare, ← isThread]
  rw [if_neg nonzero, rounded, ← workItems]
  by_cases busy : gid < (nonceCount - 1) / noncesPerWorkItem + 1
  · have within : gid.toNat * noncesPerWorkItem.toNat < nonceCount.toNat := by
      have count := BitVec.lt_def.mp busy
      rw [workItems] at count
      have := Nat.mul_le_mul_right noncesPerWorkItem.toNat (Nat.le_of_lt_succ count)
      have := Nat.div_mul_le_self (nonceCount.toNat - 1) noncesPerWorkItem.toNat
      omega
    have base : (gid * noncesPerWorkItem).toNat = gid.toNat * noncesPerWorkItem.toNat := by
      rw [BitVec.toNat_mul, Nat.mod_eq_of_lt (by omega)]
    have inside : gid * noncesPerWorkItem < nonceCount := by
      rw [BitVec.lt_def, base]
      exact within
    rw [if_neg (BitVec.not_le.mpr busy), if_pos (BitVec.lt_def.mp busy), ← base,
      ← items_clipped inside, items, flatMap_nonces_map]
    simp only [BitVec.add_assoc]
  · rw [if_pos (BitVec.not_lt.mp busy), if_neg fun is => busy (BitVec.lt_def.mpr is)]
    rfl

end WorkItem

/-! ## What the launch scans -/

section Launch

variable {miner : OpenclMiner} {startNonce nonceCount : Word}

theorem kernelNameForNpi_agrees {npi : Word} (checked : kernelNameForNpi npi ≠ .scanNonceRange) :
    npi.toNat ∣ 2 ^ 32 ∧ ∀ startNonce nonceCount gid,
      ((kernelNameForNpi npi).run startNonce nonceCount npi gid).flatMap ScanCall.nonces =
        (scanNonceRangeNpi npi.toNat startNonce nonceCount gid).flatMap ScanCall.nonces := by
  unfold kernelNameForNpi at checked ⊢
  split
  · rename_i isOne
    refine ⟨by rw [isOne]; decide, fun _ _ _ => ?_⟩
    rw [isOne, KernelName.run, scanNonceRangeNpi1_eq]
    rfl
  · rename_i notOne
    rw [if_neg notOne] at checked
    split
    · rename_i isTwo
      refine ⟨by rw [isTwo]; decide, fun _ _ _ => ?_⟩
      rw [isTwo]
      rfl
    · rename_i notTwo
      rw [if_neg notTwo] at checked
      split
      · rename_i isFour
        refine ⟨by rw [isFour]; decide, fun _ _ _ => ?_⟩
        rw [isFour]
        rfl
      · rename_i notFour
        exact absurd (if_neg notFour) checked

/-- The kernels that check every nonce are built for as many as the host counts. -/
theorem kernelName_agrees (usable : Usable miner) (checked : miner.kernelName ≠ .scanNonceRange) :
    miner.noncesPerWorkItem.toNat ∣ 2 ^ 32 ∧ ∀ startNonce nonceCount gid,
      (miner.kernelName.run startNonce nonceCount miner.noncesPerWorkItem gid).flatMap
          ScanCall.nonces =
        (scanNonceRangeNpi miner.noncesPerWorkItem.toNat startNonce nonceCount gid).flatMap
          ScanCall.nonces := by
  have forced := usable.forced
  unfold OpenclMiner.kernelName at checked ⊢
  cases isVariant : miner.kernelVariant with
  | auto => exact absurd isVariant usable.settled
  | compact | unrolled =>
      rw [isVariant] at checked
      exact kernelNameForNpi_agrees checked
  | fixedNpi1 =>
      rw [forced (by rw [isVariant]; decide), isVariant]
      refine ⟨by decide, fun startNonce nonceCount gid => ?_⟩
      exact congrArg (List.flatMap ScanCall.nonces) scanNonceRangeNpi1_eq
  | fixedNpi2 | fixedNpi4 =>
      rw [forced (by rw [isVariant]; decide), isVariant]
      exact ⟨by decide, fun _ _ _ => rfl⟩
  | registerHeavy =>
      rw [forced (by rw [isVariant]; decide), isVariant]
      exact ⟨by decide, fun _ _ _ => registerHeavy_nonces⟩

/-- The general kernel is left with three nonces a work-item or more. -/
theorem three_le_npi (usable : Usable miner) (general : miner.kernelName = .scanNonceRange) :
    3 ≤ miner.noncesPerWorkItem.toNat := by
  have positive := usable.npi_pos
  have byNpi (same : kernelNameForNpi miner.noncesPerWorkItem = .scanNonceRange) :
      3 ≤ miner.noncesPerWorkItem.toNat := by
    by_contra few
    have cases_ : miner.noncesPerWorkItem = 1 ∨ miner.noncesPerWorkItem = 2 := by
      rw [← BitVec.toNat_inj, ← BitVec.toNat_inj]
      show _ = 1 ∨ _ = 2
      omega
    rcases cases_ with isOne | isTwo
    · rw [isOne] at same
      exact absurd same (by decide)
    · rw [isTwo] at same
      exact absurd same (by decide)
  unfold OpenclMiner.kernelName at general
  cases isVariant : miner.kernelVariant with
  | auto => exact absurd isVariant usable.settled
  | compact | unrolled =>
      rw [isVariant] at general
      exact byNpi general
  | fixedNpi1 | fixedNpi2 | fixedNpi4 | registerHeavy =>
      rw [isVariant] at general
      contradiction

def shares (miner : OpenclMiner) (nonceCount : Word) : Nat :=
  (nonceCount.toNat + miner.noncesPerWorkItem.toNat - 1) / miner.noncesPerWorkItem.toNat

theorem globalSize_of_zero (unset : miner.localWorkSize.toNat = 0) :
    globalSize miner nonceCount = shares miner nonceCount := by
  simp only [globalSize]
  rw [if_neg (by omega)]
  rfl

theorem globalSize_of_pos (set : 0 < miner.localWorkSize.toNat) :
    globalSize miner nonceCount =
      (shares miner nonceCount + miner.localWorkSize.toNat - 1) / miner.localWorkSize.toNat *
        miner.localWorkSize.toNat := by
  rw [← add_missing set]
  simp only [globalSize]
  rw [if_pos set]
  rfl

theorem enough_items (usable : Usable miner) :
    nonceCount.toNat ≤ globalSize miner nonceCount * miner.noncesPerWorkItem.toNat := by
  have whole : nonceCount.toNat ≤ shares miner nonceCount * miner.noncesPerWorkItem.toNat :=
    le_ceilDiv_mul usable.npi_pos
  by_cases set : 0 < miner.localWorkSize.toNat
  · rw [globalSize_of_pos set]
    exact whole.trans (Nat.mul_le_mul_right _ (le_ceilDiv_mul set))
  · rw [globalSize_of_zero (by omega)]
    exact whole

/-- With three nonces a work-item the ids stay below `2 ^ 32`, whatever the local size. -/
theorem globalSize_le (usable : Usable miner) (some_ : 1 ≤ nonceCount.toNat)
    (many : 3 ≤ miner.noncesPerWorkItem.toNat) : globalSize miner nonceCount ≤ 2 ^ 32 := by
  have bounded := nonceCount.isLt
  have localBound := miner.localWorkSize.isLt
  have npi := usable.npi_le
  have behind : shares miner nonceCount * miner.noncesPerWorkItem.toNat <
      nonceCount.toNat + miner.noncesPerWorkItem.toNat := ceilDiv_mul_lt usable.npi_pos
  have triple := Nat.mul_le_mul_left (shares miner nonceCount) many
  by_cases set : 0 < miner.localWorkSize.toNat
  · rw [globalSize_of_pos set]
    by_cases large : shares miner nonceCount ≤ miner.localWorkSize.toNat
    · -- a single group
      have one : (shares miner nonceCount + miner.localWorkSize.toNat - 1) /
          miner.localWorkSize.toNat ≤ 1 := by
        rw [ceilDiv_le_iff set]
        omega
      have group := Nat.mul_le_mul_right miner.localWorkSize.toNat one
      omega
    · have groups := ceilDiv_mul_lt (n := shares miner nonceCount) set
      omega
  · rw [globalSize_of_zero (by omega)]
    omega

theorem openclMinerScan_nonces (some_ : 1 ≤ nonceCount.toNat) (share : Nat → List Word)
    (each : ∀ gid g, gid.toNat = g % 2 ^ 32 →
      (miner.kernelName.run startNonce nonceCount miner.noncesPerWorkItem gid).flatMap
        ScanCall.nonces = share g) :
    (openclMinerScan miner startNonce nonceCount).flatMap ScanCall.nonces =
      (List.range (globalSize miner nonceCount)).flatMap share := by
  have nonzero : nonceCount ≠ 0 := by
    rintro rfl
    exact absurd some_ (by decide)
  rw [openclMinerScan, if_neg nonzero, List.flatMap_assoc]
  apply List.flatMap_congr
  intro globalId _
  exact each _ globalId (BitVec.toNat_ofNat _ _)

theorem general_exact_iff (usable : Usable miner) (general : miner.kernelName = .scanNonceRange)
    (some_ : 1 ≤ nonceCount.toNat) (fits : startNonce.toNat + nonceCount.toNat ≤ 2 ^ 32) :
    ScansExactly startNonce nonceCount.toNat
        ((openclMinerScan miner startNonce nonceCount).flatMap ScanCall.nonces) ↔
      nonceCount.toNat ≤ miner.noncesPerWorkItem.toNat *
        ((2 ^ 32 - 1) / miner.noncesPerWorkItem.toNat) := by
  have many := three_le_npi usable general
  rw [openclMinerScan_nonces some_
    (fun g => (guardedShare miner.noncesPerWorkItem.toNat nonceCount.toNat g).map (nonceAt startNonce))
    fun gid g isThread => by
      rw [general]
      exact scanNonceRange_share usable.npi_pos some_ isThread,
    guardedShare_exact_iff usable.npi_pos (lt_of_le_of_lt usable.npi_le (by decide)) some_ fits
      nonceCount.isLt (enough_items usable), ends_iff usable.npi_pos]
  exact and_iff_right (globalSize_le usable some_ many)

theorem checked_exact_iff (usable : Usable miner) (checked : miner.kernelName ≠ .scanNonceRange)
    (some_ : 1 ≤ nonceCount.toNat) (fits : startNonce.toNat + nonceCount.toNat ≤ 2 ^ 32) :
    ScansExactly startNonce nonceCount.toNat
        ((openclMinerScan miner startNonce nonceCount).flatMap ScanCall.nonces) ↔
      miner.localWorkSize.toNat = 0 ∨
        nonceCount.toNat ≤ miner.noncesPerWorkItem.toNat * (miner.localWorkSize.toNat *
          (2 ^ 32 / miner.noncesPerWorkItem.toNat / miner.localWorkSize.toNat)) := by
  obtain ⟨divides, agrees⟩ := kernelName_agrees usable checked
  have positive := usable.npi_pos
  have narrow : miner.noncesPerWorkItem.toNat < 2 ^ 32 := lt_of_le_of_lt usable.npi_le (by decide)
  have bounded := nonceCount.isLt
  have whole : (2 ^ 32 + miner.noncesPerWorkItem.toNat - 1) / miner.noncesPerWorkItem.toNat =
      2 ^ 32 / miner.noncesPerWorkItem.toNat := by
    obtain ⟨r, isR⟩ := divides
    rw [isR, Nat.add_sub_assoc positive, Nat.mul_add_div positive, Nat.mul_div_cancel_left _ positive,
      Nat.div_eq_of_lt (by omega), Nat.add_zero]
  have wrapsInside : (2 ^ 32 + miner.noncesPerWorkItem.toNat - 1) / miner.noncesPerWorkItem.toNat *
      miner.noncesPerWorkItem.toNat - 2 ^ 32 < nonceCount.toNat := by
    rw [whole, Nat.div_mul_cancel divides]
    omega
  rw [openclMinerScan_nonces some_
    (fun g => (share false miner.noncesPerWorkItem.toNat nonceCount.toNat g).map (nonceAt startNonce))
    fun gid g isThread => by
      rw [agrees]
      exact scanNonceRangeNpi_share positive narrow divides isThread,
    share_exact_iff false positive narrow some_ fits bounded (enough_items usable) (.inl wrapsInside)]
  simp only [Bool.false_eq_true, false_implies, and_true]
  by_cases set : 0 < miner.localWorkSize.toNat
  · rw [globalSize_of_pos set, shares, products_iff positive set, whole]
    omega
  · have unset : miner.localWorkSize.toNat = 0 := by omega
    rw [globalSize_of_zero unset]
    refine iff_of_true ?_ (.inl unset)
    obtain ⟨lastStart, -⟩ := last_share (n := nonceCount.toNat) positive some_
    exact lastStart.trans bounded

end Launch

/-- **An OpenCL launch scans every nonce of its range exactly once, and no other: with
the general kernel, exactly when the end of the last share stays below `2 ^ 32`; with the
kernels that check every nonce, exactly when no work-item's product reaches it.** -/
theorem opencl_launch_exact_iff (config : MinerOpenclConfig) (device : Device) (miner : OpenclMiner)
    (created : openclMinerCreate config device = some miner) (startNonce nonceCount : Word)
    (some_ : 1 ≤ nonceCount.toNat) (fits : startNonce.toNat + nonceCount.toNat ≤ 2 ^ 32) :
    let npi := miner.noncesPerWorkItem.toNat
    let localSize := miner.localWorkSize.toNat
    ScansExactly startNonce nonceCount.toNat
        ((openclMinerScan miner startNonce nonceCount).flatMap ScanCall.nonces) ↔
      if miner.kernelName = .scanNonceRange then nonceCount.toNat ≤ npi * ((2 ^ 32 - 1) / npi)
      else localSize = 0 ∨ nonceCount.toNat ≤ npi * (localSize * (2 ^ 32 / npi / localSize)) := by
  intro npi localSize
  have usable := usable_openclMinerCreate created
  by_cases general : miner.kernelName = .scanNonceRange
  · rw [if_pos general]
    exact general_exact_iff usable general some_ fits
  · rw [if_neg general]
    exact checked_exact_iff usable general some_ fits

/-- A device of version 3.0 that takes every program. -/
def plainDevice : Device where
  vendor := "NVIDIA Corporation".toList
  name := "NVIDIA GeForce".toList
  version := some (3, 0)
  globalInt32BaseAtomics := true
  maxWorkGroup := 1024
  builds := fun _ _ => true

/-- The default batch of a default configuration. -/
theorem opencl_launch_exact_iff_example :
    ScansExactly 0x10000000 1048576 ((openclMinerScan
      ⟨1048576, 256, 1, 256, .modern, .unrolled⟩ 0x10000000 1048576).flatMap ScanCall.nonces) :=
  (opencl_launch_exact_iff ⟨0, 0, 0, 0, .auto, .auto⟩ plainDevice
    ⟨1048576, 256, 1, 256, .modern, .unrolled⟩ (by rfl) 0x10000000 1048576 (by decide)
    (by decide)).mpr (by decide)

/-- The largest batch, with 64 nonces a work-item: the end of the last share is
`2 ^ 32`, the comparison reads zero, and nonce `0xffffffff` is scanned behind the range. -/
theorem opencl_launch_overruns :
    let miner : OpenclMiner := ⟨0xffffffff, 256, 64, 256, .modern, .compact⟩
    openclMinerCreate ⟨0xffffffff, 256, 64, 256, .auto, .compact⟩ plainDevice = some miner ∧
      (0xffffffff : Word) ≤ miner.batchSize ∧
      (0 : Word).toNat + (0xffffffff : Word).toNat ≤ 2 ^ 32 ∧
      ¬ScansExactly 0 (0xffffffff : Word).toNat
        ((openclMinerScan miner 0 0xffffffff).flatMap ScanCall.nonces) := by
  intro miner
  have created :
      openclMinerCreate ⟨0xffffffff, 256, 64, 256, .auto, .compact⟩ plainDevice = some miner := by rfl
  refine ⟨created, by decide, by decide, ?_⟩
  rw [general_exact_iff (usable_openclMinerCreate created) (by decide) (by decide) (by decide)]
  decide

end BtcRig.Gpu.OpenClLaunch
