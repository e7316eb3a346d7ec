/-
# BtcRig.Config.Autotune — benchmarking and choosing a mode

`run_autotune` of `stratum_main.c` up to where it saves: the candidates it benchmarks,
the table of results, and what it commits to the configuration.  A benchmark's outcome
is an input; outcomes are numbered in the order in which they are taken.

* `selectMode_tuned`: what any run leaves in the configuration;
* `notRequired_of_tuned`: it need not be tuned again.
-/
import BtcRig.Theory.Select
import BtcRig.Config.Load
import BtcRig.Gpu.OpenClLaunch

namespace BtcRig.Config.Autotune

open BtcRig.Theory
open BtcRig.Theory.Words
open BtcRig.Theory.Select
open BtcRig.Mining.Job
open BtcRig.Gpu.OpenCl (BackendVariant KernelVariant)
open BtcRig.Gpu.OpenClLaunch (configU32Or clampNoncesPerWorkItem openclDefaultBatchSize
  openclDefaultMaxResults)
open BtcRig.Stratum.State (snprintf)
open BtcRig.Config.Variants
open BtcRig.Config.Load

set_option autoImplicit false

/-! ## What the computer offers -/

/-- The outcome of `autotune_run_mode`; a mode that works has hashed something. -/
structure Measurement where
  hashrate : ℚ
  ok : Bool
  positive : ok = true → 0 < hashrate

/-- `gpus` are the platform and device numbers of the GPUs that the OpenCL driver lists,
`measure n` is the outcome of benchmark `n`. -/
structure Host where
  openclBuild : Bool
  cudaBuild : Bool
  affinitySupported : Bool
  recommendedThreads : CInt
  gpus : List (CInt × CInt)
  measure : Nat → Measurement

/-! ## Candidates -/

/-- The first occurrence of each value. -/
def firstSeen {α : Type} [DecidableEq α] (values : List α) : List α :=
  values.foldl (fun seen value => if value ∈ seen then seen else seen ++ [value]) []

def autotuneCpuThreadCandidates (fullThreads : CInt) : List CInt :=
  if fullThreads.sle 0 then []
  else
    let raw := [fullThreads, fullThreads - 1, (fullThreads * 3 + 3).sdiv 4, (fullThreads * 2 + 2).sdiv 3,
      fullThreads.sdiv 2, 1]
    firstSeen ((raw.filter fun value => !value.slt 1).map fun value =>
      if fullThreads.slt value then fullThreads else value)

def openclKernelFixedNpi : KernelVariant → Word
  | .fixedNpi1 => 1
  | .fixedNpi2 => 2
  | .fixedNpi4 => 4
  | _ => 0

def openclKernelForcedNpi (variant : KernelVariant) : Word :=
  if openclKernelFixedNpi variant ≠ 0 then openclKernelFixedNpi variant
  else if variant = .registerHeavy then 2 else 0

def openclKernelModernOnly (variant : KernelVariant) : Bool :=
  openclKernelFixedNpi variant ≠ 0 || variant == .registerHeavy

def openclKernelBackendCompatible (backend : BackendVariant) (kernel : KernelVariant) : Bool :=
  if openclKernelModernOnly kernel then backend == .modern else true

def backendCandidates (base : OpenclConfig) (device : OpenclDeviceConfig) : List BackendVariant :=
  let requested := if device.backendVariant ≠ .auto then device.backendVariant else base.backendVariant
  match requested with
  | .compat10 => [.compat10]
  | .modern => [.modern]
  | .auto => [.compat10, .modern]

def kernelCandidates (base : OpenclConfig) (device : OpenclDeviceConfig) : List KernelVariant :=
  firstSeen ([device.kernelVariant, base.kernelVariant, .unrolled, .compact, .fixedNpi1, .fixedNpi2,
    .fixedNpi4, .registerHeavy].filter (· ≠ .auto))

def localCandidates (base : OpenclConfig) (device : OpenclDeviceConfig) : List Word :=
  firstSeen [device.localWorkSize, base.localWorkSize, 64, 128, 256, 512]

def npiCandidates (base : OpenclConfig) (device : OpenclDeviceConfig) : List Word :=
  firstSeen ([device.noncesPerWorkItem, base.noncesPerWorkItem, 1, 2, 4].map fun value =>
    if value = 0 then 1 else value)

def batchCandidates (base : OpenclConfig) (device : OpenclDeviceConfig) : List Word :=
  firstSeen ([device.batchSize, base.batchSize, 524288, 1048576, 2097152, 4194304, 8388608,
    16777216].map fun value => if value < 1024 then 1024 else value)

/-- The settings tried by the four nested loops, in their order. -/
def openclCandidates (base : OpenclConfig) (device : OpenclDeviceConfig) :
    List (BackendVariant × KernelVariant × Word × Word) :=
  (backendCandidates base device).flatMap fun backend =>
    (kernelCandidates base device).flatMap fun kernel =>
      if openclKernelBackendCompatible backend kernel then
        (localCandidates base device).flatMap fun localSize =>
          (npiCandidates base device).filterMap fun npi =>
            let forced := openclKernelForcedNpi kernel
            if forced ≠ 0 ∧ npi ≠ forced then none
            else some (backend, kernel, localSize, if forced ≠ 0 then forced else npi)
      else []

def autotuneCudaBlockValue (value : Word) : Word :=
  let value := if value = 0 then 256 else value
  let value := if value < 32 then 32 else value
  let value := if value > 1024 then 1024 else value
  (value + 31) &&& ~~~31

def autotuneCudaNptValue (value : Word) : Word :=
  let value := if value = 0 then 1 else value
  if value > 16 then 16 else value

def autotuneCudaBatchValue (value : Word) : Word :=
  let value := if value = 0 then 4194304 else value
  if value < 1024 then 1024 else value

def autotuneCudaKernelForcedNpt : CudaKernelVariant → Word
  | .fixedNpt1 | .fixedLop3Npt1 => 1
  | .fixedNpt2 | .fixedLop3Npt2 => 2
  | .fixedNpt4 | .fixedLop3Npt4 => 4
  | _ => 0

def cudaKernelCandidates (config : CudaConfig) : List CudaKernelVariant :=
  firstSeen [config.kernelVariant, .standard, .dual, .fixedNpt1, .fixedNpt2, .fixedNpt4, .lop3,
    .fixedLop3Npt1, .fixedLop3Npt2, .fixedLop3Npt4]

def cudaCandidates (config : CudaConfig) : List (CudaKernelVariant × Word × Word) :=
  let blocks := firstSeen ([config.threadsPerBlock, 256, 128, 256, 512].map autotuneCudaBlockValue)
  let npts := firstSeen ([config.noncesPerThread, 1, 1, 2, 4].map autotuneCudaNptValue)
  (cudaKernelCandidates config).flatMap fun kernel =>
    blocks.flatMap fun block =>
      npts.filterMap fun npt =>
        let forced := autotuneCudaKernelForcedNpt kernel
        if forced ≠ 0 ∧ npt ≠ forced then none
        else some (kernel, block, if forced ≠ 0 then forced else npt)

def cudaBatchCandidates (config : CudaConfig) : List Word :=
  firstSeen ([config.batchSize, 4194304, 1048576, 2097152, 4194304, 8388608, 16777216].map
    autotuneCudaBatchValue)

/-! ## Tuning one device -/

def autotuneHashrateIsBetter (candidate best : ℚ) : Bool :=
  best ≤ 0 || candidate > best * (102 / 100)

def autotuneBatchHashrateIsBetter (candidate best : ℚ) : Bool :=
  best ≤ 0 || candidate > best * (101 / 100)

/-- The best setting so far, and the number of benchmarks taken. -/
structure Tuning (C : Type) where
  best : C
  bestHashrate : ℚ
  bestOk : Bool
  runs : Nat

section Tuning

variable {C S : Type} (measure : Nat → Measurement)

def tryCandidate (candidate : C → S → C) (t : Tuning C) (setting : S) : Tuning C :=
  let m := measure t.runs
  if m.ok && (!t.bestOk || autotuneHashrateIsBetter m.hashrate t.bestHashrate) then
    ⟨candidate t.best setting, m.hashrate, true, t.runs + 1⟩
  else { t with runs := t.runs + 1 }

def tryBatch (candidate : C → S → C) (t : Tuning C) (setting : S) : Tuning C :=
  let m := measure t.runs
  if m.ok && autotuneBatchHashrateIsBetter m.hashrate t.bestHashrate then
    { t with best := candidate t.best setting, bestHashrate := m.hashrate, runs := t.runs + 1 }
  else { t with runs := t.runs + 1 }

end Tuning

/-- `*device` and the number of benchmarks afterwards.  A candidate keeps the batch size
of the best device so far. -/
def autotuneOpenclDeviceParams (host : Host) (base : OpenclConfig) (device : OpenclDeviceConfig)
    (runs : Nat) : OpenclDeviceConfig × Nat :=
  let tuned := (openclCandidates base device).foldl
    (tryCandidate host.measure fun best s =>
      { device with
        backendVariant := s.1
        kernelVariant := s.2.1
        localWorkSize := s.2.2.1
        noncesPerWorkItem := s.2.2.2
        batchSize := best.batchSize })
    ⟨device, 0, false, runs⟩
  if tuned.bestOk then
    let tuned := (batchCandidates base device).foldl
      (tryBatch host.measure fun best batchSize => { best with batchSize }) tuned
    (tuned.best, tuned.runs)
  else (device, tuned.runs)

/-- The first benchmark only warms the device up. -/
def autotuneCudaParams (host : Host) (config : CudaConfig) (runs : Nat) : CudaConfig × Nat :=
  let npt := autotuneCudaNptValue config.noncesPerThread
  let forced := autotuneCudaKernelForcedNpt config.kernelVariant
  let start := { config with
    enabled := true
    batchSize := autotuneCudaBatchValue config.batchSize
    threadsPerBlock := autotuneCudaBlockValue config.threadsPerBlock
    noncesPerThread := if forced ≠ 0 then forced else npt }
  let tuned := (cudaCandidates config).foldl
    (tryCandidate host.measure fun best s =>
      { best with kernelVariant := s.1, threadsPerBlock := s.2.1, noncesPerThread := s.2.2 })
    ⟨start, 0, false, runs + 1⟩
  if tuned.bestOk then
    let tuned := (cudaBatchCandidates config).foldl
      (tryBatch host.measure fun best batchSize => { best with batchSize }) tuned
    (tuned.best, tuned.runs)
  else (config, tuned.runs)

/-! ## Device lists -/

def openclDeviceConfigApplyDefaults (device : OpenclDeviceConfig) (config : OpenclConfig) :
    OpenclDeviceConfig :=
  { device with
    batchSize :=
      if device.batchSize = 0 then configU32Or config.batchSize openclDefaultBatchSize else device.batchSize
    maxResults := if device.maxResults = 0 then configU32Or config.maxResults openclDefaultMaxResults else device.maxResults
    localWorkSize := if device.localWorkSize = 0 then config.localWorkSize else device.localWorkSize
    noncesPerWorkItem :=
      if device.noncesPerWorkItem = 0 then clampNoncesPerWorkItem config.noncesPerWorkItem
      else clampNoncesPerWorkItem device.noncesPerWorkItem
    backendVariant :=
      if device.backendVariant = .auto then config.backendVariant else device.backendVariant
    kernelVariant := if device.kernelVariant = .auto then config.kernelVariant else device.kernelVariant }

/-- The settings of `config` for one device. -/
def deviceOf (config : OpenclConfig) (platform device : CInt) : OpenclDeviceConfig where
  platform := platform
  device := device
  batchSize := configU32Or config.batchSize openclDefaultBatchSize
  localWorkSize := config.localWorkSize
  noncesPerWorkItem := clampNoncesPerWorkItem config.noncesPerWorkItem
  maxResults := configU32Or config.maxResults openclDefaultMaxResults
  backendVariant := config.backendVariant
  kernelVariant := config.kernelVariant

/-- The devices written by `opencl_miner_resolve_devices`; none where it returns no
positive count.  Normalising a variant changes nothing here: it is always a known one. -/
def openclMinerResolveDevices (gpus : List (CInt × CInt)) (config : OpenclConfig) :
    List OpenclDeviceConfig :=
  if !config.enabled then []
  else if config.devices.length > 0 then
    (config.devices.take maxDevices).map fun device => openclDeviceConfigApplyDefaults device config
  else if !config.allDevices then [deviceOf config config.platform config.device]
  else (gpus.take maxDevices).map fun gpu => deviceOf config gpu.1 gpu.2

def autotuneAllGpuConfig (base : OpenclConfig) : OpenclConfig :=
  { base with enabled := true, allDevices := true, devices := [] }

def autotuneDeviceListConfig (base : OpenclConfig) (devices : List OpenclDeviceConfig) : OpenclConfig :=
  let listed := devices.take maxDevices
  { base with
    enabled := devices.length > 0
    allDevices := false
    devices := listed
    platform := (listed.head?.map (·.platform)).getD base.platform
    device := (listed.head?.map (·.device)).getD base.device }

def autotuneDisableOpencl : OpenclConfig := openclConfigDefaults

def autotuneDisableCuda (cudaBuild : Bool) : CudaConfig :=
  if cudaBuild then cudaConfigDefaults else cudaConfigZero

/-! ## Results -/

structure AutotuneResult where
  name : CStr 96
  cpuThreads : CInt
  cpuAffinity : Bool
  opencl : OpenclConfig
  cuda : CudaConfig
  hashrate : ℚ
  ok : Bool

def autotuneMaxResults : Nat := 96

/-- The table of results, and the number of benchmarks taken. -/
structure Bench where
  results : List AutotuneResult
  runs : Nat

/-- A mode to benchmark. -/
structure Mode where
  name : List Char
  cpuThreads : CInt
  cpuAffinity : Bool
  opencl : OpenclConfig
  cuda : CudaConfig

def autotuneAppendResult (host : Host) (b : Bench) (mode : Mode) : Bench :=
  if b.results.length ≥ autotuneMaxResults then b
  else
    let m := host.measure b.runs
    let result : AutotuneResult := {
      name := snprintf (by decide) mode.name
      cpuThreads := mode.cpuThreads
      cpuAffinity := mode.cpuAffinity && (0 : CInt).slt mode.cpuThreads
      opencl := mode.opencl
      cuda := mode.cuda
      hashrate := m.hashrate
      ok := m.ok }
    ⟨b.results ++ [result], b.runs + 1⟩

def decimal (n : CInt) : List Char := (toString n.toInt).toList

/-- The modes of `autotune_append_cpu_thread_results`.  It stops when the table is full,
and a full table stays full. -/
def cpuThreadModes (host : Host) (baseName : List Char) (fullThreads : CInt) (opencl : OpenclConfig)
    (cuda : CudaConfig) : List Mode :=
  (autotuneCpuThreadCandidates fullThreads).flatMap fun threads =>
    let suffix := if threads = fullThreads then [] else "-".toList ++ decimal threads
    let plain : Mode := ⟨baseName ++ suffix, threads, false, opencl, cuda⟩
    let pinned : Mode := ⟨baseName ++ "-affinity".toList ++ suffix, threads, true, opencl, cuda⟩
    if host.affinitySupported then [plain, pinned] else [plain]

/-- The modes of one device list: alone, and with the configured number of threads. -/
def deviceModes (host : Host) (config : AppConfig) (fullThreads : CInt) (name : List Char)
    (devices : List OpenclDeviceConfig) : List Mode :=
  let opencl := autotuneDeviceListConfig config.opencl devices
  let cuda := autotuneDisableCuda host.cudaBuild
  let alone : Mode := ⟨name, 0, false, opencl, cuda⟩
  if (0 : CInt).slt fullThreads then
    [alone, ⟨"cpu+".toList ++ name, fullThreads, config.cpuAffinity, opencl, cuda⟩]
  else [alone]

def openclModes (host : Host) (config : AppConfig) (fullThreads : CInt)
    (resolved : List OpenclDeviceConfig) : List Mode :=
  let allGpu := autotuneDeviceListConfig config.opencl resolved
  let cuda := autotuneDisableCuda host.cudaBuild
  let together := ⟨"all-gpu".toList, 0, false, allGpu, cuda⟩ ::
    (if (0 : CInt).slt fullThreads then
      cpuThreadModes host "cpu+all-gpu".toList fullThreads allGpu cuda else [])
  let single := (List.range resolved.length).flatMap fun i =>
    deviceModes host config fullThreads ("gpu".toList ++ (toString i).toList) (resolved[i]?).toList
  let without :=
    if resolved.length > 2 then
      (List.range resolved.length).flatMap fun skip =>
        deviceModes host config fullThreads ("all-gpu-minus-gpu".toList ++ (toString skip).toList)
          (resolved.eraseIdx skip)
    else []
  together ++ single ++ without

/-- The devices once each is tuned, and the number of benchmarks taken. -/
def tuneDevices (host : Host) (base : OpenclConfig) (devices : List OpenclDeviceConfig) (runs : Nat) :
    List OpenclDeviceConfig × Nat :=
  devices.foldl
    (fun done device =>
      let (tuned, runs) := autotuneOpenclDeviceParams host base device done.2
      (done.1 ++ [tuned], runs))
    ([], runs)

def benchOpencl (host : Host) (config : AppConfig) (fullThreads : CInt) (b : Bench) : Bench :=
  if host.openclBuild && config.opencl.enabled then
    let resolved := openclMinerResolveDevices host.gpus (autotuneAllGpuConfig config.opencl)
    if resolved.isEmpty then b
    else
      let (resolved, runs) := tuneDevices host config.opencl resolved b.runs
      (openclModes host config fullThreads resolved).foldl (autotuneAppendResult host) { b with runs }
  else b

def cudaModes (host : Host) (fullThreads : CInt) (cuda : CudaConfig) : List Mode :=
  ⟨"cuda".toList, 0, false, autotuneDisableOpencl, cuda⟩ ::
    (if (0 : CInt).slt fullThreads then
      cpuThreadModes host "cpu+cuda".toList fullThreads autotuneDisableOpencl cuda else [])

def benchCuda (host : Host) (config : AppConfig) (fullThreads : CInt) (b : Bench) : Bench :=
  if host.cudaBuild && config.cuda.enabled then
    let (cuda, runs) := autotuneCudaParams host { config.cuda with enabled := true } b.runs
    (cudaModes host fullThreads cuda).foldl (autotuneAppendResult host) { b with runs }
  else b

def autotuneFullThreads (host : Host) (config : AppConfig) : CInt :=
  let fullThreads :=
    if (0 : CInt).slt config.threadCount then config.threadCount else host.recommendedThreads
  let fullThreads := if fullThreads.slt 0 then 0 else fullThreads
  if config.cpuEnabled then fullThreads else 0

def autotuneResults (host : Host) (config : AppConfig) : List AutotuneResult :=
  let fullThreads := autotuneFullThreads host config
  let b : Bench := ⟨[], 0⟩
  let b :=
    if (0 : CInt).slt fullThreads then
      (cpuThreadModes host "cpu".toList fullThreads autotuneDisableOpencl
        (autotuneDisableCuda host.cudaBuild)).foldl (autotuneAppendResult host) b
    else b
  let b := benchOpencl host config fullThreads b
  let b := benchCuda host config fullThreads b
  b.results

/-! ## The choice -/

def AutotuneResult.hasCpu (result : AutotuneResult) : Bool := (0 : CInt).slt result.cpuThreads

def AutotuneResult.hasGpu (result : AutotuneResult) : Bool := result.opencl.enabled || result.cuda.enabled

def autotuneResultPriority (result : AutotuneResult) : Nat :=
  if result.hasGpu && !result.hasCpu then 0
  else if result.hasCpu && !result.hasGpu then 1
  else if result.hasCpu && result.hasGpu then 2
  else 3

def fastestResult (results : List AutotuneResult) : Option AutotuneResult :=
  pick (·.ok) (fun result fastest => result.hashrate > fastest.hashrate) results

def bestResult (results : List AutotuneResult) (fastest : AutotuneResult) : Option AutotuneResult :=
  let closeFloor := fastest.hashrate * (9 / 10)
  pick (fun result => result.ok && !(result.hashrate < closeFloor))
    (fun result best => autotuneResultPriority result < autotuneResultPriority best ||
      (autotuneResultPriority result == autotuneResultPriority best && result.hashrate > best.hashrate))
    results

/-- What `run_autotune` has when it comes to save. -/
structure Outcome where
  config : AppConfig
  results : List AutotuneResult
  best : AutotuneResult

def commit (config : AppConfig) (results : List AutotuneResult) (best : AutotuneResult) : AppConfig :=
  { config with
    cpuEnabled := (0 : CInt).slt best.cpuThreads
    threadCount := best.cpuThreads
    cpuAffinity := best.cpuAffinity
    opencl := best.opencl
    cuda := best.cuda
    cpuAutotuneDone := config.cpuAutotuneDone || results.any fun result => result.ok && result.hasCpu
    gpuAutotuneDone := config.gpuAutotuneDone || results.any fun result => result.ok && result.hasGpu }

/-- `run_autotune` until it saves; nothing where it returns -1. -/
def selectMode (host : Host) (config : AppConfig) : Option Outcome :=
  let results := autotuneResults host config
  (fastestResult results).bind fun fastest =>
    (bestResult results fastest).map fun best => ⟨commit config results best, results, best⟩

/-- `app_config_autotune_required` as two flags: the CPU's, the GPUs'. -/
def appConfigAutotuneRequired (config : AppConfig) : Bool × Bool :=
  if !config.autotuneEnabled || !config.enableMining then (false, false)
  else
    (config.cpuEnabled && (0 : CInt).slt config.threadCount && !config.cpuAutotuneDone,
      (config.opencl.enabled || config.cuda.enabled) && !config.gpuAutotuneDone)

/-! ## What a run leaves -/

/-- A list of devices is only there when it is used. -/
structure Listed (opencl : OpenclConfig) : Prop where
  used : opencl.devices ≠ [] → opencl.enabled = true ∧ opencl.allDevices = false
  room : opencl.devices.length ≤ maxDevices

theorem listed_disabled : Listed autotuneDisableOpencl :=
  ⟨fun listed => absurd rfl listed, Nat.zero_le _⟩

theorem listed_deviceList (base : OpenclConfig) (devices : List OpenclDeviceConfig) :
    Listed (autotuneDeviceListConfig base devices) where
  used := by
    intro listed
    refine ⟨decide_eq_true (List.length_pos_of_ne_nil ?_), rfl⟩
    rintro rfl
    exact listed (List.take_nil)
  room := List.length_take_le _ _

structure Sound (result : AutotuneResult) : Prop where
  opencl : Listed result.opencl
  positive : result.ok = true → 0 < result.hashrate

section Runs

variable (host : Host)

/-- A benchmark adds a result that is sound. -/
theorem append_sound {b : Bench} {mode : Mode} (sound : ∀ result ∈ b.results, Sound result)
    (listed : Listed mode.opencl) :
    ∀ result ∈ (autotuneAppendResult host b mode).results, Sound result := by
  unfold autotuneAppendResult
  split
  · exact sound
  · intro result member
    rcases List.mem_append.mp member with old | new
    · exact sound result old
    · rw [List.mem_singleton.mp new]
      exact ⟨listed, (host.measure b.runs).positive⟩

theorem appendAll_sound (modes : List Mode) {b : Bench} (sound : ∀ result ∈ b.results, Sound result)
    (listed : ∀ mode ∈ modes, Listed mode.opencl) :
    ∀ result ∈ (modes.foldl (autotuneAppendResult host) b).results, Sound result := by
  induction modes generalizing b with
  | nil => exact sound
  | cons mode modes ih =>
      apply ih (append_sound host sound (listed mode (by simp)))
      intro mode' member
      exact listed mode' (List.mem_cons_of_mem mode member)

theorem cpuThreadModes_opencl {baseName : List Char} {fullThreads : CInt} {opencl : OpenclConfig}
    {cuda : CudaConfig} {mode : Mode}
    (member : mode ∈ cpuThreadModes host baseName fullThreads opencl cuda) : mode.opencl = opencl := by
  obtain ⟨threads, -, isMode⟩ := List.mem_flatMap.mp member
  dsimp only at isMode
  split at isMode
  · simp only [List.mem_cons, List.not_mem_nil, or_false] at isMode
    rcases isMode with rfl | rfl <;> rfl
  · rw [List.mem_singleton.mp isMode]

theorem deviceModes_opencl {config : AppConfig} {fullThreads : CInt} {name : List Char}
    {devices : List OpenclDeviceConfig} {mode : Mode}
    (member : mode ∈ deviceModes host config fullThreads name devices) :
    mode.opencl = autotuneDeviceListConfig config.opencl devices := by
  unfold deviceModes at member
  dsimp only at member
  split at member
  · simp only [List.mem_cons, List.not_mem_nil, or_false] at member
    rcases member with rfl | rfl <;> rfl
  · rw [List.mem_singleton.mp member]

/-- Every OpenCL mode uses the devices that it lists. -/
theorem openclModes_listed {config : AppConfig} {fullThreads : CInt}
    {resolved : List OpenclDeviceConfig} {mode : Mode}
    (member : mode ∈ openclModes host config fullThreads resolved) : Listed mode.opencl := by
  rcases List.mem_append.mp member with inFront | without
  · rcases List.mem_append.mp inFront with together | single
    · rcases List.mem_cons.mp together with rfl | threads
      · exact listed_deviceList _ _
      · split at threads
        · exact cpuThreadModes_opencl host threads ▸ listed_deviceList _ _
        · cases threads
    · obtain ⟨i, -, isMode⟩ := List.mem_flatMap.mp single
      exact deviceModes_opencl host isMode ▸ listed_deviceList _ _
  · split at without
    · obtain ⟨skip, -, isMode⟩ := List.mem_flatMap.mp without
      exact deviceModes_opencl host isMode ▸ listed_deviceList _ _
    · cases without

theorem cudaModes_listed {fullThreads : CInt} {cuda : CudaConfig} {mode : Mode}
    (member : mode ∈ cudaModes host fullThreads cuda) : Listed mode.opencl := by
  rcases List.mem_cons.mp member with rfl | threads
  · exact listed_disabled
  · split at threads
    · exact cpuThreadModes_opencl host threads ▸ listed_disabled
    · cases threads

theorem benchOpencl_sound (config : AppConfig) (fullThreads : CInt) {b : Bench}
    (sound : ∀ result ∈ b.results, Sound result) :
    ∀ result ∈ (benchOpencl host config fullThreads b).results, Sound result := by
  unfold benchOpencl
  split
  · dsimp only
    split
    · exact sound
    · rcases tuneDevices host config.opencl _ b.runs with ⟨resolved, runs⟩
      exact appendAll_sound host _ sound fun mode member => openclModes_listed host member
  · exact sound

theorem benchCuda_sound (config : AppConfig) (fullThreads : CInt) {b : Bench}
    (sound : ∀ result ∈ b.results, Sound result) :
    ∀ result ∈ (benchCuda host config fullThreads b).results, Sound result := by
  unfold benchCuda
  split
  · rcases autotuneCudaParams host { config.cuda with enabled := true } b.runs with ⟨cuda, runs⟩
    exact appendAll_sound host _ sound fun mode member => cudaModes_listed host member
  · exact sound

/-- So every result of the table is sound. -/
theorem autotuneResults_sound (config : AppConfig) :
    ∀ result ∈ autotuneResults host config, Sound result := by
  apply benchCuda_sound
  apply benchOpencl_sound
  split
  · apply appendAll_sound
    · intro result member
      cases member
    · intro mode member
      exact cpuThreadModes_opencl host member ▸ listed_disabled
  · intro result member
    cases member

/-- A working mode is always close to the fastest: the fastest itself. -/
theorem bestResult_isSome {config : AppConfig} {fastest : AutotuneResult}
    (isFastest : fastestResult (autotuneResults host config) = some fastest) :
    (bestResult (autotuneResults host config) fastest).isSome = true := by
  obtain ⟨member, works⟩ := pick_mem isFastest
  have positive := (autotuneResults_sound host config fastest member).positive works
  apply pick_isSome member
  have close : ¬fastest.hashrate < fastest.hashrate * (9 / 10) := by linarith
  simp only [works, close, decide_false, Bool.not_false, Bool.and_self]

/-- What the chosen mode mines with has been seen to work. -/
theorem any_works {results : List AutotuneResult} {best : AutotuneResult} (member : best ∈ results)
    (works : best.ok = true) (mines : AutotuneResult → Bool) {before : Bool} (bestMines : mines best = true) :
    (before || results.any fun result => result.ok && mines result) = true := by
  refine Bool.or_eq_true_iff.mpr (.inr (List.any_eq_true.mpr ⟨best, member, ?_⟩))
  rw [works, bestMines]
  rfl

/-- What a run leaves in the configuration: the mode's device list is used, and what the
mode mines with has been tuned. -/
structure Tuned (config : AppConfig) : Prop where
  opencl : Listed config.opencl
  cpuDone : config.cpuEnabled = true → config.cpuAutotuneDone = true
  gpuDone : (config.opencl.enabled || config.cuda.enabled) = true → config.gpuAutotuneDone = true

/-- What is committed is marked as tuned. -/
theorem selectMode_tuned {config : AppConfig} {outcome : Outcome}
    (selected : selectMode host config = some outcome) : Tuned outcome.config := by
  obtain ⟨fastest, isFastest, picked⟩ := Option.bind_eq_some_iff.mp selected
  obtain ⟨best, isBest, rfl⟩ := Option.map_eq_some_iff.mp picked
  obtain ⟨member, eligible⟩ := pick_mem isBest
  have works : best.ok = true := (Bool.and_eq_true_iff.mp eligible).1
  exact ⟨(autotuneResults_sound host config best member).opencl,
    any_works member works AutotuneResult.hasCpu, any_works member works AutotuneResult.hasGpu⟩

end Runs

theorem notRequired_of_done {config : AppConfig}
    (cpuDone : config.cpuEnabled = true → config.cpuAutotuneDone = true)
    (gpuDone : (config.opencl.enabled || config.cuda.enabled) = true → config.gpuAutotuneDone = true) :
    appConfigAutotuneRequired config = (false, false) := by
  unfold appConfigAutotuneRequired
  split
  · rfl
  · apply Prod.ext
    · cases mines : config.cpuEnabled with
      | false => rfl
      | true => simp [cpuDone mines]
    · cases mines : config.opencl.enabled || config.cuda.enabled with
      | false => rfl
      | true => simp [gpuDone mines]

/-- What has been tuned need not be tuned on the next start. -/
theorem notRequired_of_tuned {config : AppConfig} (tuned : Tuned config) :
    appConfigAutotuneRequired config = (false, false) :=
  notRequired_of_done tuned.cpuDone tuned.gpuDone

end BtcRig.Config.Autotune
