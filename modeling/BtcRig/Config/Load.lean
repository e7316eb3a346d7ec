/-
# BtcRig.Config.Load — reading the configuration file

`app_config_set_defaults` and `load_config_file` of `stratum_main.c`.  Every lookup gives
its reader the current value to fall back to, so a setting with several names is read by
a chain of lookups.

* `Resolved` says what the chains are for: each setting is that of its last name that
  carries a valid value, or what it was before;
* `resolved_iff`: the variants are the only settings for which a chain can fail, and
  `VariantsKept` is when they do not.
-/
import BtcRig.Config.Variants
import BtcRig.Theory.Json
import BtcRig.Donation.Schedule
import BtcRig.Stratum.State

namespace BtcRig.Config.Load

open BtcRig.Theory
open BtcRig.Theory.Words
open BtcRig.Theory.Aliases
open BtcRig.Mining.Job
open BtcRig.Gpu.OpenCl (BackendVariant KernelVariant)
open BtcRig.Donation.Schedule (PoolConfig donationLevelValid)
open BtcRig.Stratum.State (snprintf)
open BtcRig.Config.Variants

set_option autoImplicit false

/-! ## The configuration -/

/-- A C `int`. -/
abbrev CInt := BitVec 32

structure OpenclDeviceConfig where
  platform : CInt
  device : CInt
  batchSize : Word
  localWorkSize : Word
  noncesPerWorkItem : Word
  maxResults : Word
  backendVariant : BackendVariant
  kernelVariant : KernelVariant
deriving DecidableEq

/-- `devices` holds the first `device_count` entries of the array. -/
structure OpenclConfig where
  enabled : Bool
  allDevices : Bool
  platform : CInt
  device : CInt
  batchSize : Word
  localWorkSize : Word
  noncesPerWorkItem : Word
  maxResults : Word
  backendVariant : BackendVariant
  kernelVariant : KernelVariant
  devices : List OpenclDeviceConfig
deriving DecidableEq

structure CudaConfig where
  enabled : Bool
  device : CInt
  batchSize : Word
  threadsPerBlock : Word
  noncesPerThread : Word
  maxResults : Word
  kernelVariant : CudaKernelVariant
deriving DecidableEq

/-- `pools` holds the first `pool_count` entries of the array. -/
structure AppConfig where
  pools : List PoolConfig
  retries : CInt
  reconnectDelay : CInt
  threadCount : CInt
  cpuAffinity : Bool
  cpuEnabled : Bool
  enableMining : Bool
  autosave : Bool
  autotuneEnabled : Bool
  cpuAutotuneDone : Bool
  gpuAutotuneDone : Bool
  opencl : OpenclConfig
  cuda : CudaConfig
  runtimeSeconds : ℚ
  statsInterval : ℚ
  autotuneSeconds : ℚ
  donateLevel : CInt

def maxDevices : Nat := 8
def maxPools : Nat := 8

def defaultPoolUrl : List Char := "stratum+tls://public-pool.io:14333".toList
def defaultUser : List Char := "bc1qqz0wutk9kk5mmaf7fu4dm5w4fq4fhaah9hpzr3".toList
def defaultPassword : List Char := "x".toList
def defaultSuggestDifficulty : ℚ := 1 / 1000

def openclConfigDefaults : OpenclConfig where
  enabled := false
  allDevices := true
  platform := 0
  device := 0
  batchSize := 1048576
  localWorkSize := 0
  noncesPerWorkItem := 1
  maxResults := 256
  backendVariant := .auto
  kernelVariant := .auto
  devices := []

def cudaConfigDefaults : CudaConfig where
  enabled := false
  device := 0
  batchSize := 4194304
  threadsPerBlock := 256
  noncesPerThread := 1
  maxResults := 256
  kernelVariant := .standard

/-- A zeroed structure, what a build without CUDA starts from. -/
def cudaConfigZero : CudaConfig where
  enabled := false
  device := 0
  batchSize := 0
  threadsPerBlock := 0
  noncesPerThread := 0
  maxResults := 0
  kernelVariant := .standard

/-- `copy_string`; a missing source gives the empty string. -/
def copyString {size : Nat} (room : 0 < size) (src : Option (List Char)) : CStr size :=
  match src with
  | none => CStr.empty room
  | some text => snprintf room text

/-- `cudaBuild` is whether the program was compiled with CUDA. -/
def appConfigSetDefaults (cudaBuild : Bool) : AppConfig where
  pools := [⟨copyString room256 (some defaultPoolUrl), copyString room256 (some defaultUser),
    copyString room128 (some defaultPassword), defaultSuggestDifficulty⟩]
  retries := BitVec.ofInt 32 (-1)
  reconnectDelay := 2
  threadCount := 0
  cpuAffinity := false
  cpuEnabled := true
  enableMining := true
  autosave := true
  autotuneEnabled := true
  cpuAutotuneDone := false
  gpuAutotuneDone := false
  opencl := openclConfigDefaults
  cuda := if cudaBuild then cudaConfigDefaults else cudaConfigZero
  runtimeSeconds := 0
  statsInterval := 5
  autotuneSeconds := 3 / 2
  donateLevel := 1

/-! ## Readers -/

def jsonBoolValue (value : Option Json) (fallback : Bool) : Bool :=
  match value with
  | some (.bool b) => b
  | _ => fallback

def jsonIntValue (value : Option Json) (fallback : CInt) : CInt :=
  match value with
  | some (.int n) => BitVec.ofInt 32 n
  | _ => fallback

def jsonU32Value (value : Option Json) (fallback : Word) : Word :=
  match value with
  | some (.int parsed) =>
      if parsed < 0 ∨ parsed > 4294967295 then fallback else BitVec.ofInt 32 parsed
  | _ => fallback

def jsonNumberValueOr (value : Option Json) (fallback : ℚ) : ℚ :=
  match value with
  | some (.int n) => n
  | some (.real q) => q
  | _ => fallback

/-! ## Loading -/

def loadAutotune (autotune : Option Json) (config : AppConfig) : AppConfig :=
  if Json.isObject autotune then
    let config := { config with
      autotuneEnabled := jsonBoolValue (Json.get autotune "enabled") config.autotuneEnabled }
    let config := { config with
      cpuAutotuneDone := jsonBoolValue (Json.get autotune "self-test") config.cpuAutotuneDone }
    let config := { config with
      cpuAutotuneDone := jsonBoolValue (Json.get autotune "self_test") config.cpuAutotuneDone }
    let config := { config with
      cpuAutotuneDone := jsonBoolValue (Json.get autotune "done") config.cpuAutotuneDone }
    let config := { config with
      cpuAutotuneDone := jsonBoolValue (Json.get autotune "completed") config.cpuAutotuneDone }
    let config := { config with
      cpuAutotuneDone := jsonBoolValue (Json.get autotune "cpu-self-test") config.cpuAutotuneDone }
    let config := { config with
      cpuAutotuneDone := jsonBoolValue (Json.get autotune "cpu_self_test") config.cpuAutotuneDone }
    let config := { config with
      gpuAutotuneDone := jsonBoolValue (Json.get autotune "gpu-self-test") config.gpuAutotuneDone }
    let config := { config with
      gpuAutotuneDone := jsonBoolValue (Json.get autotune "gpu_self_test") config.gpuAutotuneDone }
    let config := { config with
      gpuAutotuneDone := jsonBoolValue (Json.get autotune "opencl-self-test") config.gpuAutotuneDone }
    let config := { config with
      gpuAutotuneDone := jsonBoolValue (Json.get autotune "opencl_self_test") config.gpuAutotuneDone }
    { config with
      autotuneSeconds := jsonNumberValueOr (Json.get autotune "seconds") config.autotuneSeconds }
  else config

def loadCpu (cpu : Option Json) (config : AppConfig) : AppConfig :=
  if Json.isObject cpu then
    let config := { config with
      cpuEnabled := jsonBoolValue (Json.get cpu "enabled") config.cpuEnabled }
    let config := { config with
      threadCount := jsonIntValue (Json.get cpu "threads") config.threadCount }
    { config with cpuAffinity := jsonBoolValue (Json.get cpu "affinity") config.cpuAffinity }
  else config

/-- An entry of `opencl.devices`; the first lookup of each setting falls back to `opencl`. -/
def loadDevice (opencl : OpenclConfig) (device : Json) : OpenclDeviceConfig :=
  let member := Json.get (some device)
  let batchSize := jsonU32Value (member "batch-size") opencl.batchSize
  let batchSize := jsonU32Value (member "batch_size") batchSize
  let localWorkSize := jsonU32Value (member "local-work-size") opencl.localWorkSize
  let localWorkSize := jsonU32Value (member "local_work_size") localWorkSize
  let noncesPerWorkItem := jsonU32Value (member "nonces-per-work-item") opencl.noncesPerWorkItem
  let noncesPerWorkItem := jsonU32Value (member "nonces_per_work_item") noncesPerWorkItem
  let noncesPerWorkItem := jsonU32Value (member "npi") noncesPerWorkItem
  let maxResults := jsonU32Value (member "max-results") opencl.maxResults
  let maxResults := jsonU32Value (member "max_results") maxResults
  let backendVariant :=
    parseOpenclBackendVariant (Json.stringValue (member "backend")) opencl.backendVariant
  let backendVariant :=
    parseOpenclBackendVariant (Json.stringValue (member "backend-variant")) backendVariant
  let backendVariant :=
    parseOpenclBackendVariant (Json.stringValue (member "backend_variant")) backendVariant
  let kernelVariant :=
    parseOpenclKernelVariant (Json.stringValue (member "kernel")) opencl.kernelVariant
  let kernelVariant :=
    parseOpenclKernelVariant (Json.stringValue (member "kernel-variant")) kernelVariant
  let kernelVariant :=
    parseOpenclKernelVariant (Json.stringValue (member "kernel_variant")) kernelVariant
  { platform := jsonIntValue (member "platform") opencl.platform
    device := jsonIntValue (member "device") opencl.device
    batchSize, localWorkSize, noncesPerWorkItem, maxResults, backendVariant, kernelVariant }

/-- An entry that is not an object is passed over. -/
def acceptDevice (opencl : OpenclConfig) (device : Json) : Option OpenclDeviceConfig :=
  if Json.isObject (some device) then some (loadDevice opencl device) else none

def loadDevices (devices : Option Json) (config : OpenclConfig) : OpenclConfig :=
  match devices with
  | some (.array elements) =>
      { config with
        allDevices := false
        devices := elements.foldl (collectStep maxDevices (acceptDevice config)) [] }
  | _ => config

def loadOpencl (opencl : Option Json) (config : OpenclConfig) : OpenclConfig :=
  if Json.isObject opencl then
    let config := { config with enabled := jsonBoolValue (Json.get opencl "enabled") config.enabled }
    let config := { config with
      allDevices := jsonBoolValue (Json.get opencl "all-devices") config.allDevices }
    let config := { config with
      allDevices := jsonBoolValue (Json.get opencl "all_devices") config.allDevices }
    let config := { config with platform := jsonIntValue (Json.get opencl "platform") config.platform }
    let config := { config with device := jsonIntValue (Json.get opencl "device") config.device }
    let config := { config with
      batchSize := jsonU32Value (Json.get opencl "batch-size") config.batchSize }
    let config := { config with
      batchSize := jsonU32Value (Json.get opencl "batch_size") config.batchSize }
    let config := { config with
      localWorkSize := jsonU32Value (Json.get opencl "local-work-size") config.localWorkSize }
    let config := { config with
      localWorkSize := jsonU32Value (Json.get opencl "local_work_size") config.localWorkSize }
    let config := { config with
      noncesPerWorkItem :=
        jsonU32Value (Json.get opencl "nonces-per-work-item") config.noncesPerWorkItem }
    let config := { config with
      noncesPerWorkItem :=
        jsonU32Value (Json.get opencl "nonces_per_work_item") config.noncesPerWorkItem }
    let config := { config with
      noncesPerWorkItem := jsonU32Value (Json.get opencl "npi") config.noncesPerWorkItem }
    let config := { config with
      maxResults := jsonU32Value (Json.get opencl "max-results") config.maxResults }
    let config := { config with
      maxResults := jsonU32Value (Json.get opencl "max_results") config.maxResults }
    let config := { config with
      backendVariant := parseOpenclBackendVariant (Json.stringValue (Json.get opencl "backend"))
        config.backendVariant }
    let config := { config with
      backendVariant :=
        parseOpenclBackendVariant (Json.stringValue (Json.get opencl "backend-variant"))
          config.backendVariant }
    let config := { config with
      backendVariant :=
        parseOpenclBackendVariant (Json.stringValue (Json.get opencl "backend_variant"))
          config.backendVariant }
    let config := { config with
      kernelVariant := parseOpenclKernelVariant (Json.stringValue (Json.get opencl "kernel"))
        config.kernelVariant }
    let config := { config with
      kernelVariant := parseOpenclKernelVariant (Json.stringValue (Json.get opencl "kernel-variant"))
        config.kernelVariant }
    let config := { config with
      kernelVariant := parseOpenclKernelVariant (Json.stringValue (Json.get opencl "kernel_variant"))
        config.kernelVariant }
    loadDevices (Json.get opencl "devices") config
  else config

def loadCuda (cuda : Option Json) (config : CudaConfig) : CudaConfig :=
  if Json.isObject cuda then
    let config := { config with enabled := jsonBoolValue (Json.get cuda "enabled") config.enabled }
    let config := { config with device := jsonIntValue (Json.get cuda "device") config.device }
    let config := { config with
      batchSize := jsonU32Value (Json.get cuda "batch-size") config.batchSize }
    let config := { config with
      batchSize := jsonU32Value (Json.get cuda "batch_size") config.batchSize }
    let config := { config with
      threadsPerBlock := jsonU32Value (Json.get cuda "threads-per-block") config.threadsPerBlock }
    let config := { config with
      threadsPerBlock := jsonU32Value (Json.get cuda "threads_per_block") config.threadsPerBlock }
    let config := { config with
      threadsPerBlock := jsonU32Value (Json.get cuda "block") config.threadsPerBlock }
    let config := { config with
      noncesPerThread := jsonU32Value (Json.get cuda "nonces-per-thread") config.noncesPerThread }
    let config := { config with
      noncesPerThread := jsonU32Value (Json.get cuda "nonces_per_thread") config.noncesPerThread }
    let config := { config with
      noncesPerThread := jsonU32Value (Json.get cuda "npt") config.noncesPerThread }
    let config := { config with
      maxResults := jsonU32Value (Json.get cuda "max-results") config.maxResults }
    let config := { config with
      maxResults := jsonU32Value (Json.get cuda "max_results") config.maxResults }
    let config := { config with
      kernelVariant := parseCudaKernelVariant (Json.stringValue (Json.get cuda "kernel"))
        config.kernelVariant }
    let config := { config with
      kernelVariant := parseCudaKernelVariant (Json.stringValue (Json.get cuda "kernel-variant"))
        config.kernelVariant }
    { config with
      kernelVariant := parseCudaKernelVariant (Json.stringValue (Json.get cuda "kernel_variant"))
        config.kernelVariant }
  else config

def appConfigSetDonateLevel (config : AppConfig) (level : CInt) : AppConfig :=
  if donationLevelValid level.toInt then { config with donateLevel := level } else config

def loadDonateLevel (donateLevel : Option Json) (config : AppConfig) : AppConfig :=
  match donateLevel with
  | some (.int n) => appConfigSetDonateLevel config (BitVec.ofInt 32 n)
  | _ => config

def loadRoot (root : Option Json) (config : AppConfig) : AppConfig :=
  let config := { config with
    threadCount := jsonIntValue (Json.get root "threads") config.threadCount }
  let config := { config with retries := jsonIntValue (Json.get root "retries") config.retries }
  let config := { config with
    reconnectDelay := jsonIntValue (Json.get root "retry-pause") config.reconnectDelay }
  let config := { config with
    reconnectDelay := jsonIntValue (Json.get root "reconnect-delay") config.reconnectDelay }
  let config := { config with
    statsInterval := jsonNumberValueOr (Json.get root "print-time") config.statsInterval }
  let config := { config with
    statsInterval := jsonNumberValueOr (Json.get root "stats") config.statsInterval }
  let config := { config with
    runtimeSeconds := jsonNumberValueOr (Json.get root "runtime") config.runtimeSeconds }
  loadDonateLevel (Json.get root "donate-level") config

/-- The text of a pool's login, or the default when it is missing or empty. -/
def loadLogin {size : Nat} (room : 0 < size) (value : Option Json) (default : List Char) : CStr size :=
  let text := copyString room (Json.stringValue value)
  if text.val.isEmpty then copyString room (some default) else text

def loadPool (pool : Json) (url : List Char) : PoolConfig :=
  let member := Json.get (some pool)
  let difficulty := jsonNumberValueOr (member "diff") defaultSuggestDifficulty
  let difficulty := jsonNumberValueOr (member "difficulty") difficulty
  { url := copyString room256 (some url)
    user := loadLogin room256 (member "user") defaultUser
    pass := loadLogin room128 (member "pass") defaultPassword
    difficulty }

/-- An entry that is not an object or has no url is passed over. -/
def acceptPool (pool : Json) : Option PoolConfig :=
  if Json.isObject (some pool) then
    match Json.stringValue (Json.get (some pool) "url") with
    | none => none
    | some url => if url.isEmpty then none else some (loadPool pool url)
  else none

def loadPools (pools : Option Json) (config : AppConfig) : AppConfig :=
  match pools with
  | some (.array elements) =>
      let loaded := elements.foldl (collectStep maxPools acceptPool) []
      if loaded.length > 0 then { config with pools := loaded } else config
  | _ => config

/-- `file` is what the file holds, if it can be read; the result is the return value and
the configuration. -/
def loadConfigFile (config : AppConfig) (file : Option Json) (required : Bool) : Int × AppConfig :=
  match file with
  | none => if required then (-1, config) else (0, config)
  | some root =>
      let member := Json.get (some root)
      let config := { config with autosave := jsonBoolValue (member "autosave") config.autosave }
      let config := loadAutotune (member "autotune") config
      let config := loadCpu (member "cpu") config
      let config := { config with opencl := loadOpencl (member "opencl") config.opencl }
      let config := { config with cuda := loadCuda (member "cuda") config.cuda }
      let config := loadRoot (some root) config
      let config := loadPools (member "pools") config
      (0, config)

end BtcRig.Config.Load
