/-
# BtcRig.Config.Resolved — which of several names decides

The chains of lookups of `load_config_file`, section by section, as one value each:
`loadAutotune_eq`, `loadCpu_eq`, `loadOpencl_eq`, `loadDevice_eq`, `loadCuda_eq`,
`loadRoot_eq`, `loadPools_eq`.  All but the variants resolve as they should.  A variant's
parser takes a missing name for `auto` (`standard` for CUDA) and so forgets what the
names before it set.
-/
import BtcRig.Config.Load

namespace BtcRig.Config.Resolved

open BtcRig.Theory
open BtcRig.Theory.Words
open BtcRig.Theory.Aliases
open BtcRig.Gpu.OpenCl (BackendVariant KernelVariant)
open BtcRig.Donation.Schedule (PoolConfig donationLevelValid)
open BtcRig.Config.Variants
open BtcRig.Config.Load

set_option autoImplicit false

/-! ## Valid values -/

def intIn (value : Option Json) : Option CInt :=
  (Json.integerValue value).map (BitVec.ofInt 32)

def u32In (value : Option Json) : Option Word :=
  (Json.integerValue value).bind fun n =>
    if n < 0 ∨ n > 4294967295 then none else some (BitVec.ofInt 32 n)

/-- A list of devices takes the place of all devices. -/
def listIn (devices : Option Json) : Option Bool :=
  if Json.isArray devices then some false else none

/-- What the members of these names offer, in this order. -/
def named {β : Type} (read : Option Json → Option β) (parent : Option Json) (names : List String) :
    List (Option β) :=
  names.map fun name => read (Json.get parent name)

theorem jsonBoolValue_eq (value : Option Json) (fallback : Bool) :
    jsonBoolValue value fallback = (Json.boolValue value).getD fallback := by
  unfold jsonBoolValue Json.boolValue
  split <;> simp

/-- The readers keep the fallback they are given. -/
theorem jsonIntValue_eq (value : Option Json) (fallback : CInt) :
    jsonIntValue value fallback = (intIn value).getD fallback := by
  unfold jsonIntValue intIn Json.integerValue
  split <;> simp

theorem jsonU32Value_eq (value : Option Json) (fallback : Word) :
    jsonU32Value value fallback = (u32In value).getD fallback := by
  unfold jsonU32Value u32In Json.integerValue
  split
  · rw [Option.bind_some]
    split <;> rfl
  · simp

theorem jsonNumberValueOr_eq (value : Option Json) (fallback : ℚ) :
    jsonNumberValueOr value fallback = (Json.numberValue value).getD fallback := by
  unfold jsonNumberValueOr Json.numberValue
  split <;> simp

theorem get_of_not_object {parent : Option Json} (other : Json.isObject parent = false) (name : String) :
    Json.get parent name = none := by
  unfold Json.get
  split
  · cases other
  · rfl

/-- What is no object has no members, and changes nothing. -/
theorem resolve_of_not_object {β : Type} {parent : Option Json} (other : Json.isObject parent = false)
    (read : Option Json → Option β) (readNone : read none = none) (names : List String)
    (previous : β) : resolve (named read parent names) previous = previous := by
  apply resolve_none previous
  intro candidate member
  obtain ⟨name, -, rfl⟩ := List.mem_map.mp member
  rw [get_of_not_object other, readNone]

/-! ## Sections -/

def cpuDoneNames : List String :=
  ["self-test", "self_test", "done", "completed", "cpu-self-test", "cpu_self_test"]

def gpuDoneNames : List String :=
  ["gpu-self-test", "gpu_self_test", "opencl-self-test", "opencl_self_test"]

def batchNames : List String := ["batch-size", "batch_size"]
def localNames : List String := ["local-work-size", "local_work_size"]
def npiNames : List String := ["nonces-per-work-item", "nonces_per_work_item", "npi"]
def maxResultsNames : List String := ["max-results", "max_results"]
def backendNames : List String := ["backend", "backend-variant", "backend_variant"]
def kernelNames : List String := ["kernel", "kernel-variant", "kernel_variant"]
def blockNames : List String := ["threads-per-block", "threads_per_block", "block"]
def nptNames : List String := ["nonces-per-thread", "nonces_per_thread", "npt"]

theorem loadAutotune_eq (autotune : Option Json) (config : AppConfig) :
    loadAutotune autotune config =
      { config with
        autotuneEnabled := resolve (named Json.boolValue autotune ["enabled"]) config.autotuneEnabled
        cpuAutotuneDone := resolve (named Json.boolValue autotune cpuDoneNames) config.cpuAutotuneDone
        gpuAutotuneDone := resolve (named Json.boolValue autotune gpuDoneNames) config.gpuAutotuneDone
        autotuneSeconds :=
          resolve (named Json.numberValue autotune ["seconds"]) config.autotuneSeconds } := by
  cases isObj : Json.isObject autotune with
  | false =>
      simp only [loadAutotune, isObj, Bool.false_eq_true, if_false,
        resolve_of_not_object isObj Json.boolValue rfl, resolve_of_not_object isObj Json.numberValue rfl]
  | true =>
      simp only [loadAutotune, isObj, if_true, resolve_eq_foldl, named, cpuDoneNames, gpuDoneNames,
        List.map_cons, List.map_nil, List.foldl_cons, List.foldl_nil, jsonBoolValue_eq,
        jsonNumberValueOr_eq]

/-- The section `cpu`, one value for each setting. -/
theorem loadCpu_eq (cpu : Option Json) (config : AppConfig) :
    loadCpu cpu config =
      { config with
        cpuEnabled := resolve (named Json.boolValue cpu ["enabled"]) config.cpuEnabled
        threadCount := resolve (named intIn cpu ["threads"]) config.threadCount
        cpuAffinity := resolve (named Json.boolValue cpu ["affinity"]) config.cpuAffinity } := by
  cases isObj : Json.isObject cpu with
  | false =>
      simp only [loadCpu, isObj, Bool.false_eq_true, if_false,
        resolve_of_not_object isObj Json.boolValue rfl, resolve_of_not_object isObj intIn rfl]
  | true =>
      simp only [loadCpu, isObj, if_true, resolve_eq_foldl, named, List.map_cons, List.map_nil,
        List.foldl_cons, List.foldl_nil, jsonBoolValue_eq, jsonIntValue_eq]

/-- What the parser makes of the members of these names, read in turn. -/
def parseNamed {V : Type} (spellings : Spellings V) (parent : Option Json) (names : List String)
    (previous : V) : V :=
  if Json.isObject parent then parseAll spellings (named Json.stringValue parent names) previous
  else previous

/-- An entry of `opencl.devices`, with the settings of `opencl` behind it. -/
theorem loadDevice_eq (opencl : OpenclConfig) (device : Json)
    (isObj : Json.isObject (some device) = true) :
    loadDevice opencl device =
      { platform := resolve (named intIn (some device) ["platform"]) opencl.platform
        device := resolve (named intIn (some device) ["device"]) opencl.device
        batchSize := resolve (named u32In (some device) batchNames) opencl.batchSize
        localWorkSize := resolve (named u32In (some device) localNames) opencl.localWorkSize
        noncesPerWorkItem := resolve (named u32In (some device) npiNames) opencl.noncesPerWorkItem
        maxResults := resolve (named u32In (some device) maxResultsNames) opencl.maxResults
        backendVariant :=
          parseNamed openclBackendSpellings (some device) backendNames opencl.backendVariant
        kernelVariant :=
          parseNamed openclKernelSpellings (some device) kernelNames opencl.kernelVariant } := by
  simp only [loadDevice, parseNamed, isObj, if_true, resolve_eq_foldl, named, parseAll, batchNames,
    localNames, npiNames, maxResultsNames, backendNames, kernelNames, List.map_cons, List.map_nil,
    List.foldl_cons, List.foldl_nil, jsonIntValue_eq, jsonU32Value_eq, parseOpenclBackendVariant,
    parseOpenclKernelVariant]

/-- The entries of a list of devices that are kept. -/
def keptDevices (devices : Option Json) : List Json :=
  match devices with
  | some (.array elements) => (elements.filter fun e => Json.isObject (some e)).take maxDevices
  | _ => []

theorem collect_devices (opencl : OpenclConfig) (elements : List Json) :
    elements.foldl (collectStep maxDevices (acceptDevice opencl)) [] =
      (keptDevices (some (.array elements))).map (loadDevice opencl) :=
  collect_if maxDevices (fun e => Json.isObject (some e)) (loadDevice opencl) elements

/-- `opencl` once all settings but the list of devices are read. -/
def openclSettings (opencl : Option Json) (config : OpenclConfig) : OpenclConfig :=
  { config with
    enabled := resolve (named Json.boolValue opencl ["enabled"]) config.enabled
    allDevices := resolve (named Json.boolValue opencl ["all-devices", "all_devices"] ++
      [listIn (Json.get opencl "devices")]) config.allDevices
    platform := resolve (named intIn opencl ["platform"]) config.platform
    device := resolve (named intIn opencl ["device"]) config.device
    batchSize := resolve (named u32In opencl batchNames) config.batchSize
    localWorkSize := resolve (named u32In opencl localNames) config.localWorkSize
    noncesPerWorkItem := resolve (named u32In opencl npiNames) config.noncesPerWorkItem
    maxResults := resolve (named u32In opencl maxResultsNames) config.maxResults
    backendVariant := parseNamed openclBackendSpellings opencl backendNames config.backendVariant
    kernelVariant := parseNamed openclKernelSpellings opencl kernelNames config.kernelVariant }

/-- The section `opencl`. -/
theorem loadOpencl_eq (opencl : Option Json) (config : OpenclConfig) :
    loadOpencl opencl config =
      { openclSettings opencl config with
        devices :=
          if Json.isArray (Json.get opencl "devices") then
            (keptDevices (Json.get opencl "devices")).map (loadDevice (openclSettings opencl config))
          else config.devices } := by
  cases isObj : Json.isObject opencl with
  | false =>
      have noList : Json.get opencl "devices" = none := get_of_not_object isObj "devices"
      simp only [loadOpencl, openclSettings, parseNamed, isObj, noList, Bool.false_eq_true, if_false,
        resolve_snoc, listIn, Json.isArray, Option.getD_none,
        resolve_of_not_object isObj Json.boolValue rfl, resolve_of_not_object isObj intIn rfl,
        resolve_of_not_object isObj u32In rfl]
  | true =>
      simp only [loadOpencl, openclSettings, parseNamed, isObj, if_true, resolve_eq_foldl, named,
        parseAll, batchNames, localNames, npiNames, maxResultsNames, backendNames, kernelNames,
        List.map_cons, List.map_nil, List.foldl_append, List.foldl_cons, List.foldl_nil,
        jsonBoolValue_eq, jsonIntValue_eq, jsonU32Value_eq, parseOpenclBackendVariant,
        parseOpenclKernelVariant]
      rcases Json.get opencl "devices" with _ | (_ | _ | _ | _ | _ | elements | _)
      case some.array => rw [loadDevices, collect_devices]; rfl
      all_goals rfl

theorem loadCuda_eq (cuda : Option Json) (config : CudaConfig) :
    loadCuda cuda config =
      { enabled := resolve (named Json.boolValue cuda ["enabled"]) config.enabled
        device := resolve (named intIn cuda ["device"]) config.device
        batchSize := resolve (named u32In cuda batchNames) config.batchSize
        threadsPerBlock := resolve (named u32In cuda blockNames) config.threadsPerBlock
        noncesPerThread := resolve (named u32In cuda nptNames) config.noncesPerThread
        maxResults := resolve (named u32In cuda maxResultsNames) config.maxResults
        kernelVariant := parseNamed cudaKernelSpellings cuda kernelNames config.kernelVariant } := by
  cases isObj : Json.isObject cuda with
  | false =>
      simp only [loadCuda, parseNamed, isObj, Bool.false_eq_true, if_false,
        resolve_of_not_object isObj Json.boolValue rfl, resolve_of_not_object isObj intIn rfl,
        resolve_of_not_object isObj u32In rfl]
  | true =>
      simp only [loadCuda, parseNamed, isObj, if_true, resolve_eq_foldl, named, parseAll, batchNames,
        blockNames, nptNames, maxResultsNames, kernelNames, List.map_cons, List.map_nil,
        List.foldl_cons, List.foldl_nil, jsonBoolValue_eq, jsonIntValue_eq, jsonU32Value_eq,
        parseCudaKernelVariant]

def donateLevelIn (value : Option Json) : Option CInt :=
  (intIn value).filter fun level => donationLevelValid level.toInt

theorem loadDonateLevel_eq (value : Option Json) (config : AppConfig) :
    loadDonateLevel value config =
      { config with donateLevel := (donateLevelIn value).getD config.donateLevel } := by
  rcases value with _ | (_ | _ | n | _ | _ | _ | _)
  case some.int =>
    have read : donateLevelIn (some (.int n)) =
        (some (BitVec.ofInt 32 n)).filter fun level => donationLevelValid level.toInt := rfl
    rw [loadDonateLevel, read, appConfigSetDonateLevel]
    generalize BitVec.ofInt 32 n = level
    cases valid : donationLevelValid level.toInt <;>
      simp only [Option.filter_some, valid, if_true, Bool.false_eq_true, if_false, Option.getD_some,
        Option.getD_none]
  all_goals rfl

theorem loadRoot_eq (root : Option Json) (config : AppConfig) :
    loadRoot root config =
      { config with
        threadCount := resolve (named intIn root ["threads"]) config.threadCount
        retries := resolve (named intIn root ["retries"]) config.retries
        reconnectDelay :=
          resolve (named intIn root ["retry-pause", "reconnect-delay"]) config.reconnectDelay
        statsInterval := resolve (named Json.numberValue root ["print-time", "stats"]) config.statsInterval
        runtimeSeconds := resolve (named Json.numberValue root ["runtime"]) config.runtimeSeconds
        donateLevel := resolve (named donateLevelIn root ["donate-level"]) config.donateLevel } := by
  simp only [loadRoot, resolve_eq_foldl, named, List.map_cons, List.map_nil, List.foldl_cons,
    List.foldl_nil, jsonIntValue_eq, jsonNumberValueOr_eq, loadDonateLevel_eq]

/-- An entry of the pool list with a url. -/
def hasUrl (pool : Json) : Bool :=
  match Json.stringValue (Json.get (some pool) "url") with
  | none => false
  | some url => !url.isEmpty

def keptPools (pools : Option Json) : List Json :=
  match pools with
  | some (.array elements) => (elements.filter hasUrl).take maxPools
  | _ => []

/-- The fields of a kept pool. -/
def poolRead (pool : Json) : PoolConfig :=
  loadPool pool ((Json.stringValue (Json.get (some pool) "url")).getD [])

theorem acceptPool_eq (pool : Json) :
    acceptPool pool = if hasUrl pool then some (poolRead pool) else none := by
  cases isObj : Json.isObject (some pool) with
  | false =>
      have noUrl : Json.get (some pool) "url" = none := get_of_not_object isObj "url"
      simp [acceptPool, hasUrl, isObj, noUrl, Json.stringValue]
  | true =>
      rw [acceptPool, hasUrl, poolRead, if_pos isObj]
      cases Json.stringValue (Json.get (some pool) "url") with
      | none => rfl
      | some url => cases url <;> rfl

/-- The list of pools. -/
theorem loadPools_eq (pools : Option Json) (config : AppConfig) :
    loadPools pools config =
      { config with
        pools := if (keptPools pools).isEmpty then config.pools else (keptPools pools).map poolRead } := by
  rcases pools with _ | (_ | _ | _ | _ | _ | elements | _)
  case some.array =>
    have accepted : acceptPool = fun pool => if hasUrl pool then some (poolRead pool) else none :=
      funext acceptPool_eq
    have loaded : elements.foldl (collectStep maxPools acceptPool) [] =
        (keptPools (some (.array elements))).map poolRead := by
      rw [accepted, collect_if, keptPools]
    rw [loadPools, loaded]
    generalize keptPools (some (.array elements)) = kept
    cases kept with
    | nil => rfl
    | cons pool kept => rfl
  all_goals rfl

/-! ## The whole file -/

/-- A configuration file that was read, setting by setting. -/
theorem loadConfigFile_eq (config : AppConfig) (root : Json) (required : Bool) :
    (loadConfigFile config (some root) required).2 =
      let member := Json.get (some root)
      { pools :=
          if (keptPools (member "pools")).isEmpty then config.pools
          else (keptPools (member "pools")).map poolRead
        retries := resolve (named intIn (some root) ["retries"]) config.retries
        reconnectDelay :=
          resolve (named intIn (some root) ["retry-pause", "reconnect-delay"]) config.reconnectDelay
        threadCount :=
          resolve (named intIn (member "cpu") ["threads"] ++ named intIn (some root) ["threads"])
            config.threadCount
        cpuAffinity := resolve (named Json.boolValue (member "cpu") ["affinity"]) config.cpuAffinity
        cpuEnabled := resolve (named Json.boolValue (member "cpu") ["enabled"]) config.cpuEnabled
        enableMining := config.enableMining
        autosave := resolve (named Json.boolValue (some root) ["autosave"]) config.autosave
        autotuneEnabled :=
          resolve (named Json.boolValue (member "autotune") ["enabled"]) config.autotuneEnabled
        cpuAutotuneDone :=
          resolve (named Json.boolValue (member "autotune") cpuDoneNames) config.cpuAutotuneDone
        gpuAutotuneDone :=
          resolve (named Json.boolValue (member "autotune") gpuDoneNames) config.gpuAutotuneDone
        opencl := loadOpencl (member "opencl") config.opencl
        cuda := loadCuda (member "cuda") config.cuda
        runtimeSeconds := resolve (named Json.numberValue (some root) ["runtime"]) config.runtimeSeconds
        statsInterval :=
          resolve (named Json.numberValue (some root) ["print-time", "stats"]) config.statsInterval
        autotuneSeconds :=
          resolve (named Json.numberValue (member "autotune") ["seconds"]) config.autotuneSeconds
        donateLevel :=
          resolve (named donateLevelIn (some root) ["donate-level"]) config.donateLevel } := by
  simp only [loadConfigFile, loadAutotune_eq, loadCpu_eq, loadRoot_eq, loadPools_eq]
  congr 1
  · simp [named, resolve_eq_foldl]
  · simp [named, resolve_eq_foldl, jsonBoolValue_eq]

/-! ## The last name that has a value -/

/-- What these names offer a variant: the strings among them that the parser knows. -/
def variants {V : Type} (spellings : Spellings V) (parent : Option Json) (names : List String) :
    List (Option V) :=
  (named Json.stringValue parent names).map (variantIn spellings)

/-- An entry of `opencl.devices`, with the settings of `opencl` to fall back to. -/
structure DeviceResolved (opencl : OpenclConfig) (entry : Json) (d : OpenclDeviceConfig) : Prop where
  platform : d.platform = resolve (named intIn (some entry) ["platform"]) opencl.platform
  device : d.device = resolve (named intIn (some entry) ["device"]) opencl.device
  batchSize : d.batchSize = resolve (named u32In (some entry) batchNames) opencl.batchSize
  localWorkSize : d.localWorkSize = resolve (named u32In (some entry) localNames) opencl.localWorkSize
  noncesPerWorkItem :
    d.noncesPerWorkItem = resolve (named u32In (some entry) npiNames) opencl.noncesPerWorkItem
  maxResults : d.maxResults = resolve (named u32In (some entry) maxResultsNames) opencl.maxResults
  backendVariant : d.backendVariant =
    resolve (variants openclBackendSpellings (some entry) backendNames) opencl.backendVariant
  kernelVariant : d.kernelVariant =
    resolve (variants openclKernelSpellings (some entry) kernelNames) opencl.kernelVariant

structure OpenclResolved (opencl : Option Json) (before after : OpenclConfig) : Prop where
  allDevices : after.allDevices =
    resolve (named Json.boolValue opencl ["all-devices", "all_devices"] ++
      [listIn (Json.get opencl "devices")]) before.allDevices
  batchSize : after.batchSize = resolve (named u32In opencl batchNames) before.batchSize
  localWorkSize : after.localWorkSize = resolve (named u32In opencl localNames) before.localWorkSize
  noncesPerWorkItem :
    after.noncesPerWorkItem = resolve (named u32In opencl npiNames) before.noncesPerWorkItem
  maxResults : after.maxResults = resolve (named u32In opencl maxResultsNames) before.maxResults
  backendVariant : after.backendVariant =
    resolve (variants openclBackendSpellings opencl backendNames) before.backendVariant
  kernelVariant : after.kernelVariant =
    resolve (variants openclKernelSpellings opencl kernelNames) before.kernelVariant
  devices : Json.isArray (Json.get opencl "devices") = true →
    List.Forall₂ (DeviceResolved after) (keptDevices (Json.get opencl "devices")) after.devices
  sameDevices : Json.isArray (Json.get opencl "devices") = false → after.devices = before.devices

structure CudaResolved (cuda : Option Json) (before after : CudaConfig) : Prop where
  batchSize : after.batchSize = resolve (named u32In cuda batchNames) before.batchSize
  threadsPerBlock : after.threadsPerBlock = resolve (named u32In cuda blockNames) before.threadsPerBlock
  noncesPerThread : after.noncesPerThread = resolve (named u32In cuda nptNames) before.noncesPerThread
  maxResults : after.maxResults = resolve (named u32In cuda maxResultsNames) before.maxResults
  kernelVariant : after.kernelVariant =
    resolve (variants cudaKernelSpellings cuda kernelNames) before.kernelVariant

/-- Every setting with several names is that of the last one with a valid value, or what
it was before; a missing name offers nothing.  The number of threads has names in two
objects; a list of devices is a name that turns `all_devices` off; the difficulty of a
kept pool starts from the default.  Every integer is valid for an `int` setting and counts by
its value modulo `2 ^ 32`. -/
structure AllResolved (root : Json) (before after : AppConfig) : Prop where
  cpuAutotuneDone : after.cpuAutotuneDone =
    resolve (named Json.boolValue (Json.get (some root) "autotune") cpuDoneNames) before.cpuAutotuneDone
  gpuAutotuneDone : after.gpuAutotuneDone =
    resolve (named Json.boolValue (Json.get (some root) "autotune") gpuDoneNames) before.gpuAutotuneDone
  threadCount : after.threadCount =
    resolve (named intIn (Json.get (some root) "cpu") ["threads"] ++ named intIn (some root) ["threads"])
      before.threadCount
  opencl : OpenclResolved (Json.get (some root) "opencl") before.opencl after.opencl
  cuda : CudaResolved (Json.get (some root) "cuda") before.cuda after.cuda
  reconnectDelay : after.reconnectDelay =
    resolve (named intIn (some root) ["retry-pause", "reconnect-delay"]) before.reconnectDelay
  statsInterval : after.statsInterval =
    resolve (named Json.numberValue (some root) ["print-time", "stats"]) before.statsInterval
  difficulty : (keptPools (Json.get (some root) "pools")).isEmpty = false →
    List.Forall₂
      (fun pool kept => kept.difficulty =
        resolve (named Json.numberValue (some pool) ["diff", "difficulty"]) defaultSuggestDifficulty)
      (keptPools (Json.get (some root) "pools")) after.pools

/-- In the object, if it is one, and in each entry kept of its list, the last deciding
name of a variant is not a missing one, or the variant resolves to `auto` anyway. -/
structure OpenclKept (opencl : Option Json) (before : OpenclConfig) : Prop where
  backend : Json.isObject opencl = true →
    Kept openclBackendSpellings (named Json.stringValue opencl backendNames) before.backendVariant
  kernel : Json.isObject opencl = true →
    Kept openclKernelSpellings (named Json.stringValue opencl kernelNames) before.kernelVariant
  deviceBackend : ∀ device ∈ keptDevices (Json.get opencl "devices"),
    Kept openclBackendSpellings (named Json.stringValue (some device) backendNames)
      (resolve (variants openclBackendSpellings opencl backendNames) before.backendVariant)
  deviceKernel : ∀ device ∈ keptDevices (Json.get opencl "devices"),
    Kept openclKernelSpellings (named Json.stringValue (some device) kernelNames)
      (resolve (variants openclKernelSpellings opencl kernelNames) before.kernelVariant)

structure VariantsKept (root : Json) (before : AppConfig) : Prop where
  opencl : OpenclKept (Json.get (some root) "opencl") before.opencl
  cuda : Json.isObject (Json.get (some root) "cuda") = true →
    Kept cudaKernelSpellings
      (named Json.stringValue (Json.get (some root) "cuda") kernelNames) before.cuda.kernelVariant

/-- When the last known string decides a variant. -/
theorem parseNamed_iff {V : Type} (spellings : Spellings V) (parent : Option Json)
    (names : List String) (previous : V) :
    parseNamed spellings parent names previous = resolve (variants spellings parent names) previous ↔
      (Json.isObject parent = true →
        Kept spellings (named Json.stringValue parent names) previous) := by
  unfold parseNamed variants
  cases isObj : Json.isObject parent with
  | false =>
      have nothing : resolve ((named Json.stringValue parent names).map (variantIn spellings)) previous =
          previous := by
        rw [named, List.map_map]
        exact resolve_of_not_object isObj (variantIn spellings ∘ Json.stringValue) rfl names previous
      simp [nothing]
  | true =>
      rw [if_pos rfl, parseAll_eq_resolve_iff]
      simp

theorem keptDevices_isObject {devices : Option Json} {device : Json}
    (kept : device ∈ keptDevices devices) : Json.isObject (some device) = true := by
  unfold keptDevices at kept
  split at kept
  · exact (List.mem_filter.mp (List.mem_of_mem_take kept)).2
  · cases kept

theorem isArray_of_kept {devices : Option Json} {device : Json} (kept : device ∈ keptDevices devices) :
    Json.isArray devices = true := by
  unfold keptDevices at kept
  split at kept
  · rfl
  · cases kept

/-- An entry resolves as it should exactly if its two variants do. -/
theorem deviceResolved_iff (opencl : OpenclConfig) (device : Json)
    (isObj : Json.isObject (some device) = true) :
    DeviceResolved opencl device (loadDevice opencl device) ↔
      Kept openclBackendSpellings (named Json.stringValue (some device) backendNames)
          opencl.backendVariant ∧
        Kept openclKernelSpellings (named Json.stringValue (some device) kernelNames)
          opencl.kernelVariant := by
  have backend := parseNamed_iff openclBackendSpellings (some device) backendNames opencl.backendVariant
  have kernel := parseNamed_iff openclKernelSpellings (some device) kernelNames opencl.kernelVariant
  simp only [isObj, forall_const] at backend kernel
  rw [loadDevice_eq opencl device isObj, ← backend, ← kernel]
  constructor
  · intro resolved
    exact ⟨resolved.backendVariant, resolved.kernelVariant⟩
  · rintro ⟨keptBackend, keptKernel⟩
    exact ⟨rfl, rfl, rfl, rfl, rfl, rfl, keptBackend, keptKernel⟩

theorem devicesResolved_iff (opencl : OpenclConfig) (devices : Option Json) :
    List.Forall₂ (DeviceResolved opencl) (keptDevices devices)
        ((keptDevices devices).map (loadDevice opencl)) ↔
      ∀ device ∈ keptDevices devices,
        Kept openclBackendSpellings (named Json.stringValue (some device) backendNames)
            opencl.backendVariant ∧
          Kept openclKernelSpellings (named Json.stringValue (some device) kernelNames)
            opencl.kernelVariant := by
  rw [List.forall₂_map_right_iff, List.forall₂_same]
  exact forall₂_congr fun device kept => deviceResolved_iff opencl device (keptDevices_isObject kept)

/-- The same for the section with its list. -/
theorem openclResolved_iff (opencl : Option Json) (before : OpenclConfig) :
    OpenclResolved opencl before (loadOpencl opencl before) ↔ OpenclKept opencl before := by
  have backend := parseNamed_iff openclBackendSpellings opencl backendNames before.backendVariant
  have kernel := parseNamed_iff openclKernelSpellings opencl kernelNames before.kernelVariant
  -- The entries are read before the list is stored, from the same settings.
  have devices (listed : List OpenclDeviceConfig) := devicesResolved_iff
    { openclSettings opencl before with devices := listed } (Json.get opencl "devices")
  rw [loadOpencl_eq]
  constructor
  · intro resolved
    have sameBackend := resolved.backendVariant
    have sameKernel := resolved.kernelVariant
    have kept (device : Json) (member : device ∈ keptDevices (Json.get opencl "devices")) :
        Kept openclBackendSpellings (named Json.stringValue (some device) backendNames)
            (openclSettings opencl before).backendVariant ∧
          Kept openclKernelSpellings (named Json.stringValue (some device) kernelNames)
            (openclSettings opencl before).kernelVariant := by
      have isList := isArray_of_kept member
      have listed := resolved.devices isList
      rw [if_pos isList] at listed
      exact (devices _).mp listed device member
    exact ⟨backend.mp sameBackend, kernel.mp sameKernel,
      fun device member => sameBackend ▸ (kept device member).1,
      fun device member => sameKernel ▸ (kept device member).2⟩
  · intro kept
    have sameBackend := backend.mpr kept.backend
    have sameKernel := kernel.mpr kept.kernel
    refine ⟨rfl, rfl, rfl, rfl, rfl, sameBackend, sameKernel, ?_, ?_⟩
    · intro isList
      rw [if_pos isList]
      apply (devices _).mpr
      intro device member
      have keptBackend := kept.deviceBackend device member
      have keptKernel := kept.deviceKernel device member
      rw [← sameBackend] at keptBackend
      rw [← sameKernel] at keptKernel
      exact ⟨keptBackend, keptKernel⟩
    · intro noList
      rw [noList]
      rfl

theorem cudaResolved_iff (cuda : Option Json) (before : CudaConfig) :
    CudaResolved cuda before (loadCuda cuda before) ↔
      (Json.isObject cuda = true →
        Kept cudaKernelSpellings (named Json.stringValue cuda kernelNames) before.kernelVariant) := by
  rw [loadCuda_eq, ← parseNamed_iff]
  constructor
  · intro resolved
    exact resolved.kernelVariant
  · intro kept
    exact ⟨rfl, rfl, rfl, rfl, kept⟩

/-- **When the last valid name decides every setting.**  The variants are the only ones
for which it can fail to. -/
theorem resolved_iff (root : Json) (before : AppConfig) (required : Bool) :
    AllResolved root before (loadConfigFile before (some root) required).2 ↔
      VariantsKept root before := by
  have opencl := openclResolved_iff (Json.get (some root) "opencl") before.opencl
  have cuda := cudaResolved_iff (Json.get (some root) "cuda") before.cuda
  rw [loadConfigFile_eq]
  constructor
  · intro resolved
    exact ⟨opencl.mp resolved.opencl, cuda.mp resolved.cuda⟩
  · intro kept
    refine ⟨rfl, rfl, rfl, opencl.mpr kept.opencl, cuda.mpr kept.cuda, rfl, rfl, ?_⟩
    intro given
    show List.Forall₂ _ _ (if _ then _ else _)
    rw [if_neg (by rw [given]; exact Bool.false_ne_true), List.forall₂_map_right_iff, List.forall₂_same]
    intro pool _
    rw [resolve_eq_foldl]
    exact (jsonNumberValueOr_eq _ _).trans (congrArg _ (jsonNumberValueOr_eq _ _))

/-- Only one name is given here, the first. -/
theorem backend_alias_lost :
    ¬AllResolved
      (.object [("opencl", .object [("enabled", .bool true), ("backend", .string "modern".toList)])])
      (appConfigSetDefaults false)
      (loadConfigFile (appConfigSetDefaults false)
        (some (.object [("opencl",
          .object [("enabled", .bool true), ("backend", .string "modern".toList)])])) false).2 := by
  intro resolved
  have backend := resolved.opencl.backendVariant
  revert backend
  decide

end BtcRig.Config.Resolved
