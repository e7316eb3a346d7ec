/-
# BtcRig.Config.Save — writing the autotune result and reading it back

`save_autotune_config` of `stratum_main.c`: the sections it writes over what the file
holds already, the legacy names it deletes, and `run_autotune` with it.

The saver writes one name for each setting, which the loader reads first.  The other
names it mostly leaves in the file, where they are read after it.

* `saved_loads_back_iff`: when what is loaded from the saved file is what was saved.
-/
import BtcRig.Config.Autotune
import BtcRig.Config.Resolved

namespace BtcRig.Config.Save

open BtcRig.Theory
open BtcRig.Theory.Words
open BtcRig.Theory.Aliases
open BtcRig.Gpu.OpenCl (BackendVariant KernelVariant)
open BtcRig.Config.Variants
open BtcRig.Config.Load
open BtcRig.Config.Resolved
open BtcRig.Config.Autotune

set_option autoImplicit false

/-! ## Writing -/

/-- A value that is not an object is replaced by an empty one. -/
def objectOrNew (value : Option Json) : Json :=
  match value with
  | some (.object members) => .object members
  | _ => .object []

def jsonInt (n : CInt) : Json := .int n.toInt
def jsonU32 (n : Word) : Json := .int n.toNat
def jsonText (text : String) : Json := .string text.toList

def cpuMembers (config : AppConfig) : List (String × Json) := [
  ("enabled", .bool config.cpuEnabled),
  ("threads", jsonInt config.threadCount),
  ("affinity", .bool config.cpuAffinity)]

def openclMembers (config : OpenclConfig) : List (String × Json) := [
  ("enabled", .bool config.enabled),
  ("all-devices", .bool config.allDevices),
  ("platform", jsonInt config.platform),
  ("device", jsonInt config.device),
  ("batch-size", jsonU32 config.batchSize),
  ("local-work-size", jsonU32 config.localWorkSize),
  ("nonces-per-work-item", jsonU32 config.noncesPerWorkItem),
  ("max-results", jsonU32 config.maxResults),
  ("backend", jsonText (openclBackendVariantName config.backendVariant)),
  ("kernel", jsonText (openclKernelVariantName config.kernelVariant))]

def deviceMembers (device : OpenclDeviceConfig) : List (String × Json) := [
  ("platform", jsonInt device.platform),
  ("device", jsonInt device.device),
  ("batch-size", jsonU32 device.batchSize),
  ("local-work-size", jsonU32 device.localWorkSize),
  ("nonces-per-work-item", jsonU32 device.noncesPerWorkItem),
  ("max-results", jsonU32 device.maxResults),
  ("backend", jsonText (openclBackendVariantName device.backendVariant)),
  ("kernel", jsonText (openclKernelVariantName device.kernelVariant))]

def saveDevice (device : OpenclDeviceConfig) : Json := (Json.object []).setAll (deviceMembers device)

def saveOpencl (opencl : Json) (config : OpenclConfig) : Json :=
  let opencl := opencl.setAll (openclMembers config)
  if config.enabled && config.devices.length > 0 then
    opencl.set "devices" (.array (config.devices.map saveDevice))
  else opencl.del "devices"

def cudaMembers (config : CudaConfig) : List (String × Json) := [
  ("enabled", .bool config.enabled),
  ("device", jsonInt config.device),
  ("batch-size", jsonU32 config.batchSize),
  ("threads-per-block", jsonU32 config.threadsPerBlock),
  ("nonces-per-thread", jsonU32 config.noncesPerThread),
  ("kernel", jsonText (cudaKernelVariantName config.kernelVariant)),
  ("max-results", jsonU32 config.maxResults)]

def autotuneOpenclModeName (opencl : OpenclConfig) : String :=
  if !opencl.enabled then "off"
  else if opencl.devices.length > 0 then "devices"
  else if opencl.allDevices then "all-gpu" else "single"

def autotuneCudaModeName (cuda : CudaConfig) : String := if cuda.enabled then "single" else "off"

def resultDeviceMembers (device : OpenclDeviceConfig) : List (String × Json) := [
  ("platform", jsonInt device.platform),
  ("device", jsonInt device.device),
  ("batch-size", jsonU32 device.batchSize),
  ("local-work-size", jsonU32 device.localWorkSize),
  ("nonces-per-work-item", jsonU32 device.noncesPerWorkItem),
  ("backend", jsonText (openclBackendVariantName device.backendVariant)),
  ("kernel", jsonText (openclKernelVariantName device.kernelVariant))]

def saveResult (result : AutotuneResult) : Json :=
  let item := (Json.object []).setAll [
    ("mode", .string result.name.val),
    ("ok", .bool result.ok),
    ("hashrate", .real result.hashrate),
    ("cpu-threads", jsonInt result.cpuThreads),
    ("cpu-affinity", .bool result.cpuAffinity),
    ("opencl", jsonText (autotuneOpenclModeName result.opencl)),
    ("cuda", jsonText (autotuneCudaModeName result.cuda))]
  let item :=
    if result.cuda.enabled then
      item.setAll [
        ("cuda-device", jsonInt result.cuda.device),
        ("cuda-kernel", jsonText (cudaKernelVariantName result.cuda.kernelVariant)),
        ("cuda-batch-size", jsonU32 result.cuda.batchSize),
        ("cuda-threads-per-block", jsonU32 result.cuda.threadsPerBlock),
        ("cuda-nonces-per-thread", jsonU32 result.cuda.noncesPerThread)]
    else item
  if result.opencl.devices.length > 0 then
    item.set "devices" (.array (result.opencl.devices.map fun device =>
      (Json.object []).setAll (resultDeviceMembers device)))
  else item

def autotuneMembers (config : AppConfig) : List (String × Json) := [
  ("enabled", .bool config.autotuneEnabled),
  ("cpu-self-test", .bool config.cpuAutotuneDone),
  ("gpu-self-test", .bool config.gpuAutotuneDone)]

def saveAutotune (autotune : Json) (config : AppConfig) (results : List AutotuneResult)
    (best : Option AutotuneResult) : Json :=
  let autotune := autotune.setAll (autotuneMembers config)
  let autotune := autotune.del "self-test"
  let autotune := autotune.del "self_test"
  let autotune := autotune.del "done"
  let autotune := autotune.del "completed"
  let autotune := autotune.set "seconds" (.real config.autotuneSeconds)
  let autotune :=
    match best with
    | some best =>
        (autotune.set "selected" (.string best.name.val)).set "selected-hashrate" (.real best.hashrate)
    | none => autotune
  autotune.set "results" (.array (results.map saveResult))

/-- What is written to the file, if the function returns 0.  `file` is what the file
holds, if it can be read, and `dumped` whether writing it succeeds; memory does not run
out.  The sections are changed in place. -/
def saveAutotuneConfig (path : List Char) (file : Option Json) (dumped : Bool) (config : AppConfig)
    (results : List AutotuneResult) (best : Option AutotuneResult) : Option Json :=
  if path.isEmpty then none
  else
    let root := objectOrNew file
    let root := root.set "autosave" (.bool config.autosave)
    let part (name : String) : Json := objectOrNew (Json.get (some root) name)
    let cpu := (part "cpu").setAll (cpuMembers config)
    let opencl := saveOpencl (part "opencl") config.opencl
    let cuda := (part "cuda").setAll (cudaMembers config.cuda)
    let autotune := saveAutotune (part "autotune") config results best
    let root := root.setAll [("cpu", cpu), ("opencl", opencl), ("cuda", cuda), ("autotune", autotune)]
    if dumped then some root else none

/-- The return value, the configuration afterwards and what was saved, if anything. -/
def runAutotune (host : Host) (path : List Char) (file : Option Json) (dumped : Bool)
    (config : AppConfig) : Int × AppConfig × Option Json :=
  match selectMode host config with
  | none => (-1, config, none)
  | some outcome =>
      (0, outcome.config,
        if outcome.config.autosave then
          saveAutotuneConfig path file dumped outcome.config outcome.results (some outcome.best)
        else none)

/-! ## Reading what was written -/

theorem get_objectOrNew (value : Option Json) (key : String) :
    Json.get (some (objectOrNew value)) key = Json.get value key := by
  rcases value with _ | (_ | _ | _ | _ | _ | _ | _) <;> rfl

theorem isObject_objectOrNew (value : Option Json) :
    Json.isObject (some (objectOrNew value)) = true := by
  rcases value with _ | (_ | _ | _ | _ | _ | _ | _) <;> rfl

theorem boolValue_none : Json.boolValue none = none := rfl

theorem boolValue_written (b : Bool) : Json.boolValue (some (.bool b)) = some b := rfl

theorem text_written (text : String) : Json.stringValue (some (jsonText text)) = some text.toList := rfl

theorem intIn_written (n : CInt) : intIn (some (jsonInt n)) = some n := by
  simp [intIn, jsonInt, Json.integerValue]

theorem u32In_written (n : Word) : u32In (some (jsonU32 n)) = some n := by
  have bound : n.toNat < 2 ^ 32 := n.isLt
  have inRange : ¬((n.toNat : Int) < 0 ∨ (n.toNat : Int) > 4294967295) := by omega
  have same : BitVec.ofInt 32 n.toNat = n := by simp
  simp only [u32In, jsonU32, Json.integerValue, Option.bind_some, if_neg inRange, same]

/-- A member that is saved is read back. -/
theorem get_written {members : List (String × Json)} {keys : List String}
    (isKeys : members.map Prod.fst = keys) (distinct : keys.Nodup) (old : Option Json) :
    ∀ m ∈ members, Json.get (some ((objectOrNew old).setAll members)) m.1 = some m.2 :=
  fun _ member => Json.get_setAll_of_mem (isObject_objectOrNew old) (isKeys ▸ distinct) member

/-- A member of the old file that is not saved is still there. -/
theorem get_kept {members : List (String × Json)} {keys : List String}
    (isKeys : members.map Prod.fst = keys) (old : Option Json) {key : String} (other : key ∉ keys) :
    Json.get (some ((objectOrNew old).setAll members)) key = Json.get old key := by
  rw [Json.get_setAll_of_notMem (isKeys ▸ other), get_objectOrNew]

/-! ## OpenCL -/

def deviceKeys : List String := ["platform", "device", "batch-size", "local-work-size",
  "nonces-per-work-item", "max-results", "backend", "kernel"]

theorem deviceMembers_keys (device : OpenclDeviceConfig) :
    (deviceMembers device).map Prod.fst = deviceKeys := rfl

theorem get_saveDevice (device : OpenclDeviceConfig) :
    ∀ m ∈ deviceMembers device, Json.get (some (saveDevice device)) m.1 = some m.2 :=
  get_written (deviceMembers_keys device) (by decide) none

/-- The loaded variants of a saved device: its entry has no further names, and the last
name is missing. -/
theorem loadDevice_saved (opencl : OpenclConfig) (device : OpenclDeviceConfig) :
    loadDevice opencl (saveDevice device) =
      { device with backendVariant := .auto, kernelVariant := .auto } := by
  have isObj : Json.isObject (some (saveDevice device)) = true := by
    rw [saveDevice, Json.isObject_setAll]
    rfl
  have absent (key : String) (other : key ∉ deviceKeys) : Json.get (some (saveDevice device)) key = none :=
    get_kept (deviceMembers_keys device) none other
  have written := get_saveDevice device
  generalize saveDevice device = saved at *
  simp only [deviceMembers, List.forall_mem_cons] at written
  obtain ⟨platform, number, batchSize, localWorkSize, npi, maxResults, backend, kernel, -⟩ := written
  rw [loadDevice_eq opencl saved isObj]
  simp only [named, parseNamed, isObj, if_true, batchNames, localNames, npiNames, maxResultsNames,
    backendNames, kernelNames, List.map_cons, List.map_nil, platform, number, batchSize, localWorkSize,
    npi, maxResults, absent "batch_size" (by decide), absent "local_work_size" (by decide),
    absent "nonces_per_work_item" (by decide), absent "npi" (by decide),
    absent "max_results" (by decide), absent "backend_variant" (by decide),
    absent "kernel_variant" (by decide), intIn_written, u32In_written, resolve_some_cons]
  rfl

def openclKeys : List String := ["enabled", "all-devices", "platform", "device", "batch-size",
  "local-work-size", "nonces-per-work-item", "max-results", "backend", "kernel"]

theorem openclMembers_keys (config : OpenclConfig) :
    (openclMembers config).map Prod.fst = openclKeys := rfl

section Opencl

variable (old : Option Json) (config : OpenclConfig)

theorem get_saveOpencl_of_ne {key : String} (other : key ≠ "devices") :
    Json.get (some (saveOpencl (objectOrNew old) config)) key =
      Json.get (some ((objectOrNew old).setAll (openclMembers config))) key := by
  unfold saveOpencl
  dsimp only
  split
  · exact Json.get_set_of_ne "devices" _ other
  · exact Json.get_del_of_ne "devices" other

theorem get_saveOpencl_devices :
    Json.get (some (saveOpencl (objectOrNew old) config)) "devices" =
      if config.enabled && config.devices.length > 0 then some (.array (config.devices.map saveDevice))
      else none := by
  unfold saveOpencl
  dsimp only
  split
  · exact Json.get_set_self "devices" _ (by rw [Json.isObject_setAll, isObject_objectOrNew])
  · exact Json.get_del_self "devices"

theorem isObject_saveOpencl : Json.isObject (some (saveOpencl (objectOrNew old) config)) = true := by
  unfold saveOpencl
  dsimp only
  split
  · rw [Json.isObject_set, Json.isObject_setAll, isObject_objectOrNew]
  · rw [Json.isObject_del, Json.isObject_setAll, isObject_objectOrNew]

/-- The entries of the saved list are all kept. -/
theorem keptDevices_saved {devices : List OpenclDeviceConfig} (room : devices.length ≤ maxDevices) :
    keptDevices (some (.array (devices.map saveDevice))) = devices.map saveDevice := by
  have objects : (devices.map saveDevice).filter (fun e => Json.isObject (some e)) =
      devices.map saveDevice := by
    apply List.filter_eq_self.mpr
    intro e member
    obtain ⟨device, -, rfl⟩ := List.mem_map.mp member
    rw [saveDevice, Json.isObject_setAll]
    rfl
  rw [keptDevices, objects, List.take_of_length_le (by rwa [List.length_map])]

/-- What is loaded over a configuration without devices. -/
theorem loadOpencl_saved (listed : Listed config) {before : OpenclConfig} (noDevices : before.devices = []) :
    loadOpencl (some (saveOpencl (objectOrNew old) config)) before =
      { config with
        allDevices := if config.devices.isEmpty then
            resolve (named Json.boolValue old ["all_devices"]) config.allDevices else false
        batchSize := resolve (named u32In old ["batch_size"]) config.batchSize
        localWorkSize := resolve (named u32In old ["local_work_size"]) config.localWorkSize
        noncesPerWorkItem :=
          resolve (named u32In old ["nonces_per_work_item", "npi"]) config.noncesPerWorkItem
        maxResults := resolve (named u32In old ["max_results"]) config.maxResults
        backendVariant := parseAll openclBackendSpellings
          (named Json.stringValue old ["backend-variant", "backend_variant"]) config.backendVariant
        kernelVariant := parseAll openclKernelSpellings
          (named Json.stringValue old ["kernel-variant", "kernel_variant"]) config.kernelVariant
        devices := config.devices.map fun device =>
          { device with backendVariant := .auto, kernelVariant := .auto } } := by
  have isObj := isObject_saveOpencl old config
  have kept (key : String) (other : key ∉ openclKeys) (notList : key ≠ "devices") :
      Json.get (some (saveOpencl (objectOrNew old) config)) key = Json.get old key := by
    rw [get_saveOpencl_of_ne old config notList, get_kept (openclMembers_keys config) old other]
  have written : ∀ m ∈ openclMembers config,
      Json.get (some (saveOpencl (objectOrNew old) config)) m.1 = some m.2 := by
    intro m member
    have notList : m.1 ≠ "devices" := by
      have isKey : m.1 ∈ openclKeys := openclMembers_keys config ▸ List.mem_map_of_mem member
      intro same
      rw [same] at isKey
      exact absurd isKey (by decide)
    rw [get_saveOpencl_of_ne old config notList]
    exact get_written (openclMembers_keys config) (by decide) old m member
  have devices := get_saveOpencl_devices old config
  generalize saveOpencl (objectOrNew old) config = saved at *
  simp only [openclMembers, List.forall_mem_cons] at written
  obtain ⟨enabled, allDevices, platform, number, batchSize, localWorkSize, npi, maxResults, backend,
    kernel, -⟩ := written
  have named_backend := parseAll_named openclBackendSpellings (openclBackend_named config.backendVariant)
  have named_kernel := parseAll_named openclKernelSpellings (openclKernel_named config.kernelVariant)
  rw [loadOpencl_eq]
  simp only [openclSettings, named, parseNamed, isObj, if_true, batchNames, localNames, npiNames,
    maxResultsNames, backendNames, kernelNames, List.map_cons, List.map_nil, List.cons_append,
    List.nil_append, enabled, allDevices, platform, number, batchSize, localWorkSize, npi, maxResults,
    backend, kernel, kept "all_devices" (by decide) (by decide),
    kept "batch_size" (by decide) (by decide), kept "local_work_size" (by decide) (by decide),
    kept "nonces_per_work_item" (by decide) (by decide), kept "npi" (by decide) (by decide),
    kept "max_results" (by decide) (by decide), kept "backend-variant" (by decide) (by decide),
    kept "backend_variant" (by decide) (by decide), kept "kernel-variant" (by decide) (by decide),
    kept "kernel_variant" (by decide) (by decide), boolValue_written, intIn_written, u32In_written,
    text_written, resolve_some_cons, resolve_nil, named_backend, named_kernel]
  by_cases empty : config.devices = []
  · have noList : Json.get (some saved) "devices" = none := by simp [devices, empty]
    have off : listIn (none : Option Json) = none := rfl
    have noArray : Json.isArray (none : Option Json) = false := rfl
    simp only [noList, off, noArray, noDevices, empty, resolve_eq_foldl, List.foldl_cons, List.foldl_nil,
      Option.getD_none, Bool.false_eq_true, if_false, List.isEmpty_nil, if_true, List.map_nil]
  · have isList : Json.get (some saved) "devices" = some (.array (config.devices.map saveDevice)) := by
      simp [devices, (listed.used empty).1, List.length_pos_of_ne_nil empty]
    have off : listIn (some (.array (config.devices.map saveDevice))) = some false := rfl
    have isArray : Json.isArray (some (.array (config.devices.map saveDevice))) = true := rfl
    have notEmpty : config.devices.isEmpty = false := by simpa using empty
    simp only [isList, off, isArray, notEmpty, keptDevices_saved listed.room, resolve_eq_foldl,
      List.foldl_cons, List.foldl_nil, Option.getD_some, Bool.false_eq_true, if_false, if_true,
      List.map_map, Function.comp_def, loadDevice_saved]

/-- The names that the saver leaves in the section give what was saved, if anything; its
entries have no variants, which cannot be read back. -/
structure OpenclUndisturbed : Prop where
  allDevices : config.devices = [] → Agrees (named Json.boolValue old ["all_devices"]) config.allDevices
  batchSize : Agrees (named u32In old ["batch_size"]) config.batchSize
  localWorkSize : Agrees (named u32In old ["local_work_size"]) config.localWorkSize
  noncesPerWorkItem :
    Agrees (named u32In old ["nonces_per_work_item", "npi"]) config.noncesPerWorkItem
  maxResults : Agrees (named u32In old ["max_results"]) config.maxResults
  backendVariant : VariantAgrees openclBackendSpellings
    (named Json.stringValue old ["backend-variant", "backend_variant"]) config.backendVariant
  kernelVariant : VariantAgrees openclKernelSpellings
    (named Json.stringValue old ["kernel-variant", "kernel_variant"]) config.kernelVariant
  devices : ∀ device ∈ config.devices, device.backendVariant = .auto ∧ device.kernelVariant = .auto

theorem devices_same_iff (devices : List OpenclDeviceConfig) :
    (devices.map fun device => { device with backendVariant := .auto, kernelVariant := .auto }) = devices ↔
      ∀ device ∈ devices, device.backendVariant = .auto ∧ device.kernelVariant = .auto := by
  constructor
  · intro same device member
    have fixed := List.map_inj_left.mp (same.trans (List.map_id devices).symm) device member
    exact ⟨(congrArg OpenclDeviceConfig.backendVariant fixed).symm,
      (congrArg OpenclDeviceConfig.kernelVariant fixed).symm⟩
  · intro auto
    refine (List.map_congr_left fun device member => ?_).trans (List.map_id devices)
    obtain ⟨backend, kernel⟩ := auto device member
    rw [← backend, ← kernel]
    rfl

theorem loadOpencl_saved_iff (listed : Listed config) (before : OpenclConfig)
    (noDevices : before.devices = []) :
    loadOpencl (some (saveOpencl (objectOrNew old) config)) before = config ↔
      OpenclUndisturbed old config := by
  rw [loadOpencl_saved old config listed noDevices]
  constructor
  · intro same
    refine ⟨fun empty => ?_, ?_, ?_, ?_, ?_, ?_, ?_, ?_⟩
    · have allDevices := congrArg OpenclConfig.allDevices same
      rw [empty] at allDevices
      exact (resolve_eq_self_iff _ _).mp allDevices
    · exact (resolve_eq_self_iff _ _).mp (congrArg OpenclConfig.batchSize same)
    · exact (resolve_eq_self_iff _ _).mp (congrArg OpenclConfig.localWorkSize same)
    · exact (resolve_eq_self_iff _ _).mp (congrArg OpenclConfig.noncesPerWorkItem same)
    · exact (resolve_eq_self_iff _ _).mp (congrArg OpenclConfig.maxResults same)
    · exact (parseAll_eq_self_iff _ _ _).mp (congrArg OpenclConfig.backendVariant same)
    · exact (parseAll_eq_self_iff _ _ _).mp (congrArg OpenclConfig.kernelVariant same)
    · exact (devices_same_iff _).mp (congrArg OpenclConfig.devices same)
  · intro undisturbed
    have allDevices : (if config.devices.isEmpty then
        resolve (named Json.boolValue old ["all_devices"]) config.allDevices else false) =
          config.allDevices := by
      split
      · rename_i empty
        exact (resolve_eq_self_iff _ _).mpr (undisturbed.allDevices (List.isEmpty_iff.mp empty))
      · rename_i given
        exact (listed.used fun empty => given (List.isEmpty_iff.mpr empty)).2.symm
    rw [allDevices, (resolve_eq_self_iff _ _).mpr undisturbed.batchSize,
      (resolve_eq_self_iff _ _).mpr undisturbed.localWorkSize,
      (resolve_eq_self_iff _ _).mpr undisturbed.noncesPerWorkItem,
      (resolve_eq_self_iff _ _).mpr undisturbed.maxResults,
      (parseAll_eq_self_iff _ _ _).mpr undisturbed.backendVariant,
      (parseAll_eq_self_iff _ _ _).mpr undisturbed.kernelVariant,
      (devices_same_iff _).mpr undisturbed.devices]

end Opencl

/-! ## CUDA -/

def cudaKeys : List String := ["enabled", "device", "batch-size", "threads-per-block",
  "nonces-per-thread", "kernel", "max-results"]

theorem cudaMembers_keys (config : CudaConfig) : (cudaMembers config).map Prod.fst = cudaKeys := rfl

section Cuda

variable (old : Option Json) (config : CudaConfig)

theorem loadCuda_saved (before : CudaConfig) :
    loadCuda (some ((objectOrNew old).setAll (cudaMembers config))) before =
      { config with
        batchSize := resolve (named u32In old ["batch_size"]) config.batchSize
        threadsPerBlock :=
          resolve (named u32In old ["threads_per_block", "block"]) config.threadsPerBlock
        noncesPerThread := resolve (named u32In old ["nonces_per_thread", "npt"]) config.noncesPerThread
        maxResults := resolve (named u32In old ["max_results"]) config.maxResults
        kernelVariant := parseAll cudaKernelSpellings
          (named Json.stringValue old ["kernel-variant", "kernel_variant"]) config.kernelVariant } := by
  have isObj : Json.isObject (some ((objectOrNew old).setAll (cudaMembers config))) = true := by
    rw [Json.isObject_setAll, isObject_objectOrNew]
  have kept (key : String) (other : key ∉ cudaKeys) := get_kept (cudaMembers_keys config) old other
  have written := get_written (cudaMembers_keys config) (by decide) old
  generalize (objectOrNew old).setAll (cudaMembers config) = saved at *
  simp only [cudaMembers, List.forall_mem_cons] at written
  obtain ⟨enabled, number, batchSize, block, npt, kernel, maxResults, -⟩ := written
  have named_kernel := parseAll_named cudaKernelSpellings (cudaKernel_named config.kernelVariant)
  rw [loadCuda_eq]
  simp only [named, parseNamed, isObj, if_true, batchNames, blockNames, nptNames, maxResultsNames,
    kernelNames, List.map_cons, List.map_nil, enabled, number, batchSize, block, npt, kernel, maxResults,
    kept "batch_size" (by decide), kept "threads_per_block" (by decide), kept "block" (by decide),
    kept "nonces_per_thread" (by decide), kept "npt" (by decide), kept "max_results" (by decide),
    kept "kernel-variant" (by decide), kept "kernel_variant" (by decide), boolValue_written,
    intIn_written, u32In_written, text_written, resolve_some_cons, resolve_nil, named_kernel]

structure CudaUndisturbed : Prop where
  batchSize : Agrees (named u32In old ["batch_size"]) config.batchSize
  threadsPerBlock : Agrees (named u32In old ["threads_per_block", "block"]) config.threadsPerBlock
  noncesPerThread : Agrees (named u32In old ["nonces_per_thread", "npt"]) config.noncesPerThread
  maxResults : Agrees (named u32In old ["max_results"]) config.maxResults
  kernelVariant : VariantAgrees cudaKernelSpellings
    (named Json.stringValue old ["kernel-variant", "kernel_variant"]) config.kernelVariant

theorem loadCuda_saved_iff (before : CudaConfig) :
    loadCuda (some ((objectOrNew old).setAll (cudaMembers config))) before = config ↔
      CudaUndisturbed old config := by
  rw [loadCuda_saved]
  constructor
  · intro same
    exact ⟨(resolve_eq_self_iff _ _).mp (congrArg CudaConfig.batchSize same),
      (resolve_eq_self_iff _ _).mp (congrArg CudaConfig.threadsPerBlock same),
      (resolve_eq_self_iff _ _).mp (congrArg CudaConfig.noncesPerThread same),
      (resolve_eq_self_iff _ _).mp (congrArg CudaConfig.maxResults same),
      (parseAll_eq_self_iff _ _ _).mp (congrArg CudaConfig.kernelVariant same)⟩
  · intro undisturbed
    rw [(resolve_eq_self_iff _ _).mpr undisturbed.batchSize,
      (resolve_eq_self_iff _ _).mpr undisturbed.threadsPerBlock,
      (resolve_eq_self_iff _ _).mpr undisturbed.noncesPerThread,
      (resolve_eq_self_iff _ _).mpr undisturbed.maxResults,
      (parseAll_eq_self_iff _ _ _).mpr undisturbed.kernelVariant]

end Cuda

/-! ## The other sections -/

theorem cpuMembers_keys (config : AppConfig) :
    (cpuMembers config).map Prod.fst = ["enabled", "threads", "affinity"] := rfl

theorem autotuneMembers_keys (config : AppConfig) :
    (autotuneMembers config).map Prod.fst = ["enabled", "cpu-self-test", "gpu-self-test"] := rfl

/-- The other names that `save_autotune_config` sets or deletes in the section. -/
def autotuneOtherKeys : List String := ["self-test", "self_test", "done", "completed", "seconds",
  "selected", "selected-hashrate", "results"]

section Autotune

variable (old : Option Json) (config : AppConfig) (results : List AutotuneResult)
  (best : Option AutotuneResult)

/-- The section once the benchmark results are in it. -/
theorem get_saveAutotune {key : String} (notResults : key ≠ "results") (notSelected : key ≠ "selected")
    (notHashrate : key ≠ "selected-hashrate") (notSeconds : key ≠ "seconds") :
    Json.get (some (saveAutotune (objectOrNew old) config results best)) key =
      Json.get (some ((((((objectOrNew old).setAll (autotuneMembers config)).del "self-test").del
        "self_test").del "done").del "completed")) key := by
  unfold saveAutotune
  dsimp only
  rw [Json.get_set_of_ne "results" _ notResults]
  cases best with
  | none => exact Json.get_set_of_ne "seconds" _ notSeconds
  | some best =>
      dsimp only
      rw [Json.get_set_of_ne "selected-hashrate" _ notHashrate,
        Json.get_set_of_ne "selected" _ notSelected, Json.get_set_of_ne "seconds" _ notSeconds]

theorem get_saveAutotune_of_notMem {key : String} (other : key ∉ autotuneOtherKeys) :
    Json.get (some (saveAutotune (objectOrNew old) config results best)) key =
      Json.get (some ((objectOrNew old).setAll (autotuneMembers config))) key := by
  simp only [autotuneOtherKeys, List.mem_cons, List.not_mem_nil, or_false, not_or] at other
  obtain ⟨selfTest, self_test, done, completed, seconds, selected, hashrate, notResults⟩ := other
  rw [get_saveAutotune old config results best notResults selected hashrate seconds,
    Json.get_del_of_ne "completed" completed, Json.get_del_of_ne "done" done,
    Json.get_del_of_ne "self_test" self_test, Json.get_del_of_ne "self-test" selfTest]

/-- The legacy names of the CPU's flag are deleted. -/
theorem get_saveAutotune_legacy {key : String}
    (legacy : key ∈ ["self-test", "self_test", "done", "completed"]) :
    Json.get (some (saveAutotune (objectOrNew old) config results best)) key = none := by
  simp only [List.mem_cons, List.not_mem_nil, or_false] at legacy
  rcases legacy with rfl | rfl | rfl | rfl
  all_goals rw [get_saveAutotune old config results best (by decide) (by decide) (by decide) (by decide)]
  · rw [Json.get_del_of_ne "completed" (by decide), Json.get_del_of_ne "done" (by decide),
      Json.get_del_of_ne "self_test" (by decide), Json.get_del_self]
  · rw [Json.get_del_of_ne "completed" (by decide), Json.get_del_of_ne "done" (by decide),
      Json.get_del_self]
  · rw [Json.get_del_of_ne "completed" (by decide), Json.get_del_self]
  · rw [Json.get_del_self]

theorem get_saveAutotune_written :
    ∀ m ∈ autotuneMembers config,
      Json.get (some (saveAutotune (objectOrNew old) config results best)) m.1 = some m.2 := by
  intro m member
  have other : m.1 ∉ autotuneOtherKeys := by
    have isKey := List.mem_map_of_mem (f := Prod.fst) member
    rw [autotuneMembers_keys] at isKey
    revert isKey
    generalize m.1 = key
    revert key
    decide
  rw [get_saveAutotune_of_notMem old config results best other]
  exact get_written (autotuneMembers_keys config) (by decide) old m member

end Autotune

/-! ## The whole file -/

/-- Where a saved file has the sections. -/
structure Written (file : Option Json) (config : AppConfig) (results : List AutotuneResult)
    (best : Option AutotuneResult) (root : Json) : Prop where
  cpu : Json.get (some root) "cpu" =
    some ((objectOrNew (Json.get file "cpu")).setAll (cpuMembers config))
  opencl : Json.get (some root) "opencl" =
    some (saveOpencl (objectOrNew (Json.get file "opencl")) config.opencl)
  cuda : Json.get (some root) "cuda" =
    some ((objectOrNew (Json.get file "cuda")).setAll (cudaMembers config.cuda))
  autotune : Json.get (some root) "autotune" =
    some (saveAutotune (objectOrNew (Json.get file "autotune")) config results best)
  threads : Json.get (some root) "threads" = Json.get file "threads"

theorem get_sections {root cpu opencl cuda autotune : Json} (isObj : Json.isObject (some root) = true) :
    let written := root.setAll [("cpu", cpu), ("opencl", opencl), ("cuda", cuda), ("autotune", autotune)]
    Json.get (some written) "cpu" = some cpu ∧ Json.get (some written) "opencl" = some opencl ∧
      Json.get (some written) "cuda" = some cuda ∧ Json.get (some written) "autotune" = some autotune ∧
      ∀ key, key ∉ ["cpu", "opencl", "cuda", "autotune"] →
        Json.get (some written) key = Json.get (some root) key := by
  have distinct : ["cpu", "opencl", "cuda", "autotune"].Nodup := by decide
  refine ⟨?_, ?_, ?_, ?_, fun key other => Json.get_setAll_of_notMem other⟩
  · exact Json.get_setAll_of_mem (m := ("cpu", cpu)) isObj distinct (by simp)
  · exact Json.get_setAll_of_mem (m := ("opencl", opencl)) isObj distinct (by simp)
  · exact Json.get_setAll_of_mem (m := ("cuda", cuda)) isObj distinct (by simp)
  · exact Json.get_setAll_of_mem (m := ("autotune", autotune)) isObj distinct (by simp)

theorem saved_written {path : List Char} {file : Option Json} {dumped : Bool} {config : AppConfig}
    {results : List AutotuneResult} {best : Option AutotuneResult} {root : Json}
    (saved : saveAutotuneConfig path file dumped config results best = some root) :
    Written file config results best root := by
  unfold saveAutotuneConfig at saved
  split at saved
  · cases saved
  · dsimp only at saved
    split at saved
    · have same (key : String) (other : key ≠ "autosave") :
          Json.get (some ((objectOrNew file).set "autosave" (.bool config.autosave))) key =
            Json.get file key := by
        rw [Json.get_set_of_ne "autosave" _ other, get_objectOrNew]
      rw [same "cpu" (by decide), same "opencl" (by decide), same "cuda" (by decide),
        same "autotune" (by decide)] at saved
      have isObj : Json.isObject
          (some ((objectOrNew file).set "autosave" (.bool config.autosave))) = true := by
        rw [Json.isObject_set, isObject_objectOrNew]
      obtain ⟨cpu, opencl, cuda, autotune, kept⟩ := get_sections isObj
      rw [← Option.some.inj saved]
      exact ⟨cpu, opencl, cuda, autotune, (kept "threads" (by decide)).trans (same "threads" (by decide))⟩
    · cases saved

/-- **What is loaded is what was saved.** -/
structure LoadsBack (saved loaded : AppConfig) : Prop where
  cpuEnabled : loaded.cpuEnabled = saved.cpuEnabled
  threadCount : loaded.threadCount = saved.threadCount
  cpuAffinity : loaded.cpuAffinity = saved.cpuAffinity
  opencl : loaded.opencl = saved.opencl
  cuda : loaded.cuda = saved.cuda
  autotuneEnabled : loaded.autotuneEnabled = saved.autotuneEnabled
  cpuAutotuneDone : loaded.cpuAutotuneDone = saved.cpuAutotuneDone
  gpuAutotuneDone : loaded.gpuAutotuneDone = saved.gpuAutotuneDone
  notRequired : appConfigAutotuneRequired loaded = (false, false)

/-- Every name of a saved setting that the saver leaves in the file gives what was saved,
if anything, and no variant was saved in a list of devices. -/
structure Undisturbed (file : Option Json) (config : AppConfig) : Prop where
  threads : Agrees (named intIn file ["threads"]) config.threadCount
  opencl : OpenclUndisturbed (Json.get file "opencl") config.opencl
  cuda : CudaUndisturbed (Json.get file "cuda") config.cuda
  cpuDone : Agrees (named Json.boolValue (Json.get file "autotune") ["cpu_self_test"])
    config.cpuAutotuneDone
  gpuDone : Agrees (named Json.boolValue (Json.get file "autotune")
    ["gpu_self_test", "opencl-self-test", "opencl_self_test"]) config.gpuAutotuneDone

/-- The loaded settings that a saved file decides, apart from the two GPU sections. -/
theorem load_written {file : Option Json} {config : AppConfig} {results : List AutotuneResult}
    {best : Option AutotuneResult} {root : Json} (written : Written file config results best root)
    (before : AppConfig) (required : Bool) :
    let loaded := (loadConfigFile before (some root) required).2
    loaded.cpuEnabled = config.cpuEnabled ∧ loaded.cpuAffinity = config.cpuAffinity ∧
      loaded.threadCount = resolve (named intIn file ["threads"]) config.threadCount ∧
      loaded.autotuneEnabled = config.autotuneEnabled ∧
      loaded.cpuAutotuneDone = resolve
        (named Json.boolValue (Json.get file "autotune") ["cpu_self_test"]) config.cpuAutotuneDone ∧
      loaded.gpuAutotuneDone = resolve
        (named Json.boolValue (Json.get file "autotune")
          ["gpu_self_test", "opencl-self-test", "opencl_self_test"]) config.gpuAutotuneDone := by
  have cpu := get_written (cpuMembers_keys config) (by decide) (Json.get file "cpu")
  have flags := get_saveAutotune_written (Json.get file "autotune") config results best
  have legacy (key : String) (isLegacy : key ∈ ["self-test", "self_test", "done", "completed"]) :=
    get_saveAutotune_legacy (Json.get file "autotune") config results best isLegacy
  have kept (key : String) (other : key ∉ autotuneOtherKeys)
      (notWritten : key ∉ ["enabled", "cpu-self-test", "gpu-self-test"]) :
      Json.get (some (saveAutotune (objectOrNew (Json.get file "autotune")) config results best)) key =
        Json.get (Json.get file "autotune") key := by
    rw [get_saveAutotune_of_notMem _ config results best other,
      get_kept (autotuneMembers_keys config) _ notWritten]
  simp only [cpuMembers, autotuneMembers, List.forall_mem_cons] at cpu flags
  obtain ⟨cpuEnabled, threads, affinity, -⟩ := cpu
  obtain ⟨enabled, cpuDone, gpuDone, -⟩ := flags
  intro loaded
  have isLoaded : loaded = (loadConfigFile before (some root) required).2 := rfl
  rw [loadConfigFile_eq] at isLoaded
  rw [isLoaded]
  simp only [written.cpu, written.autotune, named, cpuDoneNames, gpuDoneNames, List.map_cons,
    List.map_nil, List.cons_append, List.nil_append, written.threads, cpuMembers, cpuEnabled, threads,
    affinity, enabled, cpuDone, gpuDone, legacy "self-test" (by decide), legacy "self_test" (by decide),
    legacy "done" (by decide), legacy "completed" (by decide),
    kept "cpu_self_test" (by decide) (by decide), kept "gpu_self_test" (by decide) (by decide),
    kept "opencl-self-test" (by decide) (by decide), kept "opencl_self_test" (by decide) (by decide),
    boolValue_none, boolValue_written, intIn_written, resolve_none_cons, resolve_some_cons, resolve_nil,
    and_self]

/-- **When the saved result is loaded back**, whatever the benchmarks made of it.  The
names left in the file are read after the ones that are written. -/
theorem saved_loads_back_iff {host : Host} {path path' : List Char} {file file' : Option Json}
    {dumped dumped' : Bool} {before config : AppConfig} {kept : Option Json}
    (produced : runAutotune host path' file' dumped' before = (0, config, kept))
    {results : List AutotuneResult} {best : Option AutotuneResult} {root : Json}
    (saved : saveAutotuneConfig path file dumped config results best = some root) (required : Bool) :
    LoadsBack config (loadConfigFile (appConfigSetDefaults host.cudaBuild) (some root) required).2 ↔
      Undisturbed file config := by
  have tuned : Tuned config := by
    unfold runAutotune at produced
    cases selected : selectMode host before with
    | none => rw [selected] at produced; cases produced
    | some outcome =>
        rw [selected] at produced
        rw [← (Prod.mk.inj (Prod.mk.inj produced).2).1]
        exact selectMode_tuned host selected
  have written := saved_written saved
  obtain ⟨cpuEnabled, cpuAffinity, threadCount, autotuneEnabled, cpuDone, gpuDone⟩ :=
    load_written written (appConfigSetDefaults host.cudaBuild) required
  have opencl := loadOpencl_saved_iff (Json.get file "opencl") config.opencl tuned.opencl
    (appConfigSetDefaults host.cudaBuild).opencl rfl
  have cuda := loadCuda_saved_iff (Json.get file "cuda") config.cuda
    (appConfigSetDefaults host.cudaBuild).cuda
  rw [← written.opencl] at opencl
  rw [← written.cuda] at cuda
  have loadsOpencl : (loadConfigFile (appConfigSetDefaults host.cudaBuild) (some root) required).2.opencl =
      loadOpencl (Json.get (some root) "opencl") (appConfigSetDefaults host.cudaBuild).opencl := by
    rw [loadConfigFile_eq]
  have loadsCuda : (loadConfigFile (appConfigSetDefaults host.cudaBuild) (some root) required).2.cuda =
      loadCuda (Json.get (some root) "cuda") (appConfigSetDefaults host.cudaBuild).cuda := by
    rw [loadConfigFile_eq]
  rw [← loadsOpencl] at opencl
  rw [← loadsCuda] at cuda
  generalize (loadConfigFile (appConfigSetDefaults host.cudaBuild) (some root) required).2 = loaded at *
  constructor
  · intro back
    refine ⟨?_, opencl.mp back.opencl, cuda.mp back.cuda, ?_, ?_⟩
    · exact (resolve_eq_self_iff _ _).mp (threadCount.symm.trans back.threadCount)
    · exact (resolve_eq_self_iff _ _).mp (cpuDone.symm.trans back.cpuAutotuneDone)
    · exact (resolve_eq_self_iff _ _).mp (gpuDone.symm.trans back.gpuAutotuneDone)
  · intro undisturbed
    have sameOpencl := opencl.mpr undisturbed.opencl
    have sameCuda := cuda.mpr undisturbed.cuda
    have sameThreads := threadCount.trans ((resolve_eq_self_iff _ _).mpr undisturbed.threads)
    have sameCpuDone := cpuDone.trans ((resolve_eq_self_iff _ _).mpr undisturbed.cpuDone)
    have sameGpuDone := gpuDone.trans ((resolve_eq_self_iff _ _).mpr undisturbed.gpuDone)
    refine ⟨cpuEnabled, sameThreads, cpuAffinity, sameOpencl, sameCuda, autotuneEnabled, sameCpuDone,
      sameGpuDone, notRequired_of_tuned ⟨?_, ?_, ?_⟩⟩
    · rw [sameOpencl]
      exact tuned.opencl
    · rw [cpuEnabled, sameCpuDone]
      exact tuned.cpuDone
    · rw [sameOpencl, sameCuda, sameGpuDone]
      exact tuned.gpuDone

/-- A computer on which every mode hashes equally fast. -/
def steadyHost (openclBuild : Bool) (gpus : List (CInt × CInt)) : Host where
  openclBuild := openclBuild
  cudaBuild := false
  affinitySupported := false
  recommendedThreads := 1
  gpus := gpus
  measure := fun _ => ⟨1, true, fun _ => one_pos⟩

/-- A first run over no file, on the CPU alone. -/
def cpuRun : Int × AppConfig × Option Json :=
  runAutotune (steadyHost false []) ['c'] none true (appConfigSetDefaults false)

theorem cpu_loads_back :
    ∃ root, saveAutotuneConfig ['c'] none true cpuRun.2.1 [] none = some root ∧
      LoadsBack cpuRun.2.1 (loadConfigFile (appConfigSetDefaults false) (some root) true).2 := by
  have returns : cpuRun.1 = 0 := by decide +kernel
  have produced : runAutotune (steadyHost false []) ['c'] none true (appConfigSetDefaults false) =
      (0, cpuRun.2.1, cpuRun.2.2) := Prod.ext returns rfl
  obtain ⟨root, saved⟩ : ∃ root, saveAutotuneConfig ['c'] none true cpuRun.2.1 [] none = some root :=
    ⟨_, rfl⟩
  refine ⟨root, saved, (saved_loads_back_iff produced saved true).mpr ?_⟩
  have opencl : cpuRun.2.1.opencl = openclConfigDefaults := by decide +kernel
  have cuda : cpuRun.2.1.cuda = cudaConfigZero := by decide +kernel
  refine ⟨nofun, opencl ▸ ⟨nofun, nofun, nofun, nofun, nofun, ?_, ?_, nofun⟩,
    cuda ▸ ⟨nofun, nofun, nofun, nofun, ?_⟩, nofun, nofun⟩
  all_goals
    intro last given
    cases given
    rfl

/-- A first run over no file, with one GPU. -/
def gpuRun : Int × AppConfig × Option Json :=
  runAutotune (steadyHost true [(0, 0)]) ['c'] none true
    { appConfigSetDefaults false with opencl := { openclConfigDefaults with enabled := true } }

theorem tuned_variant_lost :
    gpuRun.1 = 0 ∧ ∃ root, gpuRun.2.2 = some root ∧
      ¬LoadsBack gpuRun.2.1 (loadConfigFile (appConfigSetDefaults false) (some root) true).2 := by
  have isSaved : gpuRun.2.2.isSome = true := by decide +kernel
  refine ⟨by decide +kernel, gpuRun.2.2.getD .null, ?_, ?_⟩
  · obtain ⟨root, isRoot⟩ := Option.isSome_iff_exists.mp isSaved
    rw [isRoot]
    rfl
  · intro back
    have opencl := back.opencl
    revert opencl
    decide +kernel

end BtcRig.Config.Save
