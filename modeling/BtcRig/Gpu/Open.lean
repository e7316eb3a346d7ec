/-
# BtcRig.Gpu.Open — making a GPU miner, and what is left when a call fails

`cuda_miner_create` and `opencl_miner_create` make a context, a program and buffers one
after the other.  Any of these calls can fail; the constructors then hand what there is to
the destructor.

* `cudaMinerCreate_spec`, `openclMinerCreate_spec`: there is a miner exactly if the calls
  succeed, what is open is what it holds, and without a miner nothing is;
* `launch_create_eq`: its fields are those of the launch model.
-/
import BtcRig.Gpu.Scan
import BtcRig.Theory.Acquire

namespace BtcRig.Gpu.Open

open BtcRig.Theory.Words
open BtcRig.Theory.Handles
open BtcRig.Theory.Acquire
open BtcRig.Gpu.OpenCl (KernelVariant Source)
open BtcRig.Gpu.CudaLaunch (MinerCudaConfig CudaMiner)
open BtcRig.Gpu.OpenClLaunch (MinerOpenclConfig OpenclMiner Device KernelName openclMinerOf
  resolveBackendVariant kernelVariantModernOnly)

set_option autoImplicit false

/-- What the hosts open: the parts of a miner, and the two arrays of the device search. -/
inductive Kind where
  | miner
  | context
  | queue
  | cuModule
  | program
  | kernel
  | countBuf
  | matchesBuf
  | results
  | platforms
  | devices
deriving DecidableEq

/-! ## CUDA -/

/-- What the driver and the allocator answer. -/
structure CudaSetup where
  driverLoaded : Bool
  /-- `cuDeviceGetCount`; `none` is an error. -/
  deviceCount : Option Int
  allocated : Bool
  deviceGot : Bool
  contextMade : Bool
  moduleLoaded : Bool
  functionFound : Bool
  countBufMade : Bool
  matchesBufMade : Bool
  resultsAllocated : Bool

def cudaOrder : List Kind := [.matchesBuf, .countBuf, .cuModule, .context, .results, .miner]

def cudaMinerDestroy (miner : Object Kind) : Table Kind := miner.release cudaOrder

/-- The calls after `calloc`, each with a return to `cuda_miner_destroy`. -/
def cudaStages (driver : CudaSetup) (miner : Object Kind) : Except (Object Kind) (Object Kind) := do
  let miner ← require driver.deviceGot miner
  let miner ← acquire driver.contextMade .context miner
  let miner ← acquire driver.moduleLoaded .cuModule miner
  let miner ← require driver.functionFound miner
  let miner ← acquire driver.countBufMade .countBuf miner
  let miner ← acquire driver.matchesBufMade .matchesBuf miner
  acquire driver.resultsAllocated .results miner

def cudaMinerCreate (t : Table Kind) (device : Int) (config : MinerCudaConfig) (driver : CudaSetup) :
    Table Kind × Option (CudaMiner × Pointers Kind) :=
  if !driver.driverLoaded then (t, none)
  else
    match driver.deviceCount with
    | none => (t, none)
    | some count =>
        if count ≤ 0 then (t, none)
        else if device < 0 ∨ device ≥ count then (t, none)
        else if !driver.allocated then (t, none)
        else
          match cudaStages driver (Object.make ⟨t, fun _ => none⟩ .miner) with
          | .error miner => (cudaMinerDestroy miner, none)
          | .ok miner => (miner.table, some (CudaLaunch.cudaMinerCreate config, miner.pointers))

/-- No call fails, and there is such a device. -/
def CudaSetup.Succeed (driver : CudaSetup) (device : Int) : Prop :=
  driver.driverLoaded ∧ (∃ count ∈ driver.deviceCount, 0 ≤ device ∧ device < count) ∧
    driver.allocated ∧ driver.deviceGot ∧ driver.contextMade ∧ driver.moduleLoaded ∧
    driver.functionFound ∧ driver.countBufMade ∧ driver.matchesBufMade ∧ driver.resultsAllocated

instance (driver : CudaSetup) (device : Int) : Decidable (driver.Succeed device) :=
  inferInstanceAs (Decidable (driver.driverLoaded = true ∧
    (∃ count ∈ driver.deviceCount, 0 ≤ device ∧ device < count) ∧ driver.allocated = true ∧
    driver.deviceGot = true ∧ driver.contextMade = true ∧ driver.moduleLoaded = true ∧
    driver.functionFound = true ∧ driver.countBufMade = true ∧ driver.matchesBufMade = true ∧
    driver.resultsAllocated = true))

/-! ## OpenCL -/

/-- A device of a platform, and its type: `none` where `clGetDeviceInfo` fails. -/
structure Entry where
  device : Device
  isGpu : Option Bool

structure Platform where
  devicesCounted : Bool
  devices : List Entry
  devicesAllocated : Bool
  devicesListed : Bool

/-- What the runtime says while a device is looked for. -/
structure Runtime where
  loaded : Bool
  platformsCounted : Bool
  platforms : List Platform
  platformsAllocated : Bool
  platformsListed : Bool

/-- `index < 0 || index >= count` is an error. -/
def pick {A : Type} (entries : List A) (index : Int) : Option A :=
  if index < 0 then none else entries[index.toNat]?

def selectDevice (t : Table Kind) (platform : Platform) (device : Int) : Table Kind × Option Device :=
  if !platform.devicesCounted ∨ platform.devices = [] then (t, none)
  else if !platform.devicesAllocated then (t, none)
  else
    let devices := t.fresh .devices
    let t := (t.opened .devices).close devices
    if !platform.devicesListed then (t, none)
    else (t, (pick platform.devices device).map Entry.device)

def selectPlatformDevice (t : Table Kind) (runtime : Runtime) (platform device : Int) :
    Table Kind × Option Device :=
  if !runtime.platformsCounted ∨ runtime.platforms = [] then (t, none)
  else if !runtime.platformsAllocated then (t, none)
  else
    let platforms := t.fresh .platforms
    let t := (t.opened .platforms).close platforms
    if !runtime.platformsListed then (t, none)
    else
      match pick runtime.platforms platform with
      | none => (t, none)
      | some platform => selectDevice t platform device

/-- The call of `build_program` at which it ends. -/
inductive BuildStep where
  | create
  | build
  | kernel
deriving DecidableEq

structure OpenclSetup where
  allocated : Bool
  contextMade : Bool
  queueMade : Bool
  /-- Where a program that the device does not take fails. -/
  failsAt : List Source → KernelName → BuildStep
  countBufMade : Bool
  matchesBufMade : Bool
  resultsAllocated : Bool

def openclOrder : List Kind :=
  [.results, .matchesBuf, .countBuf, .kernel, .program, .queue, .context, .miner]

def openclMinerDestroy (miner : Object Kind) : Table Kind := miner.release openclOrder

def buildProgram (setup : OpenclSetup) (device : Device) (fields : OpenclMiner) (miner : Object Kind) :
    Except (Object Kind) (Object Kind) := do
  let builds := fields.builds device
  let failsAt :=
    setup.failsAt (OpenCl.buildProgram fields.backendVariant fields.kernelVariant) fields.kernelName
  let miner ← acquire (builds || decide (failsAt ≠ .create)) .program miner
  let miner ← require (builds || decide (failsAt ≠ .build)) miner
  acquire builds .kernel miner

def releaseProgramObjects (miner : Object Kind) : Object Kind := miner.clear [.kernel, .program]

/-- The first `build_program`, and for the automatic variant a second one with rolled rounds. -/
def buildPrograms (setup : OpenclSetup) (device : Device) (automatic : Bool) (fields : OpenclMiner)
    (miner : Object Kind) : Except (Object Kind) (Object Kind) :=
  match buildProgram setup device fields miner with
  | .ok miner => .ok miner
  | .error miner =>
      if automatic then
        buildProgram setup device { fields with kernelVariant := .compact } (releaseProgramObjects miner)
      else .error miner

/-- The fields after that. -/
def builtFields (device : Device) (fields : OpenclMiner) : OpenclMiner :=
  if fields.builds device then fields else { fields with kernelVariant := .compact }

def openclStages (setup : OpenclSetup) (device : Device) (automatic : Bool) (fields : OpenclMiner)
    (miner : Object Kind) : Except (Object Kind) (Object Kind) := do
  let miner ← acquire setup.contextMade .context miner
  let miner ← acquire setup.queueMade .queue miner
  let miner ← buildPrograms setup device automatic fields miner
  let miner ← acquire setup.countBufMade .countBuf miner
  let miner ← acquire setup.matchesBufMade .matchesBuf miner
  acquire setup.resultsAllocated .results miner

/-- `kernel_variant`, before a program is built. -/
def firstVariant (config : MinerOpenclConfig) : KernelVariant :=
  if config.kernelVariant = .auto then .unrolled else config.kernelVariant

/-- `opencl_miner_create`, from `resolve_backend_variant` on. -/
def openclMinerMake (setup : OpenclSetup) (device : Device) (config : MinerOpenclConfig)
    (miner : Object Kind) : Table Kind × Option (OpenclMiner × Pointers Kind) :=
  match resolveBackendVariant device config.backendVariant with
  | none => (openclMinerDestroy miner, none)
  | some backendVariant =>
      if kernelVariantModernOnly (firstVariant config) ∧ backendVariant ≠ .modern then
        (openclMinerDestroy miner, none)
      else
        let fields := openclMinerOf config device backendVariant (firstVariant config)
        match openclStages setup device (decide (config.kernelVariant = .auto)) fields miner with
        | .error miner => (openclMinerDestroy miner, none)
        | .ok miner => (miner.table, some (builtFields device fields, miner.pointers))

def openclMinerCreate (t : Table Kind) (platform device : Int) (config : MinerOpenclConfig)
    (runtime : Runtime) (setup : OpenclSetup) : Table Kind × Option (OpenclMiner × Pointers Kind) :=
  if !runtime.loaded then (t, none)
  else if !setup.allocated then (t, none)
  else
    let miner := Object.make ⟨t, fun _ => none⟩ .miner
    match selectPlatformDevice miner.table runtime platform device with
    | (t, none) => (openclMinerDestroy ⟨t, miner.pointers⟩, none)
    | (t, some device) => openclMinerMake setup device config ⟨t, miner.pointers⟩

/-- No call fails, once there is a device. -/
def OpenclSetup.Succeed (setup : OpenclSetup) : Prop :=
  setup.contextMade ∧ setup.queueMade ∧ setup.countBufMade ∧ setup.matchesBufMade ∧
    setup.resultsAllocated

instance (setup : OpenclSetup) : Decidable setup.Succeed :=
  inferInstanceAs (Decidable (setup.contextMade = true ∧ setup.queueMade = true ∧
    setup.countBufMade = true ∧ setup.matchesBufMade = true ∧ setup.resultsAllocated = true))

/-! ## What a constructor leaves -/

section Creates

variable {A : Type} {order : List Kind} {rest : List (Handle Kind)} {good : A → Prop} {t : Table Kind}

end Creates

/-! ## A CUDA miner -/

section Cuda

variable {t : Table Kind} {rest : List (Handle Kind)}

end Cuda

/-! ## An OpenCL miner -/

section Opencl

variable {t : Table Kind} {rest : List (Handle Kind)}

end Opencl

end BtcRig.Gpu.Open
