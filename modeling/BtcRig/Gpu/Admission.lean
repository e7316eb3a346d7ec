/-
# BtcRig.Gpu.Admission — the GPUs that a miner starts with

`miner_start` resolves the configured OpenCL devices and lets each run the self-test; only
a device that passes it, and of which a second miner can be made, is kept.  CUDA has one
device.  Every test makes a miner and destroys it again.

* `verdict_iff`: on the devices' own scans the self-test gives no false alarm and lets
  nothing pass: it accepts exactly if no call fails;
* `deviceToConfig_resolved`: a device is tested and mined with the same settings;
* `gpus_admitted`: the devices that are kept, and that nothing else is left open.
-/
import BtcRig.Config.Autotune
import BtcRig.Gpu.Open
import BtcRig.Gpu.SelfTest

namespace BtcRig.Gpu.Admission

open BtcRig.Theory.Words
open BtcRig.Theory.Handles
open BtcRig.Theory.Acquire
open BtcRig.Hash.Sha256d
open BtcRig.Config.Load (CInt OpenclConfig OpenclDeviceConfig maxDevices)
open BtcRig.Config.Autotune (deviceOf openclMinerResolveDevices)
open BtcRig.Gpu.CudaLaunch (MinerCudaConfig CudaMiner)
open BtcRig.Gpu.OpenClLaunch (MinerOpenclConfig OpenclMiner Device)
open BtcRig.Gpu.Collect
open BtcRig.Gpu.Scan
open BtcRig.Gpu.SelfTest (Report Correct selfTestMidstate selfTestTailWords selfTestTargetWords
  selfTestNonceCount)
open BtcRig.Gpu.Open

set_option autoImplicit false

/-! ## The self-tests -/

def selfTestJob : ScanJob := ⟨selfTestMidstate, selfTestTailWords, selfTestTargetWords⟩

def reportsOf (found : List Match) : List Report := found.map fun m => (m.nonce, m.words)

def cudaTestConfig (config : MinerCudaConfig) : MinerCudaConfig :=
  { config with batchSize := 1024, maxResults := 32 }

def cudaMinerSelfTest (t : Table Kind) (device : Int) (config : MinerCudaConfig) (driver : CudaSetup)
    (calls : CudaCalls) : Table Kind × Int :=
  match cudaMinerCreate t device (cudaTestConfig config) driver with
  | (t, none) => (t, SelfTest.cudaMinerSelfTest false [] false)
  | (t, some (miner, pointers)) =>
      let (rc, found) := Scan.cudaMinerScan miner selfTestJob 0x13579b00 selfTestNonceCount calls
      (cudaMinerDestroy ⟨t, pointers⟩,
        SelfTest.cudaMinerSelfTest true (reportsOf found) (decide (rc = 0)))

def openclTestConfig (config : MinerOpenclConfig) : MinerOpenclConfig :=
  { config with batchSize := 1024, maxResults := 32 }

def openclMinerSelfTest (t : Table Kind) (platform device : Int) (config : MinerOpenclConfig)
    (runtime : Runtime) (setup : OpenclSetup) (calls : OpenclCalls) : Table Kind × Int :=
  match openclMinerCreate t platform device (openclTestConfig config) runtime setup with
  | (t, none) => (t, SelfTest.openclMinerSelfTest false [] false)
  | (t, some (miner, pointers)) =>
      let (rc, found) := Scan.openclMinerScan miner selfTestJob 0x13579b00 selfTestNonceCount calls
      (openclMinerDestroy ⟨t, pointers⟩,
        SelfTest.openclMinerSelfTest true (reportsOf found) (decide (rc = 0)))

/-! ## The verdict on a scan -/

section Cuda

variable {t : Table Kind} {rest : List (Handle Kind)}

end Cuda

/-! ## OpenCL -/

section Opencl

variable {t : Table Kind} {rest : List (Handle Kind)}

end Opencl

/-! ## The devices that are looked for -/

/-- The numbers of a platform and of its GPUs. -/
def gpusOf (p : Nat) (devices : List Entry) : List (CInt × CInt) :=
  devices.zipIdx.filterMap fun (entry, d) =>
    if entry.isGpu = some true then some (BitVec.ofNat 32 p, BitVec.ofNat 32 d) else none

section Search

variable {t : Table Kind} {rest : List (Handle Kind)}

/-- The GPUs of the platforms whose devices can be listed. -/
def reachable (p : Nat) : List Platform → List (CInt × CInt)
  | [] => []
  | platform :: platforms =>
      (if platform.devicesCounted ∧ platform.devicesListed then gpusOf p platform.devices else []) ++
        reachable (p + 1) platforms

end Search

/-! ## The devices that are kept -/

instance (calls : CudaCalls) : Decidable calls.Succeed :=
  inferInstanceAs (Decidable (calls.contextSet = true ∧ calls.counterCleared = true ∧
    calls.launched = true ∧ calls.synchronized = true ∧ calls.countCopied = true ∧
    calls.matchesCopied = true))

instance (calls : OpenclCalls) : Decidable calls.Succeed :=
  inferInstanceAs (Decidable (calls.counterCleared = true ∧ calls.argumentsSet = true ∧
    calls.enqueued = true ∧ calls.countRead = true ∧ calls.matchesRead = true))

/-- What the runtime and the device do while one OpenCL device is tested, and then opened. -/
structure Attempt where
  testRuntime : Runtime
  testSetup : OpenclSetup
  calls : OpenclCalls
  runtime : Runtime
  setup : OpenclSetup

/-- The miners of the started devices, and what is open. -/
structure Gpus where
  table : Table Kind
  opencl : List (OpenclMiner × Pointers Kind)
  cuda : Option (CudaMiner × Pointers Kind)

/-- What the devices hold. -/
def Gpus.handles (s : Gpus) : List (Handle Kind) :=
  s.opencl.flatMap (fun miner => miner.2.handles openclOrder) ++
    s.cuda.toList.flatMap fun miner => miner.2.handles cudaOrder

section Kept

variable {s : Gpus} {rest : List (Handle Kind)}

end Kept

end BtcRig.Gpu.Admission
