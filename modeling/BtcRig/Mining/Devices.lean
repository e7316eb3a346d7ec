/-
# BtcRig.Mining.Devices — the workers with the scans they really run

`Mining.Workers` takes a worker's scan as a parameter of its event.  Here the parameter is
filled: a CPU worker runs the scan of the backend in use, an OpenCL or a CUDA worker runs
the whole scan of its device, whatever the driver answers and however its threads are
scheduled.

* `run_guardedEvent`: a run only asks its scans for ranges that the allocator can hand out, so
  what holds of such ranges is enough;
* `fleet_shares_valid`: every share popped from such a fleet is valid at the pool, and no
  nonce of a job is popped twice.
-/
import BtcRig.Gpu.Scan
import BtcRig.Hash.Dispatch
import BtcRig.Mining.Ledger
import BtcRig.Mining.Unique

namespace BtcRig.Mining.Devices

open BtcRig.Theory
open BtcRig.Theory.Words
open BtcRig.Hash
open BtcRig.Hash.Sha256d
open BtcRig.Hash.Dispatch (Build Sha256dBackend)
open BtcRig.Gpu.Collect
open BtcRig.Gpu.Scan
open BtcRig.Gpu.CudaLaunch (MinerCudaConfig CudaMiner cudaMinerCreate usable_cudaMinerCreate)
open BtcRig.Gpu.OpenClLaunch (MinerOpenclConfig OpenclMiner openclMinerCreate usable_openclMinerCreate)
open BtcRig.Mining.Job
open BtcRig.Mining.State
open BtcRig.Mining.Workers
open BtcRig.Mining.Shares
open BtcRig.Mining.PoolView
open BtcRig.Mining.Unique

set_option autoImplicit false

/-! ## Ranges that can be handed out -/

/-- The batch size that `copy_job_and_nonce_range_sized` works with. -/
def batchLimit (batchSize : Word) : Word := if batchSize = 0 then minerBatchSize else batchSize

theorem copyJobAndNonceRangeSized_range {miner miner' : Miner} {batchSize start count : Word}
    {job : ActiveJob}
    (handed : copyJobAndNonceRangeSized miner batchSize = (miner', some (job, start, count))) :
    start.toNat + count.toNat ≤ 2 ^ 32 ∧ count.toNat ≤ (batchLimit batchSize).toNat := by
  constructor
  · rcases copyJobAndNonceRangeSized_cases miner batchSize with
      idle | ⟨-, -, -, -, raised⟩ | ⟨-, -, -, next, start', range, -, -, within, -, is⟩
    · rw [idle] at handed
      cases handed
    · rw [raised] at handed
      cases handed
    · rw [is] at handed
      cases handed
      exact within
  · simp only [copyJobAndNonceRangeSized, ← batchLimit.eq_1] at handed
    split at handed
    · split at handed
      · cases handed
      · simp only [Prod.mk.injEq, Option.some.injEq] at handed
        rw [← handed.2.2.2]
        split
        · rename_i fewer
          have less := BitVec.lt_def.mp fewer
          rw [BitVec.toNat_setWidth] at less ⊢
          omega
        · exact le_rfl
    · cases handed

/-- `scan` on the ranges that can be handed out; it fails on any other. -/
def guarded (limit : Word) (scan : Scanner) : Scanner := fun midstate tailWords targetWords start count =>
  if start.toNat + count.toNat ≤ 2 ^ 32 ∧ count.toNat ≤ limit.toNat then
    scan midstate tailWords targetWords start count
  else ([], false)

/-- The batch size of a device bounds its ranges, that of a CPU worker is not its own. -/
def limitOf (batch : Word) : WorkerId → Word
  | .cpu _ => 0xffffffff
  | .opencl _ => batchLimit batch
  | .cuda => batchLimit batch

def guardedEvent : Event → Event
  | .worker w batch scan => .worker w batch (guarded (limitOf batch w) scan)
  | e => e

theorem limitOf_range {miner miner' : Miner} {w : WorkerId} {batch start count : Word} {job : ActiveJob}
    (handed : copyJobAndNonceRangeSized miner (batchOf miner batch w) =
      (miner', some (job, start, count))) :
    start.toNat + count.toNat ≤ 2 ^ 32 ∧ count.toNat ≤ (limitOf batch w).toNat := by
  obtain ⟨within, few⟩ := copyJobAndNonceRangeSized_range handed
  refine ⟨within, ?_⟩
  cases w with
  | cpu id =>
      have most : (limitOf batch (.cpu id)).toNat = 2 ^ 32 - 1 := rfl
      have bounded := count.isLt
      omega
  | opencl id => exact few
  | cuda => exact few

theorem step_guardedEvent (s : System) (e : Event) : step s (guardedEvent e) = step s e := by
  cases e with
  | worker w batch scan =>
      simp only [guardedEvent, step]
      cases phase : s.workers w with
      | ready =>
          simp only [workerStep, phase]
          rcases handed : copyJobAndNonceRangeSized s.miner (batchOf s.miner batch w) with
            ⟨miner, _ | ⟨job, start, count⟩⟩
          · rfl
          · simp only [guarded, if_pos (limitOf_range handed)]
      | scanning job count pending ok =>
          cases pending with
          | cons m pending => simp only [workerStep, phase]
          | nil => cases ok <;> simp only [workerStep, phase]
      | _ => simp only [workerStep, phase]
  | _ => rfl

/-- A run never asks for another range. -/
theorem run_guardedEvent (s : System) (es : List Event) : run s (es.map guardedEvent) = run s es := by
  induction es using List.reverseRecOn with
  | nil => rfl
  | append_singleton es e ih =>
      rw [List.map_append, run_append, run_append, ih, List.map_singleton, run_singleton,
        run_singleton, step_guardedEvent]

theorem jobsOf_guardedEvent (es : List Event) : jobsOf (es.map guardedEvent) = jobsOf es := by
  rw [jobsOf, jobsOf, List.filterMap_map]
  refine List.filterMap_congr fun e _ => ?_
  cases e <;> rfl

/-! ## The fleet -/

/-- A device that can be made, with a batch that leaves room for one more work-group and
a result buffer that 32 bits can index. -/
structure OpenclDevice where
  config : MinerOpenclConfig
  device : Gpu.OpenClLaunch.Device
  miner : OpenclMiner
  created : openclMinerCreate config device = some miner
  short : (batchLimit miner.batchSize).toNat +
    miner.noncesPerWorkItem.toNat * max 1 miner.localWorkSize.toNat ≤ 2 ^ 32
  room : miner.maxResults.toNat * 9 < 2 ^ 32

structure CudaDevice where
  config : MinerCudaConfig
  short : (batchLimit (cudaMinerCreate config).batchSize).toNat +
    (cudaMinerCreate config).noncesPerThread.toNat *
      (cudaMinerCreate config).threadsPerBlock.toNat ≤ 2 ^ 32
  room : (cudaMinerCreate config).maxResults.toNat * 9 < 2 ^ 32

def CudaDevice.miner (device : CudaDevice) : CudaMiner := cudaMinerCreate device.config

structure Fleet where
  build : Build
  gBackend : Sha256dBackend
  opencl : Nat → OpenclDevice
  cuda : CudaDevice

/-- What the driver answers to each scan: a read that blocks waits for all work-items. -/
structure OpenclDriver (miner : OpenclMiner) where
  calls : ScanJob → Word → Word → OpenclCalls
  waits : ∀ job start count, (calls job start count).countRead = true →
    Returned (openclGrid miner job start count (calls job start count))

structure CudaDriver (miner : CudaMiner) where
  calls : ScanJob → Word → Word → CudaCalls
  waits : ∀ job start count, (calls job start count).synchronized = true →
    Returned (cudaGrid miner job start count (calls job start count))

/-- The callbacks of a scan, and whether its return code is zero. -/
def delivered (scan : Int × List Match) : List (Word × Vector Word 8) × Bool :=
  (scan.2.map fun m => (m.nonce, m.words), scan.1 == 0)

def Fleet.cpuScanner (fleet : Fleet) : Scanner := fun midstate tailWords targetWords start count =>
  (Dispatch.sha256dNonceRangeFunc fleet.build fleet.gBackend midstate tailWords targetWords start count,
    true)

def OpenclDevice.scanner (device : OpenclDevice) (driver : OpenclDriver device.miner) : Scanner :=
  fun midstate tailWords targetWords start count =>
    let job : ScanJob := ⟨midstate, tailWords, targetWords⟩
    delivered (openclMinerScan device.miner job start count (driver.calls job start count))

def CudaDevice.scanner (device : CudaDevice) (driver : CudaDriver device.miner) : Scanner :=
  fun midstate tailWords targetWords start count =>
    let job : ScanJob := ⟨midstate, tailWords, targetWords⟩
    delivered (cudaMinerScan device.miner job start count (driver.calls job start count))

/-- A worker of the fleet takes its next step, or something happens outside. -/
inductive FromFleet (fleet : Fleet) : Event → Prop where
  | cpu (id : Nat) (batch : Word) : FromFleet fleet (.worker (.cpu id) batch fleet.cpuScanner)
  | opencl (id : Nat) (driver : OpenclDriver (fleet.opencl id).miner) :
      FromFleet fleet (.worker (.opencl id) (fleet.opencl id).miner.batchSize
        ((fleet.opencl id).scanner driver))
  | cuda (driver : CudaDriver fleet.cuda.miner) :
      FromFleet fleet (.worker .cuda fleet.cuda.miner.batchSize (fleet.cuda.scanner driver))
  | other (e : Event) (noWorker : ∀ w batch scan, e ≠ .worker w batch scan) : FromFleet fleet e

/-! ## What the scans report -/

/-- A scan one nonce after the other, with any hash. -/
def plainScan (hash : Vector Word 4 → Vector Word 8) (tailWords : Vector Word 4)
    (targetWords : Vector Word 8) (start count : Word) : List (Word × Vector Word 8) :=
  (List.range count.toNat).filterMap fun i =>
    if hashWordsMeetTarget (hash (tailWords.setQuad3 (bswap32 (start + BitVec.ofNat 32 i)))) targetWords
    then some (start + BitVec.ofNat 32 i,
      hash (tailWords.setQuad3 (bswap32 (start + BitVec.ofNat 32 i))))
    else none

/-- The reports are among those of a plain scan, each once; a scan that succeeds and does
not fill its buffer reports them all. -/
structure Reports (room : Option Nat) (plain : List (Word × Vector Word 8))
    (r : List (Word × Vector Word 8) × Bool) : Prop where
  once : r.1.Subperm plain
  all : r.2 = true → (∀ most ∈ room, plain.length ≤ most) → r.1.Perm plain

theorem plainScan_once (hash : Vector Word 4 → Vector Word 8) (tailWords : Vector Word 4)
    (targetWords : Vector Word 8) {start count : Word} (within : start.toNat + count.toNat ≤ 2 ^ 32) :
    ((plainScan hash tailWords targetWords start count).map Prod.fst).Nodup ∧
      ∀ m ∈ plainScan hash tailWords targetWords start count,
        start.toNat ≤ m.1.toNat ∧ m.1.toNat < start.toNat + count.toNat := by
  have nonce_toNat : ∀ i < count.toNat, (start + BitVec.ofNat 32 i).toNat = start.toNat + i := by
    intro i inside
    rw [BitVec.toNat_add, BitVec.toNat_ofNat]
    have := count.isLt
    omega
  constructor
  · rw [plainScan, map_fst_filterMap]
    refine List.Nodup.map_on ?_ (List.nodup_range.filter _)
    intro i inside i' inside' same
    have inside := List.mem_range.mp (List.mem_of_mem_filter inside)
    have inside' := List.mem_range.mp (List.mem_of_mem_filter inside')
    have same := congrArg BitVec.toNat same
    rw [nonce_toNat i inside, nonce_toNat i' inside'] at same
    omega
  · intro m member
    simp only [plainScan, List.mem_filterMap, List.mem_range] at member
    obtain ⟨i, inside, reported⟩ := member
    split at reported
    · cases reported
      rw [nonce_toNat i inside]
      omega
    · cases reported

theorem sha256dScanNonceRangeGeneric_plain (backend : PortableBackend) (state : Sha256Midstate)
    (tailWords : Vector Word 4) (targetWords : Vector Word 8) (start count : Word) :
    sha256dScanNonceRangeGeneric backend state tailWords targetWords start count =
      plainScan (sha256dTailWordsFunc backend state) tailWords targetWords start count := by
  simp only [sha256dScanNonceRangeGeneric, plainScan]

/-- Every backend's scan is a plain scan. -/
theorem cpuScanner_plain (fleet : Fleet) (state : Sha256Midstate) (tailWords : Vector Word 4)
    (targetWords : Vector Word 8) (start count : Word) :
    ∃ hash, fleet.cpuScanner state tailWords targetWords start count =
      (plainScan hash tailWords targetWords start count, true) := by
  have generic (gBackend : Sha256dBackend) :
      Dispatch.sha256dScanNonceRangeGeneric fleet.build gBackend state tailWords targetWords start
          count =
        plainScan (Dispatch.sha256dTailWordsFunc fleet.build gBackend state) tailWords targetWords start
          count := by
    simp only [Dispatch.sha256dScanNonceRangeGeneric, plainScan]
  unfold Fleet.cpuScanner Dispatch.sha256dNonceRangeFunc
  cases fleet.gBackend with
  | openssl => exact ⟨_, congrArg (·, true) (generic .openssl)⟩
  | fastC => exact ⟨_, congrArg (·, true) (generic .fastC)⟩
  | armSha2 =>
      simp only
      split
      · rw [ArmSha2.sha256dScanNonceRangeArmSha2_eq, sha256dScanNonceRangeGeneric_plain]
        exact ⟨_, rfl⟩
      · exact ⟨_, congrArg (·, true) (generic .armSha2)⟩
  | x86ShaNi =>
      simp only
      split
      · rw [ShaNi.sha256dScanNonceRangeX86ShaNi_eq, sha256dScanNonceRangeGeneric_plain]
        exact ⟨_, rfl⟩
      · exact ⟨_, congrArg (·, true) (generic .x86ShaNi)⟩

theorem subperm_map {A B : Type} (f : A → B) {as bs : List A} (sub : as.Subperm bs) :
    (as.map f).Subperm (bs.map f) := by
  obtain ⟨some_, perm, sublist⟩ := sub
  exact ⟨some_.map f, perm.map f, sublist.map f⟩

theorem nodup_of_subperm {A : Type} {as bs : List A} (sub : as.Subperm bs) (nodup : bs.Nodup) :
    as.Nodup := by
  obtain ⟨some_, perm, sublist⟩ := sub
  exact perm.nodup_iff.mp (nodup.sublist sublist)

/-- What a device delivers, when its scan refines the portable one. -/
theorem reports_of_refines {maxResults : Nat} {job : ScanJob} {start count : Word}
    {scan : Int × List Match} (refines : Refines maxResults (genericMatches job start count) scan) :
    Reports (some maxResults)
      (plainScan (sha256dTailWordsFunc .fastC job.state) job.tailWords job.targetWords start count)
      (delivered scan) := by
  have back : (genericMatches job start count).map (fun m => (m.nonce, m.words)) =
      plainScan (sha256dTailWordsFunc .fastC job.state) job.tailWords job.targetWords start count := by
    rw [genericMatches, List.map_map, sha256dScanNonceRangeGeneric_plain]
    exact List.map_id _
  have size : (genericMatches job start count).length = (plainScan (sha256dTailWordsFunc .fastC job.state)
      job.tailWords job.targetWords start count).length := by
    rw [← back, List.length_map]
  rw [← back]
  refine ⟨?_, fun success few => ?_⟩
  · rcases refines.code with zero | minusOne
    · exact subperm_map _ (refines.success zero).once
    · rw [delivered, refines.failure minusOne]
      exact List.nil_subperm
  · have zero : scan.1 = 0 := beq_iff_eq.mp success
    have enough : (genericMatches job start count).length ≤ maxResults := by
      have := few maxResults rfl
      rwa [List.length_map] at this
    exact ((refines.success zero).all enough).map _

/-- The room for matches in the result buffer of a worker's device. -/
def Fleet.room (fleet : Fleet) : WorkerId → Option Nat
  | .cpu _ => none
  | .opencl id => some (fleet.opencl id).miner.maxResults.toNat
  | .cuda => some fleet.cuda.miner.maxResults.toNat

/-- On a prepared midstate the plain scan is the portable one. -/
structure Scans (room : Option Nat) (state : Sha256Midstate) (tailWords : Vector Word 4)
    (targetWords : Vector Word 8) (start count : Word) (hash : Vector Word 4 → Vector Word 8)
    (r : List (Word × Vector Word 8) × Bool) : Prop where
  reports : Reports room (plainScan hash tailWords targetWords start count) r
  portable : ∀ first : List Byte, first.length = 64 → state = sha256d80MidstatePrepare first →
    plainScan hash tailWords targetWords start count =
      sha256dScanNonceRangeGeneric .fastC state tailWords targetWords start count

theorem scans_guarded {room : Option Nat} {limit : Word} {scan : Scanner} {state : Sha256Midstate}
    {tailWords : Vector Word 4} {targetWords : Vector Word 8} {start count : Word}
    (scans : start.toNat + count.toNat ≤ 2 ^ 32 → count.toNat ≤ limit.toNat →
      ∃ hash, Scans room state tailWords targetWords start count hash
        (scan state tailWords targetWords start count)) :
    ∃ hash, Scans room state tailWords targetWords start count hash
      (guarded limit scan state tailWords targetWords start count) := by
  unfold guarded
  split
  · rename_i inside
    exact scans inside.1 inside.2
  · refine ⟨sha256dTailWordsFunc .fastC state, ⟨List.nil_subperm, fun success => by cases success⟩, ?_⟩
    intro first full prepared
    rw [sha256dScanNonceRangeGeneric_plain]

section Devices

variable {state : Sha256Midstate} {tailWords : Vector Word 4} {targetWords : Vector Word 8}
  {start count : Word} (within : start.toNat + count.toNat ≤ 2 ^ 32)

theorem scans_of_reports {room : Option Nat} {r : List (Word × Vector Word 8) × Bool}
    (reports : Reports room (plainScan (sha256dTailWordsFunc .fastC state) tailWords targetWords start
      count) r) :
    Scans room state tailWords targetWords start count (sha256dTailWordsFunc .fastC state) r where
  reports := reports
  portable _ _ _ :=
    (sha256dScanNonceRangeGeneric_plain .fastC state tailWords targetWords start count).symm

include within

theorem OpenclDevice.scans (device : OpenclDevice) (driver : OpenclDriver device.miner)
    (few : count.toNat ≤ (batchLimit device.miner.batchSize).toNat) :
    Scans (some device.miner.maxResults.toNat) state tailWords targetWords start count
      (sha256dTailWordsFunc .fastC state)
      (device.scanner driver state tailWords targetWords start count) := by
  let job : ScanJob := ⟨state, tailWords, targetWords⟩
  have short := (Nat.add_le_add_right few _).trans device.short
  have refines := (opencl_refines (usable_openclMinerCreate device.created) within short device.room
    (driver.waits job start count)).1
  have reports := reports_of_refines refines
  exact scans_of_reports reports

theorem CudaDevice.scans (device : CudaDevice) (driver : CudaDriver device.miner)
    (few : count.toNat ≤ (batchLimit device.miner.batchSize).toNat) :
    Scans (some device.miner.maxResults.toNat) state tailWords targetWords start count
      (sha256dTailWordsFunc .fastC state)
      (device.scanner driver state tailWords targetWords start count) := by
  let job : ScanJob := ⟨state, tailWords, targetWords⟩
  have short := (Nat.add_le_add_right few _).trans device.short
  have refines := (cuda_refines (usable_cudaMinerCreate device.config) within short device.room
    (driver.waits job start count)).1
  have reports := reports_of_refines refines
  exact scans_of_reports reports

end Devices

/-- **What a worker of the fleet reports**, of any range that it is given. -/
theorem fleet_scans {fleet : Fleet} {e : Event} (isFleet : FromFleet fleet e) {w : WorkerId}
    {batch : Word} {scan : Scanner} (isWorker : guardedEvent e = .worker w batch scan) (state : Sha256Midstate)
    (tailWords : Vector Word 4) (targetWords : Vector Word 8) (start count : Word) :
    ∃ hash, Scans (fleet.room w) state tailWords targetWords start count hash
      (scan state tailWords targetWords start count) := by
  cases isFleet with
  | cpu id batch =>
      cases isWorker
      refine scans_guarded fun _ _ => ?_
      obtain ⟨hash, plain⟩ := cpuScanner_plain fleet state tailWords targetWords start count
      rw [plain]
      refine ⟨hash, ⟨List.Subperm.refl _, fun _ _ => List.Perm.refl _⟩, ?_⟩
      rintro first full rfl
      have is := congrArg Prod.fst plain
      exact is.symm.trans
        (Dispatch.nonceRangeFunc_prepare fleet.build fleet.gBackend full tailWords targetWords start count)
  | opencl id driver =>
      cases isWorker
      exact scans_guarded fun within few => ⟨_, (fleet.opencl id).scans within driver few⟩
  | cuda driver =>
      cases isWorker
      exact scans_guarded fun within few => ⟨_, fleet.cuda.scans within driver few⟩
  | other e noWorker =>
      cases e with
      | worker w' batch' scan' => exact absurd rfl (noWorker w' batch' scan')
      | _ => cases isWorker

/-! ## Whole runs -/

theorem scansOnce_fleet {fleet : Fleet} {e : Event} (isFleet : FromFleet fleet e) :
    ScansOnce (guardedEvent e) := by
  intro w batch scan isWorker midstate tail target start count within
  obtain ⟨hash, scans⟩ := fleet_scans isFleet isWorker midstate tail target start count
  obtain ⟨nodup, range⟩ := plainScan_once hash tail target within
  have once := scans.reports.once
  exact ⟨nodup_of_subperm (subperm_map Prod.fst once) nodup, fun m member => range m (once.subset member)⟩

/-- A report of the portable scan is a match of the job. -/
theorem found_of_generic {backend : PortableBackend} {job : MinerJob} {start count : Word}
    {m : Word × Vector Word 8}
    (member : m ∈ sha256dScanNonceRangeGeneric backend (activate job).midstate (activate job).tailWords
      (activate job).targetWords start count) : Found job m := by
  have generic : ScansGenerically (.worker .cuda 0 (genericScanner backend)) := by
    rintro w batch scan ⟨⟩
    exact ⟨backend, rfl⟩
  exact fitting_of_generic generic .cuda 0 _ rfl job start count m member

theorem fitting_fleet {fleet : Fleet} {e : Event} (isFleet : FromFleet fleet e) :
    Fitting Found (guardedEvent e) := by
  intro w batch scan isWorker job start count m member
  have full : (job.header.toList.take 64).length = 64 := by simp
  obtain ⟨hash, scans⟩ := fleet_scans isFleet isWorker (activate job).midstate (activate job).tailWords
    (activate job).targetWords start count
  have plain := scans.reports.once.subset member
  rw [scans.portable _ full rfl] at plain
  exact found_of_generic plain

/-- The shares emitted in a run of the fleet come from its jobs. -/
theorem sourced_fleet {fleet : Fleet} (threads opencl cuda : Nat) {es : List Event}
    (isFleet : ∀ e ∈ es, FromFleet fleet e) :
    Sourced Found (jobsOf es) (run (initial threads opencl cuda) es).1
      (run (initial threads opencl cuda) es).2 := by
  rw [← run_guardedEvent, ← jobsOf_guardedEvent]
  refine sourced_run Found threads opencl cuda (es.map guardedEvent) fun e member => ?_
  obtain ⟨e, isEvent, rfl⟩ := List.mem_map.mp member
  exact fitting_fleet (isFleet e isEvent)

theorem distinct_fleet {fleet : Fleet} (threads opencl cuda : Nat) {es : List Event}
    (isFleet : ∀ e ∈ es, FromFleet fleet e) (few : (jobsOf es).length < 2 ^ 64) :
    Distinct (jobsOf es) (run (initial threads opencl cuda) es).1
      (run (initial threads opencl cuda) es).2 := by
  rw [← run_guardedEvent, ← jobsOf_guardedEvent]
  refine distinct_run threads opencl cuda (es.map guardedEvent) (fun e member => ?_) (by rwa [jobsOf_guardedEvent])
  obtain ⟨e, isEvent, rfl⟩ := List.mem_map.mp member
  exact scansOnce_fleet (isFleet e isEvent)

/-- **Every share of a fleet is valid at the pool.**  In every run of CPU workers with any
backend and of OpenCL and CUDA workers with any devices, interleaved with job changes,
pauses, stops and pops, and whichever calls to the drivers fail: a popped share comes from a
job that was set, the pool's rebuilt header hashes to the share's hash, and that is at most
the job's target.  No nonce of a job is popped twice. -/
theorem fleet_shares_valid (fleet : Fleet) (threads opencl cuda : Nat) (es : List Event)
    (isFleet : ∀ e ∈ es, FromFleet fleet e) (few : (jobsOf es).length < 2 ^ 64) :
    let popped := poppedOf (run (initial threads opencl cuda) es).2
    (popped.map keyOf).Nodup ∧ ∀ share ∈ popped,
      ∃ k job, (jobsOf es)[k]? = some job ∧ share.seq = BitVec.ofNat 64 (k + 1) ∧
        share.jobId = job.jobId ∧ PoolAccepts share job ∧
        leNat share.hash.toList ≤ leNat job.target.toList := by
  intro popped
  have keys := (distinct_fleet threads opencl cuda isFleet few).keys
  rw [emitted, List.map_append] at keys
  refine ⟨keys.of_append_left, fun share member => ?_⟩
  obtain ⟨k, job, m, set, found, rfl⟩ :=
    (sourced_fleet threads opencl cuda isFleet).shares share (List.mem_append_left _ member)
  exact ⟨k, job, set, rfl, rfl, poolAccepts_of_found found k,
    (hashWordsMeetTarget_iff job m.2).mp found.2⟩

/-- A driver whose calls all succeed, and which lets every thread finish. -/
theorem exists_cudaDriver (miner : CudaMiner) :
    ∃ driver : CudaDriver miner, ∀ job start count, (driver.calls job start count).Succeed := by
  have each (job : ScanJob) (start count : Word) :=
    exists_gridAfter miner.maxResults (fun _ => 0) (foundBy (cudaFound job) (cudaThreads miner start count))
  choose schedule returned using each
  exact ⟨⟨fun job start count =>
    ⟨true, true, true, true, true, true, fun _ => 0, schedule job start count⟩,
    fun job start count _ => returned job start count⟩, fun job start count => by simp [CudaCalls.Succeed]⟩

/-- Arm workers, one kind of OpenCL device and a CUDA device, both with a small batch and
room for as many matches. -/
def mixedFleet : Fleet where
  build := ⟨some true, none⟩
  gBackend := .armSha2
  opencl _ :=
    { config := ⟨1024, 0, 0, 1024, .auto, .registerHeavy⟩
      device := Gpu.OpenClLaunch.plainDevice
      miner := ⟨1024, 256, 2, 1024, .modern, .registerHeavy⟩
      created := rfl
      short := by decide
      room := by decide }
  cuda :=
    { config := ⟨1024, 0, 2, 1024, .dual⟩
      short := by decide
      room := by decide }

/-- An OpenCL driver that takes no kernel. -/
def refusing (miner : OpenclMiner) : OpenclDriver miner where
  calls _ _ _ := ⟨true, true, false, false, false, fun _ => 0, []⟩
  waits _ _ _ read := by cases read

/-- One step of each worker. -/
def mixedTurn (driver : CudaDriver mixedFleet.cuda.miner) : List Event :=
  [.worker .cuda mixedFleet.cuda.miner.batchSize (mixedFleet.cuda.scanner driver),
    .worker (.cpu 0) 0 mixedFleet.cpuScanner,
    .worker (.opencl 0) (mixedFleet.opencl 0).miner.batchSize
      ((mixedFleet.opencl 0).scanner (refusing _))]

/-- A job, `n` steps of each worker, and a pop. -/
def mixedRun (job : MinerJob) (driver : CudaDriver mixedFleet.cuda.miner) (n : Nat) : List Event :=
  .setJob job :: (List.replicate n (mixedTurn driver)).flatten ++ [.popShare]

theorem mixedTurns_fleet (driver : CudaDriver mixedFleet.cuda.miner) (n : Nat) :
    ∀ e ∈ (List.replicate n (mixedTurn driver)).flatten, FromFleet mixedFleet e := by
  intro e isEvent
  obtain ⟨turn, isTurn, member⟩ := List.mem_flatten.mp isEvent
  rw [List.eq_of_mem_replicate isTurn] at member
  simp only [mixedTurn, List.mem_cons, List.not_mem_nil, or_false] at member
  rcases member with rfl | rfl | rfl
  · exact .cuda driver
  · exact .cpu 0 0
  · exact .opencl 0 (refusing _)

theorem mixedTurns_worker (driver : CudaDriver mixedFleet.cuda.miner) (n : Nat) :
    ∀ e ∈ (List.replicate n (mixedTurn driver)).flatten, ∃ w batch scan, e = .worker w batch scan := by
  intro e isEvent
  obtain ⟨turn, isTurn, member⟩ := List.mem_flatten.mp isEvent
  rw [List.eq_of_mem_replicate isTurn] at member
  simp only [mixedTurn, List.mem_cons, List.not_mem_nil, or_false] at member
  rcases member with rfl | rfl | rfl <;> exact ⟨_, _, _, rfl⟩

theorem mixedRun_fleet (job : MinerJob) (driver : CudaDriver mixedFleet.cuda.miner) (n : Nat) :
    ∀ e ∈ mixedRun job driver n, FromFleet mixedFleet e := by
  intro e isEvent
  rcases List.mem_append.mp isEvent with member | member
  · rcases List.mem_cons.mp member with rfl | turn
    · exact .other _ fun w batch scan => by simp
    · exact mixedTurns_fleet driver n e turn
  · rw [List.mem_singleton.mp member]
    exact .other _ fun w batch scan => by simp

theorem jobsOf_mixedRun (job : MinerJob) (driver : CudaDriver mixedFleet.cuda.miner) (n : Nat) :
    jobsOf (mixedRun job driver n) = [job] := by
  have none_ : jobsOf (List.replicate n (mixedTurn driver)).flatten = [] := by
    induction n with
    | zero => rfl
    | succ n ih =>
        rw [List.replicate_succ, List.flatten_cons, jobsOf_append, ih]
        rfl
  rw [mixedRun, jobsOf_append, ← List.singleton_append, jobsOf_append, none_]
  rfl

/-- A CUDA driver that takes every call, an OpenCL driver that takes none, an Arm worker. -/
theorem fleet_shares_valid_example :
    ∃ driver : CudaDriver mixedFleet.cuda.miner,
      (∀ job start count, (driver.calls job start count).Succeed) ∧
      ∀ share ∈ poppedOf (run (initial 1 1 1) (mixedRun zeroJob driver 3)).2, PoolAccepts share zeroJob := by
  obtain ⟨driver, succeed⟩ := exists_cudaDriver mixedFleet.cuda.miner
  refine ⟨driver, succeed, fun share member => ?_⟩
  have jobs := jobsOf_mixedRun zeroJob driver 3
  obtain ⟨k, job, set, -, -, accepts, -⟩ := (fleet_shares_valid mixedFleet 1 1 1 (mixedRun zeroJob driver 3)
    (mixedRun_fleet zeroJob driver 3) (by rw [jobs]; decide)).2 share member
  rw [jobs] at set
  rwa [List.mem_singleton.mp (List.mem_of_getElem? set)] at accepts

end BtcRig.Mining.Devices
