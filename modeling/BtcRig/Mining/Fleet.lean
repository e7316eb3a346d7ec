/-
# BtcRig.Mining.Fleet — the fleet that a start leaves

`Mining.Hashes` describes a start by the threads it leaves, `Mining.Lifecycle` by
everything it does on the way.  The first is the outcome of the second:
`minerStart_fleet` says that a start with its events succeeds when the other does and
then leaves the same miner with the same slots in use.  What `Mining.Hashes` shows of the
counters of a fleet so holds of every miner that was started (`started_good`).

One lemma for each stage says what the stage leaves of the counters and the slots.
-/
import BtcRig.Mining.Hashes
import BtcRig.Mining.Lifecycle

namespace BtcRig.Mining.Fleet

open BtcRig.Mining.State
open BtcRig.Mining.Lifecycle
open BtcRig.Mining.Lifecycle.Resources
open BtcRig.Mining.Hashes (StartOutcome)
open BtcRig.Theory.Machine

set_option autoImplicit false

/-- A resolved OpenCL device that passes its self-test and is created. -/
def usable (env : Environment) (i : Nat) : Bool := env.openclSelfTest i && env.openclCreate i

def outcomeOf (env : Environment) (threadCount : Int) : StartOutcome where
  requestedCpuThreads := (minerCreate threadCount).threadCount
  cpuThread := fun i => env.cpuArg i && env.cpuThread i
  openclResolved :=
    if env.openclBuild && env.openclEnabled && env.openclAllocated then
      (List.range env.resolvedCount.toNat).map (usable env)
    else []
  openclThread := fun i => env.openclArg i && env.openclThread i
  cudaDevice := env.cudaBuild && env.cudaEnabled && (env.cudaSelfTest && env.cudaCreate)
  cudaThread := env.cudaArg && env.cudaThread

def fleetOf (m : Resources) : Hashes.Fleet where
  miner := m.miner
  openclDevices := (List.range m.miner.openclStarted).map fun i => (m.slot i).isSome
  cudaDevice := m.cudaDevice

section Stages

variable {env : Environment} {m : Resources} {n : Nat}

theorem count_succ (f : Nat → Bool) (n : Nat) :
    ((List.range (n + 1)).map f).count true =
      ((List.range n).map f).count true + if f n then 1 else 0 := by
  rw [List.range_succ, List.map_append, List.count_append]
  rcases isValue : f n with _ | _ <;> simp [isValue]

/-- So many devices were made, and the first slots hold them. -/
structure Made (m : Resources) (threadCount : Int) (n : Nat) : Prop where
  miner : m.miner = { minerCreate threadCount with openclStarted := n }
  slots : ∀ i, (m.slot i).isSome = true ↔ i < n
  cuda : m.cudaDevice = false

theorem made_step {threadCount : Int} (made : Made m threadCount n)
    (allocated : m.openclDevices.isSome) (i : Nat) :
    Made (createOpenclDevice env m i) threadCount (n + if usable env i then 1 else 0) ∧
      (createOpenclDevice env m i).openclDevices.isSome := by
  simp only [createOpenclDevice]
  split
  · rename_i failed
    have unusable : usable env i = false := by simp_all [usable]
    exact ⟨by simpa [unusable] using made, allocated⟩
  split
  · rename_i failed
    have unusable : usable env i = false := by simp_all [usable]
    exact ⟨by simpa [unusable] using made, allocated⟩
  rename_i tested created
  have isUsable : usable env i = true := by simp_all [usable]
  obtain ⟨devices, isDevices⟩ := Option.isSome_iff_exists.mp allocated
  have next : m.miner.openclStarted = n := by rw [made.miner]
  rw [isUsable, if_pos rfl, next]
  refine ⟨⟨?_, fun j => ?_, made.cuda⟩, by simp [setOpenclStarted, setSlot, note, isDevices]⟩
  · simp [setOpenclStarted, setSlot, note, made.miner]
  · have before := made.slots j
    simp only [slot, isDevices, Option.bind_some] at before
    simp only [slot, setOpenclStarted, setSlot, note, isDevices, Option.map_some, Option.bind_some,
      Function.update_apply]
    by_cases here : j = n
    · simp [here]
    · simp only [here, if_false, before]
      omega

theorem made_created (threadCount : Int) {devices : Option (Nat → Option Nat)}
    (empty : ∀ i, devices.bind (fun devices => devices i) = none) :
    Made { created threadCount with openclDevices := devices } threadCount 0 := by
  refine ⟨rfl, fun i => ?_, rfl⟩
  have isEmpty : ({ created threadCount with openclDevices := devices } : Resources).slot i = none :=
    empty i
  simp [isEmpty]

theorem made_createOpenclDevices (env : Environment) (threadCount : Int) :
    Made (createOpenclDevices env (created threadCount)) threadCount
      ((outcomeOf env threadCount).openclResolved.count true) := by
  have freed : Made { created threadCount with openclDevices := none } threadCount 0 :=
    made_created threadCount fun _ => rfl
  have unallocated : Made (created threadCount) threadCount 0 := freed
  simp only [createOpenclDevices, outcomeOf]
  split
  · rename_i enabled
    split
    · rename_i nothing
      have noDevices : env.resolvedCount.toNat = 0 := by omega
      simpa [noDevices] using unallocated
    split
    · rename_i failed
      have notAllocated : env.openclAllocated = false := by simpa using failed
      simpa [notAllocated] using freed
    · rename_i allocated
      have isAllocated : env.openclAllocated = true := by simpa using allocated
      rw [enabled, isAllocated, Bool.true_and, if_pos rfl]
      refine (foldl_range_rule (createOpenclDevice env)
        (fun i m => Made m threadCount (((List.range i).map (usable env)).count true) ∧
          m.openclDevices.isSome)
        (s := { created threadCount with openclDevices := some fun _ => none })
        ⟨made_created threadCount fun _ => rfl, rfl⟩ env.resolvedCount.toNat ?_).1
      intro i m _ made
      rw [count_succ]
      exact made_step made.1 made.2 i
  · rename_i disabled
    have off : (env.openclBuild && env.openclEnabled) = false := by simpa using disabled
    simpa [off] using unallocated

/-- The CUDA device too, if there is one. -/
structure Equipped (m : Resources) (threadCount : Int) (n : Nat) (cuda : Bool) : Prop where
  miner : m.miner =
    { minerCreate threadCount with openclStarted := n, cudaStarted := if cuda then 1 else 0 }
  slots : ∀ i, (m.slot i).isSome = true ↔ i < n
  cuda : m.cudaDevice = cuda

theorem equipped_createCudaDevice {threadCount : Int} (made : Made m threadCount n) :
    Equipped (createCudaDevice env m) threadCount n (outcomeOf env threadCount).cudaDevice := by
  have without : Equipped m threadCount n false := ⟨made.miner, made.slots, made.cuda⟩
  simp only [createCudaDevice, outcomeOf]
  split
  · rename_i enabled
    split
    · rename_i failed
      have untested : env.cudaSelfTest = false := by simpa using failed
      simpa [untested] using without
    split
    · rename_i failed
      have uncreated : env.cudaCreate = false := by simpa using failed
      simpa [uncreated] using without
    · rename_i tested created
      have isTested : env.cudaSelfTest = true := by simpa using tested
      have isCreated : env.cudaCreate = true := by simpa using created
      simp only [enabled, isTested, isCreated, Bool.and_self]
      refine ⟨?_, made.slots, rfl⟩
      simp [setCudaStarted, note, made.miner]
  · rename_i disabled
    have off : (env.cudaBuild && env.cudaEnabled) = false := by simpa using disabled
    simpa [off] using without

/-! ## The threads -/

/-- It succeeds if every thread is created. -/
theorem startCpuThreads_eq (create : Nat → Bool) (n : Nat) : ∀ threadCount,
    Hashes.startCpuThreads create threadCount n =
      if ∀ i < n, create (threadCount + i) = true then some (threadCount + n) else none := by
  induction n with
  | zero => intro threadCount; simp [Hashes.startCpuThreads]
  | succ n ih =>
      intro threadCount
      rw [Hashes.startCpuThreads, ih]
      by_cases first : create threadCount = true
      · have all : (∀ i < n, create (threadCount + 1 + i) = true) ↔
            ∀ i < n + 1, create (threadCount + i) = true := by
          rw [Nat.forall_lt_succ_left]
          simp [first, Nat.add_assoc, Nat.add_comm 1]
        simp only [first, if_true, all]
        congr 2
        omega
      · have failed : ¬∀ i < n + 1, create (threadCount + i) = true := fun all =>
          first (all 0 (by omega))
        rw [if_neg first, if_neg failed]

/-- The loop over the CPU threads ends well if every thread is created. -/
theorem cpuStage (env : Environment) (m : Resources) (n : Nat) :
    (∀ m', (List.range n).foldlM (startCpuThread env) (m.setThreadCount 0) = .error m' →
      ¬∀ i < n, (env.cpuArg i && env.cpuThread i) = true) ∧
    ∀ m', (List.range n).foldlM (startCpuThread env) (m.setThreadCount 0) = .ok m' →
      (∀ i < n, (env.cpuArg i && env.cpuThread i) = true) ∧
        m'.miner = { m.miner with threadCount := n } ∧ m'.slot = m.slot ∧
          m'.cudaDevice = m.cudaDevice := by
  refine foldlM_range_rule (startCpuThread env)
    (fun i m' => (∀ j < i, (env.cpuArg j && env.cpuThread j) = true) ∧
      m'.miner = { m.miner with threadCount := i } ∧ m'.slot = m.slot ∧
        m'.cudaDevice = m.cudaDevice)
    (fun _ => ¬∀ i < n, (env.cpuArg i && env.cpuThread i) = true)
    (s := m.setThreadCount 0) ⟨by simp, rfl, rfl, rfl⟩ n ?_
  rintro i m' below ⟨earlier, isMiner, isSlot, isCuda⟩
  rw [startCpuThread]
  split
  · rename_i failed
    refine ⟨fun _ _ all => ?_, by simp⟩
    have := all i below
    simp_all
  split
  · rename_i failed
    refine ⟨fun _ _ all => ?_, by simp⟩
    have := all i below
    simp_all
  · rename_i allocated threaded
    refine ⟨by simp, fun m'' started => ?_⟩
    rw [← Except.ok.inj started]
    refine ⟨fun j small => ?_, by simp [note, setThreadCount, isMiner], isSlot, isCuda⟩
    rcases Nat.lt_succ_iff_lt_or_eq.mp small with before | rfl
    · exact earlier j before
    · simp_all

theorem openclThreads (slots : ∀ i, (m.slot i).isSome = true ↔ i < n) :
    let thread i := env.openclArg i && env.openclThread i
    let r := (List.range n).foldl (startOpenclWorker env) (m, 0)
    r.1.miner = m.miner ∧ r.1.cudaDevice = m.cudaDevice ∧
      (∀ i, (r.1.slot i).isSome = true ↔ i < n ∧ thread i = true) ∧
      r.2 = ((List.range n).map thread).count true := by
  intro thread
  have loop := foldl_range_rule (startOpenclWorker env)
    (fun i r => r.1.miner = m.miner ∧ r.1.cudaDevice = m.cudaDevice ∧
      (∀ j, (r.1.slot j).isSome = true ↔ j < n ∧ (j < i → thread j = true)) ∧
      r.2 = ((List.range i).map thread).count true)
    (s := (m, 0)) ⟨rfl, rfl, by simpa using slots, rfl⟩ n ?_
  · obtain ⟨isMiner, isCuda, isSlots, isCount⟩ := loop
    refine ⟨isMiner, isCuda, fun i => (isSlots i).trans ?_, isCount⟩
    exact and_congr_right fun inside => ⟨fun all => all inside, fun this _ => this⟩
  rintro i ⟨m', openclRunning⟩ inside ⟨isMiner, isCuda, isSlots, isCount⟩
  simp only at isMiner isCuda isSlots isCount
  have filled : (m'.slot i).isSome = true :=
    (isSlots i).mpr ⟨inside, fun self => absurd self (lt_irrefl i)⟩
  obtain ⟨device, isDevice⟩ := Option.isSome_iff_exists.mp filled
  have dropped : thread i = false → (destroySlot m' i).miner = m.miner ∧
      (destroySlot m' i).cudaDevice = m.cudaDevice ∧
      (∀ j, ((destroySlot m' i).slot j).isSome = true ↔ j < n ∧ (j < i + 1 → thread j = true)) ∧
      openclRunning = ((List.range (i + 1)).map thread).count true := by
    intro failed
    refine ⟨(miner_destroySlot i).trans isMiner, (cudaDevice_destroySlot i).trans isCuda,
      fun j => ?_, by rw [count_succ, failed, isCount]; rfl⟩
    rw [slot_destroySlot]
    by_cases here : j = i
    · subst here
      simp [failed]
    · rw [Function.update_of_ne here, isSlots]
      have same : j < i + 1 ↔ j < i := by omega
      rw [same]
  rw [startOpenclWorker]
  simp only [isDevice]
  split
  · rename_i failed
    exact dropped (by simp_all [thread])
  split
  · rename_i failed
    exact dropped (by simp_all [thread])
  · rename_i allocated threaded
    have ran : thread i = true := by simp_all [thread]
    refine ⟨isMiner, isCuda, fun j => (isSlots j).trans ?_, by rw [count_succ, ran, isCount]; rfl⟩
    refine and_congr_right fun _ => ⟨fun earlier small => ?_, fun all small => all (by omega)⟩
    rcases Nat.lt_succ_iff_lt_or_eq.mp small with before | rfl
    · exact earlier before
    · exact ran

theorem cudaThread {cuda : Bool} (present : m.cudaDevice = cuda)
    (counted : m.miner.cudaStarted = if cuda then 1 else 0) :
    let thread := env.cudaArg && env.cudaThread
    let r := startCudaWorker env m
    r.1.miner = { m.miner with cudaStarted := if cuda && thread then 1 else 0 } ∧
      r.1.slot = m.slot ∧ r.1.cudaDevice = (cuda && thread) ∧ r.2 = (cuda && thread) := by
  intro thread
  have same : m.miner = { m.miner with cudaStarted := if cuda then 1 else 0 } := by rw [← counted]
  simp only [startCudaWorker]
  rcases cuda with _ | _
  · simpa [present] using same
  simp only [counted, present, if_true, Nat.one_pos, decide_true, Bool.and_self, Bool.true_and]
  split
  · rename_i failed
    have unthreaded : thread = false := by
      simp only [Bool.not_eq_true'] at failed
      simp [thread, failed]
    rw [unthreaded]
    exact ⟨rfl, rfl, rfl, rfl⟩
  split
  · rename_i failed
    have unthreaded : thread = false := by
      simp only [Bool.not_eq_true'] at failed
      simp [thread, failed]
    rw [unthreaded]
    exact ⟨rfl, rfl, rfl, rfl⟩
  · rename_i allocated created
    have threaded : thread = true := by
      simp only [Bool.not_eq_true', Bool.not_eq_false] at allocated created
      simp [thread, allocated, created]
    rw [threaded]
    exact ⟨same, rfl, present, rfl⟩

end Stages

/-! ## The start -/

/-- The start's loop over the OpenCL workers may as well run where the build has none. -/
theorem openclThreads_built {env : Environment} {m : Resources} {n : Nat}
    (counted : m.miner.openclStarted = n) (built : env.openclBuild = false → n = 0) :
    (if env.openclBuild then
        (List.range m.miner.openclStarted).foldl (startOpenclWorker env) (m, 0)
      else (m, 0)) =
      (List.range n).foldl (startOpenclWorker env) (m, 0) := by
  split
  · rw [counted]
  · rename_i unbuilt
    rw [built (by simpa using unbuilt)]
    rfl

theorem cudaThread_built {env : Environment} {m : Resources}
    (built : env.cudaBuild = false → m.cudaDevice = false) :
    (if env.cudaBuild then startCudaWorker env m else (m, false)) = startCudaWorker env m := by
  split
  · rfl
  · rename_i unbuilt
    simp [startCudaWorker, built (by simpa using unbuilt)]

/-- How a start ends whose threads have been tried: with an error if none of them runs. -/
theorem ending {env : Environment} {x y z : Resources} {threadCount openclRunning : Nat}
    {cudaRunning : Bool} (cudaBuilt : env.cudaBuild = false → cudaRunning = false)
    (something : env.openclBuild = false → env.cudaBuild = false → threadCount ≠ 0) :
    let r : Resources × Int :=
      if env.openclBuild && !env.cudaBuild && threadCount = 0 && openclRunning = 0 then (x, -1)
      else if env.cudaBuild && threadCount = 0 && openclRunning = 0 && !cudaRunning then (y, -1)
      else (z, 0)
    (threadCount = 0 ∧ openclRunning = 0 ∧ cudaRunning = false → r.2 ≠ 0) ∧
      (¬(threadCount = 0 ∧ openclRunning = 0 ∧ cudaRunning = false) → r = (z, 0)) := by
  intro r
  refine ⟨fun ⟨noCpu, noOpencl, noCuda⟩ => ?_, fun runs => ?_⟩
  · rcases isCuda : env.cudaBuild with _ | _
    · have isOpencl : env.openclBuild = true := by
        by_contra unbuilt
        exact something (by simpa using unbuilt) isCuda noCpu
      simp [r, isCuda, isOpencl, noCpu, noOpencl]
    · simp [r, isCuda, noCpu, noOpencl, noCuda]
  · have notFirst : ¬(env.openclBuild && !env.cudaBuild && decide (threadCount = 0) &&
        decide (openclRunning = 0)) = true := by
      simp only [Bool.and_eq_true, Bool.not_eq_true', decide_eq_true_eq]
      rintro ⟨⟨⟨_, unbuilt⟩, noCpu⟩, noOpencl⟩
      exact runs ⟨noCpu, noOpencl, cudaBuilt unbuilt⟩
    have notSecond : ¬(env.cudaBuild && decide (threadCount = 0) && decide (openclRunning = 0) &&
        !cudaRunning) = true := by
      simp only [Bool.and_eq_true, Bool.not_eq_true', decide_eq_true_eq]
      rintro ⟨⟨⟨_, noCpu⟩, noOpencl⟩, noCuda⟩
      exact runs ⟨noCpu, noOpencl, noCuda⟩
    simp only [r, if_neg notFirst, if_neg notSecond]

/-- A start gives up at once when there is nothing to start, whatever the build. -/
theorem nothingToStart {env : Environment} {k n : Nat} {cuda : Bool}
    (openclBuilt : env.openclBuild = false → n = 0)
    (cudaBuilt : env.cudaBuild = false → cuda = false) :
    (decide (k = 0) && (!env.openclBuild || decide (n = 0)) &&
      (!env.cudaBuild || decide ((if cuda = true then 1 else 0) = 0))) =
      (decide (k ≤ 0) && decide (n ≤ 0) && decide ((if cuda = true then 1 else 0) ≤ 0)) := by
  have noOpencl : (!env.openclBuild || decide (n = 0)) = decide (n ≤ 0) := by
    rcases build : env.openclBuild with _ | _
    · simp [openclBuilt build]
    · simp
  have noCuda : (!env.cudaBuild || decide ((if cuda = true then 1 else 0) = 0)) =
      decide ((if cuda = true then 1 else 0) ≤ 0) := by
    rcases build : env.cudaBuild with _ | _
    · simp [cudaBuilt build]
    · simp
  simp only [noOpencl, noCuda, Nat.le_zero]

theorem fleetOf_started {m : Resources} {threadCount : Int} {k n : Nat} {thread : Nat → Bool}
    {running : Bool}
    (isMiner : m.miner = { minerCreate threadCount with
      threadCount := k, openclStarted := n, cudaStarted := if running = true then 1 else 0 })
    (slots : ∀ i, (m.slot i).isSome = true ↔ i < n ∧ thread i = true)
    (cuda : m.cudaDevice = running) :
    fleetOf (m.setStarted true) = {
      miner := minerStarted k n (if running = true then 1 else 0)
      openclDevices := (List.range n).map thread
      cudaDevice := running } := by
  have started : (m.setStarted true).miner =
      minerStarted k n (if running = true then 1 else 0) := by
    simp only [setStarted, isMiner]
    rfl
  have inUse : (List.range n).map (fun i => ((m.setStarted true).slot i).isSome) =
      (List.range n).map thread := by
    refine List.map_congr_left fun i inside => Bool.eq_iff_iff.mpr ?_
    rw [show (m.setStarted true).slot = m.slot from rfl, slots,
      and_iff_right (List.mem_range.mp inside)]
  simp only [fleetOf, started]
  exact congrArg₂ _ inUse cuda

/-- **The two descriptions of a start agree.** -/
theorem minerStart_fleet (env : Environment) (threadCount : Int) :
    let r := minerStart env (created threadCount)
    Hashes.minerStart (outcomeOf env threadCount) = if r.2 = 0 then some (fleetOf r.1) else none := by
  have notStarted : ¬(minerCreate threadCount).started = true := Bool.false_ne_true
  have equipped := @equipped_createCudaDevice env _ _ _ (made_createOpenclDevices env threadCount)
  have openclBuilt : env.openclBuild = false →
      (outcomeOf env threadCount).openclResolved.count true = 0 := fun unbuilt => by
    simp [outcomeOf, unbuilt]
  have cudaBuilt : env.cudaBuild = false → (outcomeOf env threadCount).cudaDevice = false :=
    fun unbuilt => by simp [outcomeOf, unbuilt]
  have requested : (outcomeOf env threadCount).requestedCpuThreads =
    (minerCreate threadCount).threadCount := rfl
  have isCpu : (outcomeOf env threadCount).cpuThread =
    fun i => env.cpuArg i && env.cpuThread i := rfl
  have isOpencl : (outcomeOf env threadCount).openclThread =
    fun i => env.openclArg i && env.openclThread i := rfl
  have isCuda : (outcomeOf env threadCount).cudaThread = (env.cudaArg && env.cudaThread) := rfl
  have isMiner : (created threadCount).miner = minerCreate threadCount := rfl
  simp only [minerStart, if_neg notStarted, Hashes.minerStart, requested, isCpu, isOpencl, isCuda,
    isMiner, startCpuThreads_eq, Nat.zero_add]
  generalize (outcomeOf env threadCount).openclResolved.count true = n at *
  generalize (outcomeOf env threadCount).cudaDevice = cuda at *
  generalize createCudaDevice env (createOpenclDevices env (created threadCount)) = m at *
  generalize (minerCreate threadCount).threadCount = k
  have openclCounted : m.miner.openclStarted = n := by rw [equipped.miner]
  have cudaCounted : m.miner.cudaStarted = if cuda then 1 else 0 := by rw [equipped.miner]
  rw [openclCounted, cudaCounted, nothingToStart openclBuilt cudaBuilt]
  generalize isEmpty : (decide (k ≤ 0) && decide (n ≤ 0) &&
    decide ((if cuda = true then 1 else 0) ≤ 0)) = empty
  rcases empty with _ | _
  swap
  · rfl
  -- something is to be started: the CPU threads first
  simp only [Bool.false_eq_true, if_false]
  have cpu := cpuStage env m k
  rcases cpuLoop : (List.range k).foldlM (startCpuThread env) (m.setThreadCount 0) with m' | m'
  · rw [if_neg (cpu.1 m' cpuLoop)]
    rfl
  obtain ⟨allStarted, cpuMiner, cpuSlot, cpuCuda⟩ := cpu.2 m' cpuLoop
  rw [if_pos allStarted]
  simp only
  -- then the threads of the devices, which may fail one by one
  rw [openclThreads_built (by rw [cpuMiner, openclCounted]) openclBuilt]
  obtain ⟨openclMiner, openclCuda, openclSlots, openclRunning⟩ :=
    @openclThreads env m' n (by rw [cpuSlot]; exact equipped.slots)
  generalize (List.range n).foldl (startOpenclWorker env) (m', 0) = r at *
  have present : r.1.cudaDevice = cuda := by rw [openclCuda, cpuCuda, equipped.cuda]
  rw [cudaThread_built fun unbuilt => present.trans (cudaBuilt unbuilt)]
  obtain ⟨cudaMiner, cudaSlot, cudaDevice, cudaRunning⟩ := @cudaThread env r.1 cuda present
    (by rw [openclMiner, cpuMiner, cudaCounted])
  generalize startCudaWorker env r.1 = r' at *
  have isPositive : decide ((if cuda = true then 1 else 0) > 0) = cuda := by cases cuda <;> rfl
  rw [isPositive, ← openclRunning]
  have cudaIdle : env.cudaBuild = false → (cuda && (env.cudaArg && env.cudaThread)) = false :=
    fun unbuilt => by rw [cudaBuilt unbuilt, Bool.false_and]
  have something : env.openclBuild = false → env.cudaBuild = false → k ≠ 0 := by
    rintro noOpencl noCuda rfl
    rw [openclBuilt noOpencl, cudaBuilt noCuda] at isEmpty
    exact absurd isEmpty (by decide)
  generalize isThread : (fun i => env.openclArg i && env.openclThread i) = thread at *
  generalize (cuda && (env.cudaArg && env.cudaThread)) = running at *
  have isMiner : r'.1.miner = { minerCreate threadCount with
      threadCount := k, openclStarted := n, cudaStarted := if running = true then 1 else 0 } := by
    rw [cudaMiner, openclMiner, cpuMiner, equipped.miner]
  have isFleet := fleetOf_started isMiner (fun i => by rw [cudaSlot]; exact openclSlots i) cudaDevice
  have sameCount : r.1.miner.threadCount = k ∧ r'.1.miner.threadCount = k := by
    rw [cudaMiner, openclMiner, cpuMiner]
    exact ⟨rfl, rfl⟩
  rw [sameCount.1, sameCount.2, cudaRunning]
  obtain ⟨fails, succeeds⟩ := @ending env (Lifecycle.minerStop env (r.1.setStarted true)) r'.1
    (r'.1.setStarted true) k r.2 running cudaIdle something
  by_cases idle : k = 0 ∧ r.2 = 0 ∧ running = false
  · obtain ⟨noCpu, noOpencl, noCuda⟩ := idle
    rw [if_neg (fails ⟨noCpu, noOpencl, noCuda⟩)]
    simp [noCpu, noOpencl, noCuda]
  · have busy : ¬(decide (k ≤ 0) && decide (r.2 ≤ 0) &&
        decide ((if running = true then 1 else 0) ≤ 0)) = true := by
      simp only [Bool.and_eq_true, decide_eq_true_eq, Nat.le_zero]
      rintro ⟨⟨noCpu, noOpencl⟩, noCuda⟩
      exact idle ⟨noCpu, noOpencl, by simpa using noCuda⟩
    rw [if_neg busy, succeeds idle, isFleet, if_pos rfl]
    cases running <;> rfl

/-- So a miner that was started has a thread, and its counters are those of its fleet. -/
theorem started_good (env : Environment) (threadCount : Int)
    (started : (minerStart env (created threadCount)).2 = 0) :
    (fleetOf (minerStart env (created threadCount)).1).Good :=
  Hashes.minerStart_good ((minerStart_fleet env threadCount).trans (if_pos started))

end BtcRig.Mining.Fleet
