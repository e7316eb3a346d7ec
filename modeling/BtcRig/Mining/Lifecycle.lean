/-
# BtcRig.Mining.Lifecycle — starting, stopping and freeing a miner

`miner_start` makes a device for each GPU that passes its self-test and then starts a
thread for each CPU worker and for each device; each of these steps may fail.
`miner_stop` joins the threads and destroys the devices, `miner_destroy` stops and
frees.  Three clean-up paths of `miner_start` destroy what has no thread yet.

`Environment` fixes the build and what every call of `miner_start` returns; `log` is
what happened.  A worker stands for the thread handle of its slot, so that joining a
slot whose thread was never created shows in the log.

* `Sound` — what the arrays and counters say about the threads that run and the devices
  that live, at every point of a start or a stop; one lemma for each thing done;
* `minerStart_left` — a start leaves a miner that is either stopped and empty or started
  with all its devices in use;
* `started_then_destroyed` — the whole life of a miner, read off its log.
-/
import BtcRig.Mining.State
import BtcRig.Theory.Machine
import BtcRig.Theory.Ownership

namespace BtcRig.Mining.Lifecycle

open BtcRig.Mining.State
open BtcRig.Theory.Machine
open BtcRig.Theory.Ownership

set_option autoImplicit false

/-- A GPU device, an OpenCL one by its index among the resolved devices. -/
inductive DeviceId
  | opencl (index : Nat)
  | cuda
deriving DecidableEq

/-- The build, the GPU settings and the outcome of every call that may fail.  CPU workers
are known by their id, OpenCL ones by their slot. -/
structure Environment where
  openclBuild : Bool
  cudaBuild : Bool
  openclEnabled : Bool
  cudaEnabled : Bool
  resolvedCount : Int
  openclAllocated : Bool
  openclSelfTest : Nat → Bool
  openclCreate : Nat → Bool
  cudaSelfTest : Bool
  cudaCreate : Bool
  cpuArg : Nat → Bool
  cpuThread : Nat → Bool
  openclArg : Nat → Bool
  openclThread : Nat → Bool
  cudaArg : Bool
  cudaThread : Bool

/-- `openclDevices` is `none` before the array is allocated. -/
structure Resources where
  miner : Miner
  openclDevices : Option (Nat → Option Nat)
  cudaDevice : Bool
  log : List (Event WorkerId DeviceId)

/-- What `miner_create` returns. -/
def created (threadCount : Int) : Resources where
  miner := minerCreate threadCount
  openclDevices := none
  cudaDevice := false
  log := []

namespace Resources

def note (m : Resources) (event : Event WorkerId DeviceId) : Resources :=
  { m with log := m.log ++ [event] }

/-- The device in a slot, unless the array or the slot is `NULL`. -/
def slot (m : Resources) (i : Nat) : Option Nat := m.openclDevices.bind fun devices => devices i

def setSlot (m : Resources) (i : Nat) (device : Option Nat) : Resources :=
  { m with openclDevices := m.openclDevices.map fun devices => Function.update devices i device }

def setThreadCount (m : Resources) (threadCount : Nat) : Resources :=
  { m with miner := { m.miner with threadCount := threadCount } }

def setOpenclStarted (m : Resources) (openclStarted : Nat) : Resources :=
  { m with miner := { m.miner with openclStarted := openclStarted } }

def setCudaStarted (m : Resources) (cudaStarted : Nat) : Resources :=
  { m with miner := { m.miner with cudaStarted := cudaStarted } }

def setStarted (m : Resources) (started : Bool) : Resources :=
  { m with miner := { m.miner with started := started } }

end Resources

open Resources

/-! ## Stopping -/

/-- `opencl_miner_destroy(miner->opencl_devices[i])`, and the slot is reset. -/
def destroySlot (m : Resources) (i : Nat) : Resources :=
  match m.slot i with
  | none => m
  | some device => (m.note (.destroyed (.opencl device))).setSlot i none

/-- `cuda_miner_destroy(miner->cuda_device)`, and the pointer is reset. -/
def destroyCuda (m : Resources) : Resources :=
  { m.note (.destroyed .cuda) with cudaDevice := false }

def joinSlot (m : Resources) (i : Nat) : Resources :=
  if (m.slot i).isSome then destroySlot (m.note (.joined (.opencl i))) i else m

def joinCpuThreads (m : Resources) : Resources :=
  (List.range m.miner.threadCount).foldl (fun m i => m.note (.joined (.cpu i))) m

def joinOpenclThreads (env : Environment) (m : Resources) : Resources :=
  if env.openclBuild then
    ((List.range m.miner.openclStarted).foldl joinSlot m).setOpenclStarted 0
  else m

def joinCudaThread (env : Environment) (m : Resources) : Resources :=
  if env.cudaBuild then
    (if 0 < m.miner.cudaStarted && m.cudaDevice then destroyCuda (m.note (.joined .cuda))
      else m).setCudaStarted 0
  else m

def minerStop (env : Environment) (m : Resources) : Resources :=
  if !m.miner.started then m
  else
    let m := { m with miner := State.minerStop m.miner }
    (joinCudaThread env (joinOpenclThreads env (joinCpuThreads m))).setStarted false

/-- The arrays, the handles and the miner are freed last. -/
def minerDestroy (env : Environment) (m : Resources) : Resources :=
  let m := minerStop env m
  let m := if env.cudaBuild && m.cudaDevice then destroyCuda m else m
  m.note .freed

/-! ## Starting -/

def destroyUnstartedGpuDevices (env : Environment) (m : Resources) : Resources :=
  let m :=
    if env.openclBuild then
      ((List.range m.miner.openclStarted).foldl destroySlot m).setOpenclStarted 0
    else m
  if env.cudaBuild then (if m.cudaDevice then destroyCuda m else m).setCudaStarted 0 else m

/-- The value it returns, −1, is added by its caller. -/
def stopPartiallyStartedCpuThreads (env : Environment) (m : Resources) (threadCount : Nat) :
    Resources :=
  let m := destroyUnstartedGpuDevices env m
  minerStop env ((m.setThreadCount threadCount).setStarted true)

/-- One pass of the loop over the resolved devices. -/
def createOpenclDevice (env : Environment) (m : Resources) (i : Nat) : Resources :=
  if !env.openclSelfTest i then m
  else if !env.openclCreate i then m
  else
    let slot := m.miner.openclStarted
    ((m.note (.made (.opencl i))).setSlot slot (some i)).setOpenclStarted (slot + 1)

def createOpenclDevices (env : Environment) (m : Resources) : Resources :=
  if env.openclBuild && env.openclEnabled then
    if env.resolvedCount ≤ 0 then m
    else if !env.openclAllocated then { m with openclDevices := none }
    else
      (List.range env.resolvedCount.toNat).foldl (createOpenclDevice env)
        { m with openclDevices := some fun _ => none }
  else m

def createCudaDevice (env : Environment) (m : Resources) : Resources :=
  if env.cudaBuild && env.cudaEnabled then
    if !env.cudaSelfTest then m
    else if !env.cudaCreate then m
    else { (m.note (.made .cuda)).setCudaStarted 1 with cudaDevice := true }
  else m

/-- One pass of the loop that starts the CPU workers; an error is its early return. -/
def startCpuThread (env : Environment) (m : Resources) (i : Nat) : Except Resources Resources :=
  if !env.cpuArg i then .error (stopPartiallyStartedCpuThreads env m i)
  else
    let m := m.setThreadCount (i + 1)
    if !env.cpuThread i then .error (stopPartiallyStartedCpuThreads env m i)
    else .ok (m.note (.started (.cpu i) none))

/-- One pass of the loop that starts the OpenCL workers, with `opencl_running`. -/
def startOpenclWorker (env : Environment) (state : Resources × Nat) (i : Nat) : Resources × Nat :=
  let (m, openclRunning) := state
  match m.slot i with
  | none => (m, openclRunning)
  | some device =>
      if !env.openclArg i then (destroySlot m i, openclRunning)
      else if !env.openclThread i then (destroySlot m i, openclRunning)
      else (m.note (.started (.opencl i) (some (.opencl device))), openclRunning + 1)

/-- The CUDA worker's start, with `cuda_running`. -/
def startCudaWorker (env : Environment) (m : Resources) : Resources × Bool :=
  if 0 < m.miner.cudaStarted && m.cudaDevice then
    if !env.cudaArg then ((destroyCuda m).setCudaStarted 0, false)
    else if !env.cudaThread then ((destroyCuda m).setCudaStarted 0, false)
    else (m.note (.started .cuda (some .cuda)), true)
  else (m, false)

def minerStart (env : Environment) (m : Resources) : Resources × Int :=
  if m.miner.started then (m, 0)
  else
    let requestedCpuThreads := m.miner.threadCount
    let m := createOpenclDevices env m
    let m := createCudaDevice env m
    if requestedCpuThreads = 0 && (!env.openclBuild || m.miner.openclStarted = 0) &&
        (!env.cudaBuild || m.miner.cudaStarted = 0) then (m, -1)
    else
      match (List.range requestedCpuThreads).foldlM (startCpuThread env) (m.setThreadCount 0) with
      | .error m => (m, -1)
      | .ok m =>
          let (m, openclRunning) :=
            if env.openclBuild then
              (List.range m.miner.openclStarted).foldl (startOpenclWorker env) (m, 0)
            else (m, 0)
          if env.openclBuild && !env.cudaBuild && m.miner.threadCount = 0 && openclRunning = 0 then
            (minerStop env (m.setStarted true), -1)
          else
            let (m, cudaRunning) := if env.cudaBuild then startCudaWorker env m else (m, false)
            if env.cudaBuild && m.miner.threadCount = 0 && openclRunning = 0 && !cudaRunning then
              (m, -1)
            else (m.setStarted true, 0)

/-! ## What runs and what lives -/

/-- CPU workers from `lo` up to `hi`, the OpenCL workers of the filled slots below `g`,
and the CUDA worker if `c`. -/
def running (m : Resources) (lo hi g : Nat) (c : Bool) : Set (WorkerId × Option DeviceId) :=
  {thread | match thread with
    | (.cpu i, none) => lo ≤ i ∧ i < hi
    | (.opencl i, some (.opencl device)) => i < g ∧ m.slot i = some device
    | (.cuda, some .cuda) => c = true ∧ m.cudaDevice = true
    | _ => False}

def live (m : Resources) : Set DeviceId :=
  {device | match device with
    | .opencl device => ∃ i, m.slot i = some device
    | .cuda => m.cudaDevice = true}

/-- The log is legal, and the arrays and counters account for what it leaves. -/
structure Sound (env : Environment) (m : Resources) (lo hi g : Nat) (c : Bool) : Prop where
  books : Books m.log (running m lo hi g c) (live m)
  distinct : ∀ i j device, m.slot i = some device → m.slot j = some device → i = j
  counted : ∀ i device, m.slot i = some device → i < m.miner.openclStarted
  cuda_counted : m.cudaDevice = true → 0 < m.miner.cudaStarted
  opencl_built : env.openclBuild = false → ∀ i, m.slot i = none
  cuda_built : env.cudaBuild = false → m.cudaDevice = false

/-- Nothing runs, nothing lives and no pointer is left. -/
structure Closed (m : Resources) : Prop where
  books : Books m.log ∅ ∅
  slots : ∀ i, m.slot i = none
  cuda : m.cudaDevice = false
  stopped : m.miner.started = false

/-- While a start goes on, with `hi` CPU workers and those of the slots below `g` started. -/
structure Starting (env : Environment) (m : Resources) (hi g : Nat) (c : Bool) : Prop where
  sound : Sound env m 0 hi g c
  unjoined : ∀ worker, .joined worker ∉ m.log
  stopped : m.miner.started = false

/-- While the devices are made, of which those below `next` have been tried. -/
structure Creating (env : Environment) (m : Resources) (next : Nat) : Prop where
  starting : Starting env m 0 0 false
  undestroyed : ∀ device, .destroyed device ∉ m.log
  tried : ∀ i device, m.slot i = some device → device < next
  cuda : m.cudaDevice = false

/-- A running miner: every device is used by a thread, and some thread runs. -/
structure InUse (env : Environment) (m : Resources) (g : Nat) (c : Bool) : Prop where
  sound : Sound env m 0 m.miner.threadCount g c
  opencl_used : ∀ i device, m.slot i = some device → i < g
  cuda_used : m.cudaDevice = true → c = true
  started : m.miner.started = true

section Steps

variable {env : Environment} {m : Resources} {lo hi g : Nat} {c : Bool}

theorem slot_destroySlot (i : Nat) : (destroySlot m i).slot = Function.update m.slot i none := by
  funext j
  simp only [destroySlot]
  split
  · rename_i empty
    rcases eq_or_ne j i with rfl | other
    · rw [Function.update_self, empty]
    · rw [Function.update_of_ne other]
  · rcases devices : m.openclDevices with _ | array
    · simp [slot, setSlot, note, devices, Function.update_apply]
    · simp [slot, setSlot, note, devices, Function.update_apply]

theorem miner_destroySlot (i : Nat) : (destroySlot m i).miner = m.miner := by
  simp only [destroySlot]
  split <;> rfl

theorem cudaDevice_destroySlot (i : Nat) : (destroySlot m i).cudaDevice = m.cudaDevice := by
  simp only [destroySlot]
  split <;> rfl

theorem running_succ_cpu :
    running m 0 (hi + 1) g c = insert (.cpu hi, none) (running m 0 hi g c) := by
  refine Set.ext fun ⟨worker, resource⟩ => ?_
  rcases worker with i | i | _ <;> rcases resource with _ | _ | _ <;> simp [running]
  omega

/-- A joined thread no longer runs. -/
theorem running_join_cpu :
    running m (lo + 1) hi g c = {thread ∈ running m lo hi g c | thread.1 ≠ .cpu lo} := by
  refine Set.ext fun ⟨worker, resource⟩ => ?_
  rcases worker with i | i | _ <;> rcases resource with _ | _ | _ <;> simp [running]
  omega

theorem running_succ_slot {device : Nat} (filled : m.slot g = some device) :
    running m lo hi (g + 1) c =
      insert (.opencl g, some (.opencl device)) (running m lo hi g c) := by
  refine Set.ext fun ⟨worker, resource⟩ => ?_
  rcases worker with i | i | _ <;> rcases resource with _ | other | _ <;> simp [running]
  rw [Nat.le_iff_lt_or_eq]
  constructor
  · rintro ⟨below | rfl, isDevice⟩
    · exact .inr ⟨below, isDevice⟩
    · exact .inl ⟨rfl, Option.some.inj (isDevice.symm.trans filled)⟩
  · rintro (⟨rfl, rfl⟩ | ⟨below, isDevice⟩)
    · exact ⟨.inr rfl, filled⟩
    · exact ⟨.inl below, isDevice⟩

theorem running_skip_slot (empty : m.slot g = none) :
    running m lo hi (g + 1) c = running m lo hi g c := by
  refine Set.ext fun ⟨worker, resource⟩ => ?_
  rcases worker with i | i | _ <;> rcases resource with _ | other | _ <;> simp [running]
  intro filled
  have other : i ≠ g := fun same => by simp [same, empty] at filled
  omega

theorem running_destroySlot (i : Nat) :
    running (destroySlot m i) lo hi g c = {thread ∈ running m lo hi g c | thread.1 ≠ .opencl i} := by
  refine Set.ext fun ⟨worker, resource⟩ => ?_
  rcases worker with j | j | _ <;> rcases resource with _ | _ | _ <;>
    simp [running, slot_destroySlot, cudaDevice_destroySlot, Function.update_apply]
  tauto

/-- A destroyed device is no longer live. -/
theorem live_destroySlot {i device : Nat} (filled : m.slot i = some device)
    (distinct : ∀ i j device, m.slot i = some device → m.slot j = some device → i = j) :
    live (destroySlot m i) = live m \ {.opencl device} := by
  refine Set.ext fun other => ?_
  rcases other with other | _
  · simp only [live, slot_destroySlot, Set.mem_ofPred_eq, Set.mem_sdiff, Set.mem_singleton_iff,
      DeviceId.opencl.injEq]
    constructor
    · rintro ⟨j, isOther⟩
      rcases eq_or_ne j i with rfl | apart
      · simp at isOther
      · rw [Function.update_of_ne apart] at isOther
        exact ⟨⟨j, isOther⟩, fun same => apart (distinct j i device (same ▸ isOther) filled)⟩
    · rintro ⟨⟨j, isOther⟩, differ⟩
      have apart : j ≠ i := fun same => by
        rw [same, filled] at isOther
        exact differ (Option.some.inj isOther).symm
      exact ⟨j, by rw [Function.update_of_ne apart, isOther]⟩
  · simp [live, cudaDevice_destroySlot]

theorem running_destroy_idle {i : Nat} (idle : g ≤ i) :
    running (destroySlot m i) lo hi g c = running m lo hi g c := by
  rw [running_destroySlot]
  refine Set.ext fun ⟨worker, resource⟩ => ?_
  rcases worker with j | j | _ <;> rcases resource with _ | _ | _ <;> simp [running]
  omega

theorem running_destroyCuda :
    running (destroyCuda m) lo hi g c = {thread ∈ running m lo hi g c | thread.1 ≠ .cuda} := by
  refine Set.ext fun ⟨worker, resource⟩ => ?_
  rcases worker with j | j | _ <;> rcases resource with _ | _ | _ <;>
    simp [running, destroyCuda, note, slot]

theorem live_destroyCuda : live (destroyCuda m) = live m \ {.cuda} := by
  refine Set.ext fun device => ?_
  rcases device with _ | _ <;> simp [live, destroyCuda, note, slot]

theorem log_destroySlot {i device : Nat} (filled : m.slot i = some device) :
    (destroySlot m i).log = m.log ++ [.destroyed (.opencl device)] := by
  simp only [destroySlot, filled]
  rfl

/-! ## One thing done -/

/-- Before anything is joined, a thread that was started still runs. -/
theorem Sound.fresh (sound : Sound env m lo hi g c) (unjoined : ∀ w, .joined w ∉ m.log)
    {worker : WorkerId} (absent : ∀ resource, (worker, resource) ∉ running m lo hi g c) :
    ∀ resource, .started worker resource ∉ m.log := fun resource started =>
  absent resource ((sound.books.consistent.running_iff _ _).mpr ⟨started, unjoined worker⟩)

/-- Starting the next CPU thread. -/
theorem Sound.startCpu (sound : Sound env m 0 hi g c) (unjoined : ∀ w, .joined w ∉ m.log) :
    Sound env (m.note (.started (.cpu hi) none)) 0 (hi + 1) g c := by
  refine { sound with books := ?_ }
  have fresh : ∀ resource, .started (.cpu hi) resource ∉ m.log :=
    sound.fresh unjoined fun resource => by cases resource <;> simp [running]
  have next : Books (m.log ++ [.started (.cpu hi) none])
      (insert (.cpu hi, none) (running m 0 hi g c)) (live m) :=
    sound.books.start fresh (by simp)
  rw [← running_succ_cpu] at next
  exact next

/-- Starting the thread of a slot with its device. -/
theorem Sound.startSlot (sound : Sound env m lo hi g c) (unjoined : ∀ w, .joined w ∉ m.log)
    {device : Nat} (filled : m.slot g = some device) :
    Sound env (m.note (.started (.opencl g) (some (.opencl device)))) lo hi (g + 1) c := by
  refine { sound with books := ?_ }
  have fresh : ∀ resource, .started (.opencl g) resource ∉ m.log :=
    sound.fresh unjoined fun resource => by rcases resource with _ | _ | _ <;> simp [running]
  have lives : .opencl device ∈ live m := ⟨g, filled⟩
  have next : Books (m.log ++ [.started (.opencl g) (some (.opencl device))])
      (insert (.opencl g, some (.opencl device)) (running m lo hi g c)) (live m) :=
    sound.books.start fresh (by simpa using lives)
  rw [← running_succ_slot filled] at next
  exact next

theorem Sound.skipSlot (sound : Sound env m lo hi g c) (empty : m.slot g = none) :
    Sound env m lo hi (g + 1) c := by
  refine { sound with books := ?_ }
  rw [running_skip_slot empty]
  exact sound.books

theorem Sound.startCuda (sound : Sound env m lo hi g false) (unjoined : ∀ w, .joined w ∉ m.log)
    (cuda : m.cudaDevice = true) :
    Sound env (m.note (.started .cuda (some .cuda))) lo hi g true := by
  refine { sound with books := ?_ }
  have fresh : ∀ resource, .started .cuda resource ∉ m.log :=
    sound.fresh unjoined fun resource => by rcases resource with _ | _ | _ <;> simp [running]
  have lives : .cuda ∈ live m := cuda
  have next : Books (m.log ++ [.started .cuda (some .cuda)])
      (insert (.cuda, some .cuda) (running m lo hi g false)) (live m) :=
    sound.books.start fresh (by simpa using lives)
  have isInsert : running m lo hi g true =
      insert (.cuda, some .cuda) (running m lo hi g false) := by
    refine Set.ext fun ⟨worker, resource⟩ => ?_
    rcases worker with i | i | _ <;> rcases resource with _ | _ | _ <;> simp [running, cuda]
  rw [← isInsert] at next
  exact next

/-- Emptying a slot keeps everything but the log. -/
theorem Sound.clearSlot (sound : Sound env m lo hi g c) {m' : Resources} {i : Nat}
    (slots : m'.slot = Function.update m.slot i none) (miner : m'.miner = m.miner)
    (cuda : m'.cudaDevice = m.cudaDevice)
    (books : Books m'.log (running m' lo hi g c) (live m')) : Sound env m' lo hi g c := by
  have kept : ∀ j device, m'.slot j = some device → m.slot j = some device := by
    intro j device filled
    rw [slots] at filled
    rcases eq_or_ne j i with rfl | other
    · simp at filled
    · rwa [Function.update_of_ne other] at filled
  refine ⟨books, fun j k device first second => ?_, fun j device filled => ?_, ?_, fun off j => ?_, ?_⟩
  · exact sound.distinct j k device (kept j device first) (kept k device second)
  · rw [miner]
    exact sound.counted j device (kept j device filled)
  · rw [miner, cuda]
    exact sound.cuda_counted
  · rw [slots, funext (sound.opencl_built off)]
    simp [Function.update_apply]
  · rw [cuda]
    exact sound.cuda_built

/-- A device is destroyed only while no thread of its slot runs. -/
theorem Sound.destroySlot (sound : Sound env m lo hi g c) {i : Nat} (idle : g ≤ i) :
    Sound env (destroySlot m i) lo hi g c := by
  rcases filled : m.slot i with _ | device
  · simpa only [Lifecycle.destroySlot, filled] using sound
  refine sound.clearSlot (slot_destroySlot i) (miner_destroySlot i) (cudaDevice_destroySlot i) ?_
  rw [log_destroySlot filled, running_destroy_idle idle, live_destroySlot filled sound.distinct]
  refine sound.books.destroy ⟨i, filled⟩ fun worker runs => ?_
  rcases worker with j | j | _
  · simp [running] at runs
  · obtain ⟨below, same⟩ : j < g ∧ m.slot j = some device := by simpa [running] using runs
    have := sound.distinct j i device same filled
    omega
  · simp [running] at runs

theorem Sound.joinSlot (sound : Sound env m lo hi g c) {i : Nat}
    (used : ∀ device, m.slot i = some device → i < g) : Sound env (joinSlot m i) lo hi g c := by
  rcases filled : m.slot i with _ | device
  · simpa [Lifecycle.joinSlot, filled] using sound
  have isJoin : Lifecycle.joinSlot m i =
      Lifecycle.destroySlot (m.note (.joined (.opencl i))) i := by
    simp [Lifecycle.joinSlot, filled]
  rw [isJoin]
  refine sound.clearSlot (slot_destroySlot (m := m.note _) i) (miner_destroySlot (m := m.note _) i)
    (cudaDevice_destroySlot (m := m.note _) i) ?_
  have runs : (.opencl i, some (.opencl device)) ∈ running m lo hi g c :=
    ⟨used device filled, filled⟩
  have joined := sound.books.join runs
  rw [log_destroySlot (m := m.note _) filled, running_destroySlot,
    live_destroySlot (m := m.note _) filled sound.distinct]
  refine joined.destroy ⟨i, filled⟩ fun worker still => ?_
  obtain ⟨runs, apart⟩ := still
  rcases worker with j | j | _
  · simp [running] at runs
  · obtain ⟨-, same⟩ : j < g ∧ m.slot j = some device := by simpa [running] using runs
    exact apart (congrArg _ (sound.distinct j i device same filled))
  · simp [running] at runs

theorem Sound.joinCpu (sound : Sound env m lo hi g c) (below : lo < hi) :
    Sound env (m.note (.joined (.cpu lo))) (lo + 1) hi g c := by
  refine { sound with books := ?_ }
  have runs : (.cpu lo, none) ∈ running m lo hi g c := ⟨le_rfl, below⟩
  have joined := sound.books.join runs
  rw [← running_join_cpu] at joined
  exact joined

theorem Sound.destroyCuda (sound : Sound env m lo hi g false) (cuda : m.cudaDevice = true) :
    Sound env (destroyCuda m) lo hi g false := by
  refine { sound with books := ?_, cuda_counted := nofun, cuda_built := fun _ => rfl }
  have isRunning : running (Lifecycle.destroyCuda m) lo hi g false = running m lo hi g false := by
    refine Set.ext fun ⟨worker, resource⟩ => ?_
    rcases worker with i | i | _ <;> rcases resource with _ | _ | _ <;>
      simp [running, Lifecycle.destroyCuda, note, slot]
  have lives : .cuda ∈ live m := cuda
  rw [isRunning, live_destroyCuda]
  refine sound.books.destroy lives fun worker runs => ?_
  rcases worker with i | i | _ <;> simp [running] at runs

theorem Sound.joinCuda (sound : Sound env m lo hi g true) (cuda : m.cudaDevice = true) :
    Sound env (Lifecycle.destroyCuda (m.note (.joined .cuda))) lo hi g true := by
  refine { sound with books := ?_, cuda_counted := nofun, cuda_built := fun _ => rfl }
  have runs : (.cuda, some .cuda) ∈ running m lo hi g true := ⟨rfl, cuda⟩
  have joined := sound.books.join runs
  have lives : .cuda ∈ live m := cuda
  rw [running_destroyCuda, live_destroyCuda]
  refine joined.destroy lives fun worker still => ?_
  obtain ⟨runs, apart⟩ := still
  rcases worker with i | i | _
  · simp [running] at runs
  · simp [running] at runs
  · exact apart rfl

theorem Sound.setOpenclStarted (sound : Sound env m lo hi g c) (empty : ∀ i, m.slot i = none)
    (openclStarted : Nat) : Sound env (m.setOpenclStarted openclStarted) lo hi g c :=
  { sound with counted := fun i _ filled => nomatch (empty i).symm.trans filled }

theorem Sound.setCudaStarted (sound : Sound env m lo hi g c) (cuda : m.cudaDevice = false)
    (cudaStarted : Nat) : Sound env (m.setCudaStarted cudaStarted) lo hi g c :=
  { sound with cuda_counted := fun present => nomatch cuda.symm.trans present }

/-! ## Stopping leaves nothing -/

/-- When all threads are joined and all slots empty the books are closed. -/
theorem Sound.closed (sound : Sound env m lo hi g c) (joined : hi ≤ lo)
    (slots : ∀ i, m.slot i = none) (cuda : m.cudaDevice = false) (stopped : m.miner.started = false) :
    Closed m := by
  have nothing : running m lo hi g c = ∅ := by
    refine Set.eq_empty_of_forall_notMem fun ⟨worker, resource⟩ runs => ?_
    rcases worker with i | i | _ <;> rcases resource with _ | _ | _ <;>
      simp [running, slots, cuda] at runs
    omega
  have none_live : live m = ∅ := by
    refine Set.eq_empty_of_forall_notMem fun device lives => ?_
    rcases device with _ | _ <;> simp [live, slots, cuda] at lives
  exact ⟨nothing ▸ none_live ▸ sound.books, slots, cuda, stopped⟩

theorem slot_joinSlot (m : Resources) (i : Nat) :
    (joinSlot m i).slot = Function.update m.slot i none := by
  rw [joinSlot]
  split
  · exact slot_destroySlot (m := m.note _) i
  · rename_i empty
    rw [← slot_destroySlot, destroySlot, Option.not_isSome_iff_eq_none.mp empty]

theorem miner_joinSlot (m : Resources) (i : Nat) : (joinSlot m i).miner = m.miner := by
  rw [joinSlot]
  split
  · exact miner_destroySlot (m := m.note _) i
  · rfl

theorem cudaDevice_joinSlot (m : Resources) (i : Nat) :
    (joinSlot m i).cudaDevice = m.cudaDevice := by
  rw [joinSlot]
  split
  · exact cudaDevice_destroySlot (m := m.note _) i
  · rfl

theorem Sound.joinCpuThreads (sound : Sound env m 0 m.miner.threadCount g c) :
    let m' := joinCpuThreads m
    Sound env m' m.miner.threadCount m.miner.threadCount g c ∧ m'.slot = m.slot ∧
      m'.miner = m.miner ∧ m'.cudaDevice = m.cudaDevice := by
  refine foldl_range_rule (fun m i => m.note (.joined (.cpu i)))
    (fun i m' => Sound env m' i m.miner.threadCount g c ∧ m'.slot = m.slot ∧
      m'.miner = m.miner ∧ m'.cudaDevice = m.cudaDevice)
    ⟨sound, rfl, rfl, rfl⟩ m.miner.threadCount ?_
  rintro i m' below ⟨sound', same⟩
  exact ⟨sound'.joinCpu below, same⟩

/-- A loop that empties every slot, whatever it does with the device. -/
theorem Sound.clearSlots (sound : Sound env m lo hi g c) {clear : Resources → Nat → Resources}
    (slots : ∀ m i, (clear m i).slot = Function.update m.slot i none)
    (miner : ∀ m i, (clear m i).miner = m.miner)
    (cuda : ∀ m i, (clear m i).cudaDevice = m.cudaDevice)
    (pass : ∀ m' i, Sound env m' lo hi g c →
      (∀ device, m'.slot i = some device → m.slot i = some device) →
        Sound env (clear m' i) lo hi g c) :
    let m' := (List.range m.miner.openclStarted).foldl clear m
    Sound env m' lo hi g c ∧ (∀ i, m'.slot i = none) ∧ m'.miner = m.miner ∧
      m'.cudaDevice = m.cudaDevice := by
  have cleared := foldl_range_rule clear
    (fun i m' => Sound env m' lo hi g c ∧
      (∀ j device, m'.slot j = some device → m.slot j = some device ∧ i ≤ j) ∧
        m'.miner = m.miner ∧ m'.cudaDevice = m.cudaDevice)
    ⟨sound, fun j device filled => ⟨filled, j.zero_le⟩, rfl, rfl⟩ m.miner.openclStarted ?_
  · obtain ⟨sound', left, isMiner, isCuda⟩ := cleared
    refine ⟨sound', fun j => ?_, isMiner, isCuda⟩
    rcases filled : Resources.slot _ j with _ | device
    · rfl
    · obtain ⟨before, beyond⟩ := left j device filled
      have := sound.counted j device before
      omega
  · rintro i m' - ⟨sound', left, isMiner, isCuda⟩
    refine ⟨pass m' i sound' fun device filled => (left i device filled).1, fun j device filled => ?_,
      (miner m' i).trans isMiner, (cuda m' i).trans isCuda⟩
    rw [slots] at filled
    rcases eq_or_ne j i with rfl | other
    · simp at filled
    · rw [Function.update_of_ne other] at filled
      obtain ⟨before, beyond⟩ := left j device filled
      exact ⟨before, by omega⟩

theorem Sound.joinOpenclThreads (sound : Sound env m lo hi g c)
    (used : ∀ i device, m.slot i = some device → i < g) :
    let m' := joinOpenclThreads env m
    Sound env m' lo hi g c ∧ (∀ i, m'.slot i = none) ∧ m'.cudaDevice = m.cudaDevice := by
  simp only [Lifecycle.joinOpenclThreads]
  split
  · obtain ⟨sound', empty, -, isCuda⟩ := sound.clearSlots slot_joinSlot miner_joinSlot
      cudaDevice_joinSlot fun m' i sound' kept =>
        sound'.joinSlot fun device filled => used i device (kept device filled)
    exact ⟨sound'.setOpenclStarted empty 0, empty, isCuda⟩
  · rename_i off
    exact ⟨sound, sound.opencl_built (Bool.eq_false_iff.mpr off), rfl⟩

theorem Sound.joinCudaThread (sound : Sound env m lo hi g c) (used : m.cudaDevice = true → c = true) :
    let m' := joinCudaThread env m
    Sound env m' lo hi g c ∧ m'.slot = m.slot ∧ m'.cudaDevice = false := by
  simp only [Lifecycle.joinCudaThread]
  split
  · rcases present : m.cudaDevice with _ | _
    · simp only [Bool.and_false, Bool.false_eq_true, if_false]
      exact ⟨sound.setCudaStarted present 0, rfl, present⟩
    · obtain rfl := used present
      simp only [sound.cuda_counted present, decide_true, Bool.and_true, if_true]
      exact ⟨(sound.joinCuda present).setCudaStarted rfl 0, rfl, rfl⟩
  · rename_i off
    exact ⟨sound, rfl, sound.cuda_built (Bool.eq_false_iff.mpr off)⟩

/-- **A stop joins every thread, each device's before the device is destroyed.** -/
theorem InUse.minerStop (use : InUse env m g c) : Closed (minerStop env m) := by
  simp only [Lifecycle.minerStop, use.started, Bool.not_true, Bool.false_eq_true, if_false]
  have isMiner : State.minerStop m.miner = { m.miner with stop := true } := by
    simp [State.minerStop, use.started]
  rw [isMiner]
  have sound : Sound env { m with miner := { m.miner with stop := true } } 0 m.miner.threadCount g c :=
    { use.sound with }
  obtain ⟨cpus, sameSlots, -, sameCuda⟩ := sound.joinCpuThreads
  obtain ⟨opencl, empty, sameCuda'⟩ := cpus.joinOpenclThreads fun i device filled =>
    use.opencl_used i device (sameSlots ▸ filled)
  obtain ⟨cuda, sameSlots', gone⟩ := opencl.joinCudaThread fun present =>
    use.cuda_used (sameCuda ▸ sameCuda' ▸ present)
  refine Sound.closed { cuda with } le_rfl (fun i => ?_) gone rfl
  exact (congrFun sameSlots' i).trans (empty i)

/-! ## A start -/

theorem Creating.fresh {next : Nat} (creating : Creating env m next) {device : DeviceId}
    (absent : device ∉ live m) : .made device ∉ m.log := fun made =>
  absent ((creating.starting.sound.books.consistent.live_iff _).mpr
    ⟨made, creating.undestroyed device⟩)

theorem running_none : running m 0 0 0 false = ∅ := by
  refine Set.eq_empty_of_forall_notMem fun ⟨worker, resource⟩ runs => ?_
  rcases worker with i | i | _ <;> rcases resource with _ | _ | _ <;> simp [running] at runs

section FilledSlot

variable {m' : Resources} {next device : Nat}

theorem live_fillSlot (slots : m'.slot = Function.update m.slot next (some device))
    (free : m.slot next = none) (cuda : m'.cudaDevice = m.cudaDevice) :
    live m' = insert (.opencl device) (live m) := by
  refine Set.ext fun other => ?_
  rcases other with other | _
  · simp only [live, slots, Set.mem_ofPred_eq, Set.mem_insert_iff, DeviceId.opencl.injEq]
    constructor
    · rintro ⟨i, filled⟩
      by_cases here : i = next
      · rw [here, Function.update_self] at filled
        exact .inl (Option.some.inj filled).symm
      · rw [Function.update_of_ne here] at filled
        exact .inr ⟨i, filled⟩
    · rintro (rfl | ⟨i, filled⟩)
      · exact ⟨_, Function.update_self ..⟩
      · have apart : i ≠ next := fun same => by simp [same, free] at filled
        exact ⟨i, by rw [Function.update_of_ne apart, filled]⟩
  · simp [live, cuda]

theorem distinct_fillSlot (slots : m'.slot = Function.update m.slot next (some device))
    (absent : ∀ i, m.slot i ≠ some device)
    (distinct : ∀ i j device, m.slot i = some device → m.slot j = some device → i = j) :
    ∀ i j other, m'.slot i = some other → m'.slot j = some other → i = j := by
  intro i j other first second
  rw [slots] at first second
  by_cases isI : i = next <;> by_cases isJ : j = next
  · rw [isI, isJ]
  · rw [isI, Function.update_self] at first
    rw [Function.update_of_ne isJ, ← first] at second
    exact absurd second (absent j)
  · rw [isJ, Function.update_self] at second
    rw [Function.update_of_ne isI, ← second] at first
    exact absurd first (absent i)
  · rw [Function.update_of_ne isI] at first
    rw [Function.update_of_ne isJ] at second
    exact distinct i j other first second

end FilledSlot

/-- A device made for the next slot. -/
theorem Sound.makeSlot (sound : Sound env m 0 0 0 false) {device : Nat}
    (allocated : m.openclDevices.isSome) (built : env.openclBuild = true)
    (fresh : .made (.opencl device) ∉ m.log) (absent : ∀ i, m.slot i ≠ some device) :
    Sound env (((m.note (.made (.opencl device))).setSlot m.miner.openclStarted
      (some device)).setOpenclStarted (m.miner.openclStarted + 1)) 0 0 0 false := by
  generalize isNew : ((m.note (.made (.opencl device))).setSlot m.miner.openclStarted
    (some device)).setOpenclStarted (m.miner.openclStarted + 1) = m'
  have slots : m'.slot = Function.update m.slot m.miner.openclStarted (some device) := by
    obtain ⟨devices, isDevices⟩ := Option.isSome_iff_exists.mp allocated
    funext i
    simp [← isNew, slot, setSlot, Resources.setOpenclStarted, note, isDevices, Function.update_apply]
  have isLog : m'.log = m.log ++ [.made (.opencl device)] := by
    rw [← isNew]
    rfl
  have isCuda : m'.cudaDevice = m.cudaDevice := by
    rw [← isNew]
    rfl
  have isMiner : m'.miner = { m.miner with openclStarted := m.miner.openclStarted + 1 } := by
    rw [← isNew]
    rfl
  have free : m.slot m.miner.openclStarted = none := by
    rcases filled : m.slot m.miner.openclStarted with _ | other
    · rfl
    · exact absurd (sound.counted _ other filled) (lt_irrefl _)
  refine ⟨?_, distinct_fillSlot slots absent sound.distinct, fun i other filled => ?_, ?_, ?_, ?_⟩
  · rw [isLog, live_fillSlot slots free isCuda, running_none]
    exact (running_none (m := m) ▸ sound.books).make fresh
  · rw [slots] at filled
    rw [isMiner]
    by_cases here : i = m.miner.openclStarted
    · exact here ▸ Nat.lt_succ_self _
    · rw [Function.update_of_ne here] at filled
      exact (sound.counted i other filled).trans (Nat.lt_succ_self _)
  · rw [isCuda, isMiner]
    exact sound.cuda_counted
  · simp [built]
  · rw [isCuda]
    exact sound.cuda_built

theorem createOpenclDevice_creating {next : Nat} (creating : Creating env m next)
    (allocated : m.openclDevices.isSome) (built : env.openclBuild = true) :
    Creating env (createOpenclDevice env m next) (next + 1) ∧
      (createOpenclDevice env m next).openclDevices.isSome := by
  have skipped : Creating env m (next + 1) :=
    { creating with tried := fun i device filled => (creating.tried i device filled).trans_le (by omega) }
  simp only [createOpenclDevice]
  split
  · exact ⟨skipped, allocated⟩
  split
  · exact ⟨skipped, allocated⟩
  have absent : ∀ i, m.slot i ≠ some next := fun i filled =>
    absurd (creating.tried i next filled) (lt_irrefl next)
  have fresh : .made (.opencl next) ∉ m.log := creating.fresh fun ⟨i, filled⟩ => absent i filled
  have made := creating.starting.sound.makeSlot allocated built fresh absent
  refine ⟨⟨⟨made, ?_, creating.starting.stopped⟩, ?_, fun i device filled => ?_, creating.cuda⟩, ?_⟩
  · simpa [setOpenclStarted, setSlot, note] using creating.starting.unjoined
  · simpa [setOpenclStarted, setSlot, note] using creating.undestroyed
  · obtain ⟨devices, isDevices⟩ := Option.isSome_iff_exists.mp allocated
    simp only [slot, setOpenclStarted, setSlot, note, isDevices, Option.map_some,
      Option.bind_some, Function.update_apply] at filled
    split at filled
    · rw [← Option.some.inj filled]
      exact Nat.lt_succ_self next
    · exact (creating.tried i device (by simpa [slot, isDevices] using filled)).trans_le (by omega)
  · simpa [setOpenclStarted, setSlot, note] using allocated

/-- An array of empty slots is no better than none. -/
theorem created_creating (env : Environment) (threadCount : Int) {devices : Option (Nat → Option Nat)}
    (empty : ∀ i, devices.bind (fun devices => devices i) = none) :
    Creating env { created threadCount with openclDevices := devices } 0 := by
  have slots : ({ created threadCount with openclDevices := devices } : Resources).slot =
      fun _ => none := funext empty
  have nothing : live { created threadCount with openclDevices := devices } = ∅ := by
    refine Set.eq_empty_of_forall_notMem fun device lives => ?_
    rcases device with _ | _
    · simp [live, slots] at lives
    · simp [live, created] at lives
  refine ⟨⟨⟨?_, ?_, ?_, nofun, ?_, fun _ => rfl⟩, ?_, rfl⟩, ?_, ?_, rfl⟩
  · rw [running_none, nothing]
    exact .nil
  · simp [slots]
  · simp [slots]
  · simp [slots]
  · simp [created]
  · simp [created]
  · simp [slots]

/-- The creation loop fills the slots from the first one on. -/
theorem createOpenclDevices_creating (env : Environment) (threadCount : Int) :
    ∃ next, Creating env (createOpenclDevices env (created threadCount)) next := by
  have unallocated : Creating env { created threadCount with openclDevices := none } 0 :=
    created_creating env threadCount fun _ => rfl
  rw [createOpenclDevices]
  split
  · rename_i enabled
    have built : env.openclBuild = true := by simp_all
    split
    · exact ⟨0, unallocated⟩
    split
    · exact ⟨0, unallocated⟩
    have made := foldl_range_rule (createOpenclDevice env)
      (fun i m => Creating env m i ∧ m.openclDevices.isSome)
      (s := { created threadCount with openclDevices := some fun _ => none })
      ⟨created_creating env threadCount fun _ => rfl, rfl⟩ env.resolvedCount.toNat
      fun i m _ creating => createOpenclDevice_creating creating.1 creating.2 built
    exact ⟨_, made.1⟩
  · exact ⟨0, unallocated⟩

theorem createCudaDevice_starting {next : Nat} (creating : Creating env m next) :
    Starting env (createCudaDevice env m) 0 0 false := by
  rw [createCudaDevice]
  split
  · rename_i enabled
    split
    · exact creating.starting
    split
    · exact creating.starting
    have absent : .cuda ∉ live m := fun present => nomatch creating.cuda.symm.trans present
    have made := creating.starting.sound.books.make (creating.fresh absent)
    refine ⟨{ creating.starting.sound with
      books := ?_, cuda_counted := fun _ => Nat.one_pos, cuda_built := ?_ }, ?_,
      creating.starting.stopped⟩
    · have isLive : live { (m.note (.made .cuda)).setCudaStarted 1 with cudaDevice := true } =
          insert .cuda (live m) := by
        refine Set.ext fun device => ?_
        rcases device with _ | _ <;> simp [live, slot, note, setCudaStarted]
      rw [isLive, running_none]
      exact running_none (m := m) ▸ made
    · simp_all
    · simpa [note, setCudaStarted] using creating.starting.unjoined
  · exact creating.starting

/-! ## Starting the threads -/

theorem Sound.destroyUnstartedGpuDevices (sound : Sound env m 0 hi 0 false) :
    let m' := destroyUnstartedGpuDevices env m
    Sound env m' 0 hi 0 false ∧ (∀ i, m'.slot i = none) ∧ m'.cudaDevice = false := by
  have cleared : ∃ m', (if env.openclBuild then
        ((List.range m.miner.openclStarted).foldl Lifecycle.destroySlot m).setOpenclStarted 0
      else m) = m' ∧ Sound env m' 0 hi 0 false ∧ ∀ i, m'.slot i = none := by
    refine ⟨_, rfl, ?_⟩
    split
    · obtain ⟨sound', empty, -⟩ := sound.clearSlots (fun _ => slot_destroySlot)
        (fun _ => miner_destroySlot) (fun _ => cudaDevice_destroySlot)
        fun m' i sound' _ => sound'.destroySlot i.zero_le
      exact ⟨sound'.setOpenclStarted empty 0, empty⟩
    · rename_i off
      exact ⟨sound, sound.opencl_built (Bool.eq_false_iff.mpr off)⟩
  obtain ⟨m', isCleared, sound', empty⟩ := cleared
  simp only [Lifecycle.destroyUnstartedGpuDevices, isCleared]
  split
  · rcases present : m'.cudaDevice with _ | _
    · exact ⟨sound'.setCudaStarted present 0, empty, present⟩
    · exact ⟨(sound'.destroyCuda present).setCudaStarted rfl 0, empty, rfl⟩
  · rename_i off
    exact ⟨sound', empty, sound'.cuda_built (Bool.eq_false_iff.mpr off)⟩

/-- **The first clean-up path: the threads started so far are joined.** -/
theorem stopPartially_closed (sound : Sound env m 0 hi 0 false) :
    Closed (stopPartiallyStartedCpuThreads env m hi) := by
  obtain ⟨sound', empty, gone⟩ := sound.destroyUnstartedGpuDevices
  have use : InUse env (((destroyUnstartedGpuDevices env m).setThreadCount hi).setStarted true) 0 false := by
    refine ⟨{ sound' with }, fun i device filled => ?_, fun present => ?_, rfl⟩
    · exact nomatch (empty i).symm.trans filled
    · exact nomatch gone.symm.trans present
  exact use.minerStop

/-- Either all CPU threads are started, or everything is taken back. -/
theorem startCpuThreads (starting : Starting env m 0 0 false) (requested : Nat) :
    (∀ m', (List.range requested).foldlM (startCpuThread env) (m.setThreadCount 0) = .error m' →
        Closed m') ∧
      ∀ m', (List.range requested).foldlM (startCpuThread env) (m.setThreadCount 0) = .ok m' →
        Starting env m' requested 0 false ∧ m'.miner.threadCount = requested := by
  refine foldlM_range_rule (startCpuThread env)
    (fun i m' => Starting env m' i 0 false ∧ m'.miner.threadCount = i) Closed
    (s := m.setThreadCount 0) ⟨⟨{ starting.sound with }, starting.unjoined, starting.stopped⟩, rfl⟩ requested ?_
  rintro i m' - ⟨starting', -⟩
  have partly : Sound env (m'.setThreadCount (i + 1)) 0 i 0 false := { starting'.sound with }
  rw [startCpuThread]
  split
  · refine ⟨fun x ended => ?_, nofun⟩
    rw [← Except.error.inj ended]
    exact stopPartially_closed starting'.sound
  split
  · refine ⟨fun x ended => ?_, nofun⟩
    rw [← Except.error.inj ended]
    exact stopPartially_closed partly
  · refine ⟨nofun, fun m'' started => ?_⟩
    rw [← Except.ok.inj started]
    refine ⟨⟨partly.startCpu starting'.unjoined, ?_, starting'.stopped⟩, rfl⟩
    simpa [note, setThreadCount] using starting'.unjoined

/-- **The second clean-up path: a device whose thread could not be started.** -/
theorem Starting.dropSlot (starting : Starting env m hi g c) :
    Starting env (destroySlot m g) hi (g + 1) c := by
  have sound := starting.sound.destroySlot (i := g) le_rfl
  have empty : (destroySlot m g).slot g = none := by rw [slot_destroySlot, Function.update_self]
  refine ⟨sound.skipSlot empty, fun worker => ?_, ?_⟩
  · rcases filled : m.slot g with _ | device
    · simpa only [destroySlot, filled] using starting.unjoined worker
    · simpa [log_destroySlot filled] using starting.unjoined worker
  · rw [miner_destroySlot]
    exact starting.stopped

theorem startOpenclWorkers (starting : Starting env m hi 0 c) :
    let r := (List.range m.miner.openclStarted).foldl (startOpenclWorker env) (m, 0)
    Starting env r.1 hi m.miner.openclStarted c ∧ r.1.miner = m.miner ∧
      (0 < r.2 ↔ ∃ i device, i < m.miner.openclStarted ∧ r.1.slot i = some device) := by
  refine foldl_range_rule (startOpenclWorker env)
    (fun i r => Starting env r.1 hi i c ∧ r.1.miner = m.miner ∧
      (0 < r.2 ↔ ∃ j device, j < i ∧ r.1.slot j = some device))
    ⟨starting, rfl, by simp⟩ m.miner.openclStarted ?_
  rintro i ⟨m', openclRunning⟩ - ⟨starting', isMiner, used⟩
  simp only at starting' isMiner used
  have dropped : Starting env (destroySlot m' i) hi (i + 1) c ∧
      (destroySlot m' i).miner = m.miner ∧
      (0 < openclRunning ↔ ∃ j device, j < i + 1 ∧ (destroySlot m' i).slot j = some device) := by
    refine ⟨starting'.dropSlot, (miner_destroySlot i).trans isMiner, used.trans ?_⟩
    rw [slot_destroySlot]
    constructor
    · rintro ⟨j, device, below, filled⟩
      exact ⟨j, device, by omega, by rw [Function.update_of_ne below.ne, filled]⟩
    · rintro ⟨j, device, below, filled⟩
      rcases eq_or_ne j i with rfl | other
      · simp at filled
      · rw [Function.update_of_ne other] at filled
        exact ⟨j, device, by omega, filled⟩
  rw [startOpenclWorker]
  split
  · rename_i empty
    refine ⟨⟨starting'.sound.skipSlot empty, starting'.unjoined, starting'.stopped⟩, isMiner,
      used.trans ?_⟩
    constructor
    · rintro ⟨j, device, below, filled⟩
      exact ⟨j, device, by omega, filled⟩
    · rintro ⟨j, device, below, filled⟩
      have other : j ≠ i := fun same => by simp [same, empty] at filled
      exact ⟨j, device, by omega, filled⟩
  rename_i device filled
  split
  · exact dropped
  split
  · exact dropped
  · refine ⟨⟨starting'.sound.startSlot starting'.unjoined filled, ?_, starting'.stopped⟩, isMiner,
      fun _ => ⟨i, device, Nat.lt_succ_self i, filled⟩, fun _ => Nat.succ_pos _⟩
    simpa [note] using starting'.unjoined

/-- **The third: a CUDA device whose thread could not be started.** -/
theorem startCudaWorker_starting (starting : Starting env m hi g false) :
    let r := startCudaWorker env m
    Starting env r.1 hi g r.2 ∧ r.1.slot = m.slot ∧
      r.1.miner.threadCount = m.miner.threadCount ∧ r.1.cudaDevice = r.2 := by
  simp only [startCudaWorker]
  rcases present : m.cudaDevice with _ | _
  · simp only [Bool.and_false, Bool.false_eq_true, if_false]
    exact ⟨starting, trivial, trivial, present⟩
  simp only [starting.sound.cuda_counted present, decide_true, Bool.and_true, if_true]
  have dropped : Starting env ((destroyCuda m).setCudaStarted 0) hi g false := by
    refine ⟨(starting.sound.destroyCuda present).setCudaStarted rfl 0, ?_, starting.stopped⟩
    simpa [destroyCuda, setCudaStarted, note] using starting.unjoined
  split
  · exact ⟨dropped, rfl, rfl, rfl⟩
  split
  · exact ⟨dropped, rfl, rfl, rfl⟩
  · refine ⟨⟨starting.sound.startCuda starting.unjoined present, ?_, starting.stopped⟩, rfl, rfl,
      present⟩
    simpa [note] using starting.unjoined

/-! ## The stages of a start -/

/-- The early return: no CPU thread was requested and no device was made. -/
theorem Starting.closed (starting : Starting env m 0 0 false)
    (noOpencl : env.openclBuild = false ∨ m.miner.openclStarted = 0)
    (noCuda : env.cudaBuild = false ∨ m.miner.cudaStarted = 0) : Closed m := by
  have sound := starting.sound
  refine sound.closed le_rfl (fun i => ?_) ?_ starting.stopped
  · rcases noOpencl with off | none
    · exact sound.opencl_built off i
    · rcases filled : m.slot i with _ | device
      · rfl
      · have := sound.counted i device filled
        omega
  · rcases noCuda with off | none
    · exact sound.cuda_built off
    · by_contra present
      have := sound.cuda_counted (Bool.eq_true_of_not_eq_false present)
      omega

/-- One thread for each filled slot. -/
theorem openclStage (starting : Starting env m hi 0 false) :
    ∃ m' openclRunning g, (if env.openclBuild then
        (List.range m.miner.openclStarted).foldl (startOpenclWorker env) (m, 0)
      else (m, 0)) = (m', openclRunning) ∧ Starting env m' hi g false ∧
      m'.miner.threadCount = m.miner.threadCount ∧ (∀ i device, m'.slot i = some device → i < g) ∧
      (0 < openclRunning ↔ ∃ i device, i < g ∧ m'.slot i = some device) := by
  rcases built : env.openclBuild with _ | _
  · have empty := starting.sound.opencl_built built
    exact ⟨m, 0, 0, rfl, starting, rfl, by simp [empty], by simp⟩
  · obtain ⟨starting', isMiner, used⟩ := startOpenclWorkers starting
    refine ⟨_, _, _, rfl, starting', by rw [isMiner], fun i device filled => ?_, used⟩
    rw [← isMiner]
    exact starting'.sound.counted i device filled

theorem cudaStage (starting : Starting env m hi g false) :
    ∃ m' cudaRunning, (if env.cudaBuild then startCudaWorker env m else (m, false)) =
      (m', cudaRunning) ∧ Starting env m' hi g cudaRunning ∧ m'.slot = m.slot ∧
      m'.miner.threadCount = m.miner.threadCount ∧ m'.cudaDevice = cudaRunning := by
  rcases built : env.cudaBuild with _ | _
  · exact ⟨m, false, rfl, starting, rfl, rfl, starting.sound.cuda_built built⟩
  · exact ⟨_, _, rfl, startCudaWorker_starting starting⟩

/-- A miner with its threads started, once `started` is set. -/
theorem Starting.inUse (starting : Starting env m hi g c) (isCount : m.miner.threadCount = hi)
    (used : ∀ i device, m.slot i = some device → i < g) (cuda : m.cudaDevice = true → c = true) :
    InUse env (m.setStarted true) g c := by
  have sound : Sound env (m.setStarted true) 0 hi g c := { starting.sound with }
  exact ⟨isCount ▸ sound, used, cuda, rfl⟩

/-- A miner whose start failed is empty; one whose start succeeded has a thread running. -/
def Left (env : Environment) (r : Resources × Int) : Prop :=
  (r.2 = -1 ∧ Closed r.1) ∨
    (r.2 = 0 ∧ ∃ g c, InUse env r.1 g c ∧
      ∃ worker resource, (worker, resource) ∈ running r.1 0 r.1.miner.threadCount g c)

end Steps

/-- What `miner_start` leaves behind, however it ends. -/
theorem minerStart_left (env : Environment) (threadCount : Int) :
    Left env (minerStart env (created threadCount)) := by
  obtain ⟨next, creating⟩ := createOpenclDevices_creating env threadCount
  have starting := createCudaDevice_starting creating
  simp only [minerStart]
  rw [if_neg (by simp [created, minerCreate])]
  generalize (created threadCount).miner.threadCount = requested at *
  generalize createCudaDevice env (createOpenclDevices env (created threadCount)) = m at *
  clear creating
  split
  · rename_i nothing
    simp only [Bool.and_eq_true, Bool.or_eq_true, Bool.not_eq_true', decide_eq_true_eq] at nothing
    obtain ⟨⟨-, noOpencl⟩, noCuda⟩ := nothing
    exact .inl ⟨rfl, starting.closed noOpencl noCuda⟩
  rename_i something
  have cpus := startCpuThreads starting requested
  split
  · rename_i m₁ ended
    exact .inl ⟨rfl, cpus.1 m₁ ended⟩
  rename_i m₁ started
  obtain ⟨starting₁, isCount₁⟩ := cpus.2 m₁ started
  obtain ⟨m₂, openclRunning, g, isOpencl, starting₂, isCount₂, below, used⟩ := openclStage starting₁
  rw [isOpencl]
  simp only
  split
  · rename_i idle
    simp only [Bool.and_eq_true, Bool.not_eq_true', decide_eq_true_eq] at idle
    have use := starting₂.inUse (isCount₂.trans isCount₁) below fun present =>
      absurd present (by simp [starting₂.sound.cuda_built idle.1.1.2])
    exact .inl ⟨rfl, use.minerStop⟩
  rename_i busy
  obtain ⟨m₃, cudaRunning, isCuda, starting₃, isSlots, isCount₃, isDevice⟩ := cudaStage starting₂
  rw [isCuda]
  simp only
  rw [← isSlots] at used below
  have isCount : m₃.miner.threadCount = requested := isCount₃.trans (isCount₂.trans isCount₁)
  split
  · rename_i idle
    simp only [Bool.and_eq_true, Bool.not_eq_true', decide_eq_true_eq] at idle
    obtain ⟨⟨⟨-, noCpu⟩, noOpencl⟩, noCuda⟩ := idle
    refine .inl ⟨rfl, starting₃.sound.closed (by omega) (fun i => ?_) (isDevice.trans noCuda)
      starting₃.stopped⟩
    rcases filled : m₃.slot i with _ | device
    · rfl
    · have := used.mpr ⟨i, device, below i device filled, filled⟩
      omega
  rename_i busy'
  have use := starting₃.inUse isCount below fun present => isDevice.symm.trans present
  refine .inr ⟨rfl, g, cudaRunning, use, ?_⟩
  -- Every build checks one of the three kinds of workers before it reports success.
  have some : 0 < requested ∨ 0 < openclRunning ∨ cudaRunning = true := by
    by_contra none
    obtain ⟨noCpu, noOpencl, noCuda⟩ : requested = 0 ∧ openclRunning = 0 ∧ cudaRunning = false := by
      simpa using none
    rcases cudaBuilt : env.cudaBuild with _ | _
    · rcases openclBuilt : env.openclBuild with _ | _
      · simp [cudaBuilt, openclBuilt, noCpu] at something
      · simp [cudaBuilt, openclBuilt, isCount₂.trans isCount₁, noCpu, noOpencl] at busy
    · simp [cudaBuilt, isCount, noCpu, noOpencl, noCuda] at busy'
  rcases some with cpu | opencl | cuda
  · exact ⟨.cpu 0, none, Nat.zero_le 0, isCount ▸ cpu⟩
  · obtain ⟨i, device, isBelow, filled⟩ := used.mp opencl
    exact ⟨.opencl i, some (.opencl device), isBelow, filled⟩
  · exact ⟨.cuda, some .cuda, cuda, isDevice.trans cuda⟩

/-! ## The whole life -/

/-- Destroying a stopped miner only frees it. -/
theorem minerDestroy_closed {env : Environment} {m : Resources} (closed : Closed (minerStop env m)) :
    (minerDestroy env m).log = (minerStop env m).log ++ [.freed] ∧
      Books (minerDestroy env m).log ∅ ∅ := by
  have isLog : (minerDestroy env m).log = (minerStop env m).log ++ [.freed] := by
    simp [minerDestroy, closed.cuda, note]
  exact ⟨isLog, isLog ▸ closed.books.free⟩

/-- A failed start has stopped everything itself, so that the stop has nothing to do. -/
theorem Left.minerStop {env : Environment} {r : Resources × Int} (left : Left env r) :
    Closed (minerStop env r.1) := by
  rcases left with ⟨-, closed⟩ | ⟨-, g, c, use, -⟩
  · simpa [Lifecycle.minerStop, closed.stopped] using closed
  · exact use.minerStop

/-- **For every build, every number of CPU threads and of devices and every pattern of
failures: after a start, successful or not, and a destroy, every thread was joined once
and every device destroyed once, a device after the thread that used it and the miner
after all of them.  A start that returns 0 leaves a thread running.** -/
theorem started_then_destroyed (env : Environment) (threadCount : Int) :
    let started := minerStart env (created threadCount)
    let log := (minerDestroy env started.1).log
    ((joinedOf log).Perm (startedOf log) ∧ (joinedOf log).Nodup) ∧
    ((destroyedOf log).Perm (madeOf log) ∧ (destroyedOf log).Nodup) ∧
    (∀ before after device, log = before ++ .destroyed device :: after →
      ∀ worker, .started worker (some device) ∈ log → .joined worker ∈ before) ∧
    (∃ before, log = before ++ [.freed] ∧
      ∀ worker resource, .started worker resource ∈ log → .joined worker ∈ before) ∧
    (started.2 = 0 → ∃ worker ∈ startedOf started.1.log, worker ∉ joinedOf started.1.log) := by
  have left := minerStart_left env threadCount
  generalize minerStart env (created threadCount) = started at left
  obtain ⟨isLog, books⟩ := minerDestroy_closed left.minerStop
  refine ⟨⟨books.joined_perm, books.nodup_joined⟩, ⟨books.destroyed_perm, books.nodup_destroyed⟩,
    fun before after device split => books.joined_before_destroyed split,
    ⟨_, isLog, fun worker resource isStarted => ?_⟩, fun succeeded => ?_⟩
  · rw [isLog] at isStarted
    exact books.joined_before_freed isLog worker resource (by simpa using isStarted)
  · rcases left with ⟨failed, -⟩ | ⟨-, g, c, use, worker, resource, runs⟩
    · rw [failed] at succeeded
      exact absurd succeeded (by decide)
    · obtain ⟨isStarted, unjoined⟩ := (use.sound.books.consistent.running_iff worker resource).mp runs
      exact ⟨worker, mem_startedOf.mpr ⟨resource, isStarted⟩, fun joined =>
        unjoined (mem_joinedOf.mp joined)⟩

/-- The second CPU thread fails: the devices, which have no thread yet, are destroyed first. -/
example :
    let env : Environment := {
      openclBuild := true, cudaBuild := true, openclEnabled := true, cudaEnabled := true
      resolvedCount := 2, openclAllocated := true, openclSelfTest := fun i => i != 0
      openclCreate := fun _ => true, cudaSelfTest := true, cudaCreate := true
      cpuArg := fun _ => true, cpuThread := fun i => i != 1, openclArg := fun _ => true
      openclThread := fun _ => true, cudaArg := true, cudaThread := true }
    (minerDestroy env (minerStart env (created 2)).1).log =
      [.made (.opencl 1), .made .cuda, .started (.cpu 0) none, .destroyed (.opencl 1),
        .destroyed .cuda, .joined (.cpu 0), .freed] := by
  decide

end BtcRig.Mining.Lifecycle
