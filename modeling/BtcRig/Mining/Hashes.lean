/-
# BtcRig.Mining.Hashes — starting the workers and counting what they hash

`miner_start` creates the threads; an OpenCL device whose thread cannot be created
leaves an empty slot.  From there on every completed range that is still current
adds its length to the miner's total and to one counter of its worker.

* `Accounts` is the invariant: the total is the sum of all counters, and it is the
  sum over the ledger's counted ranges;
* `hashes_accounted`: so the snapshot, which skips empty slots, adds up too.
-/
import BtcRig.Mining.Ledger

namespace BtcRig.Mining.Hashes

open BtcRig.Theory
open BtcRig.Theory.Words
open BtcRig.Mining.Job
open BtcRig.Mining.State
open BtcRig.Mining.Workers
open BtcRig.Mining.Nonces
open BtcRig.Mining.Ledger

set_option autoImplicit false

/-! ## Starting -/

/-- What `miner_start` asks for, and how each step that can fail turns out. -/
structure StartOutcome where
  requestedCpuThreads : Nat
  /-- Is the argument of CPU thread `i` allocated and the thread created? -/
  cpuThread : Nat → Bool
  /-- For each resolved device: does it pass its self-test, and is it created? -/
  openclResolved : List Bool
  openclThread : Nat → Bool
  cudaDevice : Bool
  cudaThread : Bool

/-- A started miner, with the fields that say which device slots are in use. -/
structure Fleet where
  miner : Miner
  openclDevices : List Bool
  cudaDevice : Bool

/-- The loop that creates CPU threads; `thread_count` goes up before each creation,
and a failure stops the threads again. -/
def startCpuThreads (create : Nat → Bool) : Nat → Nat → Option Nat
  | threadCount, 0 => some threadCount
  | threadCount, n + 1 =>
      if create threadCount then startCpuThreads create (threadCount + 1) n else none

def minerStart (o : StartOutcome) : Option Fleet :=
  let openclStarted := o.openclResolved.count true
  let cudaStarted := if o.cudaDevice then 1 else 0
  if o.requestedCpuThreads ≤ 0 && openclStarted ≤ 0 && cudaStarted ≤ 0 then none
  else
    match startCpuThreads o.cpuThread 0 o.requestedCpuThreads with
    | none => none
    | some threadCount =>
        -- a slot whose thread fails is emptied, `opencl_started` stays
        let openclDevices := (List.range openclStarted).map o.openclThread
        let openclRunning := openclDevices.count true
        let cudaRunning := if cudaStarted > 0 && o.cudaThread then 1 else 0
        if threadCount ≤ 0 && openclRunning ≤ 0 && cudaRunning ≤ 0 then none
        else some {
          miner := minerStarted threadCount openclStarted cudaRunning
          openclDevices := openclDevices
          cudaDevice := decide (cudaRunning > 0) }

/-- The threads that were created. -/
def Fleet.Runs (fleet : Fleet) : WorkerId → Prop
  | .cpu id => id < fleet.miner.threadCount
  | .opencl id => fleet.openclDevices[id]? = some true
  | .cuda => fleet.cudaDevice = true

def Fleet.system (fleet : Fleet) : System where
  miner := fleet.miner
  workers := fun _ => .top

/-- The event is one of a thread that was created, or none of a worker's. -/
def RunBy (fleet : Fleet) (e : Event) : Prop := ∀ w batch scan, e = .worker w batch scan → fleet.Runs w

/-! ## Reading the counters -/

def openclInUse (fleet : Fleet) (i : Nat) : Bool := fleet.openclDevices[i]? == some true

def minerThreadCount (fleet : Fleet) (miner : Miner) : Nat :=
  let openclCount := (List.range miner.openclStarted).countP (openclInUse fleet)
  let cudaCount := if miner.cudaStarted > 0 && fleet.cudaDevice then 1 else 0
  miner.threadCount + openclCount + cudaCount

/-- The return value and the values written to `out`. -/
def minerSnapshotThreadHashes (fleet : Fleet) (miner : Miner) (maxCount : Int) :
    Nat × List (BitVec 64) :=
  if maxCount ≤ 0 then (0, [])
  else
    let count := min (minerThreadCount fleet miner) maxCount.toNat
    let cpuCount := min miner.threadCount count
    let out := (List.range cpuCount).map miner.threadHashes
    let out := (List.range miner.openclStarted).foldl (fun out i =>
      if out.length < count && openclInUse fleet i then out ++ [miner.openclHashes i] else out) out
    let out :=
      if miner.cudaStarted > 0 && fleet.cudaDevice && out.length < count then out ++ [miner.cudaHashes]
      else out
    (count, out)

/-- The sum of the first `n` counters. -/
def total (n : Nat) (counters : Nat → BitVec 64) : BitVec 64 := ((List.range n).map counters).sum

/-! ## Sums of counters -/

theorem total_succ (n : Nat) (counters : Nat → BitVec 64) :
    total (n + 1) counters = total n counters + counters n := by
  simp [total, List.range_succ]

theorem total_zero {n : Nat} {counters : Nat → BitVec 64} (zero : ∀ i < n, counters i = 0) :
    total n counters = 0 := by
  induction n with
  | zero => rfl
  | succ n ih => rw [total_succ, ih fun i less => zero i (by omega), zero n (by omega), add_zero]

/-- Raising one of the counters raises the sum. -/
theorem total_update {n i : Nat} (inside : i < n) (counters : Nat → BitVec 64) (value : BitVec 64) :
    total n (Function.update counters i (counters i + value)) = total n counters + value := by
  induction n with
  | zero => omega
  | succ n ih =>
      rw [total_succ, total_succ]
      by_cases last : i = n
      · have below : total n (Function.update counters i (counters i + value)) = total n counters := by
          rw [total, total]
          refine congrArg List.sum (List.map_congr_left fun j less => ?_)
          rw [Function.update_of_ne (by have := List.mem_range.mp less; omega)]
        rw [below, last, Function.update_self, add_assoc]
      · rw [ih (by omega), Function.update_of_ne (Ne.symm last), add_right_comm]

/-- Empty slots count nothing. -/
theorem total_filter (n : Nat) (counters : Nat → BitVec 64) (inUse : Nat → Bool)
    (empty : ∀ i, inUse i = false → counters i = 0) :
    (((List.range n).filter inUse).map counters).sum = total n counters := by
  induction n with
  | zero => rfl
  | succ n ih =>
      rw [List.range_succ, List.filter_append, List.map_append, List.sum_append, ih, total_succ]
      cases used : inUse n with
      | true => simp [used]
      | false => simp [used, empty n used]

/-! ## The ledger and the total -/

/-- The ranges a worker has open. -/
def openCounts (w : WorkerId) (ledger : List Entry) : List Word :=
  (ledger.filter fun x => x.worker = w ∧ x.fate = .scanning).map Entry.count

/-- The hashes of the counted ranges. -/
def contributed (ledger : List Entry) : BitVec 64 :=
  ((ledger.filter fun x => x.fate = .counted).map fun x => x.count.setWidth 64).sum

theorem openCounts_append (w : WorkerId) (ledger : List Entry) (x : Entry) :
    openCounts w (ledger ++ [x]) =
      openCounts w ledger ++ if x.worker = w ∧ x.fate = .scanning then [x.count] else [] := by
  rw [openCounts, List.filter_append, List.map_append]
  by_cases is : x.worker = w ∧ x.fate = .scanning <;> simp [openCounts, is]

theorem contributed_append_open (ledger : List Entry) (w : WorkerId) (start count : Word) :
    contributed (ledger ++ [⟨w, start, count, .scanning⟩]) = contributed ledger := by
  simp [contributed, List.filter_append]

theorem openCounts_settle {fate : Fate} (ended : fate ≠ .scanning) (w w' : WorkerId)
    (ledger : List Entry) :
    openCounts w' (settle w fate ledger) = if w' = w then [] else openCounts w' ledger := by
  induction ledger with
  | nil => simp [openCounts, settle]
  | cons x ledger ih =>
      have step_ : openCounts w' (settle w fate (x :: ledger)) =
          (if x.worker = w' ∧ x.fate = .scanning ∧ x.worker ≠ w then [x.count] else []) ++
            openCounts w' (settle w fate ledger) := by
        by_cases mine : x.worker = w ∧ x.fate = .scanning
        · simp [openCounts, settle, mine, ended]
        · by_cases theirs : x.worker = w' ∧ x.fate = .scanning
          · have other : w' ≠ w := fun same => mine ⟨theirs.1.trans same, theirs.2⟩
            simp [openCounts, settle, theirs, other]
          · by_cases named : x.worker = w'
            · have closed : x.fate ≠ .scanning := fun is => theirs ⟨named, is⟩
              simp [openCounts, settle, closed]
            · simp [openCounts, settle, named, mine]
      rw [step_, ih]
      by_cases same : w' = w
      · subst same
        have none_ : ¬(x.worker = w' ∧ x.fate = .scanning ∧ x.worker ≠ w') := fun is => is.2.2 is.1
        rw [if_neg none_, if_pos rfl, if_pos rfl]
        rfl
      · by_cases theirs : x.worker = w' ∧ x.fate = .scanning
        · simp [openCounts, theirs, same]
        · have not_ : ¬(x.worker = w' ∧ x.fate = .scanning ∧ x.worker ≠ w) := fun is => theirs ⟨is.1, is.2.1⟩
          simp [openCounts, theirs, same, not_]

theorem contributed_settle (fate : Fate) (w : WorkerId) (ledger : List Entry) :
    contributed (settle w fate ledger) = contributed ledger +
      if fate = .counted then ((openCounts w ledger).map fun n => n.setWidth 64).sum else 0 := by
  induction ledger with
  | nil => simp [contributed, settle, openCounts]
  | cons x ledger ih =>
      have head : contributed (settle w fate (x :: ledger)) =
          (if x.worker = w ∧ x.fate = .scanning then if fate = .counted then x.count.setWidth 64 else 0
            else if x.fate = .counted then x.count.setWidth 64 else 0) +
            contributed (settle w fate ledger) := by
        by_cases mine : x.worker = w ∧ x.fate = .scanning
        · by_cases counted : fate = .counted <;> simp [contributed, settle, mine, counted]
        · by_cases counted : x.fate = .counted <;> simp [contributed, settle, mine, counted]
      have old : contributed (x :: ledger) =
          (if x.fate = .counted then x.count.setWidth 64 else 0) + contributed ledger := by
        by_cases counted : x.fate = .counted <;> simp [contributed, counted]
      have opens : openCounts w (x :: ledger) =
          (if x.worker = w ∧ x.fate = .scanning then [x.count] else []) ++ openCounts w ledger := by
        by_cases mine : x.worker = w ∧ x.fate = .scanning <;> simp [openCounts, mine]
      rw [head, ih, old, opens]
      by_cases mine : x.worker = w ∧ x.fate = .scanning
      · by_cases counted : fate = .counted
        · simp only [mine, counted, and_self, if_true, reduceCtorEq, if_false, zero_add,
            List.singleton_append, List.map_cons, List.sum_cons]
          rw [add_left_comm]
        · simp [mine, counted]
      · simp [mine, add_assoc]

/-! ## The accounts -/

/-- The counters of every worker together. -/
def counted (miner : Miner) : BitVec 64 :=
  total miner.threadCount miner.threadHashes + total miner.openclStarted miner.openclHashes +
    miner.cudaHashes

structure Accounts (fleet : Fleet) (s : System) (ledger : List Entry) : Prop where
  threadCount : s.miner.threadCount = fleet.miner.threadCount
  openclStarted : s.miner.openclStarted = fleet.miner.openclStarted
  cudaStarted : s.miner.cudaStarted = fleet.miner.cudaStarted
  booked : ∀ w, openCounts w ledger = (Phase.busy (s.workers w)).toList
  ranges : s.miner.hashes = contributed ledger
  workers : s.miner.hashes = counted s.miner
  emptySlots : ∀ i, openclInUse fleet i = false → s.miner.openclHashes i = 0
  noCuda : fleet.cudaDevice = false → s.miner.cudaHashes = 0

/-- A fleet as `miner_start` leaves it. -/
structure Fleet.Good (fleet : Fleet) : Prop where
  slots : fleet.openclDevices.length = fleet.miner.openclStarted
  cuda : fleet.cudaDevice = true ↔ 0 < fleet.miner.cudaStarted
  some_ : 0 < minerThreadCount fleet fleet.miner
  fresh : ∃ threads opencl cuda, fleet.miner = minerStarted threads opencl cuda

theorem counted_same {miner miner' : Miner} (same : SameCounters miner miner') :
    counted miner' = counted miner := by
  rw [counted, counted, same.threadCount, same.threadHashes, same.openclStarted,
    same.openclHashes, same.cudaHashes]

/-- Nothing was counted. -/
theorem Accounts.frame {fleet : Fleet} {s s' : System} {ledger ledger' : List Entry}
    (inv : Accounts fleet s ledger) (same : SameCounters s.miner s'.miner)
    (booked : ∀ w, openCounts w ledger' = (Phase.busy (s'.workers w)).toList)
    (contributed' : contributed ledger' = contributed ledger) : Accounts fleet s' ledger' where
  threadCount := same.threadCount.trans inv.threadCount
  openclStarted := same.openclStarted.trans inv.openclStarted
  cudaStarted := same.cudaStarted.trans inv.cudaStarted
  booked := booked
  ranges := by rw [same.hashes, inv.ranges, contributed']
  workers := by rw [same.hashes, inv.workers, counted_same same]
  emptySlots := by rw [same.openclHashes]; exact inv.emptySlots
  noCuda := by rw [same.cudaHashes]; exact inv.noCuda

/-- One current range of a running worker: the total and the worker's counter go up
together. -/
theorem countHashes_current {fleet : Fleet} {miner : Miner} {w : WorkerId} {job : ActiveJob}
    (good : fleet.Good) (runs : fleet.Runs w)
    (threads : miner.threadCount = fleet.miner.threadCount)
    (opencl : miner.openclStarted = fleet.miner.openclStarted)
    (current : scanResultStillCurrentLocked miner job = true) (count : Word) :
    (countHashes miner w job count).hashes = miner.hashes + count.setWidth 64 ∧
      counted (countHashes miner w job count) = counted miner + count.setWidth 64 ∧
      (∀ i, openclInUse fleet i = false →
        (countHashes miner w job count).openclHashes i = miner.openclHashes i) ∧
      (fleet.cudaDevice = false → (countHashes miner w job count).cudaHashes = miner.cudaHashes) := by
  cases w with
  | cpu id =>
      have inside : id < miner.threadCount := threads ▸ runs
      simp only [countHashes, current, if_true, inside]
      refine ⟨trivial, ?_, fun _ _ => trivial, fun _ => trivial⟩
      simp only [counted, total_update inside]
      rw [add_right_comm (total _ _), add_right_comm _ (count.setWidth 64)]
  | opencl id =>
      have slot : id < fleet.openclDevices.length := (List.getElem?_eq_some_iff.mp runs).1
      have inside : id < miner.openclStarted := by
        rw [opencl, ← good.slots]
        exact slot
      simp only [countHashes, current, if_true, inside]
      refine ⟨trivial, ?_, fun i unused => ?_, fun _ => trivial⟩
      · simp only [counted, total_update inside]
        rw [← add_assoc, add_right_comm _ (count.setWidth 64)]
      · have other : i ≠ id := by
          rintro rfl
          have used : openclInUse fleet i = true := beq_iff_eq.mpr runs
          cases unused.symm.trans used
        rw [Function.update_of_ne other]
  | cuda =>
      simp only [countHashes, current, if_true]
      refine ⟨trivial, ?_, fun _ _ => trivial, fun none_ => ?_⟩
      · simp only [counted, add_assoc]
      · cases none_.symm.trans runs

theorem accounts_effect {fleet : Fleet} (good : fleet.Good) {s s' : System} {e : Event}
    {ledger ledger' : List Entry} (runBy : RunBy fleet e) (effect : LedgerEffect s e ledger s' ledger')
    (inv : Accounts fleet s ledger) : Accounts fleet s' ledger' := by
  cases effect with
  | opened w start count p idle busy moved same =>
      refine inv.frame same (fun w' => ?_) (contributed_append_open ledger w start count)
      rw [openCounts_append, inv.booked, moved]
      by_cases mine : w' = w
      · subst mine
        simp [idle, busy]
      · simp [Function.update_of_ne mine, Ne.symm mine]
  | untouched busy same =>
      exact inv.frame same (fun w => by rw [inv.booked, busy]) rfl
  | settled w batch scan job count ok isEvent scanning moved counting =>
      have runs := runBy w batch scan isEvent
      have open_ : openCounts w ledger = [count] := by
        rw [inv.booked, scanning]
        rfl
      have booked : ∀ w', openCounts w' (settle w (endOf s.miner job ok) ledger) =
          (Phase.busy (s'.workers w')).toList := by
        intro w'
        rw [openCounts_settle (endOf_ne_scanning _ _ _), moved]
        by_cases mine : w' = w
        · subst mine
          rw [if_pos rfl, Function.update_self]
          rfl
        · rw [if_neg mine, Function.update_of_ne mine, inv.booked]
      have ranges := contributed_settle (endOf s.miner job ok) w ledger
      by_cases counts : endOf s.miner job ok = .counted
      · obtain ⟨succeeded, current⟩ := endOf_counted.mp counts
        rw [if_pos succeeded] at counting
        obtain ⟨hashes, sum, unused, noCuda⟩ :=
          countHashes_current good runs inv.threadCount inv.openclStarted current count
        obtain ⟨_, _, _, _, frame⟩ := countHashes_frame s.miner w job count
        have bounds : s'.miner.threadCount = s.miner.threadCount ∧
            s'.miner.openclStarted = s.miner.openclStarted ∧
            s'.miner.cudaStarted = s.miner.cudaStarted := by
          rw [counting, frame]
          exact ⟨rfl, rfl, rfl⟩
        rw [if_pos counts, open_] at ranges
        exact {
          threadCount := bounds.1.trans inv.threadCount
          openclStarted := bounds.2.1.trans inv.openclStarted
          cudaStarted := bounds.2.2.trans inv.cudaStarted
          booked := booked
          ranges := by rw [counting, hashes, ranges, inv.ranges]; simp
          workers := by rw [counting, hashes, sum, inv.workers]
          emptySlots := fun i empty => by
            rw [counting, unused i empty]
            exact inv.emptySlots i empty
          noCuda := fun none_ => by
            rw [counting, noCuda none_]
            exact inv.noCuda none_ }
      · -- a late or failed scan counts nothing
        have same : s'.miner = s.miner := by
          rw [counting]
          split
          · rename_i succeeded
            refine countHashes_late (Bool.eq_false_iff.mpr fun current => counts ?_) w count
            exact endOf_counted.mpr ⟨succeeded, current⟩
          · rfl
        rw [if_neg counts, add_zero] at ranges
        exact inv.frame (same ▸ .refl _) booked ranges

theorem accounts_run {fleet : Fleet} (good : fleet.Good) (es : List Event)
    (runBy : ∀ e ∈ es, RunBy fleet e) :
    Accounts fleet (run fleet.system es).1 (ledgerOf fleet.system es) := by
  refine book_invariant fleet.system
    (fun es s ledger _ => (∀ e ∈ es, RunBy fleet e) → Accounts fleet s ledger) ?_ ?_ es runBy
  · intro _
    obtain ⟨threads, opencl, cuda, isFresh⟩ := good.fresh
    have zeros : fleet.miner.hashes = 0 ∧ fleet.miner.threadHashes = (fun _ => 0) ∧
        fleet.miner.openclHashes = (fun _ => 0) ∧ fleet.miner.cudaHashes = 0 := by
      rw [isFresh]
      exact ⟨rfl, rfl, rfl, rfl⟩
    obtain ⟨hashes, threadHashes, openclHashes, cudaHashes⟩ := zeros
    exact {
      threadCount := rfl
      openclStarted := rfl
      cudaStarted := rfl
      booked := fun _ => rfl
      ranges := hashes
      workers := by
        simp only [Fleet.system, counted, hashes, threadHashes, openclHashes, cudaHashes,
          total_zero fun _ _ => rfl, add_zero]
      emptySlots := fun i _ => by simp only [Fleet.system, openclHashes]
      noCuda := fun _ => cudaHashes }
  · intro es e s ledger os ih runBy
    exact accounts_effect good (runBy e (by simp)) (ledger_effect s e ledger)
      (ih fun e' member => runBy e' (by simp [member]))

/-! ## What a start leaves -/

theorem countP_inUse (fleet : Fleet) :
    (List.range fleet.openclDevices.length).countP (openclInUse fleet) =
      fleet.openclDevices.count true := by
  have listed : fleet.openclDevices =
      (List.range fleet.openclDevices.length).map fun i => openclInUse fleet i := by
    apply List.ext_getElem (by simp)
    intro i inside inside'
    simp [openclInUse, List.getElem?_eq_getElem inside]
  conv_rhs => rw [listed]
  rw [List.count, List.countP_map]
  apply List.countP_congr
  intro i _
  simp

/-- **A successful start** leaves at least one worker and cleared counters. -/
theorem minerStart_good {o : StartOutcome} {fleet : Fleet} (started : minerStart o = some fleet) :
    fleet.Good := by
  unfold minerStart at started
  simp only at started
  generalize (if o.cudaDevice = true then 1 else 0) = cudaStarted at started
  generalize (if (decide (cudaStarted > 0) && o.cudaThread) = true then 1 else 0) = cudaRunning
    at started
  split at started
  · cases started
  · split at started
    · cases started
    · rename_i threadCount threads
      split at started
      · cases started
      · rename_i some_
        simp only [Bool.and_eq_true, decide_eq_true_eq, not_and] at some_
        obtain rfl := Option.some.inj started
        refine ⟨by simp [minerStarted], by simp [minerStarted], ?_, _, _, _, rfl⟩
        have slots := countP_inUse {
          miner := minerStarted threadCount (o.openclResolved.count true) cudaRunning
          openclDevices := (List.range (o.openclResolved.count true)).map o.openclThread
          cudaDevice := decide (cudaRunning > 0) }
        simp only [List.length_map, List.length_range] at slots
        show 0 < threadCount + (List.range (o.openclResolved.count true)).countP _ +
          if cudaRunning > 0 && decide (cudaRunning > 0) then 1 else 0
        rw [slots, Bool.and_self]
        by_cases running : cudaRunning > 0
        · simp [running]
        · have idle : cudaRunning ≤ 0 := not_lt.mp running
          have : ¬(threadCount ≤ 0 ∧ ((List.range (o.openclResolved.count true)).map
              o.openclThread).count true ≤ 0) := fun none_ => some_ none_ idle
          omega

/-! ## The snapshot -/

theorem snapshot_opencl (inUse : Nat → Bool) (counters : Nat → BitVec 64) (count : Nat)
    (slots : List Nat) (out : List (BitVec 64)) (room : out.length + slots.countP inUse ≤ count) :
    slots.foldl (fun out i => if out.length < count && inUse i then out ++ [counters i] else out) out =
      out ++ (slots.filter inUse).map counters := by
  induction slots generalizing out with
  | nil => simp
  | cons i slots ih =>
      cases used : inUse i with
      | true =>
          have room' : (out ++ [counters i]).length + slots.countP inUse ≤ count := by
            simp only [List.countP_cons, used, if_true, List.length_append, List.length_singleton]
              at room ⊢
            omega
          have less : out.length < count := by
            simp only [List.length_append, List.length_singleton] at room'
            omega
          simp only [List.foldl_cons, used, less, decide_true, Bool.and_self, if_true,
            List.filter_cons_of_pos, List.map_cons]
          rw [ih _ room', List.append_assoc]
          rfl
      | false =>
          have room' : out.length + slots.countP inUse ≤ count := by
            simpa [List.countP_cons, used] using room
          simp only [List.foldl_cons, used, Bool.and_false, Bool.false_eq_true, if_false]
          rw [ih _ room', List.filter_cons_of_neg (by simp [used])]

/-- With room for all of them the snapshot lists the counters of the workers in use. -/
theorem minerSnapshotThreadHashes_all (fleet : Fleet) (miner : Miner) {maxCount : Int}
    (some_ : 0 < minerThreadCount fleet miner) (room : (minerThreadCount fleet miner : Int) ≤ maxCount) :
    minerSnapshotThreadHashes fleet miner maxCount =
      (minerThreadCount fleet miner,
        (List.range miner.threadCount).map miner.threadHashes ++
          ((List.range miner.openclStarted).filter (openclInUse fleet)).map miner.openclHashes ++
          if miner.cudaStarted > 0 && fleet.cudaDevice then [miner.cudaHashes] else []) := by
  have clipped : min (minerThreadCount fleet miner) maxCount.toNat = minerThreadCount fleet miner := by
    omega
  have cpu : min miner.threadCount (minerThreadCount fleet miner) = miner.threadCount := by
    simp only [minerThreadCount]
    omega
  have count : minerThreadCount fleet miner = miner.threadCount +
      (List.range miner.openclStarted).countP (openclInUse fleet) +
        if miner.cudaStarted > 0 && fleet.cudaDevice then 1 else 0 := rfl
  unfold minerSnapshotThreadHashes
  rw [if_neg (by omega)]
  simp only [clipped, cpu]
  rw [snapshot_opencl _ _ _ _ _ (by simp only [List.length_map, List.length_range]; omega)]
  have length : ((List.range miner.threadCount).map miner.threadHashes ++
      ((List.range miner.openclStarted).filter (openclInUse fleet)).map miner.openclHashes).length =
      miner.threadCount + (List.range miner.openclStarted).countP (openclInUse fleet) := by
    simp [List.countP_eq_length_filter]
  cases cuda : (decide (miner.cudaStarted > 0) && fleet.cudaDevice) with
  | true =>
      rw [cuda, if_pos rfl] at count
      simp only [length, Bool.true_and, if_true]
      rw [if_pos (by simp only [decide_eq_true_eq]; omega)]
  | false =>
      simp only [Bool.false_and, Bool.false_eq_true, if_false, List.append_nil]

/-- **The counters add up.**  After a successful start with any mix of workers, some
OpenCL slots possibly empty, in every interleaving with job changes, pauses and scan
failures: the total is the sum of all counters; a snapshot with room for every worker
returns one value for each, and they add up to the total; and the total is the sum of
the lengths of some of the ranges handed out, each taken once. -/
theorem hashes_accounted (o : StartOutcome) (fleet : Fleet) (started : minerStart o = some fleet)
    (es : List Event) (runBy : ∀ e ∈ es, RunBy fleet e) :
    let miner := (run fleet.system es).1.miner
    let ledger := ledgerOf fleet.system es
    miner.hashes = total miner.threadCount miner.threadHashes +
        total miner.openclStarted miner.openclHashes + miner.cudaHashes ∧
      (∀ maxCount : Int, minerThreadCount fleet miner ≤ maxCount →
        (minerSnapshotThreadHashes fleet miner maxCount).1 = minerThreadCount fleet miner ∧
        (minerSnapshotThreadHashes fleet miner maxCount).2.length = minerThreadCount fleet miner ∧
        (minerSnapshotThreadHashes fleet miner maxCount).2.sum = miner.hashes) ∧
      ledger.map Entry.range = rangesOf (run fleet.system es).2 ∧
      miner.hashes = contributed ledger := by
  intro miner ledger
  have good := minerStart_good started
  have inv : Accounts fleet (run fleet.system es).1 ledger := accounts_run good es runBy
  have sameCount : minerThreadCount fleet miner = minerThreadCount fleet fleet.miner := by
    simp only [minerThreadCount, miner, inv.threadCount, inv.openclStarted, inv.cudaStarted]
  refine ⟨inv.workers, fun maxCount room => ?_, map_range_ledgerOf _ es, inv.ranges⟩
  rw [minerSnapshotThreadHashes_all fleet miner (sameCount ▸ good.some_) room]
  refine ⟨rfl, ?_, ?_⟩
  · simp only [List.length_append, List.length_map, List.length_range, minerThreadCount,
      List.countP_eq_length_filter]
    split <;> rfl
  · have cuda : (if miner.cudaStarted > 0 && fleet.cudaDevice then [miner.cudaHashes] else []).sum =
        miner.cudaHashes := by
      split
      · simp
      · rename_i unused
        have none_ : fleet.cudaDevice = false := by
          by_contra used
          have used := Bool.not_eq_false _ ▸ used
          have positive : 0 < miner.cudaStarted := inv.cudaStarted ▸ good.cuda.mp used
          exact unused (by simp [positive, used])
        exact (inv.noCuda none_).symm
    rw [List.sum_append, List.sum_append, cuda,
      total_filter miner.openclStarted miner.openclHashes (openclInUse fleet) inv.emptySlots]
    exact inv.workers.symm

/-- One CPU thread and two OpenCL devices, the first of them without a thread. -/
def twoDevices : StartOutcome where
  requestedCpuThreads := 1
  cpuThread := fun _ => true
  openclResolved := [true, true]
  openclThread := fun i => i == 1
  cudaDevice := false
  cudaThread := false

theorem hashes_accounted_example :
    let turn (w : WorkerId) : Event := .worker w 1000 fun _ _ _ _ _ => ([], true)
    let es := [.setJob zeroJob, turn (.cpu 0), turn (.opencl 1), turn (.opencl 1), turn (.cpu 0),
      turn (.opencl 1), turn (.cpu 0)]
    ∃ fleet, minerStart twoDevices = some fleet ∧
      (minerSnapshotThreadHashes fleet (run fleet.system es).1.miner 2).2 = [65536, 1000] ∧
      (run fleet.system es).1.miner.hashes = 66536 ∧
      (minerSnapshotThreadHashes fleet (run fleet.system es).1.miner 2).2.sum =
        (run fleet.system es).1.miner.hashes := by
  intro turn es
  refine ⟨_, rfl, by decide +kernel, by decide +kernel, ?_⟩
  refine ((hashes_accounted twoDevices _ rfl es ?_).2.1 2 (by decide +kernel)).2.2
  intro e member w batch scan isWorker
  simp only [es, turn, List.mem_cons, List.not_mem_nil, or_false] at member
  rcases member with rfl | rfl | rfl | rfl | rfl | rfl | rfl <;> cases isWorker <;>
    first
    | exact Nat.zero_lt_one
    | rfl

end BtcRig.Mining.Hashes
