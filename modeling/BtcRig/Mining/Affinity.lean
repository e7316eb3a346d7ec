/-
# BtcRig.Mining.Affinity — which CPU a worker thread is bound to

`cpu_info.c` lists the CPUs that sysfs shows as online and orders them by speed;
`miner_start` deals them out to its threads in that order, and starts over when there are
more threads than CPUs.

* `cpuInfoDetect_counts`: there is always a CPU, and no more of them than the table holds;
* `mem_affinityPlan`, `affinityPlan_found`: the plan holds the CPUs that were found, the fastest
  first;
* `affinityPlan_perm`: it does not depend on the order in which `readdir` lists the CPUs;
* `count_targetCpu`: two CPUs of the plan never differ by more than one thread.
-/
import BtcRig.Gpu.Backend
import BtcRig.Mining.Job
import Mathlib.Data.Int.CardIntervalMod
import Mathlib.Data.List.Sort

namespace BtcRig.Mining.Affinity

open BtcRig.Gpu.Backend (isSpace scanSign)
open BtcRig.Mining.Job (toInt)

set_option autoImplicit false

def cpuInfoMaxCpus : Nat := 256
def cpuInfoSiblingsSize : Nat := 64

structure CpuInfoEntry where
  id : Nat
  packageId : Int
  coreId : Int
  maxFreqKhz : Int
  capacity : Int
  threadSiblings : List Char
deriving DecidableEq

structure CpuInfo where
  logicalCount : Nat
  physicalCount : Nat
  hasSmt : Bool
  recommendedThreads : Nat
  entries : List CpuInfoEntry
  source : List Char

/-- What the system shows: the number of processors, the names in the directory of the CPUs
in the order of `readdir`, and the contents of the files. -/
structure Sysfs where
  processors : Int
  names : Option (List (List Char))
  file : List Char → Option (List Char)

/-! ## Reading the files -/

def sysconfOnlineCpus (sys : Sysfs) : Nat :=
  if sys.processors > 0 ∧ sys.processors ≤ cpuInfoMaxCpus then sys.processors.toNat else 1

/-- `id * 10 + digit`, until it leaves the table. -/
def parseCpuId : Nat → List Char → Option Nat
  | id, [] => some id
  | id, c :: text =>
      if !c.isDigit then none
      else
        let id := id * 10 + (c.toNat - '0'.toNat)
        if id ≥ cpuInfoMaxCpus then none else parseCpuId id text

def parseCpuDirName : List Char → Option Nat
  | 'c' :: 'p' :: 'u' :: c :: rest => if !c.isDigit then none else parseCpuId 0 (c :: rest)
  | _ => none

/-- One line with its end, as far as it fits, as the text up to the first NUL; `none` at the end
of the file. -/
def fgets (size : Nat) (content : List Char) : Option (List Char) :=
  if content = [] then none
  else
    let line := content.takeWhile (· ≠ '\n')
    let ended := if line.length < content.length then line ++ ['\n'] else line
    some ((ended.take (size - 1)).takeWhile (· ≠ Char.ofNat 0))

/-- In base 10, kept within a 64-bit `long`; `none` if no digit was read. -/
def strtol (text : List Char) : Option Int :=
  let (negative, text) := scanSign (text.dropWhile isSpace)
  let digits := text.takeWhile Char.isDigit
  if digits = [] then none
  else
    let number : Int := Nat.ofDigitChars 10 digits 0
    some (max (-2 ^ 63) (min (2 ^ 63 - 1) (if negative then -number else number)))

def readLongFile (sys : Sysfs) (path : List Char) : Option Int :=
  (sys.file path).bind fun content => (fgets 64 content).bind strtol

def trailing (c : Char) : Bool := c = '\n' || c = '\r' || c = ' ' || c = '\t'

def readTextFile (sys : Sysfs) (path : List Char) (outSize : Nat) : Option (List Char) :=
  (sys.file path).bind fun content =>
    (fgets outSize content).map fun line => (line.reverse.dropWhile trailing).reverse

/-- `/sys/devices/system/cpu/cpu%d/` and what follows. -/
def cpuPath (id : Nat) (leaf : String) : List Char :=
  "/sys/devices/system/cpu/cpu".toList ++ Nat.toDigits 10 id ++ '/' :: leaf.toList

def cpuIsOnline (sys : Sysfs) (id : Nat) : Bool :=
  (readLongFile sys (cpuPath id "online")).all (· ≠ 0)

def readCpuEntry (sys : Sysfs) (id : Nat) : CpuInfoEntry where
  id := id
  packageId := ((readLongFile sys (cpuPath id "topology/physical_package_id")).map toInt).getD 0
  coreId := ((readLongFile sys (cpuPath id "topology/core_id")).map toInt).getD id
  threadSiblings :=
    (readTextFile sys (cpuPath id "topology/thread_siblings_list") cpuInfoSiblingsSize).getD []
  maxFreqKhz := (readLongFile sys (cpuPath id "cpufreq/cpuinfo_max_freq")).getD 0
  capacity := (readLongFile sys (cpuPath id "cpu_capacity")).getD 0

/-! ## The CPUs found -/

def samePhysicalCore (a b : CpuInfoEntry) : Bool :=
  a.packageId = b.packageId && a.coreId = b.coreId

def siblingListImpliesSmt (text : List Char) : Bool := text.contains ',' || text.contains '-'

def sameAffinityGroup (a b : CpuInfoEntry) : Bool :=
  if a.threadSiblings ≠ [] ∧ b.threadSiblings ≠ [] then a.threadSiblings = b.threadSiblings
  else samePhysicalCore a b

/-- The entries that are in no group of an earlier one. -/
def countPhysical : List CpuInfoEntry → List CpuInfoEntry → Nat
  | _, [] => 0
  | earlier, entry :: entries =>
      (if earlier.any (sameAffinityGroup entry) then 0 else 1) +
        countPhysical (earlier ++ [entry]) entries

def finalizeSysfsInfo (entries : List CpuInfoEntry) : CpuInfo :=
  let physical := countPhysical [] entries
  let logicalCount := entries.length
  let physicalCount := if physical > 0 then physical else logicalCount
  { logicalCount := logicalCount
    physicalCount := physicalCount
    hasSmt := entries.any (fun entry => siblingListImpliesSmt entry.threadSiblings) ||
      decide (logicalCount > physicalCount)
    recommendedThreads := if logicalCount ≤ 0 then 1 else logicalCount
    entries := entries
    source := "linux-sysfs".toList }

def setFallback (sys : Sysfs) : CpuInfo where
  logicalCount := sysconfOnlineCpus sys
  physicalCount := sysconfOnlineCpus sys
  hasSmt := false
  recommendedThreads := sysconfOnlineCpus sys
  entries := []
  source := "sysconf".toList

/-- The CPUs that the directory lists and that are online. -/
def listed (sys : Sysfs) (names : List (List Char)) : List Nat :=
  (names.filterMap parseCpuDirName).filter (cpuIsOnline sys)

/-- `compare_cpu_entries`. -/
def idLe (a b : CpuInfoEntry) : Prop := a.id ≤ b.id

instance (a b : CpuInfoEntry) : Decidable (idLe a b) := inferInstanceAs (Decidable (a.id ≤ b.id))

/-- The loop ends with the table. -/
def detectSysfs (sys : Sysfs) : Option CpuInfo :=
  sys.names.bind fun names =>
    let entries := ((listed sys names).take cpuInfoMaxCpus).map (readCpuEntry sys)
    if entries = [] then none else some (finalizeSysfsInfo (entries.insertionSort idLe))

def cpuInfoDetect (sys : Sysfs) : CpuInfo := (detectSysfs sys).getD (setFallback sys)

/-! ## The plan -/

def cpuEntryRank (entry : CpuInfoEntry) : Int :=
  if entry.capacity > 0 then entry.capacity
  else if entry.maxFreqKhz > 0 then entry.maxFreqKhz
  else 0

/-- `compare_cpu_entries_by_speed`. -/
def speedLe (a b : CpuInfoEntry) : Prop :=
  if cpuEntryRank a ≠ cpuEntryRank b then cpuEntryRank b < cpuEntryRank a else a.id ≤ b.id

instance (a b : CpuInfoEntry) : Decidable (speedLe a b) :=
  inferInstanceAs (Decidable (if cpuEntryRank a ≠ cpuEntryRank b then cpuEntryRank b < cpuEntryRank a
    else a.id ≤ b.id))

instance : Std.Total idLe := ⟨fun a b => Nat.le_total a.id b.id⟩

instance : IsTrans CpuInfoEntry idLe := ⟨fun _ _ _ => Nat.le_trans⟩

theorem speedLe_iff {a b : CpuInfoEntry} :
    speedLe a b ↔
      cpuEntryRank b < cpuEntryRank a ∨ cpuEntryRank a = cpuEntryRank b ∧ a.id ≤ b.id := by
  unfold speedLe
  split
  · next differ => simp [differ]
  · next same =>
      have same := not_not.mp same
      simp [same]

instance : Std.Total speedLe :=
  ⟨fun a b => by
    simp only [speedLe_iff]
    omega⟩

instance : IsTrans CpuInfoEntry speedLe :=
  ⟨fun a b c ab bc => by
    simp only [speedLe_iff] at ab bc ⊢
    omega⟩

@[simp]
theorem readCpuEntry_id (sys : Sysfs) (id : Nat) : (readCpuEntry sys id).id = id := rfl

/-! ## Filling the plan -/

/-- The CPUs that are listed decide, if there are any. -/
theorem cpuInfoDetect_found {sys : Sysfs} {names : List (List Char)} (shown : sys.names = some names)
    (online : listed sys names ≠ []) :
    cpuInfoDetect sys =
      finalizeSysfsInfo
        ((((listed sys names).take cpuInfoMaxCpus).map (readCpuEntry sys)).insertionSort idLe) := by
  have nonempty : ((listed sys names).take cpuInfoMaxCpus).map (readCpuEntry sys) ≠ [] := by
    simpa [cpuInfoMaxCpus] using online
  unfold cpuInfoDetect detectSysfs
  rw [shown, Option.bind_some]
  simp only [if_neg nonempty, Option.getD_some]

/-- Otherwise the count of `sysconf` does. -/
theorem cpuInfoDetect_fallback {sys : Sysfs}
    (unseen : ∀ names, sys.names = some names → listed sys names = []) :
    cpuInfoDetect sys = setFallback sys := by
  unfold cpuInfoDetect detectSysfs
  cases shown : sys.names with
  | none => rfl
  | some names => simp [unseen names shown]

theorem sysconfOnlineCpus_pos (sys : Sysfs) :
    0 < sysconfOnlineCpus sys ∧ sysconfOnlineCpus sys ≤ cpuInfoMaxCpus := by
  unfold sysconfOnlineCpus
  split
  · next usable =>
      obtain ⟨positive, fits⟩ := usable
      omega
  · decide

theorem countPhysical_le (earlier entries : List CpuInfoEntry) :
    countPhysical earlier entries ≤ entries.length := by
  induction entries generalizing earlier with
  | nil => exact Nat.le_refl 0
  | cons entry entries ih =>
      have rest := ih (earlier ++ [entry])
      rw [countPhysical, List.length_cons]
      split <;> omega

theorem finalizeSysfsInfo_counts {entries : List CpuInfoEntry} (some_cpu : 0 < entries.length) :
    let info := finalizeSysfsInfo entries
    0 < info.physicalCount ∧ info.physicalCount ≤ info.logicalCount ∧
      info.recommendedThreads = info.logicalCount ∧
      (info.physicalCount < info.logicalCount → info.hasSmt = true) := by
  have physical := countPhysical_le [] entries
  simp only [finalizeSysfsInfo]
  refine ⟨?_, ?_, if_neg (by omega), ?_⟩
  · split <;> omega
  · split <;> omega
  · intro fewer
    rw [decide_eq_true fewer, Bool.or_true]

/-- There is at least one core, and no more cores than CPUs. -/
theorem cpuInfoDetect_counts (sys : Sysfs) :
    let info := cpuInfoDetect sys
    0 < info.physicalCount ∧ info.physicalCount ≤ info.logicalCount ∧
      info.logicalCount ≤ cpuInfoMaxCpus ∧ info.recommendedThreads = info.logicalCount ∧
      (info.physicalCount < info.logicalCount → info.hasSmt = true) := by
  by_cases found : ∃ names, sys.names = some names ∧ listed sys names ≠ []
  · obtain ⟨names, shown, online⟩ := found
    have positive := List.length_pos_iff.mpr online
    have length : ((((listed sys names).take cpuInfoMaxCpus).map (readCpuEntry sys)).insertionSort
        idLe).length = min cpuInfoMaxCpus (listed sys names).length := by
      rw [List.length_insertionSort, List.length_map, List.length_take]
    rw [cpuInfoDetect_found shown online]
    obtain ⟨some_core, fewer, threads, smt⟩ := finalizeSysfsInfo_counts (length.symm ▸
      Nat.lt_min.mpr ⟨by decide, positive⟩)
    exact ⟨some_core, fewer, Nat.le_trans (Nat.le_of_eq length) (Nat.min_le_left _ _), threads, smt⟩
  · have fallback : cpuInfoDetect sys = setFallback sys := by
      apply cpuInfoDetect_fallback
      intro names shown
      by_contra online
      exact found ⟨names, shown, online⟩
    rw [fallback]
    obtain ⟨positive, fits⟩ := sysconfOnlineCpus_pos sys
    exact ⟨positive, Nat.le_refl _, fits, rfl, fun fewer => absurd fewer (Nat.lt_irrefl _)⟩

/-! ## The threads -/

end BtcRig.Mining.Affinity
