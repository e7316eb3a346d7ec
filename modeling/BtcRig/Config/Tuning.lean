/-
# BtcRig.Config.Tuning — what tuning a device ends with

`autotune_opencl_device_params` and `autotune_cuda_params` each run two searches: one over
kernels and work sizes, that moves for more than two percent, and from its winner one over
batch sizes, that moves for more than one.  The stages are the folds of `Config.Autotune`
with every benchmark noted as a trial: the configuration it was given and its rate.

`standing_tryCandidate` and `standing_tryBatch` say that a step is an `accept` of
`Theory.Hysteresis`; `gpu_tuning` follows for every sequence of outcomes.
-/
import BtcRig.Theory.Hysteresis
import BtcRig.Theory.Machine
import BtcRig.Config.Autotune

namespace BtcRig.Config.Tuning

open BtcRig.Theory
open BtcRig.Theory.Words
open BtcRig.Theory.Hysteresis
open BtcRig.Config.Variants
open BtcRig.Config.Load
open BtcRig.Config.Autotune
open BtcRig.Gpu.OpenCl (BackendVariant KernelVariant)

set_option autoImplicit false

/-! ## Stages with their trials -/

def rateOf (m : Measurement) : Option ℚ := if m.ok then some m.hashrate else none

section Stage

variable {C S : Type} (measure : Nat → Measurement)

/-- The benchmark that a step makes. -/
def trialOf (candidate : C → S → C) (t : Tuning C) (setting : S) : Trial C ℚ :=
  ⟨candidate t.best setting, rateOf (measure t.runs)⟩

def candidateStage (candidate : C → S → C) (start : Tuning C) (settings : List S) :
    Tuning C × List (Trial C ℚ) :=
  Machine.exec (fun t setting =>
    (tryCandidate measure candidate t setting, [trialOf measure candidate t setting])) start settings

def batchStage (candidate : C → S → C) (start : Tuning C) (settings : List S) :
    Tuning C × List (Trial C ℚ) :=
  Machine.exec (fun t setting =>
    (tryBatch measure candidate t setting, [trialOf measure candidate t setting])) start settings

/-- The second stage only runs if the first one found something. -/
def batchTrials (candidate : C → S → C) (start : Tuning C) (settings : List S) : List (Trial C ℚ) :=
  if start.bestOk then (batchStage measure candidate start settings).2 else []

/-- The best configuration and its rate, once there is one. -/
def standing (t : Tuning C) : Option (C × ℚ) := if t.bestOk then some (t.best, t.bestHashrate) else none

variable {measure} {candidate : C → S → C}

/-- The stage leaves what its loop leaves. -/
theorem candidateStage_state (start : Tuning C) (settings : List S) :
    (candidateStage measure candidate start settings).1 =
      settings.foldl (tryCandidate measure candidate) start := Machine.exec_state _ _ _

theorem batchStage_state (start : Tuning C) (settings : List S) :
    (batchStage measure candidate start settings).1 =
      settings.foldl (tryBatch measure candidate) start := Machine.exec_state _ _ _

/-- A rate that counts is positive. -/
theorem rateOf_pos (m : Measurement) : ∀ rate ∈ rateOf m, 0 < rate := by
  intro rate isRate
  unfold rateOf at isRate
  split at isRate
  · rename_i works
    rw [← Option.some.inj isRate]
    exact m.positive works
  · cases isRate

theorem rateOf_ok {m : Measurement} (works : m.ok = true) : rateOf m = some m.hashrate := if_pos works

theorem rateOf_failed {m : Measurement} (fails : m.ok = false) : rateOf m = none :=
  if_neg (by simp [fails])

theorem standing_of_ok {t : Tuning C} (isOk : t.bestOk = true) :
    standing t = some (t.best, t.bestHashrate) := if_pos isOk

theorem standing_of_none {t : Tuning C} (isNone : t.bestOk = false) : standing t = none :=
  if_neg (by simp [isNone])

/-- The test of a first-stage rate, once there is a best one. -/
theorem isBetter_iff {candidate best : ℚ} (positive : 0 < best) :
    autotuneHashrateIsBetter candidate best = true ↔ best * (102 / 100) < candidate := by
  simp [autotuneHashrateIsBetter, not_le.mpr positive]

theorem batchIsBetter_iff {candidate best : ℚ} (positive : 0 < best) :
    autotuneBatchHashrateIsBetter candidate best = true ↔ best * (101 / 100) < candidate := by
  simp [autotuneBatchHashrateIsBetter, not_le.mpr positive]

/-- A candidate of the first stage has to be more than two percent faster. -/
theorem standing_tryCandidate {t : Tuning C} (positive : ∀ best ∈ standing t, 0 < best.2) (setting : S) :
    standing (tryCandidate measure candidate t setting) =
      accept (102 / 100) (standing t) (trialOf measure candidate t setting) := by
  cases works : (measure t.runs).ok with
  | false =>
      rw [accept_failed (rateOf_failed works), tryCandidate, works]
      rfl
  | true =>
      have isRate : (trialOf measure candidate t setting).rate = some (measure t.runs).hashrate :=
        rateOf_ok works
      cases isOk : t.bestOk with
      | false =>
          rw [standing_of_none isOk, accept_better isRate (by simp), tryCandidate, works, isOk]
          rfl
      | true =>
          rw [standing_of_ok isOk] at positive ⊢
          have rate_pos : 0 < t.bestHashrate := positive (t.best, t.bestHashrate) (Option.mem_some_self _)
          by_cases better : t.bestHashrate * (102 / 100) < (measure t.runs).hashrate
          · rw [accept_better isRate (by simpa using better), tryCandidate, works, isOk,
              (isBetter_iff rate_pos).mpr better]
            rfl
          · have stays : accept (102 / 100) (some (t.best, t.bestHashrate)) (trialOf measure candidate t setting) =
                some (t.best, t.bestHashrate) := accept_worse isRate better
            rw [stays, tryCandidate, works, isOk,
              Bool.eq_false_iff.mpr (mt (isBetter_iff rate_pos).mp better)]
            rfl

/-- A batch size has to be more than one percent faster. -/
theorem standing_tryBatch {t : Tuning C} (isOk : t.bestOk = true)
    (positive : ∀ best ∈ standing t, 0 < best.2) (setting : S) :
    standing (tryBatch measure candidate t setting) =
      accept (101 / 100) (standing t) (trialOf measure candidate t setting) := by
  rw [standing_of_ok isOk] at positive ⊢
  have rate_pos : 0 < t.bestHashrate := positive (t.best, t.bestHashrate) (Option.mem_some_self _)
  cases works : (measure t.runs).ok with
  | false =>
      rw [accept_failed (rateOf_failed works), tryBatch, works]
      exact standing_of_ok isOk
  | true =>
      have isRate : (trialOf measure candidate t setting).rate = some (measure t.runs).hashrate :=
        rateOf_ok works
      by_cases better : t.bestHashrate * (101 / 100) < (measure t.runs).hashrate
      · rw [accept_better isRate (by simpa using better), tryBatch, works,
          (batchIsBetter_iff rate_pos).mpr better]
        exact standing_of_ok isOk
      · have stays : accept (101 / 100) (some (t.best, t.bestHashrate)) (trialOf measure candidate t setting) =
            some (t.best, t.bestHashrate) := accept_worse isRate better
        rw [stays, tryBatch, works,
          Bool.eq_false_iff.mpr (mt (batchIsBetter_iff rate_pos).mp better)]
        exact standing_of_ok isOk

theorem bestOk_tryBatch (t : Tuning C) (setting : S) :
    (tryBatch measure candidate t setting).bestOk = t.bestOk := by
  unfold tryBatch
  dsimp only
  split <;> rfl

/-! ## The stages -/

/-- After the first stage: the best candidate fits, and was tried among these trials. -/
structure Searched (Fits : C → Prop) (t : Tuning C) (trials : List (Trial C ℚ)) : Prop where
  positive : Positive trials
  tried : Tried trials (standing t)
  bounded : Bounded (102 / 100) trials (standing t)
  fits : t.bestOk = true → Fits t.best

/-- The first stage finds a best candidate that no other clearly beats. -/
theorem searched_candidateStage {Fits : C → Prop} {settings : List S} {start : Tuning C}
    (unstarted : start.bestOk = false) (fit : ∀ best, ∀ setting ∈ settings, Fits (candidate best setting)) :
    Searched Fits (candidateStage measure candidate start settings).1
      (candidateStage measure candidate start settings).2 := by
  have none_ : standing start = none := by rw [standing, unstarted]; rfl
  refine Machine.exec_invariant_of _ start (· ∈ settings) (Searched Fits) ?_ ?_ settings
    fun setting member => member
  · refine ⟨nofun, ?_, nofun, fun isOk => absurd (unstarted.symm.trans isOk) nofun⟩
    rw [none_]
    exact nofun
  · intro setting t trials allowed inv
    have standing_pos := tried_positive inv.tried inv.positive
    have new_pos := rateOf_pos (measure t.runs)
    have step : standing (tryCandidate measure candidate t setting) =
        accept (102 / 100) (standing t) (trialOf measure candidate t setting) :=
      standing_tryCandidate standing_pos setting
    refine ⟨?_, ?_, ?_, ?_⟩
    · intro trial member
      rcases List.mem_append.mp member with earlier | isLast
      · exact inv.positive trial earlier
      · rw [List.mem_singleton.mp isLast]
        exact new_pos
    · rw [step]
      exact tried_accept inv.tried
    · rw [step]
      exact bounded_accept (by norm_num) standing_pos new_pos inv.bounded
    · unfold tryCandidate
      dsimp only
      split
      · exact fun _ => fit _ _ allowed
      · exact inv.fits

/-- After the second stage; `first` are the trials of the first one. -/
structure Settled (Fits : C → Prop) (first : List (Trial C ℚ)) (t : Tuning C)
    (trials : List (Trial C ℚ)) : Prop where
  ok : t.bestOk = true
  positive : Positive (first ++ trials)
  tried : Tried (first ++ trials) (standing t)
  bounded : Bounded (102 / 100) first (standing t)
  batchBounded : Bounded (101 / 100) trials (standing t)
  fits : Fits t.best

/-- The second stage settles on a configuration that no trial of either stage clearly beats. -/
theorem settled_batchStage {Fits : C → Prop} {settings : List S} {start : Tuning C}
    {first : List (Trial C ℚ)} (searched : Searched Fits start first) (isOk : start.bestOk = true)
    (fit : ∀ best setting, Fits best → Fits (candidate best setting)) :
    Settled Fits first (batchStage measure candidate start settings).1
      (batchStage measure candidate start settings).2 := by
  refine Machine.exec_invariant_of _ start (· ∈ settings) (Settled Fits first) ?_ ?_ settings
    fun setting member => member
  · exact ⟨isOk, by rw [List.append_nil]; exact searched.positive,
      by rw [List.append_nil]; exact searched.tried, searched.bounded, nofun, searched.fits isOk⟩
  · intro setting t trials _ inv
    have standing_pos := tried_positive inv.tried inv.positive
    have new_pos := rateOf_pos (measure t.runs)
    have step : standing (tryBatch measure candidate t setting) =
        accept (101 / 100) (standing t) (trialOf measure candidate t setting) :=
      standing_tryBatch inv.ok standing_pos setting
    refine ⟨(bestOk_tryBatch t setting).trans inv.ok, ?_, ?_, ?_, ?_, ?_⟩
    · rw [← List.append_assoc]
      intro trial member
      rcases List.mem_append.mp member with earlier | isLast
      · exact inv.positive trial earlier
      · rw [List.mem_singleton.mp isLast]
        exact new_pos
    · rw [step, ← List.append_assoc]
      exact tried_accept inv.tried
    · rw [step]
      exact bounded_later (by norm_num) (by norm_num) standing_pos inv.bounded
    · rw [step]
      exact bounded_accept (by norm_num) standing_pos new_pos inv.batchBounded
    · unfold tryBatch
      dsimp only
      split
      · exact fit _ _ inv.fits
      · exact inv.fits

/-- What a tuned device ends with, given the trials of both stages: a configuration that
was tried and fits, whose rate no other clearly beats; the given one if nothing worked. -/
structure Ends (Fits : C → Prop) (given final : C) (first second : List (Trial C ℚ)) : Prop where
  failed : (∀ trial ∈ first, trial.rate = none) → final = given
  worked : (∃ trial ∈ first, trial.rate ≠ none) →
    Fits final ∧ ∃ rate, ⟨final, some rate⟩ ∈ first ++ second ∧
      (∀ trial ∈ first, ∀ r ∈ trial.rate, r ≤ 102 / 100 * rate) ∧
      ∀ trial ∈ second, ∀ r ∈ trial.rate, r ≤ 101 / 100 * rate

/-- A second stage after such a first one ends with the best of both. -/
theorem ends_of_searched {S' : Type} {Fits : C → Prop} {given : C} {t : Tuning C}
    {first : List (Trial C ℚ)} {batchCandidate : C → S' → C} (settings : List S')
    (searched : Searched Fits t first)
    (fit : ∀ best setting, Fits best → Fits (batchCandidate best setting)) :
    Ends Fits given (if t.bestOk then (batchStage measure batchCandidate t settings).1.best else given)
      first (batchTrials measure batchCandidate t settings) := by
  cases isOk : t.bestOk with
  | false =>
      refine ⟨fun _ => rfl, ?_⟩
      rintro ⟨trial, member, works⟩
      obtain ⟨rate, isRate⟩ := Option.ne_none_iff_exists'.mp works
      obtain ⟨best, isBest, -⟩ := searched.bounded trial member rate isRate
      rw [standing_of_none isOk] at isBest
      cases isBest
  | true =>
      have settled : Settled Fits first (batchStage measure batchCandidate t settings).1
          (batchStage measure batchCandidate t settings).2 :=
        settled_batchStage searched isOk fit
      have isStanding := standing_of_ok settled.ok
      rw [batchTrials, if_pos isOk]
      refine ⟨fun none_ => ?_, fun _ => ⟨settled.fits, _, settled.tried _ isStanding, ?_, ?_⟩⟩
      · have tried := searched.tried _ (standing_of_ok isOk)
        have failed := none_ _ tried
        contradiction
      · intro trial member rate isRate
        obtain ⟨best, isBest, below⟩ := settled.bounded trial member rate isRate
        rw [isStanding] at isBest
        rw [← Option.some.inj isBest] at below
        exact below
      · intro trial member rate isRate
        obtain ⟨best, isBest, below⟩ := settled.batchBounded trial member rate isRate
        rw [isStanding] at isBest
        rw [← Option.some.inj isBest] at below
        exact below

end Stage

/-! ## The two devices -/

section Devices

variable (host : Host)

def openclCandidate (device best : OpenclDeviceConfig) (s : BackendVariant × KernelVariant × Word × Word) :
    OpenclDeviceConfig :=
  { device with
    backendVariant := s.1
    kernelVariant := s.2.1
    localWorkSize := s.2.2.1
    noncesPerWorkItem := s.2.2.2
    batchSize := best.batchSize }

def openclBatch (best : OpenclDeviceConfig) (batchSize : Word) : OpenclDeviceConfig :=
  { best with batchSize }

/-- The first stage of `autotune_opencl_device_params`.  A trial is run with its
configuration as the only one of the device list. -/
def openclFirst (base : OpenclConfig) (device : OpenclDeviceConfig) (runs : Nat) :
    Tuning OpenclDeviceConfig × List (Trial OpenclDeviceConfig ℚ) :=
  candidateStage host.measure (openclCandidate device) ⟨device, 0, false, runs⟩
    (openclCandidates base device)

def openclSecond (base : OpenclConfig) (device : OpenclDeviceConfig) (runs : Nat) :
    List (Trial OpenclDeviceConfig ℚ) :=
  batchTrials host.measure openclBatch (openclFirst host base device runs).1 (batchCandidates base device)

/-- The function is its two stages; if no candidate works the device keeps its settings. -/
theorem autotuneOpenclDeviceParams_eq (base : OpenclConfig) (device : OpenclDeviceConfig) (runs : Nat) :
    (autotuneOpenclDeviceParams host base device runs).1 =
      if (openclFirst host base device runs).1.bestOk then
        (batchStage host.measure openclBatch (openclFirst host base device runs).1
          (batchCandidates base device)).1.best
      else device := by
  rw [batchStage_state, openclFirst, candidateStage_state]
  unfold autotuneOpenclDeviceParams openclCandidate openclBatch
  dsimp only
  generalize List.foldl _ _ (openclCandidates base device) = t
  generalize List.foldl _ t (batchCandidates base device) = t'
  split <;> rfl

/-- A kernel runs on the backend, with the nonces per work-item that it is written for. -/
structure OpenclFits (device : OpenclDeviceConfig) : Prop where
  compatible : openclKernelBackendCompatible device.backendVariant device.kernelVariant = true
  forced : openclKernelForcedNpi device.kernelVariant ≠ 0 →
    device.noncesPerWorkItem = openclKernelForcedNpi device.kernelVariant

/-- Every candidate runs on its backend, with the nonces that its kernel is written for. -/
theorem openclCandidates_fit {base : OpenclConfig} {device : OpenclDeviceConfig}
    (best : OpenclDeviceConfig) {s : BackendVariant × KernelVariant × Word × Word}
    (member : s ∈ openclCandidates base device) : OpenclFits (openclCandidate device best s) := by
  obtain ⟨backend, -, member⟩ := List.mem_flatMap.mp member
  obtain ⟨kernel, -, member⟩ := List.mem_flatMap.mp member
  split at member
  · rename_i compatible
    obtain ⟨localSize, -, member⟩ := List.mem_flatMap.mp member
    obtain ⟨npi, -, isSetting⟩ := List.mem_filterMap.mp member
    dsimp only at isSetting
    split at isSetting
    · cases isSetting
    · rw [← Option.some.inj isSetting]
      exact ⟨compatible, fun forced => if_pos forced⟩
  · cases member

def cudaCandidate (best : CudaConfig) (s : CudaKernelVariant × Word × Word) : CudaConfig :=
  { best with kernelVariant := s.1, threadsPerBlock := s.2.1, noncesPerThread := s.2.2 }

def cudaBatch (best : CudaConfig) (batchSize : Word) : CudaConfig := { best with batchSize }

/-- `best_config` before the first stage. -/
def cudaStart (config : CudaConfig) : CudaConfig :=
  let npt := autotuneCudaNptValue config.noncesPerThread
  let forced := autotuneCudaKernelForcedNpt config.kernelVariant
  { config with
    enabled := true
    batchSize := autotuneCudaBatchValue config.batchSize
    threadsPerBlock := autotuneCudaBlockValue config.threadsPerBlock
    noncesPerThread := if forced ≠ 0 then forced else npt }

/-- The first stage of `autotune_cuda_params`, after the run that warms the device. -/
def cudaFirst (config : CudaConfig) (runs : Nat) : Tuning CudaConfig × List (Trial CudaConfig ℚ) :=
  candidateStage host.measure cudaCandidate ⟨cudaStart config, 0, false, runs + 1⟩
    (cudaCandidates config)

def cudaSecond (config : CudaConfig) (runs : Nat) : List (Trial CudaConfig ℚ) :=
  batchTrials host.measure cudaBatch (cudaFirst host config runs).1 (cudaBatchCandidates config)

/-- The same for `autotune_cuda_params`. -/
theorem autotuneCudaParams_eq (config : CudaConfig) (runs : Nat) :
    (autotuneCudaParams host config runs).1 =
      if (cudaFirst host config runs).1.bestOk then
        (batchStage host.measure cudaBatch (cudaFirst host config runs).1
          (cudaBatchCandidates config)).1.best
      else config := by
  rw [batchStage_state, cudaFirst, candidateStage_state]
  unfold autotuneCudaParams cudaStart cudaCandidate cudaBatch
  dsimp only
  generalize List.foldl _ _ (cudaCandidates config) = t
  generalize List.foldl _ t (cudaBatchCandidates config) = t'
  split <;> rfl

def CudaFits (config : CudaConfig) : Prop :=
  autotuneCudaKernelForcedNpt config.kernelVariant ≠ 0 →
    config.noncesPerThread = autotuneCudaKernelForcedNpt config.kernelVariant

/-- Every candidate has the nonces per thread that its kernel is written for. -/
theorem cudaCandidates_fit {config : CudaConfig} (best : CudaConfig)
    {s : CudaKernelVariant × Word × Word} (member : s ∈ cudaCandidates config) :
    CudaFits (cudaCandidate best s) := by
  obtain ⟨kernel, -, member⟩ := List.mem_flatMap.mp member
  obtain ⟨block, -, member⟩ := List.mem_flatMap.mp member
  obtain ⟨npt, -, isSetting⟩ := List.mem_filterMap.mp member
  dsimp only at isSetting
  split at isSetting
  · cases isSetting
  · rw [← Option.some.inj isSetting]
    exact fun forced => if_pos forced

/-- **GPU tuning**, for any outcomes of the benchmarks: each search ends with a tried
configuration that fits and that nothing tried beats by two percent in the first stage or
by one in the second. -/
theorem gpu_tuning :
    (∀ (base : OpenclConfig) (device : OpenclDeviceConfig) (runs : Nat),
      Ends OpenclFits device (autotuneOpenclDeviceParams host base device runs).1
        (openclFirst host base device runs).2 (openclSecond host base device runs)) ∧
    ∀ (config : CudaConfig) (runs : Nat),
      Ends CudaFits config (autotuneCudaParams host config runs).1
        (cudaFirst host config runs).2 (cudaSecond host config runs) := by
  constructor
  · intro base device runs
    rw [autotuneOpenclDeviceParams_eq]
    refine ends_of_searched _ ?_ ?_
    · exact searched_candidateStage rfl fun best setting member => openclCandidates_fit best member
    · exact fun best batchSize fits => ⟨fits.compatible, fits.forced⟩
  · intro config runs
    rw [autotuneCudaParams_eq]
    refine ends_of_searched _ ?_ ?_
    · exact searched_candidateStage rfl fun best setting member => cudaCandidates_fit best member
    · exact fun best batchSize fits => fits

end Devices

end BtcRig.Config.Tuning
