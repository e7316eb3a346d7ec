/-
# BtcRig.Donation.Retry — what the main loop does after a failed session

A session that fails is retried after a pause, and the pause doubles from failure to
failure up to a minute.

* `retryDelaySeconds` is the doubling loop, with the overflow of its `int` checked;
  `retry_delay` is its closed form, and what follows for consecutive failures;
* `donation_failure_survived_iff` says for which configurations a failed donation
  hands over to the user's mining: the limit on retries is checked on the way.
-/
import BtcRig.Config.Load

namespace BtcRig.Donation.Retry

open BtcRig.Theory
open BtcRig.Mining.Job
open BtcRig.Donation.Schedule
open BtcRig.Config.Load (CInt)

set_option autoImplicit false

/-! ## The pause -/

def maxReconnectDelay : CInt := 60

/-- The loop from `i` on, given `fuel` tests of its condition; nothing if they do not
suffice, or if the product overflows.  `w` is the width of an `unsigned long`. -/
def retryDelayLoop {w : Nat} (attempt : BitVec w) : (fuel : Nat) → (i : BitVec w) → CInt → Option CInt
  | 0, _, _ => none
  | fuel + 1, i, delay =>
      if i < attempt ∧ delay.slt maxReconnectDelay then
        if (maxReconnectDelay.sdiv 2).slt delay then
          retryDelayLoop attempt fuel (i + 1) maxReconnectDelay
        else if BitVec.smulOverflow delay 2 then none
        else retryDelayLoop attempt fuel (i + 1) (delay * 2)
      else some delay

def retryDelaySeconds {w : Nat} (fuel : Nat) (baseDelay : CInt) (attempt : BitVec w) : Option CInt :=
  let delay := if baseDelay.sle 0 then 1 else baseDelay
  if maxReconnectDelay.slt delay then some maxReconnectDelay
  else
    (retryDelayLoop attempt fuel 1 delay).map fun delay =>
      if maxReconnectDelay.slt delay then maxReconnectDelay else delay

/-- The closed form. -/
def backOff (baseDelay : Int) (attempt : Nat) : Int :=
  min 60 (max 1 baseDelay * 2 ^ (max attempt 1 - 1))

theorem backOff_mono {baseDelay baseDelay' : Int} {attempt attempt' : Nat}
    (longer : baseDelay ≤ baseDelay') (later : attempt ≤ attempt') :
    backOff baseDelay attempt ≤ backOff baseDelay' attempt' := by
  apply min_le_min_left
  have factor : (2 : Int) ^ (max attempt 1 - 1) ≤ 2 ^ (max attempt' 1 - 1) :=
    pow_le_pow_right₀ (by norm_num) (by omega)
  exact mul_le_mul (max_le_max_left 1 longer) factor (by positivity) (by omega)

theorem backOff_bounds (baseDelay : Int) (attempt : Nat) :
    1 ≤ backOff baseDelay attempt ∧ backOff baseDelay attempt ≤ 60 := by
  refine ⟨le_min (by norm_num) ?_, min_le_left _ _⟩
  have factor : (1 : Int) ≤ 2 ^ (max attempt 1 - 1) := one_le_pow₀ (by norm_num)
  calc (1 : Int) ≤ max 1 baseDelay := le_max_left _ _
    _ ≤ max 1 baseDelay * 2 ^ (max attempt 1 - 1) := le_mul_of_one_le_right (by omega) factor

section Loop

variable {w : Nat} {attempt : BitVec w}

theorem toInt_of_small {delay : CInt} (small : delay.toNat ≤ 60) : delay.toInt = delay.toNat :=
  BitVec.toInt_eq_toNat_of_lt (by omega)

theorem toNat_double {delay : CInt} (small : delay.toNat ≤ 30) : (delay * 2).toNat = delay.toNat * 2 := by
  rw [BitVec.toNat_mul, show (2 : CInt).toNat = 2 from rfl, Nat.mod_eq_of_lt (by omega)]

theorem no_overflow {delay : CInt} (small : delay.toNat ≤ 30) : BitVec.smulOverflow delay 2 = false := by
  have two : (2 : CInt).toInt = 2 := rfl
  simp only [BitVec.smulOverflow, toInt_of_small (show delay.toNat ≤ 60 by omega), two]
  simp
  omega

/-- The tests that remain suffice if that many doublings take the delay to the limit. -/
theorem retryDelayLoop_eq (fuel : Nat) (i : BitVec w) (delay : CInt) (positive : 1 ≤ delay.toNat)
    (limited : delay.toNat ≤ 60) (enough : 60 ≤ delay.toNat * 2 ^ fuel) :
    ∃ result, retryDelayLoop attempt (fuel + 1) i delay = some result ∧
      result.toNat = min 60 (delay.toNat * 2 ^ (attempt.toNat - i.toNat)) := by
  have below : delay.slt maxReconnectDelay = true ↔ delay.toNat < 60 := by
    rw [BitVec.slt_iff_toInt_lt, toInt_of_small limited]
    exact Int.ofNat_lt
  induction fuel generalizing i delay with
  | zero =>
      have full : delay.toNat = 60 := by omega
      refine ⟨delay, ?_, ?_⟩
      · rw [retryDelayLoop, if_neg]
        rintro ⟨-, less⟩
        have := below.mp less
        omega
      · rw [full]
        exact (min_eq_left (Nat.le_mul_of_pos_right 60 (by positivity))).symm
  | succ fuel ih =>
      rw [retryDelayLoop]
      by_cases again : i < attempt ∧ delay.slt maxReconnectDelay = true
      · rw [if_pos again]
        have less : i.toNat < attempt.toNat := BitVec.lt_def.mp again.1
        have next : (i + 1).toNat = i.toNat + 1 := by
          have := attempt.isLt
          have one : (1 : BitVec w).toNat = 1 := by
            rw [show (1 : BitVec w) = BitVec.ofNat w 1 from rfl, BitVec.toNat_ofNat,
              Nat.mod_eq_of_lt (by omega)]
          rw [BitVec.toNat_add, one, Nat.mod_eq_of_lt (by omega)]
        obtain ⟨n, isN⟩ : ∃ n, attempt.toNat - i.toNat = n + 1 := ⟨attempt.toNat - i.toNat - 1, by omega⟩
        have left : attempt.toNat - (i + 1).toNat = n := by omega
        have half : (maxReconnectDelay.sdiv 2).slt delay = true ↔ 30 < delay.toNat := by
          rw [BitVec.slt_iff_toInt_lt, toInt_of_small limited]
          exact Int.ofNat_lt
        by_cases large : 30 < delay.toNat
        · obtain ⟨result, isResult, value⟩ := ih (i + 1) maxReconnectDelay (by decide) (by decide)
            (Nat.le_mul_of_pos_right 60 (by positivity))
            (by decide)
          refine ⟨result, by rw [if_pos (half.mpr large)]; exact isResult, ?_⟩
          have factor : 1 ≤ 2 ^ n := Nat.one_le_two_pow
          rw [value, left, isN, pow_succ]
          have capped : 60 ≤ maxReconnectDelay.toNat * 2 ^ n := Nat.le_mul_of_pos_right 60 factor
          have above : 60 ≤ delay.toNat * (2 ^ n * 2) := by nlinarith
          rw [min_eq_left capped, min_eq_left above]
        · have small : delay.toNat ≤ 30 := by omega
          have twice := toNat_double small
          have limited' : (delay * 2).toNat ≤ 60 := by omega
          obtain ⟨result, isResult, value⟩ := ih (i + 1) (delay * 2) (by omega) limited'
            (by rw [twice, Nat.mul_assoc, ← pow_succ']; exact enough)
            (by
              rw [BitVec.slt_iff_toInt_lt, toInt_of_small limited']
              exact Int.ofNat_lt)
          refine ⟨result, ?_, ?_⟩
          · rw [if_neg (mt half.mp large), no_overflow small]
            exact isResult
          · rw [value, left, isN, twice, Nat.mul_assoc, ← pow_succ']
      · rw [if_neg again]
        refine ⟨delay, rfl, ?_⟩
        by_cases less : i < attempt
        · have full : delay.toNat = 60 := by
            have := mt below.mpr fun less' => again ⟨less, less'⟩
            omega
          rw [full]
          exact (min_eq_left (Nat.le_mul_of_pos_right 60 (by positivity))).symm
        · have done : attempt.toNat - i.toNat = 0 := by
            have := mt BitVec.lt_def.mpr less
            omega
          rw [done, pow_zero, Nat.mul_one, min_eq_right limited]

end Loop

theorem retryDelaySeconds_eq {w : Nat} (fuel : Nat) (baseDelay : CInt) (attempt : BitVec w) :
    ∃ delay, retryDelaySeconds (fuel + 7) baseDelay attempt = some delay ∧
      delay.toInt = backOff baseDelay.toInt attempt.toNat := by
  have zero : (0 : CInt).toInt = 0 := rfl
  have limit : maxReconnectDelay.toInt = 60 := rfl
  unfold retryDelaySeconds
  generalize isDelay : (if baseDelay.sle 0 then (1 : CInt) else baseDelay) = delay
  have value : delay.toInt = max 1 baseDelay.toInt := by
    rw [← isDelay]
    split
    · rename_i low
      rw [BitVec.sle_iff_toInt_le, zero] at low
      rw [show (1 : CInt).toInt = 1 from rfl, max_eq_left (by omega)]
    · rename_i high
      rw [BitVec.sle_iff_toInt_le, zero] at high
      exact (max_eq_right (by omega)).symm
  have positive : 1 ≤ delay.toInt := value ▸ le_max_left _ _
  have factor : (1 : Int) ≤ 2 ^ (max attempt.toNat 1 - 1) := one_le_pow₀ (by norm_num)
  dsimp only
  by_cases large : maxReconnectDelay.slt delay = true
  · rw [if_pos large]
    rw [BitVec.slt_iff_toInt_lt, limit] at large
    refine ⟨maxReconnectDelay, rfl, ?_⟩
    have above : 60 ≤ delay.toInt * 2 ^ (max attempt.toNat 1 - 1) := by nlinarith
    rw [backOff, ← value, min_eq_left above, limit]
  · rw [if_neg large]
    rw [BitVec.slt_iff_toInt_lt, limit] at large
    have natural : delay.toInt = delay.toNat := BitVec.toInt_eq_toNat_of_msb (by
      rw [BitVec.msb_eq_false_iff_two_mul_lt]
      rw [BitVec.toInt_eq_toNat_cond] at positive
      split at positive <;> omega)
    have one_le : 1 ≤ delay.toNat := by omega
    obtain ⟨result, isResult, isValue⟩ : ∃ result,
        retryDelayLoop attempt (fuel + 6 + 1) 1 delay = some result ∧
          result.toNat = min 60 (delay.toNat * 2 ^ (attempt.toNat - (1 : BitVec w).toNat)) :=
      retryDelayLoop_eq (fuel + 6) 1 delay one_le (by omega) (by
        have : 2 ^ 6 ≤ 2 ^ (fuel + 6) := Nat.pow_le_pow_right (by norm_num) (by omega)
        nlinarith)
    have capped : result.toNat ≤ 60 := isValue ▸ min_le_left _ _
    have whole : ¬maxReconnectDelay.slt result = true := by
      rw [BitVec.slt_iff_toInt_lt, limit, toInt_of_small capped]
      omega
    refine ⟨result, by rw [isResult, Option.map_some, if_neg whole], ?_⟩
    have rounds : attempt.toNat - (1 : BitVec w).toNat = max attempt.toNat 1 - 1 := by
      rcases Nat.eq_zero_or_pos w with rfl | wide
      · have := attempt.isLt
        omega
      · have one : (1 : BitVec w).toNat = 1 := by
          rw [show (1 : BitVec w) = BitVec.ofNat w 1 from rfl, BitVec.toNat_ofNat,
            Nat.mod_eq_of_lt (Nat.one_lt_two_pow (by omega))]
        omega
    rw [toInt_of_small capped, isValue, backOff, ← value, natural, rounds]
    push_cast
    rfl

/-! ## Consecutive failures -/

/-- The counter after an iteration. -/
inductive Counted (s s' : MainState) (rc : Int) : Prop
  | stopped (exited : s'.exited = true) (same : s'.attempt = s.attempt)
  | reset (done : rc = 0) (zero : s'.attempt = 0)
  | retried (more : s'.attempt = s.attempt + 1)

theorem retrySession_counted (config : MainConfig) {s s₀ : MainState} (outcome : Outcome)
    (same : s.attempt = s₀.attempt) : Counted s₀ (retrySession config s outcome) outcome.rc := by
  unfold retrySession
  split
  · exact .stopped rfl same
  · split
    · exact .stopped rfl same
    · exact .retried (congrArg (· + 1) same)

theorem mainStep_counted (config : MainConfig) (s : MainState) (outcome : Outcome) :
    Counted s (mainStep config s outcome).1 outcome.rc := by
  unfold mainStep
  split
  · rename_i exited
    exact .stopped exited rfl
  · split
    · exact .stopped rfl rfl
    · unfold afterSession
      split
      · exact .stopped rfl rfl
      · split
        · rename_i done
          split <;> exact .reset done.2 rfl
        · split
          · exact retrySession_counted config outcome rfl
          · split <;> exact retrySession_counted config outcome rfl

theorem attempt_le (config : MainConfig) (seed : BitVec 64) (outcomes : List Outcome) :
    (mainRun config seed outcomes).1.attempt.toNat ≤ outcomes.length := by
  refine Machine.exec_invariant (mainStep config) (mainInitial config seed)
    (fun outcomes s _ => s.attempt.toNat ≤ outcomes.length) (Nat.zero_le _) ?_ outcomes
  intro outcomes outcome s sessions ih
  rw [List.length_append, List.length_singleton]
  cases mainStep_counted config s outcome with
  | stopped _ same =>
      rw [same]
      exact ih.trans (Nat.le_succ _)
  | reset _ zero =>
      rw [zero]
      exact Nat.zero_le _
  | retried more =>
      rw [more, BitVec.toNat_add]
      exact (Nat.mod_le _ _).trans (Nat.succ_le_succ ih)

/-- **The pause before a retry.**  It is computed without overflow in at most seven tests
of the loop's condition, lies between a second and a minute, and grows with both
arguments; so it does not shrink from a failed session to the next.  (The counter of
attempts would have to come round for that.) -/
theorem retry_delay {w : Nat} (baseDelay : CInt) (attempt : BitVec w) :
    (∃ delay, (∀ fuel, retryDelaySeconds (fuel + 7) baseDelay attempt = some delay) ∧
      delay.toInt = min 60 (max 1 baseDelay.toInt * 2 ^ (max attempt.toNat 1 - 1)) ∧
      1 ≤ delay.toInt ∧ delay.toInt ≤ 60) ∧
    (∀ (baseDelay' : CInt) (attempt' : BitVec w) (delay delay' : CInt),
      baseDelay.toInt ≤ baseDelay'.toInt → attempt ≤ attempt' →
      retryDelaySeconds 7 baseDelay attempt = some delay →
      retryDelaySeconds 7 baseDelay' attempt' = some delay' → delay.toInt ≤ delay'.toInt) ∧
    ∀ (config : MainConfig) (seed : BitVec 64) (outcomes : List Outcome) (outcome : Outcome)
      (delay delay' : CInt), outcomes.length + 2 < 2 ^ 64 → outcome.rc ≠ 0 →
      let failing := (mainRun config seed outcomes).1
      let next := (mainRun config seed (outcomes ++ [outcome])).1
      next.exited = false → retryDelaySeconds 7 baseDelay (failing.attempt + 1) = some delay →
      retryDelaySeconds 7 baseDelay (next.attempt + 1) = some delay' → delay.toInt ≤ delay'.toInt := by
  have value {w : Nat} (baseDelay : CInt) (attempt : BitVec w) {delay : CInt}
      (isDelay : retryDelaySeconds 7 baseDelay attempt = some delay) :
      delay.toInt = backOff baseDelay.toInt attempt.toNat := by
    obtain ⟨result, isResult, closed⟩ := retryDelaySeconds_eq 0 baseDelay attempt
    rw [Nat.zero_add, isDelay] at isResult
    rw [Option.some.inj isResult]
    exact closed
  refine ⟨?_, ?_, ?_⟩
  · obtain ⟨delay, isDelay, closed⟩ := retryDelaySeconds_eq 0 baseDelay attempt
    have bounds := backOff_bounds baseDelay.toInt attempt.toNat
    refine ⟨delay, fun fuel => ?_, closed, closed ▸ bounds.1, closed ▸ bounds.2⟩
    obtain ⟨result, isResult, closed'⟩ := retryDelaySeconds_eq fuel baseDelay attempt
    rw [isResult, BitVec.eq_of_toInt_eq (closed'.trans closed.symm)]
  · intro baseDelay' attempt' delay delay' longer later isDelay isDelay'
    rw [value _ _ isDelay, value _ _ isDelay']
    exact backOff_mono longer (BitVec.le_def.mp later)
  · intro config seed outcomes outcome delay delay' short failed failing next running isDelay isDelay'
    rw [value _ _ isDelay, value _ _ isDelay']
    apply backOff_mono le_rfl
    have few : failing.attempt.toNat ≤ outcomes.length := attempt_le config seed outcomes
    have isNext : next = (mainStep config failing outcome).1 := by
      show (mainRun config seed (outcomes ++ [outcome])).1 = _
      rw [mainRun, Machine.exec_snoc]
      rfl
    have more : next.attempt = failing.attempt + 1 := by
      have counted := mainStep_counted config failing outcome
      rw [← isNext] at counted
      cases counted with
      | stopped exited _ =>
          rw [running] at exited
          contradiction
      | reset done _ => exact absurd done failed
      | retried more => exact more
    have one : (1 : BitVec 64).toNat = 1 := rfl
    rw [more, BitVec.toNat_add, BitVec.toNat_add, BitVec.toNat_add, one]
    omega

/-! ## A failed donation -/

/-- No limit on the runtime is reached in this iteration. -/
structure Unlimited (outcome : Outcome) : Prop where
  before : outcome.overBefore = false
  after : outcome.overAfter = false
  delay : outcome.overAtDelay = false

/-- Whenever a donation session fails, the loop goes on and starts a user session next. -/
def SurvivesFailedDonation (config : MainConfig) (seed : BitVec 64) : Prop :=
  ∀ (outcomes : List Outcome) (outcome next : Outcome) (session : Session),
    (∀ o ∈ outcomes ++ [outcome, next], Unlimited o) →
    (mainRun config seed (outcomes ++ [outcome])).2 = (mainRun config seed outcomes).2 ++ [session] →
    session.donating = true → session.rc ≠ 0 →
    (mainRun config seed (outcomes ++ [outcome])).1.exited = false ∧
      ∃ later, (mainRun config seed (outcomes ++ [outcome, next])).2 =
        (mainRun config seed (outcomes ++ [outcome])).2 ++ [later] ∧ later.donating = false

/-- A donation only ever starts with the counter reset. -/
structure Fresh (config : MainConfig) (s : MainState) : Prop where
  enabled : s.donating = true → donationEnabled config = true
  attempt : s.donating = true → s.attempt = 0

theorem fresh_run (config : MainConfig) (seed : BitVec 64) (outcomes : List Outcome) :
    Fresh config (mainRun config seed outcomes).1 := by
  refine Machine.exec_invariant (mainStep config) (mainInitial config seed)
    (fun _ s _ => Fresh config s) ⟨nofun, nofun⟩ ?_ outcomes
  intro outcomes outcome s sessions ih
  have user (s' : MainState) (isUser : s'.donating = false) :
      Fresh config (retrySession config s' outcome) := by
    obtain ⟨attempt, exited, isRetry⟩ := retrySession_eq config s' outcome
    rw [isRetry]
    constructor <;> (intro donating; simp [isUser] at donating)
  unfold mainStep
  split
  · exact ih
  · split
    · exact ⟨ih.enabled, ih.attempt⟩
    · unfold afterSession
      split
      · exact ⟨ih.enabled, ih.attempt⟩
      · split
        · rename_i done
          split
          · exact ⟨nofun, nofun⟩
          · exact ⟨fun _ => done.1, fun _ => rfl⟩
        · rename_i notDone
          split
          · exact user _ rfl
          · rename_i other
            have isUser : s.donating = false := by
              cases isDonating : s.donating with
              | false => rfl
              | true =>
                  exact absurd ⟨ih.enabled isDonating, by_contra fun failed => other ⟨isDonating, failed⟩⟩
                    notDone
            split
            · exact user _ isUser
            · exact user _ isUser

theorem retrySession_continues {config : MainConfig} {s : MainState} {outcome : Outcome}
    (unlimited : Unlimited outcome) (zero : s.attempt = 0) (limited : config.retries ≠ 0) :
    retrySession config s outcome = { s with attempt := 1 } := by
  have allowed : ¬(0 ≤ config.retries ∧ config.retries.toNat ≤ s.attempt.toNat) := by
    rw [zero, show (0 : BitVec 64).toNat = 0 from rfl]
    omega
  rw [retrySession, if_neg allowed, unlimited.delay, zero]
  rfl

/-- The iteration of a failed donation, with retries left. -/
theorem step_failed_donation {config : MainConfig} {s : MainState} {outcome : Outcome}
    (running : s.exited = false) (donating : s.donating = true) (zero : s.attempt = 0)
    (failed : outcome.rc ≠ 0) (unlimited : Unlimited outcome) (limited : config.retries ≠ 0) :
    (mainStep config s outcome).1.exited = false ∧ (mainStep config s outcome).1.donating = false := by
  let taken : MainState :=
    { s with donating := false, phaseSeconds := donationPhaseSeconds config.donateLevel false }
  have stepped : (mainStep config s outcome).1 = retrySession config taken outcome := by
    have notDone : ¬(donationEnabled config = true ∧ outcome.rc = 0) := fun done => failed done.2
    rw [mainStep, if_neg (by simp [running]), if_neg (by simp [unlimited.before]), afterSession,
      if_neg (by simp [unlimited.after]), if_neg notDone, if_pos ⟨donating, failed⟩]
  rw [stepped, retrySession_continues (s := taken) unlimited zero limited]
  exact ⟨running, rfl⟩

/-- **A failed donation hands over to the user's mining exactly if the limit on retries is
not zero**: the donation starts with the counter at zero, and the limit is checked after
the message. -/
theorem donation_failure_survived_iff (config : MainConfig) (seed : BitVec 64) :
    SurvivesFailedDonation config seed ↔ config.retries ≠ 0 ∨ config.miningEnabled = false := by
  constructor
  · intro survives
    by_contra neither
    obtain ⟨isZero, isMining⟩ := not_or.mp neither
    have zero : config.retries = 0 := not_not.mp isZero
    have enabled : donationEnabled config = true := by
      have level := (level_bounds config.levelValid).1
      simp [donationEnabled, Bool.eq_true_of_not_eq_false isMining]
      omega
    let complete : Outcome := ⟨false, 0, false, false⟩
    let failed : Outcome := ⟨false, 1, false, false⟩
    obtain ⟨running, -⟩ := survives [complete] failed failed
      (startSession config (mainRun config seed [complete]).1 1)
      (by
        intro o member
        have cases_ : o = complete ∨ o = failed ∨ o = failed := by simpa using member
        rcases cases_ with rfl | rfl | rfl <;> exact ⟨rfl, rfl, rfl⟩)
      (by
        rw [mainRun, Machine.exec_snoc]
        simp [Machine.extend, mainRun, Machine.exec, mainStep, mainInitial, afterSession, enabled,
          complete, failed])
      (by
        simp [startSession, mainRun, Machine.exec, Machine.extend, mainStep, mainInitial, afterSession,
          enabled, complete])
      (show (1 : Int) ≠ 0 by decide)
    simp [mainRun, Machine.exec, Machine.extend, mainStep, mainInitial, afterSession, enabled, complete,
      failed, retrySession, zero] at running
  · intro condition outcomes outcome next session unlimited started donating failed
    have fresh := fresh_run config seed outcomes
    rw [mainRun, Machine.exec_snoc] at started
    have isSession : (mainStep config (mainRun config seed outcomes).1 outcome).2 = [session] :=
      List.append_cancel_left started
    have running : (mainRun config seed outcomes).1.exited = false := by
      cases exited : (mainRun config seed outcomes).1.exited with
      | false => rfl
      | true => simp [mainStep, exited] at isSession
    have first : Unlimited outcome := unlimited outcome (by simp)
    have second : Unlimited next := unlimited next (by simp)
    have shape : session = startSession config (mainRun config seed outcomes).1 outcome.rc := by
      simpa [mainStep, running, first.before] using isSession.symm
    rw [shape] at donating failed
    have isDonating : (mainRun config seed outcomes).1.donating = true := donating
    have isFailed : outcome.rc ≠ 0 := failed
    have limited : config.retries ≠ 0 := by
      refine condition.resolve_right fun off => ?_
      have enabled := fresh.enabled isDonating
      simp [donationEnabled, off] at enabled
    have after : (mainRun config seed (outcomes ++ [outcome])).1.exited = false ∧
        (mainRun config seed (outcomes ++ [outcome])).1.donating = false := by
      rw [mainRun, Machine.exec_snoc, Machine.extend]
      show (mainStep config (mainRun config seed outcomes).1 outcome).1.exited = false ∧
        (mainStep config (mainRun config seed outcomes).1 outcome).1.donating = false
      exact step_failed_donation running isDonating (fresh.attempt isDonating) isFailed first limited
    refine ⟨after.1, startSession config (mainRun config seed (outcomes ++ [outcome])).1 next.rc, ?_,
      after.2⟩
    rw [show outcomes ++ [outcome, next] = (outcomes ++ [outcome]) ++ [next] by simp, mainRun,
      Machine.exec_snoc, Machine.extend]
    show (mainRun config seed (outcomes ++ [outcome])).2 ++
      (mainStep config (mainRun config seed (outcomes ++ [outcome])).1 next).2 = _
    rw [mainStep, after.1, second.before]
    rfl

/-- One pool, and no retries. -/
def onceConfig : MainConfig where
  pools := [⟨CStr.empty room256, CStr.empty room256, CStr.empty room128, 0⟩]
  configured := by decide
  retries := 0
  miningEnabled := true
  donateLevel := 1
  levelValid := by decide

/-- The user's phase completes, the donation fails, and the program ends. -/
theorem failed_donation_ends : ¬SurvivesFailedDonation onceConfig 0 := by
  intro survives
  obtain ⟨running, -⟩ := survives [⟨false, 0, false, false⟩] ⟨false, 1, false, false⟩
    ⟨false, 0, false, false⟩ (startSession onceConfig (mainRun onceConfig 0 [⟨false, 0, false, false⟩]).1 1)
    (by
      intro o member
      simp only [List.cons_append, List.nil_append, List.mem_cons, List.not_mem_nil, or_false] at member
      rcases member with rfl | rfl | rfl <;> exact ⟨rfl, rfl, rfl⟩)
    rfl rfl (show (1 : Int) ≠ 0 by decide)
  contradiction

end BtcRig.Donation.Retry
