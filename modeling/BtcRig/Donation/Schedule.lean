/-
# BtcRig.Donation.Schedule — who is mined for, and for how long

The main loop runs one session after another, for the user or for the donation
address, and decides after each what comes next.  A session's length is fixed when
it starts; a session that fails is retried, for a user session with the same length.

* `client_full_phase`, `client_limited`: what the client loop makes of the length it
  is given;
* `Scheduled` is the invariant of the main loop, `Fair` its part about the sessions
  started so far, and `donation_schedule` what follows for every sequence of results.

Times are exact rationals.  The one rounding that can occur, in the length of the
first phase, is monotone and cannot take it below the half that is exact.
-/
import BtcRig.Mining.Job
import BtcRig.Theory.Machine

namespace BtcRig.Donation.Schedule

open BtcRig.Theory
open BtcRig.Mining.Job

set_option autoImplicit false

/-! ## Phases -/

def donationMinimumLevel : Int := 1
def donationCycleMinutes : Int := 100

def donationUser : CStr 256 := ⟨"bc1qqz0wutk9kk5mmaf7fu4dm5w4fq4fhaah9hpzr3".toList, by decide⟩

def donationLevelValid (level : Int) : Bool :=
  level ≥ donationMinimumLevel && level < donationCycleMinutes

def donationPhaseSeconds (level : Int) (donating : Bool) : ℚ :=
  let minutes := if donating then level else donationCycleMinutes - level
  minutes * 60

/-- `seed` is the mixed value of clock and process id. -/
def donationInitialUserSeconds (level : Int) (seed : BitVec 64) : ℚ :=
  let unit : ℚ := (seed >>> 11).toNat / 9007199254740992
  donationPhaseSeconds level false * (1 / 2 + unit)

theorem level_bounds {level : Int} (valid : donationLevelValid level = true) :
    1 ≤ level ∧ level < 100 := by
  simp only [donationLevelValid, donationMinimumLevel, donationCycleMinutes, ge_iff_le,
    Bool.and_eq_true] at valid
  exact ⟨of_decide_eq_true valid.1, of_decide_eq_true valid.2⟩

theorem userPhase_pos {level : Int} (valid : donationLevelValid level = true) :
    0 < donationPhaseSeconds level false := by
  have bounds := level_bounds valid
  have minutes : (0 : ℚ) < ((100 - level : Int) : ℚ) := by
    exact_mod_cast (by omega : 0 < 100 - level)
  exact mul_pos minutes (by norm_num)

theorem donationPhase_pos {level : Int} (valid : donationLevelValid level = true) :
    0 < donationPhaseSeconds level true := by
  have bounds := level_bounds valid
  have minutes : (0 : ℚ) < (level : ℚ) := by
    exact_mod_cast (by omega : 0 < level)
  exact mul_pos minutes (by norm_num)

theorem half_le_initial {level : Int} (valid : donationLevelValid level = true) (seed : BitVec 64) :
    donationPhaseSeconds level false / 2 ≤ donationInitialUserSeconds level seed := by
  have positive := (userPhase_pos valid).le
  have unit : (0 : ℚ) ≤ (seed >>> 11).toNat / 9007199254740992 := by positivity
  rw [donationInitialUserSeconds, mul_add, mul_one_div]
  exact le_add_of_nonneg_right (mul_nonneg positive unit)

/-! ## The client loop and its clock -/

inductive ReadResult where
  | timeout
  | closed
  | failed
  | line
deriving DecidableEq

/-- One iteration of the client loop: the clock where it is read, and what the calls
and the pool's line bring. -/
structure Turn where
  runtimeNow : ℚ
  sessionNow : ℚ
  flushed : Bool
  read : ReadResult
  /-- Were the authorize and difficulty requests, if due, sent? -/
  requestsSent : Bool
  authorized : Bool
  notifyCount : Nat
  startNow : ℚ
  started : 0 ≤ startNow

structure Client where
  sessionStopAt : ℚ
  /-- The return value, once the loop is left. -/
  result : Option Int

/-- Whether the iteration got past the two clock checks is its output. -/
def clientStep (stopAt sessionSeconds : ℚ) (c : Client) (turn : Turn) : Client × List Turn :=
  match c.result with
  | some _ => (c, [])
  | none =>
      if stopAt > 0 ∧ turn.runtimeNow ≥ stopAt then ({ c with result := some 0 }, [])
      else if c.sessionStopAt > 0 ∧ turn.sessionNow ≥ c.sessionStopAt then
        ({ c with result := some 0 }, [])
      else if !turn.flushed then ({ c with result := some 1 }, [turn])
      else
        match turn.read with
        | .timeout => (c, [turn])
        | .closed => ({ c with result := some 1 }, [turn])
        | .failed => ({ c with result := some 1 }, [turn])
        | .line =>
            if !turn.requestsSent then ({ c with result := some 1 }, [turn])
            else if c.sessionStopAt = 0 ∧ sessionSeconds > 0 ∧ turn.authorized ∧ turn.notifyCount > 0 then
              ({ c with sessionStopAt := turn.startNow + sessionSeconds }, [turn])
            else (c, [turn])

def clientInitial : Client := ⟨0, none⟩

def clientRun (stopAt sessionSeconds : ℚ) (turns : List Turn) : Client × List Turn :=
  Machine.exec (clientStep stopAt sessionSeconds) clientInitial turns

/-- In this turn a line came, what was due went out, and the pool has authorized the
user and sent a job. -/
def Active (turn : Turn) : Prop :=
  turn.flushed = true ∧ turn.read = .line ∧ turn.requestsSent = true ∧ turn.authorized = true ∧
    0 < turn.notifyCount

/-- The period, once it has started: in turn `first`, the first active one, and every
turn since came before its end. -/
def Period (sessionSeconds : ℚ) (ran : List Turn) (first : Turn) : Prop :=
  ∃ before after, ran = before ++ first :: after ∧ Active first ∧
    (∀ turn ∈ before, ¬Active turn) ∧
    ∀ turn ∈ after, turn.sessionNow < first.startNow + sessionSeconds

structure Timed (stopAt sessionSeconds : ℚ) (turns : List Turn) (c : Client) (ran : List Turn) :
    Prop where
  nonneg : 0 ≤ c.sessionStopAt
  waiting : c.sessionStopAt = 0 → ∀ turn ∈ ran, ¬Active turn
  started : c.sessionStopAt ≠ 0 → ∃ first, Period sessionSeconds ran first ∧
    c.sessionStopAt = first.startNow + sessionSeconds
  zero : c.result = some 0 → (∃ turn ∈ turns, 0 < stopAt ∧ stopAt ≤ turn.runtimeNow) ∨
    (0 < c.sessionStopAt ∧ ∃ turn ∈ turns, c.sessionStopAt ≤ turn.sessionNow)

/-- A turn before the end still belongs to the period. -/
theorem Period.snoc {sessionSeconds : ℚ} {ran : List Turn} {first turn : Turn}
    (period : Period sessionSeconds ran first)
    (early : turn.sessionNow < first.startNow + sessionSeconds) :
    Period sessionSeconds (ran ++ [turn]) first := by
  obtain ⟨before, after, isRan, active, idle, limited⟩ := period
  refine ⟨before, after ++ [turn], by rw [isRan]; simp, active, idle, fun turn' member => ?_⟩
  rcases List.mem_append.mp member with old | new
  · exact limited turn' old
  · rw [List.mem_singleton.mp new]
    exact early

/-- A turn that got past the clock checks without starting the period. -/
theorem Timed.went {stopAt sessionSeconds : ℚ} {turns ran : List Turn} {c : Client} {turn : Turn}
    (inv : Timed stopAt sessionSeconds turns c ran) (result : Option Int)
    (early : ¬(c.sessionStopAt > 0 ∧ turn.sessionNow ≥ c.sessionStopAt))
    (idle : c.sessionStopAt = 0 → ¬Active turn) (nonzero : result ≠ some 0) :
    Timed stopAt sessionSeconds (turns ++ [turn]) { c with result := result } (ran ++ [turn]) where
  nonneg := inv.nonneg
  waiting := by
    intro unset turn' member
    rcases List.mem_append.mp member with old | new
    · exact inv.waiting unset turn' old
    · rw [List.mem_singleton.mp new]
      exact idle unset
  started := by
    intro isSet
    obtain ⟨first, period, isStop⟩ := inv.started isSet
    refine ⟨first, period.snoc ?_, isStop⟩
    rw [← isStop]
    by_contra late
    exact early ⟨lt_of_le_of_ne inv.nonneg (Ne.symm isSet), not_lt.mp late⟩
  zero := fun isZero => absurd isZero nonzero

/-- A turn that changed nothing, or only ended the loop at one of the clock checks. -/
theorem Timed.idled {stopAt sessionSeconds : ℚ} {turns ran : List Turn} {c : Client}
    (inv : Timed stopAt sessionSeconds turns c ran) (turn : Turn) (result : Option Int)
    (ended : result = some 0 → (∃ turn' ∈ turns ++ [turn], 0 < stopAt ∧ stopAt ≤ turn'.runtimeNow) ∨
      (0 < c.sessionStopAt ∧ ∃ turn' ∈ turns ++ [turn], c.sessionStopAt ≤ turn'.sessionNow)) :
    Timed stopAt sessionSeconds (turns ++ [turn]) { c with result := result } (ran ++ []) := by
  rw [List.append_nil]
  exact ⟨inv.nonneg, inv.waiting, inv.started, ended⟩

/-- What one turn does to the session clock. -/
theorem timed_step {stopAt sessionSeconds : ℚ} {turns ran : List Turn} {c : Client}
    (inv : Timed stopAt sessionSeconds turns c ran) (turn : Turn) (positive : 0 < sessionSeconds) :
    Timed stopAt sessionSeconds (turns ++ [turn]) (clientStep stopAt sessionSeconds c turn).1
      (ran ++ (clientStep stopAt sessionSeconds c turn).2) := by
  have stays (early : ¬(c.sessionStopAt > 0 ∧ turn.sessionNow ≥ c.sessionStopAt))
      (idle : c.sessionStopAt = 0 → ¬Active turn) (running : c.result = none) :
      Timed stopAt sessionSeconds (turns ++ [turn]) c (ran ++ [turn]) := by
    have went := inv.went none early idle nofun
    rw [← running] at went
    exact went
  unfold clientStep
  cases running : c.result with
  | some result =>
      have idled := inv.idled turn c.result fun isZero => (inv.zero isZero).imp
        (fun ⟨turn', member, holds⟩ => ⟨turn', List.mem_append_left _ member, holds⟩)
        (fun ⟨isSet, turn', member, holds⟩ => ⟨isSet, turn', List.mem_append_left _ member, holds⟩)
      exact idled
  | none =>
      simp only
      split
      · rename_i ended
        exact inv.idled turn (some 0) fun _ => .inl ⟨turn, by simp, ended⟩
      · split
        · rename_i complete
          exact inv.idled turn (some 0) fun _ => .inr ⟨complete.1, turn, by simp, complete.2⟩
        · rename_i early
          split
          · rename_i unflushed
            exact inv.went (some 1) early (fun _ active => by simp [active.1] at unflushed) nofun
          · cases isRead : turn.read with
            | timeout =>
                exact stays early (fun _ active => absurd (isRead.symm.trans active.2.1) nofun) running
            | closed =>
                exact inv.went (some 1) early
                  (fun _ active => absurd (isRead.symm.trans active.2.1) nofun) nofun
            | failed =>
                exact inv.went (some 1) early
                  (fun _ active => absurd (isRead.symm.trans active.2.1) nofun) nofun
            | line =>
                rename_i flushed
                simp only
                split
                · rename_i unsent
                  exact inv.went (some 1) early
                    (fun _ active => by simp [active.2.2.1] at unsent) nofun
                · rename_i sent
                  split
                  · rename_i starts
                    obtain ⟨unset, -, authorized, notified⟩ := starts
                    have active : Active turn :=
                      ⟨by simpa using flushed, isRead, by simpa using sent, authorized, notified⟩
                    have later : 0 < turn.startNow + sessionSeconds :=
                      add_pos_of_nonneg_of_pos turn.started positive
                    refine ⟨later.le, fun unset' => absurd unset' later.ne', fun _ => ?_, ?_⟩
                    · exact ⟨turn, ⟨ran, [], rfl, active, inv.waiting unset, fun _ => nofun⟩, rfl⟩
                    · intro isZero
                      exact absurd isZero nofun
                  · rename_i idle
                    exact stays early
                      (fun unset active => idle ⟨unset, positive, active.2.2.2⟩) running

theorem timed_run (stopAt : ℚ) {sessionSeconds : ℚ} (positive : 0 < sessionSeconds)
    (turns : List Turn) :
    Timed stopAt sessionSeconds turns (clientRun stopAt sessionSeconds turns).1
      (clientRun stopAt sessionSeconds turns).2 := by
  refine Machine.exec_invariant (clientStep stopAt sessionSeconds) clientInitial
    (Timed stopAt sessionSeconds) ?_ ?_ turns
  · exact ⟨le_rfl, fun _ _ => nofun, fun isSet => absurd rfl isSet, nofun⟩
  · intro turns turn c ran inv
    exact timed_step inv turn positive

/-- A session's turns are limited to its length, counted from its first active turn.  A session
that is never authorized or never given a job has no active turn, and so no limit. -/
def Limited (sessionSeconds : ℚ) : Prop :=
  ∀ (stopAt : ℚ) (turns : List Turn),
    (∀ turn ∈ (clientRun stopAt sessionSeconds turns).2, ¬Active turn) ∨
      ∃ first, Period sessionSeconds (clientRun stopAt sessionSeconds turns).2 first

/-- A session that returns 0 has been active for its full length, unless the program's
own runtime is over. -/
def FullPhase (sessionSeconds : ℚ) : Prop :=
  ∀ (stopAt : ℚ) (turns : List Turn), (clientRun stopAt sessionSeconds turns).1.result = some 0 →
    (∃ turn ∈ turns, 0 < stopAt ∧ stopAt ≤ turn.runtimeNow) ∨
      ∃ first, Period sessionSeconds (clientRun stopAt sessionSeconds turns).2 first ∧
        ∃ last ∈ turns, first.startNow + sessionSeconds ≤ last.sessionNow

/-- The coarse session keeps its limit. -/
theorem client_limited {sessionSeconds : ℚ} (positive : 0 < sessionSeconds) :
    Limited sessionSeconds := by
  intro stopAt turns
  have inv := timed_run stopAt positive turns
  by_cases unset : (clientRun stopAt sessionSeconds turns).1.sessionStopAt = 0
  · exact .inl (inv.waiting unset)
  · obtain ⟨first, period, -⟩ := inv.started unset
    exact .inr ⟨first, period⟩

/-- And a result of 0 means a full phase. -/
theorem client_full_phase {sessionSeconds : ℚ} (positive : 0 < sessionSeconds) :
    FullPhase sessionSeconds := by
  intro stopAt turns isZero
  have inv := timed_run stopAt positive turns
  rcases inv.zero isZero with ended | ⟨isSet, last, member, complete⟩
  · exact .inl ended
  · obtain ⟨first, period, isStop⟩ := inv.started isSet.ne'
    exact .inr ⟨first, period, last, member, isStop ▸ complete⟩

/-! ## The main loop -/

structure PoolConfig where
  url : CStr 256
  user : CStr 256
  pass : CStr 128
  difficulty : ℚ
deriving DecidableEq

/-- What the loop reads of the configuration, with what the program has checked
before it gets there. -/
structure MainConfig where
  pools : List PoolConfig
  configured : 0 < pools.length
  retries : Int
  miningEnabled : Bool
  donateLevel : Int
  levelValid : donationLevelValid donateLevel = true

def donationEnabled (config : MainConfig) : Bool := config.miningEnabled && config.donateLevel > 0

structure MainState where
  poolIndex : Nat
  donating : Bool
  phaseSeconds : ℚ
  attempt : BitVec 64
  exited : Bool

/-- One iteration of the loop: whether the runtime is over where it is checked, and
what the session returns. -/
structure Outcome where
  overBefore : Bool
  rc : Int
  overAfter : Bool
  overAtDelay : Bool

/-- A started session, as `stratum_run_client` is called for it, and its result. -/
structure Session where
  donating : Bool
  poolIndex : Nat
  pool : PoolConfig
  sessionSeconds : ℚ
  rc : Int
deriving DecidableEq

/-- The pool of a session; an index outside the table would read past it. -/
def sessionPool (config : MainConfig) (s : MainState) : PoolConfig :=
  let pool := config.pools.getD s.poolIndex ⟨CStr.empty room256, CStr.empty room256,
    CStr.empty room128, 0⟩
  if s.donating then { pool with user := donationUser } else pool

def startSession (config : MainConfig) (s : MainState) (rc : Int) : Session :=
  ⟨s.donating, s.poolIndex, sessionPool config s, s.phaseSeconds, rc⟩

def retrySession (config : MainConfig) (s : MainState) (outcome : Outcome) : MainState :=
  if 0 ≤ config.retries ∧ config.retries.toNat ≤ s.attempt.toNat then { s with exited := true }
  else if outcome.overAtDelay then { s with exited := true }
  else { s with attempt := s.attempt + 1 }

def afterSession (config : MainConfig) (s : MainState) (outcome : Outcome) : MainState :=
  if outcome.overAfter then { s with exited := true }
  else if donationEnabled config ∧ outcome.rc = 0 then
    if s.donating then
      { s with donating := false, phaseSeconds := donationPhaseSeconds config.donateLevel false, attempt := 0 }
    else
      { s with donating := true, phaseSeconds := donationPhaseSeconds config.donateLevel true, attempt := 0 }
  else if s.donating ∧ outcome.rc ≠ 0 then
    retrySession config
      { s with donating := false, phaseSeconds := donationPhaseSeconds config.donateLevel false } outcome
  else if config.pools.length > 1 then
    retrySession config { s with poolIndex := (s.poolIndex + 1) % config.pools.length } outcome
  else retrySession config s outcome

def mainStep (config : MainConfig) (s : MainState) (outcome : Outcome) : MainState × List Session :=
  if s.exited then (s, [])
  else if outcome.overBefore then ({ s with exited := true }, [])
  else (afterSession config s outcome, [startSession config s outcome.rc])

def mainInitial (config : MainConfig) (seed : BitVec 64) : MainState :=
  ⟨0, false,
    if donationEnabled config then donationInitialUserSeconds config.donateLevel seed else 0, 0, false⟩

def mainRun (config : MainConfig) (seed : BitVec 64) (outcomes : List Outcome) :
    MainState × List Session :=
  Machine.exec (mainStep config) (mainInitial config seed) outcomes

/-- The user's phases that came to their end. -/
def completed (sessions : List Session) : List Session :=
  sessions.filter fun session => !session.donating && session.rc == 0

/-- A retry changes only the attempt, or ends the program. -/
theorem retrySession_eq (config : MainConfig) (s : MainState) (outcome : Outcome) :
    ∃ attempt exited, retrySession config s outcome = { s with attempt := attempt, exited := exited } := by
  unfold retrySession
  split
  · exact ⟨s.attempt, true, rfl⟩
  · split
    · exact ⟨s.attempt, true, rfl⟩
    · exact ⟨s.attempt + 1, s.exited, rfl⟩

/-- What the loop can do after a session: leave, change sides, take the donation back,
or stay on its side with some pool of the table. -/
inductive Moves (config : MainConfig) (s : MainState) (rc : Int) : MainState → Prop
  | leaves : Moves config s rc { s with exited := true }
  | toggles (enabled : donationEnabled config = true) (complete : rc = 0) :
      Moves config s rc { s with
        donating := !s.donating, phaseSeconds := donationPhaseSeconds config.donateLevel (!s.donating)
        attempt := 0 }
  | takesBack (attempt : BitVec 64) (exited : Bool) (donating : s.donating = true) (failed : rc ≠ 0) :
      Moves config s rc { s with
        donating := false, phaseSeconds := donationPhaseSeconds config.donateLevel false
        attempt := attempt, exited := exited }
  | retries (index : Nat) (attempt : BitVec 64) (exited : Bool)
      (other : ¬(donationEnabled config = true ∧ rc = 0)) (failed : ¬(s.donating = true ∧ rc ≠ 0))
      (inTable : s.poolIndex < config.pools.length → index < config.pools.length) :
      Moves config s rc { s with poolIndex := index, attempt := attempt, exited := exited }

/-- What the main loop does after a session. -/
theorem afterSession_moves (config : MainConfig) (s : MainState) (outcome : Outcome) :
    Moves config s outcome.rc (afterSession config s outcome) := by
  unfold afterSession
  split
  · exact .leaves
  · split
    · rename_i complete
      have toggles := Moves.toggles (s := s) complete.1 complete.2
      split
      · rename_i donating
        rw [donating] at toggles
        exact toggles
      · rename_i user
        rw [Bool.eq_false_iff.mpr user] at toggles
        exact toggles
    · rename_i other
      split
      · rename_i donating
        obtain ⟨attempt, exited, isRetry⟩ := retrySession_eq config
          { s with donating := false, phaseSeconds := donationPhaseSeconds config.donateLevel false } outcome
        rw [isRetry]
        exact .takesBack attempt exited donating.1 donating.2
      · rename_i failed
        split
        · obtain ⟨attempt, exited, isRetry⟩ := retrySession_eq config
            { s with poolIndex := (s.poolIndex + 1) % config.pools.length } outcome
          rw [isRetry]
          exact .retries _ attempt exited other failed fun _ => Nat.mod_lt _ config.configured
        · obtain ⟨attempt, exited, isRetry⟩ := retrySession_eq config s outcome
          rw [isRetry]
          exact .retries s.poolIndex attempt exited other failed id

/-! ## The schedule -/

/-- The later of two consecutive sessions donates only after a completed user phase, and
a donation does not move on to another pool. -/
def Succeeds (earlier later : Session) : Prop :=
  (later.donating = true → earlier.donating = false ∧ earlier.rc = 0) ∧
    (earlier.donating = true → later.poolIndex = earlier.poolIndex)

def UsesPool (config : MainConfig) (session : Session) : Prop :=
  ∃ pool, config.pools[session.poolIndex]? = some pool ∧
    session.pool = if session.donating then { pool with user := donationUser } else pool

/-- Completed phases: the first of at least `full / 2` seconds, each later one of `full`. -/
def PhaseLengths (full : ℚ) (phases : List Session) : Prop :=
  ∀ first later, phases = first :: later →
    full / 2 ≤ first.sessionSeconds ∧ ∀ session ∈ later, session.sessionSeconds = full

def donations (sessions : List Session) : Nat := sessions.countP (·.donating)

/-- What the loop knows when it is about to start a session. -/
structure Ready (config : MainConfig) (seed : BitVec 64) (s : MainState) (sessions : List Session) :
    Prop where
  enabled : s.donating = true → donationEnabled config = true
  earned : s.donating = true → ∃ last, sessions.getLast? = some last ∧ last.donating = false ∧ last.rc = 0
  donated : s.donating = true → s.phaseSeconds = donationPhaseSeconds config.donateLevel true
  first : donationEnabled config = true → s.donating = false → completed sessions = [] →
    s.phaseSeconds = donationInitialUserSeconds config.donateLevel seed
  later : donationEnabled config = true → s.donating = false → completed sessions ≠ [] →
    s.phaseSeconds = donationPhaseSeconds config.donateLevel false
  off : donationEnabled config = false → s.phaseSeconds = 0
  ahead : donations sessions + s.donating.toNat ≤ (completed sessions).length

/-- What holds of the sessions started so far. -/
structure Fair (config : MainConfig) (sessions : List Session) : Prop where
  opening : ∀ first ∈ sessions.head?, first.donating = false
  chain : sessions.IsChain Succeeds
  pools : ∀ session ∈ sessions, UsesPool config session
  donated : ∀ session ∈ sessions, session.donating = true →
    session.sessionSeconds = donationPhaseSeconds config.donateLevel true
  lengths : donationEnabled config = true →
    PhaseLengths (donationPhaseSeconds config.donateLevel false) (completed sessions)
  off : donationEnabled config = false →
    ∀ session ∈ sessions, session.donating = false ∧ session.sessionSeconds = 0
  ahead : donations sessions ≤ (completed sessions).length

structure Scheduled (config : MainConfig) (seed : BitVec 64) (s : MainState) (sessions : List Session) :
    Prop where
  index : s.poolIndex < config.pools.length
  kept : ∀ last ∈ sessions.getLast?, last.donating = true → s.poolIndex = last.poolIndex
  fair : Fair config sessions
  ready : s.exited = false → Ready config seed s sessions

theorem PhaseLengths.snoc {full : ℚ} {phases : List Session} {session : Session}
    (lengths : PhaseLengths full phases)
    (first : phases = [] → full / 2 ≤ session.sessionSeconds)
    (later : phases ≠ [] → session.sessionSeconds = full) :
    PhaseLengths full (phases ++ [session]) := by
  intro first' later' isPhases
  cases phases with
  | nil =>
      obtain ⟨rfl, rfl⟩ := List.cons.inj isPhases
      exact ⟨first rfl, fun _ => nofun⟩
  | cons phase phases =>
      obtain ⟨rfl, rfl⟩ := List.cons.inj isPhases
      have old := lengths phase phases rfl
      refine ⟨old.1, fun session' member => ?_⟩
      rcases List.mem_append.mp member with isOld | isNew
      · exact old.2 session' isOld
      · rw [List.mem_singleton.mp isNew]
        exact later nofun

/-- Phases of which only the first may be short last at least so long together. -/
theorem PhaseLengths.sum_ge {full : ℚ} {phases : List Session} (lengths : PhaseLengths full phases)
    (nonneg : 0 ≤ full) : (phases.length - 1 / 2) * full ≤ (phases.map (·.sessionSeconds)).sum := by
  cases phases with
  | nil => simp only [List.length_nil, List.map_nil, List.sum_nil, Nat.cast_zero]; linarith
  | cons first later =>
      obtain ⟨half, isFull⟩ := lengths first later rfl
      have rest : (later.map (·.sessionSeconds)).sum = later.length * full := by
        rw [List.map_congr_left isFull, List.map_const', List.sum_replicate, nsmul_eq_mul]
      rw [List.map_cons, List.sum_cons, rest, List.length_cons]
      push_cast
      linarith

theorem completed_snoc (sessions : List Session) (session : Session) :
    completed (sessions ++ [session]) =
      completed sessions ++ if session.donating = false ∧ session.rc = 0 then [session] else [] := by
  unfold completed
  rw [List.filter_append]
  by_cases complete : session.donating = false ∧ session.rc = 0
  · simp [complete]
  · simp only [not_and_or, Bool.not_eq_false] at complete
    rcases complete with donating | failed
    · simp [donating]
    · simp [failed]

theorem donations_snoc (sessions : List Session) (session : Session) :
    donations (sessions ++ [session]) = donations sessions + session.donating.toNat := by
  unfold donations
  cases isDonating : session.donating <;> simp [isDonating]

theorem startSession_usesPool {config : MainConfig} {s : MainState} (rc : Int)
    (index : s.poolIndex < config.pools.length) : UsesPool config (startSession config s rc) := by
  refine ⟨config.pools[s.poolIndex], List.getElem?_eq_getElem index, ?_⟩
  have isPool (default : PoolConfig) : config.pools.getD s.poolIndex default = config.pools[s.poolIndex] := by
    rw [List.getD_eq_getElem?_getD, List.getElem?_eq_getElem index, Option.getD_some]
  simp only [startSession, sessionPool, isPool]

theorem Scheduled.succeeds {config : MainConfig} {seed : BitVec 64} {s : MainState}
    {sessions : List Session} (inv : Scheduled config seed s sessions) (running : s.exited = false)
    (rc : Int) : ∀ last ∈ sessions.getLast?, Succeeds last (startSession config s rc) := by
  intro last isLast
  refine ⟨fun donating => ?_, inv.kept last isLast⟩
  obtain ⟨last', isLast', user, complete⟩ := (inv.ready running).earned donating
  have same : last = last' := Option.some.inj (isLast.symm.trans isLast')
  exact same ▸ ⟨user, complete⟩

/-- Starting the session the state asks for keeps the sessions fair. -/
theorem Scheduled.started {config : MainConfig} {seed : BitVec 64} {s : MainState}
    {sessions : List Session} (inv : Scheduled config seed s sessions) (running : s.exited = false)
    (rc : Int) : Fair config (sessions ++ [startSession config s rc]) where
  opening := by
    intro first isFirst
    cases sessions with
    | nil =>
        obtain rfl : startSession config s rc = first := by simpa using isFirst
        by_contra donating
        obtain ⟨last, isLast, -⟩ := (inv.ready running).earned (eq_true_of_ne_false donating)
        simp at isLast
    | cons session sessions => exact inv.fair.opening first (by simpa using isFirst)
  chain := by
    refine List.isChain_append.mpr ⟨inv.fair.chain, List.isChain_singleton _, ?_⟩
    intro last isLast session isSession
    obtain rfl : startSession config s rc = session := by simpa using isSession
    exact inv.succeeds running rc last isLast
  pools := by
    intro session member
    rcases List.mem_append.mp member with old | new
    · exact inv.fair.pools session old
    · rw [List.mem_singleton.mp new]
      exact startSession_usesPool rc inv.index
  donated := by
    intro session member donating
    rcases List.mem_append.mp member with old | new
    · exact inv.fair.donated session old donating
    · rw [List.mem_singleton.mp new] at donating ⊢
      exact (inv.ready running).donated donating
  lengths := by
    intro enabled
    rw [completed_snoc]
    split
    · rename_i complete
      refine (inv.fair.lengths enabled).snoc (fun none_ => ?_) (fun some_ => ?_)
      · have isFirst := (inv.ready running).first enabled complete.1 none_
        exact (half_le_initial config.levelValid seed).trans isFirst.ge
      · exact (inv.ready running).later enabled complete.1 some_
    · rw [List.append_nil]
      exact inv.fair.lengths enabled
  off := by
    intro disabled session member
    rcases List.mem_append.mp member with old | new
    · exact inv.fair.off disabled session old
    · rw [List.mem_singleton.mp new]
      refine ⟨Bool.eq_false_iff.mpr fun donating => ?_, (inv.ready running).off disabled⟩
      exact absurd (((inv.ready running).enabled donating).symm.trans disabled) nofun
  ahead := by
    have ahead : donations sessions + (startSession config s rc).donating.toNat ≤ (completed sessions).length :=
      (inv.ready running).ahead
    rw [donations_snoc, completed_snoc, List.length_append]
    exact ahead.trans (Nat.le_add_right _ _)

theorem Ready.completed_ne_nil {config : MainConfig} {seed : BitVec 64} {s : MainState}
    {sessions : List Session} (ready : Ready config seed s sessions) (donating : s.donating = true)
    (more : List Session) : completed sessions ++ more ≠ [] := by
  intro none_
  have ahead := ready.ahead
  rw [(List.append_eq_nil_iff.mp none_).1, donating] at ahead
  simp at ahead

/-- Whatever the loop does after a session, if it goes on it is ready for the next. -/
theorem Ready.moved {config : MainConfig} {seed : BitVec 64} {s : MainState} {sessions : List Session}
    (ready : Ready config seed s sessions) {rc : Int} {s' : MainState}
    (moves : Moves config s rc s') (stays : s'.exited = false) :
    Ready config seed s' (sessions ++ [startSession config s rc]) := by
  have isLast : (sessions ++ [startSession config s rc]).getLast? = some (startSession config s rc) :=
    List.getLast?_concat
  have sides : (startSession config s rc).donating = s.donating := rfl
  have result : (startSession config s rc).rc = rc := rfl
  have ahead := ready.ahead
  cases moves with
  | leaves => exact absurd stays nofun
  | toggles enabled complete =>
      have off (disabled : donationEnabled config = false) : donationPhaseSeconds config.donateLevel
          (!s.donating) = 0 := absurd (enabled.symm.trans disabled) nofun
      cases isDonating : s.donating with
      | false =>
          rw [isDonating] at sides
          refine ⟨fun _ => enabled, fun _ => ⟨_, isLast, sides, complete⟩, fun _ => rfl, nofun, nofun,
            isDonating ▸ off, ?_⟩
          rw [donations_snoc, completed_snoc, if_pos ⟨sides, complete⟩, List.length_append, sides]
          rw [isDonating] at ahead
          exact Nat.add_le_add_right ahead 1
      | true =>
          rw [isDonating] at sides ahead
          refine ⟨nofun, nofun, nofun, fun _ _ none_ => ?_, fun _ _ _ => rfl, isDonating ▸ off, ?_⟩
          · rw [completed_snoc] at none_
            exact absurd none_ (ready.completed_ne_nil isDonating _)
          · rw [donations_snoc, completed_snoc, List.length_append, sides]
            exact ahead.trans (Nat.le_add_right _ _)
  | takesBack attempt exited donating failed =>
      rw [donating] at sides ahead
      refine ⟨nofun, nofun, nofun, fun _ _ none_ => ?_, fun _ _ _ => rfl, fun disabled => ?_, ?_⟩
      · rw [completed_snoc] at none_
        exact absurd none_ (ready.completed_ne_nil donating _)
      · exact absurd ((ready.enabled donating).symm.trans disabled) nofun
      · rw [donations_snoc, completed_snoc, List.length_append, sides]
        exact ahead.trans (Nat.le_add_right _ _)
  | retries index attempt exited other failed inTable =>
      -- a donation that returned 0 has toggled, one that failed has been taken back
      have user : s.donating = false := by
        by_contra donating
        have donating : s.donating = true := eq_true_of_ne_false donating
        exact failed ⟨donating, fun complete => other ⟨ready.enabled donating, complete⟩⟩
      have same (enabled : donationEnabled config = true) :
          completed (sessions ++ [startSession config s rc]) = completed sessions := by
        rw [completed_snoc, if_neg fun complete => other ⟨enabled, complete.2⟩, List.append_nil]
      have none_ {P : Prop} (donating : s.donating = true) : P := absurd (user.symm.trans donating) nofun
      refine ⟨none_, none_, none_, fun enabled _ => ?_, fun enabled _ => ?_, ready.off, ?_⟩
      · rw [same enabled]
        exact ready.first enabled user
      · rw [same enabled]
        exact ready.later enabled user
      · rw [donations_snoc, completed_snoc, List.length_append, sides, user]
        rw [user] at ahead
        exact ahead.trans (Nat.le_add_right _ _)

theorem Moves.kept {config : MainConfig} {s s' : MainState} {rc : Int} (moves : Moves config s rc s')
    (enabled : s.donating = true → donationEnabled config = true) (donating : s.donating = true) :
    s'.poolIndex = s.poolIndex := by
  cases moves with
  | leaves => rfl
  | toggles => rfl
  | takesBack => rfl
  | retries index attempt exited other failed =>
      exact absurd ⟨donating, fun complete => other ⟨enabled donating, complete⟩⟩ failed

theorem Moves.inTable {config : MainConfig} {s s' : MainState} {rc : Int} (moves : Moves config s rc s')
    (index : s.poolIndex < config.pools.length) : s'.poolIndex < config.pools.length := by
  cases moves with
  | leaves => exact index
  | toggles => exact index
  | takesBack => exact index
  | retries _ _ _ _ _ inTable => exact inTable index

/-- Every pass of the main loop keeps the schedule. -/
theorem scheduled_step {config : MainConfig} {seed : BitVec 64} {s : MainState}
    {sessions : List Session} (inv : Scheduled config seed s sessions) (outcome : Outcome) :
    Scheduled config seed (mainStep config s outcome).1
      (sessions ++ (mainStep config s outcome).2) := by
  unfold mainStep
  split
  · rw [List.append_nil]
    exact inv
  · rename_i isRunning
    have running : s.exited = false := Bool.eq_false_iff.mpr isRunning
    split
    · rw [List.append_nil]
      exact ⟨inv.index, inv.kept, inv.fair, nofun⟩
    · have moves := afterSession_moves config s outcome
      refine ⟨moves.inTable inv.index, fun last isLast donating => ?_, inv.started running outcome.rc,
        (inv.ready running).moved moves⟩
      rw [List.getLast?_concat] at isLast
      obtain rfl : startSession config s outcome.rc = last := Option.some.inj isLast
      exact moves.kept (inv.ready running).enabled donating

theorem scheduled_run (config : MainConfig) (seed : BitVec 64) (outcomes : List Outcome) :
    Scheduled config seed (mainRun config seed outcomes).1 (mainRun config seed outcomes).2 := by
  refine Machine.exec_invariant (mainStep config) (mainInitial config seed)
    (fun _ => Scheduled config seed) ?_ ?_ outcomes
  · refine ⟨config.configured, fun _ => nofun, ?_, fun _ => ?_⟩
    · exact ⟨fun _ => nofun, List.isChain_nil, fun _ => nofun, fun _ => nofun, fun _ _ _ => nofun,
        fun _ _ => nofun, le_rfl⟩
    · refine ⟨nofun, nofun, nofun, fun enabled _ _ => if_pos enabled, fun _ _ some_ => absurd rfl some_,
        fun disabled => if_neg ?_, le_rfl⟩
      exact Bool.eq_false_iff.mp disabled
  · intro outcomes outcome s sessions inv
    exact scheduled_step inv outcome

theorem PhaseLengths.positive {full : ℚ} {phases : List Session} (lengths : PhaseLengths full phases)
    (positive : 0 < full) : ∀ session ∈ phases, 0 < session.sessionSeconds := by
  intro session member
  cases phases with
  | nil => exact absurd member List.not_mem_nil
  | cons first later =>
      obtain ⟨half, isFull⟩ := lengths first later rfl
      rcases List.mem_cons.mp member with rfl | isLater
      · exact (half_pos positive).trans_le half
      · exact (isFull session isLater).symm ▸ positive

/-- Completed user phases pay for the donations in advance. -/
theorem Fair.paid {config : MainConfig} {sessions : List Session} (fair : Fair config sessions) :
    (donations sessions - 1 / 2) * donationPhaseSeconds config.donateLevel false ≤
      ((completed sessions).map (·.sessionSeconds)).sum := by
  have positive := (userPhase_pos config.levelValid).le
  have ahead : (donations sessions : ℚ) ≤ (completed sessions).length := by
    exact_mod_cast fair.ahead
  cases enabled : donationEnabled config with
  | true =>
      calc (donations sessions - 1 / 2) * donationPhaseSeconds config.donateLevel false
          ≤ ((completed sessions).length - 1 / 2) * donationPhaseSeconds config.donateLevel false :=
            mul_le_mul_of_nonneg_right (by linarith) positive
        _ ≤ ((completed sessions).map (·.sessionSeconds)).sum := (fair.lengths enabled).sum_ge positive
  | false =>
      -- nothing is donated, and every session has length 0
      have none_ : donations sessions = 0 :=
        List.countP_eq_zero.mpr fun session member => by simp [(fair.off enabled session member).1]
      have zero : ((completed sessions).map (·.sessionSeconds)).sum = 0 := by
        apply List.sum_eq_zero
        intro seconds member
        obtain ⟨session, isSession, rfl⟩ := List.mem_map.mp member
        exact (fair.off enabled session (List.mem_of_mem_filter isSession)).2
      rw [none_, zero, Nat.cast_zero]
      linarith

/-- **The donation schedule**, after any sequence of session results. -/
theorem donation_schedule (config : MainConfig) (seed : BitVec 64) (outcomes : List Outcome) :
    let sessions := (mainRun config seed outcomes).2
    let donationSeconds : ℚ := config.donateLevel * 60
    let userSeconds : ℚ := (100 - config.donateLevel) * 60
    -- a donation directly follows a user session that returned 0; no two are consecutive
    (∀ first ∈ sessions.head?, first.donating = false) ∧
    sessions.IsChain (fun earlier later =>
      later.donating = true → earlier.donating = false ∧ earlier.rc = 0) ∧
    sessions.IsChain (fun earlier later => ¬(earlier.donating = true ∧ later.donating = true)) ∧
    -- a donation is limited to its phase
    (∀ session ∈ sessions, session.donating = true →
      session.sessionSeconds = donationSeconds ∧ Limited session.sessionSeconds) ∧
    -- a completed user phase is a full one, the first at least half of one
    (donationEnabled config = true → PhaseLengths userSeconds (completed sessions) ∧
      ∀ session ∈ completed sessions, FullPhase session.sessionSeconds) ∧
    (donations sessions - 1 / 2) * userSeconds ≤ ((completed sessions).map (·.sessionSeconds)).sum ∧
    -- a donation takes the current pool's url and password, and does not move on from it
    (∀ session ∈ sessions, session.poolIndex < config.pools.length ∧
      ∃ pool, config.pools[session.poolIndex]? = some pool ∧
        session.pool.url = pool.url ∧ session.pool.pass = pool.pass) ∧
    sessions.IsChain (fun earlier later =>
      earlier.donating = true → later.poolIndex = earlier.poolIndex) ∧
    (∀ last ∈ sessions.getLast?, last.donating = true →
      (mainRun config seed outcomes).1.poolIndex = last.poolIndex) ∧
    (mainRun config seed outcomes).1.poolIndex < config.pools.length := by
  have inv := scheduled_run config seed outcomes
  have fair := inv.fair
  have isUser : donationPhaseSeconds config.donateLevel false = (100 - config.donateLevel) * 60 := by
    simp [donationPhaseSeconds, donationCycleMinutes]
  have isDonation : donationPhaseSeconds config.donateLevel true = config.donateLevel * 60 := by
    simp [donationPhaseSeconds]
  refine ⟨fair.opening, fair.chain.imp fun _ _ succeeds => succeeds.1, ?_, ?_, ?_, ?_, ?_,
    fair.chain.imp fun _ _ succeeds => succeeds.2, inv.kept, inv.index⟩
  · apply fair.chain.imp
    intro earlier later succeeds both
    exact absurd ((succeeds.1 both.2).1.symm.trans both.1) nofun
  · intro session member donating
    have isLimit := fair.donated session member donating
    refine ⟨isLimit.trans isDonation, ?_⟩
    rw [isLimit]
    exact client_limited (donationPhase_pos config.levelValid)
  · intro enabled
    have lengths := fair.lengths enabled
    refine ⟨isUser ▸ lengths, fun session member => ?_⟩
    exact client_full_phase (lengths.positive (userPhase_pos config.levelValid) session member)
  · exact isUser ▸ fair.paid
  · intro session member
    obtain ⟨pool, isPool, used⟩ := fair.pools session member
    refine ⟨(List.getElem?_eq_some_iff.mp isPool).1, pool, isPool, ?_⟩
    rw [used]
    split
    · exact ⟨rfl, rfl⟩
    · exact ⟨rfl, rfl⟩

end BtcRig.Donation.Schedule
