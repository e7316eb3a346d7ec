/-
# BtcRig.Stratum.Extranonce — no share is submitted twice

Every rebuild takes a new value of the extranonce2 counter, whatever triggered it.
`Counted` follows the counter: the extranonce2 texts of the installed jobs, read as
numbers, increase and stay below it.  The text is a number printed with at least
the pool's width, so texts of different width differ too.

With the job numbers and nonces of `Mining.Unique` this makes every submitted
(extranonce2, nonce) pair unique.
-/
import BtcRig.Stratum.Template
import BtcRig.Mining.PoolView
import BtcRig.Mining.Unique

namespace BtcRig.Stratum.Extranonce

open BtcRig.Theory
open BtcRig.Theory.Words
open BtcRig.Mining.Job
open BtcRig.Mining.State
open BtcRig.Mining.Workers
open BtcRig.Mining.Shares
open BtcRig.Mining.PoolView
open BtcRig.Mining.Unique
open BtcRig.Stratum.State
open BtcRig.Stratum.Lines
open BtcRig.Stratum.Client
open BtcRig.Stratum.Template

set_option autoImplicit false

/-- The extranonce2 of a job, as a number. -/
def extranonce2Of (job : MinerJob) : Nat := Hex.value job.extranonce2.1

/-- What one step does with the counter. -/
inductive CounterEffect (counter counter' : BitVec 64) (attempts : Nat) (installed : List MinerJob) :
    Prop where
  | unused : counter' = counter → attempts = 0 → installed = [] →
      CounterEffect counter counter' attempts installed
  | failed : counter' = counter + 1 → attempts = 1 → installed = [] →
      CounterEffect counter counter' attempts installed
  | installed (job : MinerJob) : counter' = counter + 1 → attempts = 1 → installed = [job] →
      extranonce2Of job = counter.toNat → CounterEffect counter counter' attempts installed

theorem succ_ne_self (counter : BitVec 64) : counter + 1 ≠ counter := by
  intro same
  have := congrArg BitVec.toNat same
  rw [BitVec.toNat_add] at this
  have small := counter.isLt
  have one : (1 : BitVec 64).toNat = 1 := rfl
  omega

theorem extranonce2Of_rebuild {state : StratumState} {job : MinerJob}
    (installs : (rebuildMinerJob state).2 = some job) :
    extranonce2Of job = state.extranonce2Counter.toNat := by
  obtain ⟨can, built⟩ := rebuildMinerJob_installs installs
  obtain ⟨-, -, isText, -⟩ := minerBuildJob_fields built
  rcases minerFormatExtranonce2_cases state.extranonce2Size state.extranonce2Counter with
    empty | ⟨width, isFormat⟩
  · -- an empty text is refused before a job is built
    have none_ : (rebuildMinerJob state).2 = none := by
      rw [rebuildMinerJob_of_can can]
      exact if_pos empty
    exact absurd (none_.symm.trans installs) nofun
  · rw [extranonce2Of, isText, nextExtranonce2, isFormat, Hex.value_format]

theorem counter_rebuild {s s' : Session} {os : List SessionOutput} {state : StratumState}
    (same : state.extranonce2Counter = s.state.extranonce2Counter)
    (handled : Handled s s' os (rebuildMinerJob state)) :
    CounterEffect s.state.extranonce2Counter s'.state.extranonce2Counter (attemptsOf os)
      (installedOf os) := by
  by_cases can : CanRebuild state
  · have counter : (rebuildMinerJob state).1.extranonce2Counter = s.state.extranonce2Counter + 1 := by
      rw [rebuildMinerJob_of_can can, ← same]
    have attempts : attemptsOf os = 1 := by
      rw [handled.attempts, counter, if_neg (succ_ne_self _)]
    cases installs : (rebuildMinerJob state).2 with
    | none =>
        exact .failed (handled.state ▸ counter) attempts (by rw [handled.installed, installs]; rfl)
    | some job =>
        exact .installed job (handled.state ▸ counter) attempts
          (by rw [handled.installed, installs]; rfl) (same ▸ extranonce2Of_rebuild installs)
  · apply CounterEffect.unused
    · rw [handled.state, rebuildMinerJob_of_not can, same]
    · rw [handled.attempts, rebuildMinerJob_of_not can, if_pos same]
    · rw [handled.installed, rebuildMinerJob_of_not can]
      rfl

theorem counter_kept {s s' : Session} {os : List SessionOutput} {state : StratumState}
    (same : state.extranonce2Counter = s.state.extranonce2Counter)
    (handled : Handled s s' os (state, none)) :
    CounterEffect s.state.extranonce2Counter s'.state.extranonce2Counter (attemptsOf os)
      (installedOf os) := by
  apply CounterEffect.unused
  · rw [handled.state, same]
  · rw [handled.attempts, if_pos same]
  · rw [handled.installed]
    rfl

theorem counter_step {s s' : Session} {e : SessionEvent} {os : List SessionOutput}
    (effect : ClientEffect s e s' os) :
    CounterEffect s.state.extranonce2Counter s'.state.extranonce2Counter (attemptsOf os)
      (installedOf os) := by
  cases effect with
  | line root r isLine effect handled =>
      cases effect with
      | quiet state' none_ kept => exact counter_kept kept.counter handled
      | subscribe result none_ isReply =>
          exact counter_kept (resettled_handleSubscribeResult _ _).counter handled
      | settings state' none_ invalid resettled => exact counter_kept resettled.counter handled
      | rebuild state' none_ valid resettled => exact counter_rebuild resettled.counter handled
      | rejected notify state' isNotify invalid attached counter => exact counter_kept counter handled
      | accepted notify state' isNotify core => exact counter_rebuild core.counter handled
  | roll isRoll handled => exact counter_rebuild rfl handled
  | other noLine kept installed attempts => exact .unused kept.counter attempts installed

/-- The counter after a run, and the extranonce2 values used so far. -/
structure Counted (s : Session) (os : List SessionOutput) : Prop where
  counter : s.state.extranonce2Counter = BitVec.ofNat 64 (1 + attemptsOf os)
  few : (installedOf os).length ≤ attemptsOf os
  below : ∀ job ∈ installedOf os, extranonce2Of job ≤ attemptsOf os
  increasing : (installedOf os).Pairwise fun job job' => extranonce2Of job < extranonce2Of job'

theorem counted_step {s s' : Session} {e : SessionEvent} {os os' : List SessionOutput}
    (effect : ClientEffect s e s' os') (few : attemptsOf (os ++ os') < 2 ^ 64)
    (inv : Counted s os) : Counted s' (os ++ os') := by
  rw [attemptsOf_append] at few
  have next : s.state.extranonce2Counter + 1 = BitVec.ofNat 64 (1 + (attemptsOf os + 1)) := by
    rw [inv.counter, ← Nat.add_assoc, BitVec.ofNat_add (1 + attemptsOf os)]
    rfl
  cases counter_step effect with
  | unused counter attempts installed =>
      refine ⟨?_, ?_, ?_, ?_⟩ <;>
        simp only [attemptsOf_append, installedOf_append, attempts, installed, List.append_nil,
          Nat.add_zero]
      · rw [counter, inv.counter]
      · exact inv.few
      · exact inv.below
      · exact inv.increasing
  | failed counter attempts installed =>
      refine ⟨?_, ?_, ?_, ?_⟩ <;>
        simp only [attemptsOf_append, installedOf_append, attempts, installed, List.append_nil]
      · rw [counter, next]
      · exact inv.few.trans (Nat.le_succ _)
      · intro job is
        exact (inv.below job is).trans (Nat.le_succ _)
      · exact inv.increasing
  | installed job counter attempts installed value =>
      have isValue : extranonce2Of job = attemptsOf os + 1 := by
        rw [value, inv.counter, BitVec.toNat_ofNat]
        omega
      refine ⟨?_, ?_, ?_, ?_⟩ <;>
        simp only [attemptsOf_append, installedOf_append, attempts, installed]
      · rw [counter, next]
      · rw [List.length_append, List.length_singleton]
        exact Nat.succ_le_succ inv.few
      · intro job' is
        rw [List.mem_append, List.mem_singleton] at is
        rcases is with is | rfl
        · exact (inv.below job' is).trans (Nat.le_succ _)
        · exact isValue.le
      · rw [List.pairwise_append]
        refine ⟨inv.increasing, List.pairwise_singleton _ _, ?_⟩
        intro job' is job'' is'
        rw [List.mem_singleton.mp is', isValue]
        exact Nat.lt_succ_of_le (inv.below job' is)

theorem counted_run (threads opencl cuda : Nat) (es : List SessionEvent)
    (few : attemptsOf (sessionRun (sessionInitial threads opencl cuda) es).2 < 2 ^ 64) :
    Counted (sessionRun (sessionInitial threads opencl cuda) es).1
      (sessionRun (sessionInitial threads opencl cuda) es).2 := by
  refine session_invariant (sessionInitial threads opencl cuda)
    (fun _ s os => attemptsOf os < 2 ^ 64 → Counted s os) ?_ ?_ es few
  · intro _
    exact ⟨rfl, le_rfl, fun _ => nofun, List.Pairwise.nil⟩
  · intro es e s s' os os' effect ih few
    refine counted_step effect few (ih ?_)
    rw [attemptsOf_append] at few
    omega

/-! ## Submitted shares -/

/-- The shares handed to `flush_shares`, in order. -/
def flushedOf (os : List SessionOutput) : List MinerShare := poppedOf (minerOutputs os)

theorem flushedOf_append (os os' : List SessionOutput) :
    flushedOf (os ++ os') = flushedOf os ++ flushedOf os' := by
  rw [flushedOf, minerOutputs_append, poppedOf_append]
  rfl

theorem flushedOf_perform (s : Session) {e : Event} (other : e ≠ .popShare) :
    flushedOf (perform s e).2 = [] := by
  rw [flushedOf, (did_perform s e).outputs, run_singleton]
  exact poppedOf_other (step_change s.system e) other

theorem flushedOf_popShare (s : Session) :
    flushedOf (perform s .popShare).2 = (minerPopShare s.system.miner).1.toList := by
  rw [flushedOf, (did_perform s .popShare).outputs, run_singleton]
  cases taken : (minerPopShare s.system.miner).1 <;> simp [step, poppedOf, taken]

theorem flushedOf_handled (s : Session) (r : StratumState × Option MinerJob) :
    flushedOf (handled s r).2 = [] := by
  rw [flushedOf, (did_handled s r).outputs]
  cases r.2 with
  | none => rfl
  | some job =>
      rw [Option.toList_some, List.map_singleton, run_singleton]
      exact poppedOf_other (step_change s.system _) (by simp)

/-- Every share taken from the queue uses up one request id. -/
theorem nextRpcId_step (s : Session) (e : SessionEvent) :
    (sessionStep s e).1.nextRpcId = s.nextRpcId + (flushedOf (sessionStep s e).2).length := by
  have handled_ (s : Session) (r : StratumState × Option MinerJob) :
      (handled s r).1.nextRpcId = s.nextRpcId + (flushedOf (handled s r).2).length := by
    rw [flushedOf_handled]
    unfold handled
    cases r.2 <;> exact (Int.add_zero _).symm
  have performed (e' : Event) (other : e' ≠ .popShare) :
      s.nextRpcId = s.nextRpcId + (flushedOf (perform s e').2).length := by
    rw [flushedOf_perform s other]
    exact (Int.add_zero _).symm
  cases e with
  | line root => exact handled_ s _
  | flush sent =>
      have popped := flushedOf_popShare s
      simp only [sessionStep, flushOne]
      cases taken : (minerPopShare s.system.miner).1 with
      | none =>
          simp only [popped, taken]
          exact (Int.add_zero _).symm
      | some share =>
          simp only [popped, taken]
          rfl
  | takeExhausted => exact performed _ (by simp)
  | roll =>
      simp only [sessionStep]
      split
      · exact handled_ { s with rolling := false } _
      · exact (Int.add_zero _).symm
  | worker w batch scan => exact performed _ (by simp)
  | spurious w => exact performed _ (by simp)
  | setPaused paused => exact performed _ (by simp)
  | stop => exact performed _ (by simp)

/-- What the pool compares. -/
def submission (share : MinerShare) : CStr 32 × Word := (share.extranonce2, share.nonce)

/-- The scan of a worker step reports nonces of its range only, each at most once. -/
def SessionScansOnce (e : SessionEvent) : Prop :=
  ∀ w batch scan, e = .worker w batch scan → ScansOnce (.worker w batch scan)

theorem minerTrace_perform (s : Session) (e : Event) : minerTrace (perform s e).2 = [e] :=
  (did_perform s e).trace

theorem scansOnce_trace {s : Session} {e : SessionEvent} (once : SessionScansOnce e) :
    ∀ e' ∈ minerTrace (sessionStep s e).2, ScansOnce e' := by
  have handled_ : ∀ s r, ∀ e' ∈ minerTrace (handled s r).2, ScansOnce e' := by
    intro s r e' member
    rw [(did_handled s r).trace] at member
    obtain ⟨job, -, rfl⟩ := List.mem_map.mp member
    intro w batch scan same
    cases same
  have performed : ∀ s e', ScansOnce e' → ∀ e'' ∈ minerTrace (perform s e').2, ScansOnce e'' := by
    intro s e' isOnce e'' member
    rw [minerTrace_perform, List.mem_singleton] at member
    exact member ▸ isOnce
  cases e with
  | line root => exact handled_ _ _
  | flush sent =>
      have popped := performed s .popShare (by simp [ScansOnce])
      simp only [sessionStep, flushOne]
      cases (minerPopShare s.system.miner).1 <;> exact popped
  | takeExhausted => exact performed s _ (by simp [ScansOnce])
  | roll =>
      simp only [sessionStep]
      split
      · exact handled_ _ _
      · simp [minerTrace]
  | worker w batch scan => exact performed s _ (once w batch scan rfl)
  | spurious w => exact performed s _ (by simp [ScansOnce])
  | setPaused paused => exact performed s _ (by simp [ScansOnce])
  | stop => exact performed s _ (by simp [ScansOnce])

theorem scansOnce_run (s : Session) (es : List SessionEvent) (once : ∀ e ∈ es, SessionScansOnce e) :
    ∀ e ∈ minerTrace (sessionRun s es).2, ScansOnce e := by
  refine Machine.exec_invariant sessionStep s
    (fun es _ os => (∀ e ∈ es, SessionScansOnce e) → ∀ e ∈ minerTrace os, ScansOnce e) ?_ ?_ es once
  · intro _ _
    exact nofun
  · intro es e s' os ih once e' member
    rw [minerTrace_append, List.mem_append] at member
    rcases member with member | member
    · exact ih (fun e'' isOld => once e'' (by simp [isOld])) e' member
    · exact scansOnce_trace (once e (by simp)) e' member

/-- Shares of jobs whose extranonce2 texts differ: equal texts mean equal job numbers. -/
theorem seq_of_extranonce2 {jobs : List MinerJob} {share share' : MinerShare}
    (apart : jobs.Pairwise fun job job' => job.extranonce2 ≠ job'.extranonce2)
    (is : ShareFrom (fun _ _ => True) jobs share) (is' : ShareFrom (fun _ _ => True) jobs share')
    (same : share.extranonce2 = share'.extranonce2) : share.seq = share'.seq := by
  obtain ⟨k, job, m, set, -, rfl⟩ := is
  obtain ⟨k', job', m', set', -, rfl⟩ := is'
  obtain ⟨inside, rfl⟩ := List.getElem?_eq_some_iff.mp set
  obtain ⟨inside', rfl⟩ := List.getElem?_eq_some_iff.mp set'
  have text : jobs[k].extranonce2 = jobs[k'].extranonce2 := same
  rcases Nat.lt_trichotomy k k' with less | rfl | more
  · exact absurd text (List.pairwise_iff_getElem.mp apart k k' inside inside' less)
  · rfl
  · exact absurd text.symm (List.pairwise_iff_getElem.mp apart k' k inside' inside more)

/-- **No share is submitted twice.**  In every session, whatever the pool sends, the
workers do and the pauses are: the installed jobs have different extranonce2 texts,
the ranges of one job are handed out without a common nonce, and no two shares taken
by `flush_shares` have the same extranonce2 and nonce. -/
theorem submissions_unique (threads opencl cuda : Nat) (es : List SessionEvent)
    (once : ∀ e ∈ es, SessionScansOnce e)
    (few : attemptsOf (sessionRun (sessionInitial threads opencl cuda) es).2 < 2 ^ 64) :
    let os := (sessionRun (sessionInitial threads opencl cuda) es).2
    ((flushedOf os).map submission).Nodup ∧
      (installedOf os).Pairwise (fun job job' => job.extranonce2 ≠ job'.extranonce2) ∧
      (handedOf (minerOutputs os)).Pairwise RangesApart := by
  intro os
  have counted := counted_run threads opencl cuda es few
  have apart : (installedOf os).Pairwise fun job job' => job.extranonce2 ≠ job'.extranonce2 := by
    apply counted.increasing.imp
    intro job job' less same
    rw [extranonce2Of, same] at less
    exact lt_irrefl _ less
  have fewJobs : (jobsOf (minerTrace os)).length < 2 ^ 64 := counted.few.trans_lt few
  have outputs : minerOutputs os = (run (initial threads opencl cuda) (minerTrace os)).2 :=
    (session_simulates (sessionInitial threads opencl cuda) es).2
  refine ⟨?_, apart, ?_⟩
  · have keys := popped_keys_nodup threads opencl cuda (minerTrace os)
      (scansOnce_run _ es once) fewJobs
    have sourced := sourced_run (fun _ _ => True) threads opencl cuda (minerTrace os)
      fun _ _ _ _ _ _ _ _ _ _ _ => trivial
    rw [← outputs] at keys sourced
    refine List.Nodup.map_on ?_ (List.Nodup.of_map _ keys)
    intro share is share' is' same
    obtain ⟨text, nonce⟩ := Prod.mk.inj same
    have seq := seq_of_extranonce2 apart (sourced.shares share (List.mem_append_left _ is))
      (sourced.shares share' (List.mem_append_left _ is')) text
    exact List.inj_on_of_nodup_map keys is is' (Prod.ext seq nonce)
  · rw [outputs]
    exact (ranged_run threads opencl cuda (minerTrace os) fewJobs).apart

/-- A step uses up at most one value of the counter. -/
theorem attemptsOf_le_length (s : Session) (es : List SessionEvent) :
    attemptsOf (sessionRun s es).2 ≤ es.length := by
  refine session_invariant s (fun es _ os => attemptsOf os ≤ es.length) (le_refl 0) ?_ es
  intro es e s s' os os' effect ih
  have one : attemptsOf os' ≤ 1 := by
    cases effect with
    | line root r isLine effect handled =>
        rw [handled.attempts]
        split <;> omega
    | roll isRoll handled =>
        rw [handled.attempts]
        split <;> omega
    | other noLine kept none_ attempts => omega
  rw [attemptsOf_append, List.length_append, List.length_singleton]
  omega

/-- A difficulty at which nearly every hash is a share. -/
def easyLine : Option Json := some <| .object [("id", .null),
  ("method", .string "mining.set_difficulty".toList),
  ("params", .array [.real (65535 / (16777215 * 16777216))])]

/-- The same template is announced twice, and nonce 0 is a share of both jobs. -/
theorem submissions_unique_example :
    let turn : SessionEvent := .worker .cuda 1 (genericScanner .fastC)
    let es : List SessionEvent := [.line subscribeLine, .line easyLine, .line notifyLine, turn, turn,
      turn, .flush true, .line notifyLine, turn, turn, turn, turn, .flush true]
    let os := (sessionRun (sessionInitial 0 0 1) es).2
    ((flushedOf os).map fun share => share.nonce) = [0, 0] ∧ ((flushedOf os).map submission).Nodup := by
  intro turn es os
  have nonces : ((flushedOf os).map fun share => share.nonce) = [0, 0] := by decide +kernel
  have few : attemptsOf os < 2 ^ 64 := lt_of_le_of_lt (attemptsOf_le_length _ es) (by decide)
  have once : ∀ e ∈ es, SessionScansOnce e := by
    intro e member w batch scan isWorker
    subst isWorker
    simp only [es, turn, List.mem_cons, List.not_mem_nil, or_false, SessionEvent.worker.injEq,
      reduceCtorEq, false_or, or_self] at member
    rw [member.2.2]
    exact scansOnce_genericScanner _ _ _
  exact ⟨nonces, (submissions_unique 0 0 1 es once few).1⟩

end BtcRig.Stratum.Extranonce
