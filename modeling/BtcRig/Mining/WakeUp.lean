/-
# BtcRig.Mining.WakeUp — no worker sleeps through a change

A worker reads the flags, asks for a range and waits in three separate lock
sections, so anything may happen in between.  It falls asleep only after testing
the condition under the lock, and everything that can make the condition false
broadcasts under the same lock.  `AsleepIdle` is the invariant that results: a
worker asleep in `pthread_cond_wait` has nothing to do.
-/
import BtcRig.Mining.Workers

namespace BtcRig.Mining.WakeUp

open BtcRig.Theory
open BtcRig.Theory.Words
open BtcRig.Mining.Job
open BtcRig.Mining.State
open BtcRig.Mining.Workers

set_option autoImplicit false

/-- Workers asleep and not signalled have to wait. -/
def AsleepIdle (s : System) : Prop := ∀ w, s.workers w = .blocked → mustWait s.miner = true

theorem mustWait_iff (miner : Miner) :
    mustWait miner = true ↔ miner.stop = false ∧ (miner.paused = true ∨ miner.job.valid = false) := by
  simp [mustWait]

theorem broadcast_awake (workers : WorkerId → Phase) (w : WorkerId) :
    broadcast workers w ≠ .blocked := by
  unfold broadcast
  split
  · nofun
  · assumption

theorem asleepIdle_broadcast (miner : Miner) (workers : WorkerId → Phase) :
    AsleepIdle { miner := miner, workers := broadcast workers } :=
  fun w asleep => absurd asleep (broadcast_awake workers w)

/-- One worker moves on; it falls asleep only if it has to wait, and the others'
reason to sleep is not taken away. -/
theorem AsleepIdle.update {s : System} (idle : AsleepIdle s) (w : WorkerId) {p : Phase}
    {miner : Miner} (kept : mustWait s.miner = true → mustWait miner = true)
    (falls : p = .blocked → mustWait miner = true) :
    AsleepIdle { miner := miner, workers := Function.update s.workers w p } := by
  intro w' asleep
  by_cases same : w' = w
  · subst same
    exact falls ((Function.update_self _ _ _).symm.trans asleep)
  · exact kept (idle w' ((Function.update_of_ne same _ _).symm.trans asleep))

theorem mustWait_queueScanMatch (miner : Miner) (job : ActiveJob) (nonce : Word)
    (hashWords : Vector Word 8) :
    mustWait (queueScanMatch miner job nonce hashWords) = mustWait miner := by
  obtain ⟨shares, same⟩ := queueScanMatch_frame miner job nonce hashWords
  rw [same]
  rfl

theorem mustWait_countHashes (miner : Miner) (w : WorkerId) (job : ActiveJob) (count : Word) :
    mustWait (countHashes miner w job count) = mustWait miner := by
  obtain ⟨_, _, _, _, same⟩ := countHashes_frame miner w job count
  rw [same]
  rfl

/-- Asking for a range takes nobody's reason to sleep away. -/
theorem mustWait_copyJob (miner : Miner) (batchSize : Word) (waits : mustWait miner = true) :
    mustWait (copyJobAndNonceRangeSized miner batchSize).1 = true := by
  rcases copyJobAndNonceRangeSized_cases miner batchSize with
    idle | ⟨running, -, -, -, exhausted⟩ | ⟨-, -, -, next, start, range, -, -, -, -, handed⟩
  · rw [idle]
    exact waits
  · rw [exhausted, mustWait_iff]
    exact ⟨running, .inr rfl⟩
  · rw [handed]
    exact waits

theorem asleepIdle_workerStep {s : System} (idle : AsleepIdle s) (w : WorkerId) (batch : Word)
    (scan : Scanner) : AsleepIdle (workerStep s w batch scan).1 := by
  unfold workerStep
  cases phase : s.workers w with
  | top =>
      simp only
      split
      · exact idle.update w id (by simp)
      · split
        · exact idle.update w id (by simp)
        · exact idle.update w id (by simp)
  | ready =>
      have kept := mustWait_copyJob s.miner (batchOf s.miner batch w)
      simp only
      cases (copyJobAndNonceRangeSized s.miner (batchOf s.miner batch w)).2 with
      | none => exact idle.update w kept nofun
      | some taken => exact idle.update w kept nofun
  | waiting =>
      -- the condition is tested under the lock that the wait gives up
      simp only
      split
      · rename_i waits
        exact idle.update w id fun _ => waits
      · exact idle.update w id (by simp)
  | blocked => exact idle
  | scanning job count pending ok =>
      cases pending with
      | cons m pending =>
          exact idle.update w (mustWait_queueScanMatch s.miner job m.1 m.2).trans nofun
      | nil =>
          cases ok with
          | true => exact idle.update w (mustWait_countHashes s.miner w job count).trans nofun
          | false => exact idle.update w id (by simp)
  | exited => exact idle

theorem asleepIdle_step {s : System} (idle : AsleepIdle s) (e : Event) : AsleepIdle (step s e).1 := by
  cases e with
  | worker w batch scan => exact asleepIdle_workerStep idle w batch scan
  | spurious w =>
      simp only [step]
      split
      · exact idle.update w id (by simp)
      · exact idle
  | setJob job => exact asleepIdle_broadcast _ _
  | setPaused paused => exact asleepIdle_broadcast _ _
  | stop =>
      cases started : s.miner.started with
      | true =>
          simp only [step, started, if_true]
          exact asleepIdle_broadcast _ _
      | false =>
          simp only [step, minerStop, started, Bool.not_false, Bool.false_eq_true, if_true, if_false]
          exact idle
  | takeNonceExhausted => exact idle
  | popShare => exact idle

/-- **No missed wake-up.**  In every state reached by any interleaving of workers, job
changes, pauses, exhaustion and stop: a worker that is asleep and was not signalled
finds mining not stopped, and paused or without a job.  So nobody sleeps while a
valid job can be mined, nor after a stop request. -/
theorem no_missed_wakeup (threads opencl cuda : Nat) (es : List Event) :
    let s := (run (initial threads opencl cuda) es).1
    (∀ w, s.workers w = .blocked →
      s.miner.stop = false ∧ (s.miner.paused = true ∨ s.miner.job.valid = false)) ∧
    (s.miner.paused = false → s.miner.job.valid = true → ∀ w, s.workers w ≠ .blocked) ∧
    (s.miner.stop = true → ∀ w, s.workers w ≠ .blocked) := by
  intro s
  have idle : AsleepIdle s :=
    Machine.exec_invariant step (initial threads opencl cuda) (fun _ s _ => AsleepIdle s)
      (fun _ => nofun) (fun _ e _ _ idle => asleepIdle_step idle e) es
  have asleep : ∀ w, s.workers w = .blocked →
      s.miner.stop = false ∧ (s.miner.paused = true ∨ s.miner.job.valid = false) :=
    fun w is => (mustWait_iff s.miner).mp (idle w is)
  refine ⟨asleep, ?_, ?_⟩
  · intro running valid w is
    rcases (asleep w is).2 with paused | invalid
    · exact absurd (running.symm.trans paused) nofun
    · exact absurd (valid.symm.trans invalid) nofun
  · intro stopped w is
    exact absurd (stopped.symm.trans (asleep w is).1) nofun

end BtcRig.Mining.WakeUp
