/-
# BtcRig.Mining.Workers — every interleaving of the worker loops

The three worker mains run the same loop: read the flags, take a range, scan it,
report each match, count the hashes, or wait on the condition variable.  A
`Phase` is the point of the loop a worker has reached between two lock sections;
an `Event` is one lock section of one worker or one call from outside.  A run is
an event list, so a theorem about every event list is about every interleaving.

A scan is a parameter of the event in which its range is handed out: which
matches it reports, in which order, and whether it succeeds at all.

* `Change` lists everything one event can do, and `step_change` says that the step
  function does nothing else: every invariant below is a case analysis of it.
-/
import BtcRig.Mining.State
import BtcRig.Theory.Machine

namespace BtcRig.Mining.Workers

open BtcRig.Theory
open BtcRig.Theory.Words
open BtcRig.Hash.Sha256d
open BtcRig.Mining.Job
open BtcRig.Mining.State

set_option autoImplicit false

/-- The matches a scan reports, in order, and whether it succeeded. -/
abbrev Scanner :=
  Sha256Midstate → Vector Word 4 → Vector Word 8 → Word → Word →
    List (Word × Vector Word 8) × Bool

inductive Phase where
  /-- About to read `stop` and `paused`. -/
  | top
  /-- Not stopped, not paused: about to take a range. -/
  | ready
  /-- About to test the condition of the wait loop. -/
  | waiting
  /-- Inside `pthread_cond_wait`, not signalled. -/
  | blocked
  /-- Holding a private copy of the job; `pending` are the matches still to be
  reported. -/
  | scanning (job : ActiveJob) (count : Word) (pending : List (Word × Vector Word 8)) (ok : Bool)
  | exited

structure System where
  miner : Miner
  workers : WorkerId → Phase

inductive Event where
  /-- The next lock section of a worker.  `batch` is the device's batch size and
  `scan` the behaviour of its scan, both used only where a range is taken. -/
  | worker (w : WorkerId) (batch : Word) (scan : Scanner)
  | spurious (w : WorkerId)
  | setJob (job : MinerJob)
  | setPaused (paused : Bool)
  | stop
  | takeNonceExhausted
  | popShare

inductive Output where
  | handed (w : WorkerId) (job : ActiveJob) (start count : Word)
  | raised
  | exhaustedRead (exhausted : Bool)
  | popped (share : Option MinerShare)

/-- CPU workers choose their batch size themselves. -/
def batchOf (miner : Miner) (batch : Word) : WorkerId → Word
  | .cpu _ => minerCpuBatchSize miner
  | .opencl _ => batch
  | .cuda => batch

def System.move (s : System) (w : WorkerId) (p : Phase) : System :=
  { s with workers := Function.update s.workers w p }

/-- `pthread_cond_broadcast`. -/
def broadcast (workers : WorkerId → Phase) (w : WorkerId) : Phase :=
  match workers w with
  | .blocked => .waiting
  | p => p

def workerStep (s : System) (w : WorkerId) (batch : Word) (scan : Scanner) :
    System × List Output :=
  match s.workers w with
  | .top =>
      if s.miner.stop then (s.move w .exited, [])
      else if s.miner.paused then (s.move w .waiting, [])
      else (s.move w .ready, [])
  | .ready =>
      let (miner, taken) := copyJobAndNonceRangeSized s.miner (batchOf s.miner batch w)
      match taken with
      | some (job, start, count) =>
          let (pending, ok) := scan job.midstate job.tailWords job.targetWords start count
          ({ miner := miner,
             workers := Function.update s.workers w (.scanning job count pending ok) },
            [.handed w job start count])
      | none =>
          ({ miner := miner, workers := Function.update s.workers w .waiting },
            if s.miner.job.valid && !miner.job.valid then [.raised] else [])
  | .waiting => if mustWait s.miner then (s.move w .blocked, []) else (s.move w .top, [])
  | .blocked => (s, [])
  | .scanning job count ((nonce, hashWords) :: pending) ok =>
      ({ miner := queueScanMatch s.miner job nonce hashWords,
         workers := Function.update s.workers w (.scanning job count pending ok) }, [])
  | .scanning job count [] true =>
      ({ miner := countHashes s.miner w job count,
         workers := Function.update s.workers w .top }, [])
  | .scanning _ _ [] false => (s.move w .top, [])
  | .exited => (s, [])

def step (s : System) : Event → System × List Output
  | .worker w batch scan => workerStep s w batch scan
  | .spurious w =>
      match s.workers w with
      | .blocked => (s.move w .waiting, [])
      | _ => (s, [])
  | .setJob job => ({ miner := minerSetJob s.miner job, workers := broadcast s.workers }, [])
  | .setPaused paused =>
      ({ miner := minerSetPaused s.miner paused, workers := broadcast s.workers }, [])
  | .stop =>
      ({ miner := minerStop s.miner,
         workers := if s.miner.started then broadcast s.workers else s.workers }, [])
  | .takeNonceExhausted =>
      ({ s with miner := (minerTakeNonceExhausted s.miner).2 },
        [.exhaustedRead (minerTakeNonceExhausted s.miner).1])
  | .popShare => ({ s with miner := (minerPopShare s.miner).2 }, [.popped (minerPopShare s.miner).1])

/-- Every worker at the top of its loop, no job yet. -/
def initial (threadCount openclStarted cudaStarted : Nat) : System where
  miner := minerStarted threadCount openclStarted cudaStarted
  workers := fun _ => .top

/-! ## What one event can do -/

/-- The private copy a phase holds, with what is left to report. -/
def Phase.held : Phase → Option (ActiveJob × Word × List (Word × Vector Word 8) × Bool)
  | .scanning job count pending ok => some (job, count, pending, ok)
  | _ => none

@[simp] theorem held_broadcast (workers : WorkerId → Phase) (w : WorkerId) :
    (broadcast workers w).held = (workers w).held := by
  unfold broadcast
  split
  · rename_i blocked
    rw [blocked]
    rfl
  · rfl

/-- One event and its effect, with the facts of the branch it took. -/
inductive Change (s : System) : Event → System → List Output → Prop where
  /-- A worker moves between phases that hold no job copy. -/
  | move (e : Event) (w : WorkerId) (p : Phase) (free : p.held = none) :
      (∀ job, e ≠ .setJob job) → (∀ paused, e ≠ .setPaused paused) →
      Change s e (s.move w p) []
  | skip (e : Event) : (∀ job, e ≠ .setJob job) → (∀ paused, e ≠ .setPaused paused) →
      Change s e s []
  | hand (w : WorkerId) (batch : Word) (scan : Scanner) (next : BitVec 64) (start range : Word) :
      s.miner.stop = false → s.miner.paused = false → s.miner.job.valid = true →
      start.toNat = s.miner.nextNonce.toNat → 1 ≤ range.toNat →
      start.toNat + range.toNat ≤ 2 ^ 32 → next.toNat = start.toNat + range.toNat →
      Change s (.worker w batch scan)
        { miner := { s.miner with nextNonce := next },
          workers := Function.update s.workers w
            (.scanning { s.miner.job with pauseEpoch := s.miner.pauseEpoch } range
              (scan s.miner.job.midstate s.miner.job.tailWords s.miner.job.targetWords start range).1
              (scan s.miner.job.midstate s.miner.job.tailWords s.miner.job.targetWords start
                range).2) }
        [.handed w { s.miner.job with pauseEpoch := s.miner.pauseEpoch } start range]
  | raise (w : WorkerId) (batch : Word) (scan : Scanner) :
      s.miner.stop = false → s.miner.paused = false → s.miner.job.valid = true →
      2 ^ 32 ≤ s.miner.nextNonce.toNat →
      Change s (.worker w batch scan)
        { miner :=
            { s.miner with job := { s.miner.job with valid := false }, nonceExhausted := true },
          workers := Function.update s.workers w .waiting }
        [.raised]
  | report (w : WorkerId) (batch : Word) (scan : Scanner) (job : ActiveJob) (count nonce : Word)
      (hashWords : Vector Word 8) (pending : List (Word × Vector Word 8)) (ok : Bool) :
      s.workers w = .scanning job count ((nonce, hashWords) :: pending) ok →
      Change s (.worker w batch scan)
        { miner := queueScanMatch s.miner job nonce hashWords,
          workers := Function.update s.workers w (.scanning job count pending ok) }
        []
  | finish (w : WorkerId) (batch : Word) (scan : Scanner) (job : ActiveJob) (count : Word) :
      s.workers w = .scanning job count [] true →
      Change s (.worker w batch scan)
        { miner := countHashes s.miner w job count,
          workers := Function.update s.workers w .top }
        []
  | setJob (job : MinerJob) :
      Change s (.setJob job) { miner := minerSetJob s.miner job, workers := broadcast s.workers } []
  | setPaused (paused : Bool) :
      Change s (.setPaused paused)
        { miner := minerSetPaused s.miner paused, workers := broadcast s.workers } []
  | stop : s.miner.started = true →
      Change s .stop
        { miner := { s.miner with stop := true }, workers := broadcast s.workers } []
  | take :
      Change s .takeNonceExhausted { s with miner := { s.miner with nonceExhausted := false } }
        [.exhaustedRead s.miner.nonceExhausted]
  | pop :
      Change s .popShare { s with miner := { s.miner with shares := s.miner.shares.pop.2 } }
        [.popped s.miner.shares.pop.1]

/-- What a worker can do in one step. -/
theorem workerStep_change (s : System) (w : WorkerId) (batch : Word) (scan : Scanner) :
    Change s (.worker w batch scan) (workerStep s w batch scan).1 (workerStep s w batch scan).2 := by
  have noJob : ∀ job, Event.worker w batch scan ≠ .setJob job := fun _ => nofun
  have noPause : ∀ paused, Event.worker w batch scan ≠ .setPaused paused := fun _ => nofun
  unfold workerStep
  split
  · split
    · exact .move _ w .exited rfl noJob noPause
    · split
      · exact .move _ w .waiting rfl noJob noPause
      · exact .move _ w .ready rfl noJob noPause
  · rcases copyJobAndNonceRangeSized_cases s.miner (batchOf s.miner batch w) with
      idle | ⟨running, unpaused, valid, used, exhausted⟩ |
        ⟨running, unpaused, valid, next, start, range, isStart, positive, within, isNext, handed⟩
    · rw [idle]
      simp only [Bool.and_not_self, Bool.false_eq_true, if_false]
      exact .move _ w .waiting rfl noJob noPause
    · rw [exhausted]
      simp only [valid, Bool.not_false, Bool.and_self, if_true]
      exact .raise w batch scan running unpaused valid used
    · rw [handed]
      exact .hand w batch scan next start range running unpaused valid isStart positive within isNext
  · split
    · exact .move _ w .blocked rfl noJob noPause
    · exact .move _ w .top rfl noJob noPause
  · exact .skip _ noJob noPause
  · rename_i holding
    exact .report w batch scan _ _ _ _ _ _ holding
  · rename_i holding
    exact .finish w batch scan _ _ holding
  · exact .move _ w .top rfl noJob noPause
  · exact .skip _ noJob noPause

/-- What any event can do: every invariant is proved from this. -/
theorem step_change (s : System) (e : Event) : Change s e (step s e).1 (step s e).2 := by
  cases e with
  | worker w batch scan => exact workerStep_change s w batch scan
  | spurious w =>
      simp only [step]
      split
      · exact .move _ w .waiting rfl (fun _ => nofun) (fun _ => nofun)
      · exact .skip _ (fun _ => nofun) (fun _ => nofun)
  | setJob job => exact .setJob job
  | setPaused paused => exact .setPaused paused
  | stop =>
      cases started : s.miner.started with
      | true =>
          have stopped : step s .stop =
              ({ miner := { s.miner with stop := true }, workers := broadcast s.workers }, []) := by
            simp [step, minerStop, started]
          rw [stopped]
          exact .stop started
      | false =>
          have ignored : step s .stop = (s, []) := by simp [step, minerStop, started]
          rw [ignored]
          exact .skip _ (fun _ => nofun) (fun _ => nofun)
  | takeNonceExhausted => exact .take
  | popShare => exact .pop

/-- The state and the outputs after an event list. -/
def run (s : System) (es : List Event) : System × List Output := Machine.exec step s es

/-- A run in two parts. -/
theorem run_append (s : System) (es es' : List Event) :
    run s (es ++ es') =
      ((run (run s es).1 es').1, (run s es).2 ++ (run (run s es).1 es').2) :=
  Machine.exec_append step s es es'

theorem run_singleton (s : System) (e : Event) : run s [e] = step s e := by
  simp [run, Machine.exec, Machine.extend]

/-- The invariant rule over changes. -/
theorem run_invariant (s₀ : System) (P : List Event → System → List Output → Prop)
    (initially : P [] s₀ [])
    (preserved : ∀ es e s s' os os', Change s e s' os' → P es s os → P (es ++ [e]) s' (os ++ os'))
    (es : List Event) : P es (run s₀ es).1 (run s₀ es).2 :=
  Machine.exec_invariant step s₀ P initially
    (fun es e s os => preserved es e s _ os _ (step_change s e)) es

end BtcRig.Mining.Workers
