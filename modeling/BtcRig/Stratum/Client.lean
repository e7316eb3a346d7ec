/-
# BtcRig.Stratum.Client — one connection: the client loop over the running miner

A session is the client's state and the running miner.  Its events are the client
thread's steps (a pool line, one submission, the two halves of an extranonce roll)
and the miner's own; any order of them is a run, which covers every schedule of
the workers against the client loop.

* `session_simulates`: the miner inside a session does a run of its own, on the
  events the session performed; everything proved of `Mining.Workers` applies.
* `ClientEffect`: what one step does to the stored template and which job it
  installs.
-/
import BtcRig.Stratum.Lines
import BtcRig.Mining.Shares

namespace BtcRig.Stratum.Client

open BtcRig.Theory
open BtcRig.Theory.Words
open BtcRig.Mining.Job
open BtcRig.Mining.State
open BtcRig.Mining.Workers
open BtcRig.Mining.Shares
open BtcRig.Stratum.State
open BtcRig.Stratum.Lines

set_option autoImplicit false

structure Session where
  state : StratumState
  system : System
  nextRpcId : Int
  /-- The exhausted flag was taken and the roll is due. -/
  rolling : Bool

inductive SessionEvent where
  /-- A line of the pool, as parsed. -/
  | line (root : Option Json)
  /-- One iteration of `flush_shares`; `sent` is whether the submission went out. -/
  | flush (sent : Bool)
  /-- `maybe_roll_extranonce`, up to the flag and from there. -/
  | takeExhausted
  | roll
  | worker (w : WorkerId) (batch : Word) (scan : Scanner)
  | spurious (w : WorkerId)
  | setPaused (paused : Bool)
  | stop

inductive SessionOutput where
  /-- A lock section of the miner that the session ran. -/
  | did (e : Event)
  | miner (o : Output)
  /-- A rebuild used up a value of the extranonce2 counter. -/
  | attempted

def perform (s : Session) (e : Event) : Session × List SessionOutput :=
  ({ s with system := (step s.system e).1 }, .did e :: (step s.system e).2.map .miner)

/-- Take over a handler's result: install its job, if it built one. -/
def handled (s : Session) (r : StratumState × Option MinerJob) : Session × List SessionOutput :=
  let attempted := if r.1.extranonce2Counter = s.state.extranonce2Counter then [] else [.attempted]
  match r.2 with
  | some job =>
      let (s', os) := perform { s with state := r.1 } (.setJob job)
      (s', attempted ++ os)
  | none => ({ s with state := r.1 }, attempted)

def flushOne (s : Session) (sent : Bool) : Session × List SessionOutput :=
  let (s', os) := perform s .popShare
  match (minerPopShare s.system.miner).1 with
  | some share =>
      let id := s.nextRpcId
      let state := if sent then
          let state := registerPendingShare s.state id share
          { state with submitCount := state.submitCount + 1 }
        else s.state
      ({ s' with state := state, nextRpcId := id + 1 }, os)
  | none => (s', os)

def sessionStep (s : Session) : SessionEvent → Session × List SessionOutput
  | .line root => handled s (stratumProcessLine s.state root)
  | .flush sent => flushOne s sent
  | .takeExhausted =>
      let (s', os) := perform s .takeNonceExhausted
      ({ s' with rolling := (minerTakeNonceExhausted s.system.miner).1 }, os)
  | .roll => if s.rolling then handled { s with rolling := false } (rebuildMinerJob s.state) else (s, [])
  | .worker w batch scan => perform s (.worker w batch scan)
  | .spurious w => perform s (.spurious w)
  | .setPaused paused => perform s (.setPaused paused)
  | .stop => perform s .stop

/-- A connected session with a started miner. -/
def sessionInitial (threads opencl cuda : Nat) : Session where
  state := stratumStateInit true
  system := initial threads opencl cuda
  nextRpcId := 4
  rolling := false

def sessionRun (s : Session) (es : List SessionEvent) : Session × List SessionOutput :=
  Machine.exec sessionStep s es

theorem sessionRun_snoc (s : Session) (es : List SessionEvent) (e : SessionEvent) :
    (sessionRun s (es ++ [e])).1 = (sessionStep (sessionRun s es).1 e).1 := by
  rw [sessionRun, Machine.exec_snoc]
  rfl

/-! ## The miner inside a session -/

/-- The lock sections of the miner that were run. -/
def minerTrace (os : List SessionOutput) : List Event :=
  os.filterMap fun
    | .did e => some e
    | _ => none

def minerOutputs (os : List SessionOutput) : List Output :=
  os.filterMap fun
    | .miner o => some o
    | _ => none

theorem minerTrace_append (os os' : List SessionOutput) :
    minerTrace (os ++ os') = minerTrace os ++ minerTrace os' :=
  List.filterMap_append

theorem minerOutputs_append (os os' : List SessionOutput) :
    minerOutputs (os ++ os') = minerOutputs os ++ minerOutputs os' :=
  List.filterMap_append

/-- The part of a step's outputs that concerns the miner: the events `es`. -/
structure Did (s s' : Session) (os : List SessionOutput) (es : List Event) : Prop where
  trace : minerTrace os = es
  system : s'.system = (run s.system es).1
  outputs : minerOutputs os = (run s.system es).2

theorem did_perform (s : Session) (e : Event) : Did s (perform s e).1 (perform s e).2 [e] where
  trace := by
    have quiet (os : List Output) : minerTrace (os.map .miner) = [] := by
      simp [minerTrace, List.filterMap_map]
    rw [perform, show ∀ os, SessionOutput.did e :: os = [.did e] ++ os from fun _ => rfl,
      minerTrace_append, quiet]
    rfl
  system := by rw [run_singleton]; rfl
  outputs := by
    rw [run_singleton]
    simp [perform, minerOutputs, List.filterMap_map]

theorem did_nothing {s s' : Session} {os : List SessionOutput} (same : s'.system = s.system)
    (noTrace : minerTrace os = []) (noOutput : minerOutputs os = []) : Did s s' os [] :=
  ⟨noTrace, same, noOutput⟩

theorem did_handled (s : Session) (r : StratumState × Option MinerJob) :
    Did s (handled s r).1 (handled s r).2 (r.2.toList.map .setJob) := by
  have quiet : minerTrace (if r.1.extranonce2Counter = s.state.extranonce2Counter then []
      else [.attempted]) = [] ∧
      minerOutputs (if r.1.extranonce2Counter = s.state.extranonce2Counter then []
        else [.attempted]) = [] := by
    split <;> exact ⟨rfl, rfl⟩
  unfold handled
  cases r.2 with
  | none => exact did_nothing rfl quiet.1 quiet.2
  | some job =>
      have did := did_perform { s with state := r.1 } (.setJob job)
      exact ⟨by rw [minerTrace_append, quiet.1]; exact did.trace, did.system,
        by rw [minerOutputs_append, quiet.2]; exact did.outputs⟩

/-- Whatever the client does, its miner makes a run of its own. -/
theorem did_sessionStep (s : Session) (e : SessionEvent) :
    ∃ es, Did s (sessionStep s e).1 (sessionStep s e).2 es := by
  cases e with
  | line root => exact ⟨_, did_handled s _⟩
  | flush sent =>
      have did := did_perform s .popShare
      simp only [sessionStep, flushOne]
      cases (minerPopShare s.system.miner).1 with
      | none => exact ⟨_, did⟩
      | some share => exact ⟨_, did.trace, did.system, did.outputs⟩
  | takeExhausted =>
      have did := did_perform s .takeNonceExhausted
      exact ⟨_, did.trace, did.system, did.outputs⟩
  | roll =>
      simp only [sessionStep]
      split
      · have did := did_handled { s with rolling := false } (rebuildMinerJob s.state)
        exact ⟨_, did.trace, did.system, did.outputs⟩
      · exact ⟨[], did_nothing rfl rfl rfl⟩
  | worker w batch scan => exact ⟨_, did_perform s _⟩
  | spurious w => exact ⟨_, did_perform s _⟩
  | setPaused paused => exact ⟨_, did_perform s _⟩
  | stop => exact ⟨_, did_perform s _⟩

/-- **The miner inside a session does a run of its own.** -/
theorem session_simulates (s : Session) (es : List SessionEvent) :
    (sessionRun s es).1.system = (run s.system (minerTrace (sessionRun s es).2)).1 ∧
      minerOutputs (sessionRun s es).2 = (run s.system (minerTrace (sessionRun s es).2)).2 := by
  refine Machine.exec_invariant sessionStep s (fun _ s' os =>
    s'.system = (run s.system (minerTrace os)).1 ∧
      minerOutputs os = (run s.system (minerTrace os)).2) ⟨rfl, rfl⟩ ?_ es
  rintro es e s' os ⟨system, outputs⟩
  obtain ⟨fs, did⟩ := did_sessionStep s' e
  rw [minerTrace_append, minerOutputs_append, did.trace, run_append, outputs, did.system,
    did.outputs, system]
  exact ⟨rfl, rfl⟩

/-! ## The client's side of a step -/

/-- The jobs a step or a run installed. -/
def installedOf (os : List SessionOutput) : List MinerJob := jobsOf (minerTrace os)

/-- How many values of the extranonce2 counter were used up. -/
def attemptsOf (os : List SessionOutput) : Nat :=
  os.countP fun
    | .attempted => true
    | _ => false

theorem installedOf_append (os os' : List SessionOutput) :
    installedOf (os ++ os') = installedOf os ++ installedOf os' := by
  rw [installedOf, minerTrace_append, jobsOf_append]
  rfl

theorem attemptsOf_append (os os' : List SessionOutput) :
    attemptsOf (os ++ os') = attemptsOf os + attemptsOf os' :=
  List.countP_append

/-- What a handler's result does to the client and to the miner's job. -/
structure Handled (s s' : Session) (os : List SessionOutput) (r : StratumState × Option MinerJob) :
    Prop where
  state : s'.state = r.1
  installed : installedOf os = r.2.toList
  attempts : attemptsOf os = if r.1.extranonce2Counter = s.state.extranonce2Counter then 0 else 1
  publicJob : s'.system.miner.job.publicJob = match r.2 with
    | some job => { job with seq := s.system.miner.job.publicJob.seq + 1 }
    | none => s.system.miner.job.publicJob

/-- The job of a handled line, if there is one, is installed. -/
theorem handled_spec (s : Session) (r : StratumState × Option MinerJob) :
    Handled s (handled s r).1 (handled s r).2 r := by
  have did := did_handled s r
  refine ⟨?_, ?_, ?_, ?_⟩
  · unfold handled
    cases r.2 <;> rfl
  · rw [installedOf, did.trace]
    cases r.2 <;> rfl
  · unfold handled
    cases r.2 <;> simp only <;> split <;> rfl
  · rw [did.system]
    cases r.2 with
    | none => rfl
    | some job =>
        simp only [Option.toList_some, List.map_cons, List.map_nil, run_singleton]
        rfl

/-- The effect of one step on the client: a handler ran, or nothing a rebuild
depends on changed. -/
inductive ClientEffect (s : Session) (e : SessionEvent) (s' : Session) (os : List SessionOutput) :
    Prop where
  | line (root : Option Json) (r : StratumState × Option MinerJob) : e = .line root →
      LineEffect s.state root r → Handled s s' os r → ClientEffect s e s' os
  | roll : e = .roll → Handled s s' os (rebuildMinerJob s.state) → ClientEffect s e s' os
  | other : (∀ root, e ≠ .line root) → Kept s.state s'.state → installedOf os = [] →
      attemptsOf os = 0 →
      s'.system.miner.job.publicJob = s.system.miner.job.publicJob → ClientEffect s e s' os

/-- A lock section other than setting a job. -/
theorem perform_other (s : Session) {e : Event} (noJob : ∀ job, e ≠ .setJob job) :
    installedOf (perform s e).2 = [] ∧ attemptsOf (perform s e).2 = 0 ∧
      (perform s e).1.system.miner.job.publicJob = s.system.miner.job.publicJob := by
  refine ⟨?_, ?_, ?_⟩
  · rw [installedOf, (did_perform s e).trace]
    exact jobsOf_other noJob
  · simp [attemptsOf, perform]
  · rcases job_change (step_change s.system e) with ⟨job, isSet, -⟩ | ⟨-, same, -⟩
    · exact absurd isSet (noJob job)
    · exact same

/-- What one event does: every invariant of a session is proved from this. -/
theorem sessionStep_effect (s : Session) (e : SessionEvent) :
    ClientEffect s e (sessionStep s e).1 (sessionStep s e).2 := by
  cases e with
  | line root =>
      exact .line root _ rfl (stratumProcessLine_effect s.state root) (handled_spec s _)
  | flush sent =>
      obtain ⟨installed, attempts, publicJob⟩ := perform_other s (e := .popShare) fun _ => nofun
      simp only [sessionStep, flushOne]
      cases (minerPopShare s.system.miner).1 with
      | none => exact .other (fun _ => nofun) (.refl _) installed attempts publicJob
      | some share =>
          refine .other (fun _ => nofun) ?_ installed attempts publicJob
          cases sent with
          | true =>
              exact (kept_registerPendingShare s.state s.nextRpcId share).trans
                ⟨⟨rfl, rfl, rfl, rfl, rfl, rfl⟩, rfl⟩
          | false => exact .refl _
  | takeExhausted =>
      obtain ⟨installed, attempts, publicJob⟩ :=
        perform_other s (e := .takeNonceExhausted) fun _ => nofun
      exact .other (fun _ => nofun) (.refl _) installed attempts publicJob
  | roll =>
      simp only [sessionStep]
      split
      · have spec := handled_spec { s with rolling := false } (rebuildMinerJob s.state)
        exact .roll rfl ⟨spec.state, spec.installed, spec.attempts, spec.publicJob⟩
      · exact .other (fun _ => nofun) (.refl _) rfl rfl rfl
  | worker w batch scan =>
      obtain ⟨installed, attempts, publicJob⟩ :=
        perform_other s (e := .worker w batch scan) fun _ => nofun
      exact .other (fun _ => nofun) (.refl _) installed attempts publicJob
  | spurious w =>
      obtain ⟨installed, attempts, publicJob⟩ := perform_other s (e := .spurious w) fun _ => nofun
      exact .other (fun _ => nofun) (.refl _) installed attempts publicJob
  | setPaused paused =>
      obtain ⟨installed, attempts, publicJob⟩ :=
        perform_other s (e := .setPaused paused) fun _ => nofun
      exact .other (fun _ => nofun) (.refl _) installed attempts publicJob
  | stop =>
      obtain ⟨installed, attempts, publicJob⟩ := perform_other s (e := .stop) fun _ => nofun
      exact .other (fun _ => nofun) (.refl _) installed attempts publicJob

/-- The invariant rule over client effects. -/
theorem session_invariant (s₀ : Session)
    (P : List SessionEvent → Session → List SessionOutput → Prop) (initially : P [] s₀ [])
    (preserved : ∀ es e s s' os os', ClientEffect s e s' os' → P es s os →
      P (es ++ [e]) s' (os ++ os'))
    (es : List SessionEvent) : P es (sessionRun s₀ es).1 (sessionRun s₀ es).2 :=
  Machine.exec_invariant sessionStep s₀ P initially
    (fun es e s os => preserved es e s _ os _ (sessionStep_effect s e)) es

end BtcRig.Stratum.Client
