/-
# BtcRig.Stratum.Roll — what a roll of extranonce2 does to found shares

When the nonces of a job are used up the client loop builds the next job from the
same template.  Setting it empties the queue and gives it a new number, as for any
other job: a share queued since the last flush is gone, and so is every match of the
old job reported from then on.  Between rolls nothing is lost.

* `calm_step`: what one step does to the queue while the pool sends nothing new;
* `roll_share_fate`: a match enters the queue exactly if no roll came in between.
-/
import BtcRig.Stratum.Extranonce

namespace BtcRig.Stratum.Roll

open BtcRig.Theory
open BtcRig.Theory.Words
open BtcRig.Mining.Job
open BtcRig.Mining.State
open BtcRig.Mining.Workers
open BtcRig.Mining.Shares
open BtcRig.Stratum.State
open BtcRig.Stratum.Lines
open BtcRig.Stratum.Client
open BtcRig.Stratum.Template
open BtcRig.Stratum.Extranonce

set_option autoImplicit false

/-- A line that is no notification and changes no setting of the template. -/
structure TemplateQuiet (line : Option Json) : Prop where
  notify : paramsOf "mining.notify" line = none
  difficulty : paramsOf "mining.set_difficulty" line = none
  extranonce : paramsOf "mining.set_extranonce" line = none

/-- The template stays, and mining is neither paused nor stopped. -/
def Calm : SessionEvent → Prop
  | .line root => TemplateQuiet root
  | .setPaused _ => False
  | .stop => False
  | _ => True

def queueOf (s : Session) : List MinerShare := s.system.miner.shares.toList

theorem quiet_installs_nothing (state : StratumState) {line : Option Json}
    (quiet : TemplateQuiet line) : (stratumProcessLine state line).2 = none := by
  have noNotify : notifyOf line = none := by simp only [notifyOf, quiet.notify]
  have effect := stratumProcessLine_effect state line
  generalize stratumProcessLine state line = r at effect ⊢
  cases effect with
  | quiet state' none_ kept => rfl
  | subscribe result none_ isReply => rfl
  | settings state' none_ invalid resettled => rfl
  | rebuild state' none_ valid resettled rebuilds =>
      exfalso
      rcases rebuilds with ⟨-, isDifficulty | isExtranonce⟩ | ⟨notify, isNotify, -⟩
      · simp [difficultyOf, quiet.difficulty] at isDifficulty
      · simp [quiet.extranonce] at isExtranonce
      · cases noNotify.symm.trans isNotify
  | rejected notify state' isNotify => rfl
  | accepted notify state' isNotify => cases noNotify.symm.trans isNotify

/-- The lock sections a calm step runs: a job is set by a roll only. -/
inductive CalmTrace (s : Session) (e : SessionEvent) : List Event → Prop where
  | nothing : CalmTrace s e []
  | rolled (job : MinerJob) : e = .roll → CalmTrace s e [.setJob job]
  | section_ (e' : Event) : (∀ job, e' ≠ .setJob job) → (∀ paused, e' ≠ .setPaused paused) →
      e' ≠ .stop → (∀ w batch scan, e' = .worker w batch scan → e = .worker w batch scan) →
      CalmTrace s e [e']

theorem calm_trace (s : Session) {e : SessionEvent} (calm : Calm e) :
    CalmTrace s e (minerTrace (sessionStep s e).2) := by
  cases e with
  | line root =>
      have none_ := quiet_installs_nothing s.state calm
      have trace := (did_handled s (stratumProcessLine s.state root)).trace
      rw [none_] at trace
      simp only [sessionStep]
      rw [trace]
      exact .nothing
  | flush sent =>
      have trace : minerTrace (sessionStep s (.flush sent)).2 = [.popShare] := by
        simp only [sessionStep, flushOne]
        cases (minerPopShare s.system.miner).1 <;> exact minerTrace_perform s .popShare
      rw [trace]
      exact .section_ _ (by simp) (by simp) (by simp) (by simp)
  | takeExhausted =>
      have trace : minerTrace (sessionStep s .takeExhausted).2 = [.takeNonceExhausted] :=
        minerTrace_perform s _
      rw [trace]
      exact .section_ _ (by simp) (by simp) (by simp) (by simp)
  | roll =>
      simp only [sessionStep]
      split
      · rw [(did_handled { s with rolling := false } (rebuildMinerJob s.state)).trace]
        cases (rebuildMinerJob s.state).2 with
        | none => exact .nothing
        | some job => exact .rolled job rfl
      · exact .nothing
  | worker w batch scan =>
      have trace : minerTrace (sessionStep s (.worker w batch scan)).2 = [.worker w batch scan] :=
        minerTrace_perform s _
      rw [trace]
      refine .section_ _ (by simp) (by simp) (by simp) fun w' batch' scan' same => ?_
      cases same
      rfl
  | spurious w =>
      have trace : minerTrace (sessionStep s (.spurious w)).2 = [.spurious w] := minerTrace_perform s _
      rw [trace]
      exact .section_ _ (by simp) (by simp) (by simp) (by simp)
  | setPaused paused => exact calm.elim
  | stop => exact calm.elim

/-! ## The queue -/

/-- The match a worker is about to report, with the copy it belongs to. -/
def reporting (s : System) (w : WorkerId) : Option (ActiveJob × (Word × Vector Word 8)) :=
  match s.workers w with
  | .scanning copy _ (m :: _) _ => some (copy, m)
  | _ => none

/-- The shares that a lock section adds to the queue, if there is room. -/
def entering (s : System) : Event → List MinerShare
  | .worker w _ _ =>
      match reporting s w with
      | some (copy, m) =>
          if scanResultStillCurrentLocked s.miner copy then [shareOf copy.publicJob m] else []
      | none => []
  | _ => []

theorem reporting_eq_some {s : System} {w : WorkerId} {copy : ActiveJob} {m : Word × Vector Word 8}
    {pending : List (Word × Vector Word 8)} (held : Holds s w copy (m :: pending)) :
    reporting s w = some (copy, m) := by
  obtain ⟨count, ok, held⟩ := held
  cases phase : s.workers w with
  | scanning copy' count' pending' ok' =>
      rw [phase] at held
      cases held
      simp only [reporting, phase]
  | _ =>
      rw [phase] at held
      cases held

theorem holds_of_reporting {s : System} {w : WorkerId} {copy : ActiveJob} {m : Word × Vector Word 8}
    (is : reporting s w = some (copy, m)) : ∃ pending, Holds s w copy (m :: pending) := by
  unfold reporting at is
  split at is
  · rename_i phase
    cases is
    exact ⟨_, _, _, by rw [phase]; rfl⟩
  · cases is

theorem worker_queue {s : System} (wf : s.miner.shares.WF)
    (room : s.miner.shares.toList.length < shareQueueSize) (w : WorkerId) (batch : Word)
    (scan : Scanner) :
    poppedOf (workerStep s w batch scan).2 ++ (workerStep s w batch scan).1.miner.shares.toList =
      s.miner.shares.toList ++ entering s (.worker w batch scan) := by
  cases phase : s.workers w with
  | top =>
      simp only [workerStep, entering, reporting, phase]
      split
      · simp [poppedOf, System.move]
      · split <;> simp [poppedOf, System.move]
  | ready =>
      simp only [workerStep, entering, reporting, phase]
      rcases copyJobAndNonceRangeSized_cases s.miner (batchOf s.miner batch w) with
        quiet | ⟨-, -, valid, -, exhausted⟩ | ⟨-, -, -, next, start, range, -, -, -, -, handed⟩
      · simp [quiet, poppedOf]
      · simp [exhausted, valid, poppedOf]
      · simp [handed, poppedOf]
  | waiting =>
      simp only [workerStep, entering, reporting, phase]
      split <;> simp [poppedOf, System.move]
  | blocked => simp [workerStep, entering, reporting, phase, poppedOf]
  | exited => simp [workerStep, entering, reporting, phase, poppedOf]
  | scanning copy count pending ok =>
      cases pending with
      | nil =>
          cases ok with
          | true =>
              obtain ⟨_, _, _, _, same⟩ := countHashes_frame s.miner w copy count
              simp [workerStep, entering, reporting, phase, poppedOf, same]
          | false => simp [workerStep, entering, reporting, phase, poppedOf, System.move]
      | cons m pending =>
          simp only [workerStep, entering, reporting, phase]
          cases current : scanResultStillCurrentLocked s.miner copy with
          | true =>
              have pushed := RingBuffer.toList_push wf (shareOf copy.publicJob m)
              rw [if_pos room] at pushed
              rw [queueScanMatch_current current]
              simpa [poppedOf] using pushed
          | false =>
              rw [queueScanMatch_late current]
              simp [poppedOf]

/-- Lock sections other than setting a job: shares leave the queue by being popped. -/
theorem step_queue {s : System} (wf : s.miner.shares.WF)
    (room : s.miner.shares.toList.length < shareQueueSize) {e : Event}
    (noJob : ∀ job, e ≠ .setJob job) :
    poppedOf (step s e).2 ++ (step s e).1.miner.shares.toList =
      s.miner.shares.toList ++ entering s e := by
  cases e with
  | worker w batch scan => exact worker_queue wf room w batch scan
  | spurious w =>
      simp only [step, entering, List.append_nil]
      split <;> rfl
  | setJob job => exact absurd rfl (noJob job)
  | setPaused paused =>
      simp only [step, entering, List.append_nil, minerSetPaused_eq]
      rfl
  | stop =>
      simp only [step, entering, List.append_nil, minerStop]
      split <;> rfl
  | takeNonceExhausted =>
      simp only [step, entering, List.append_nil]
      rfl
  | popShare =>
      simp only [step, entering, List.append_nil]
      obtain ⟨head, tail⟩ := RingBuffer.toList_pop wf
      simp only [minerPopShare, poppedOf, head, tail]
      cases s.miner.shares.toList <;> rfl

/-- **One calm step.**  A roll that installs a job empties the queue; any other step
lets shares out by popping them only, and adds what a worker reports in time. -/
theorem calm_step {s : Session} (wf : s.system.miner.shares.WF)
    (room : (queueOf s).length < shareQueueSize) {e : SessionEvent} (calm : Calm e) :
    (e = .roll ∧ installedOf (sessionStep s e).2 ≠ [] ∧ queueOf (sessionStep s e).1 = []) ∨
      (installedOf (sessionStep s e).2 = [] ∧ ∃ entered,
        flushedOf (sessionStep s e).2 ++ queueOf (sessionStep s e).1 = queueOf s ++ entered ∧
        ∀ w batch scan, e = .worker w batch scan →
          entered = entering s.system (.worker w batch scan)) := by
  obtain ⟨es, did⟩ := did_sessionStep s e
  have isTrace := calm_trace s calm
  rw [did.trace] at isTrace
  simp only [installedOf, flushedOf, queueOf, did.trace, did.system, did.outputs]
  cases isTrace with
  | nothing =>
      refine .inr ⟨rfl, [], by simp [run, poppedOf], fun w batch scan isWorker => ?_⟩
      subst isWorker
      have trace : minerTrace (sessionStep s (.worker w batch scan)).2 = [.worker w batch scan] :=
        minerTrace_perform s _
      cases did.trace.symm.trans trace
  | rolled job isRoll =>
      refine .inl ⟨isRoll, by simp [jobsOf], ?_⟩
      rw [run_singleton]
      exact RingBuffer.toList_clear _
  | section_ e' noJob noPause noStop isWorker =>
      refine .inr ⟨jobsOf_other noJob, _, by rw [run_singleton]; exact step_queue wf room noJob, ?_⟩
      rintro w batch scan rfl
      have trace : minerTrace (sessionStep s (.worker w batch scan)).2 = [.worker w batch scan] :=
        minerTrace_perform s _
      rw [List.cons.inj (did.trace.symm.trans trace) |>.1]

/-! ## A range, and the rolls since it was handed out -/

/-- Was a range handed to worker `w`? -/
def handedTo (w : WorkerId) (os : List Output) : Bool :=
  os.any fun
    | .handed w' _ _ _ => w' = w
    | _ => false

theorem handedTo_true {w : WorkerId} {os : List Output} (is : handedTo w os = true) :
    ∃ job start count, Output.handed w job start count ∈ os := by
  obtain ⟨o, member, handed⟩ := List.any_eq_true.mp is
  cases o with
  | handed w' job start count =>
      have same : w' = w := by simpa using handed
      exact ⟨job, start, count, same ▸ member⟩
  | _ => cases handed

theorem handedTo_false {w : WorkerId} {os : List Output} (is : handedTo w os = false) :
    ∀ job start count, Output.handed w job start count ∉ os := by
  intro job start count member
  have handed : handedTo w os = true := List.any_eq_true.mpr ⟨_, member, by simp⟩
  exact absurd (is.symm.trans handed) nofun

/-- Ranges are handed out while mining runs. -/
theorem handed_running {s s' : System} {e : Event} {os : List Output} (change : Change s e s' os)
    {w : WorkerId} {job : ActiveJob} {start count : Word}
    (handed : Output.handed w job start count ∈ os) :
    s'.miner.stop = false ∧ s'.miner.paused = false := by
  cases change with
  | hand w' batch scan next start' range running unpaused => exact ⟨running, unpaused⟩
  | raise w' batch scan => cases List.mem_singleton.mp handed
  | take => cases List.mem_singleton.mp handed
  | pop => cases List.mem_singleton.mp handed
  | _ => cases handed

/-- Without pauses and stops the flags and the epoch stay. -/
theorem flags_run (s : System) (es : List Event)
    (calm : ∀ e ∈ es, (∀ paused, e ≠ .setPaused paused) ∧ e ≠ .stop) :
    (run s es).1.miner.stop = s.miner.stop ∧ (run s es).1.miner.paused = s.miner.paused ∧
      (run s es).1.miner.pauseEpoch = s.miner.pauseEpoch := by
  refine run_invariant s (fun es s' _ => (∀ e ∈ es, (∀ paused, e ≠ .setPaused paused) ∧ e ≠ .stop) →
    s'.miner.stop = s.miner.stop ∧ s'.miner.paused = s.miner.paused ∧
      s'.miner.pauseEpoch = s.miner.pauseEpoch) (fun _ => ⟨rfl, rfl, rfl⟩) ?_ es calm
  intro es e s₁ s₂ os os' change ih calm
  have before := ih fun e' member => calm e' (by simp [member])
  obtain ⟨noPause, noStop⟩ := calm e (by simp)
  cases change with
  | report w batch scan copy count nonce hashWords pending ok holding =>
      obtain ⟨shares, same⟩ := queueScanMatch_frame s₁.miner copy nonce hashWords
      rw [same]
      exact before
  | finish w batch scan copy count holding =>
      obtain ⟨_, _, _, _, same⟩ := countHashes_frame s₁.miner w copy count
      rw [same]
      exact before
  | setPaused paused => exact absurd rfl (noPause paused)
  | stop => exact absurd rfl noStop
  | _ => exact before

theorem calm_trace_run (s : Session) (es : List SessionEvent) (calm : ∀ e ∈ es, Calm e) :
    ∀ e ∈ minerTrace (sessionRun s es).2, (∀ paused, e ≠ .setPaused paused) ∧ e ≠ .stop := by
  refine Machine.exec_invariant sessionStep s (fun es _ os => (∀ e ∈ es, Calm e) →
    ∀ e ∈ minerTrace os, (∀ paused, e ≠ .setPaused paused) ∧ e ≠ .stop) (fun _ _ => nofun) ?_ es calm
  intro es e s' os ih calm e' member
  rw [minerTrace_append, List.mem_append] at member
  rcases member with member | member
  · exact ih (fun e'' old => calm e'' (by simp [old])) e' member
  · have isTrace := calm_trace s' (calm e (by simp))
    generalize minerTrace (sessionStep s' e).2 = trace at isTrace member
    cases isTrace with
    | nothing => cases member
    | rolled job isRoll =>
        cases List.mem_singleton.mp member
        exact ⟨fun _ => nofun, nofun⟩
    | section_ e'' noJob noPause noStop isWorker =>
        cases List.mem_singleton.mp member
        exact ⟨noPause, noStop⟩

theorem sessionRun_append (s : Session) (es es' : List SessionEvent) :
    (sessionRun s (es ++ es')).1 = (sessionRun (sessionRun s es).1 es').1 := by
  rw [sessionRun, Machine.exec_append]
  rfl

/-- A range handed out before a calm stretch is current as long as no roll installed a
job. -/
theorem current_iff_not_rolled {s₀ s : Session} {after : List SessionEvent} {w : WorkerId}
    {batch : Word} {scan : Scanner} (isStep : s = (sessionStep s₀ (.worker w batch scan)).1)
    (handed : handedTo w (minerOutputs (sessionStep s₀ (.worker w batch scan)).2) = true)
    (only : handedTo w (minerOutputs (sessionRun s after).2) = false)
    (calm : ∀ e ∈ after, Calm e)
    (few : (installedOf (sessionRun s after).2).length < 2 ^ 64) {copy : ActiveJob}
    {pending : List (Word × Vector Word 8)}
    (held : Holds (sessionRun s after).1.system w copy pending) :
    scanResultStillCurrentLocked (sessionRun s after).1.system.miner copy = true ↔
      installedOf (sessionRun s after).2 = [] := by
  have did : Did s₀ s (sessionStep s₀ (.worker w batch scan)).2 [.worker w batch scan] :=
    isStep ▸ did_perform s₀ (.worker w batch scan)
  rw [did.outputs, run_singleton] at handed
  obtain ⟨job, start, count, handed⟩ := handedTo_true handed
  have change := step_change s₀.system (.worker w batch scan)
  rw [← run_singleton, ← did.system, run_singleton] at change
  obtain ⟨only₀, epoch, seq⟩ := handed_change change handed
  obtain ⟨running, unpaused⟩ := handed_running change handed
  -- the rest of the run, seen from the miner
  obtain ⟨system, outputs⟩ := session_simulates s after
  rw [outputs] at only
  rw [system] at held ⊢
  have isCopy : copy = job := copy_kept only₀ _ (handedTo_false only) copy pending held
  obtain ⟨stop, paused, sameEpoch⟩ := flags_run s.system _ (calm_trace_run s after calm)
  rw [scanResultStillCurrentLocked_iff, stop, paused, sameEpoch, seq_run, isCopy, epoch, seq]
  constructor
  · rintro ⟨-, -, -, same⟩
    by_contra rolled
    exact add_ofNat_ne _ (List.length_pos_iff.mpr rolled) few same
  · intro none_
    refine ⟨running, unpaused, rfl, ?_⟩
    rw [show jobsOf (minerTrace (sessionRun s after).2) = [] from none_]
    exact BitVec.add_zero _

theorem queue_wf_run (threads opencl cuda : Nat) (es : List SessionEvent) :
    (sessionRun (sessionInitial threads opencl cuda) es).1.system.miner.shares.WF := by
  rw [(session_simulates (sessionInitial threads opencl cuda) es).1]
  exact (sourced_run (fun _ _ => True) threads opencl cuda _
    fun _ _ _ _ _ _ _ _ _ _ _ => trivial).wf

/-- **What a roll costs.**  A worker is handed a range, and from then on the pool sends
nothing that touches the template and mining is neither paused nor stopped.  With room
in the queue, a match of that range enters it exactly if no roll has installed a job
since; and every queued share leaves the queue by being popped, unless a roll installs
a job and empties it. -/
theorem roll_share_fate (threads opencl cuda : Nat) (before after : List SessionEvent)
    (w : WorkerId) (batch : Word) (scan : Scanner)
    (handed : handedTo w (minerOutputs (sessionStep
      (sessionRun (sessionInitial threads opencl cuda) before).1 (.worker w batch scan)).2) = true)
    (only : handedTo w (minerOutputs (sessionRun (sessionRun (sessionInitial threads opencl cuda)
      (before ++ [.worker w batch scan])).1 after).2) = false)
    (calm : ∀ e ∈ after, Calm e)
    (few : (installedOf (sessionRun (sessionRun (sessionInitial threads opencl cuda)
      (before ++ [.worker w batch scan])).1 after).2).length < 2 ^ 64)
    (room : (queueOf (sessionRun (sessionInitial threads opencl cuda)
      (before ++ .worker w batch scan :: after)).1).length < shareQueueSize) :
    let s := (sessionRun (sessionInitial threads opencl cuda)
      (before ++ .worker w batch scan :: after)).1
    let rolled := installedOf (sessionRun (sessionRun (sessionInitial threads opencl cuda)
      (before ++ [.worker w batch scan])).1 after).2
    (∀ copy m pending, Holds s.system w copy (m :: pending) → ∀ batch' scan',
      let s' := (sessionStep s (.worker w batch' scan')).1
      (rolled = [] → queueOf s' = queueOf s ++ [shareOf copy.publicJob m]) ∧
        (rolled ≠ [] → queueOf s' = queueOf s)) ∧
      ∀ e, Calm e →
        (e = .roll ∧ installedOf (sessionStep s e).2 ≠ [] ∧ queueOf (sessionStep s e).1 = []) ∨
          ∃ entered, flushedOf (sessionStep s e).2 ++ queueOf (sessionStep s e).1 =
            queueOf s ++ entered := by
  intro s rolled
  have wf : s.system.miner.shares.WF := queue_wf_run threads opencl cuda _
  refine ⟨?_, fun e isCalm => ?_⟩
  · intro copy m pending held batch' scan'
    have split : s = (sessionRun (sessionRun (sessionInitial threads opencl cuda)
        (before ++ [.worker w batch scan])).1 after).1 := by
      rw [← sessionRun_append, List.append_assoc]
      rfl
    have current := current_iff_not_rolled (sessionRun_snoc _ before _) handed only calm few
      (split ▸ held)
    rw [← split] at current
    have quiet : flushedOf (sessionStep s (.worker w batch' scan')).2 = [] :=
      flushedOf_perform s (by simp)
    rcases calm_step wf room (show Calm (.worker w batch' scan') from trivial) with
      ⟨isRoll, -⟩ | ⟨-, entered, queue, isEntered⟩
    · cases isRoll
    · rw [quiet, List.nil_append, isEntered w batch' scan' rfl, entering, reporting_eq_some held] at queue
      refine ⟨fun none_ => ?_, fun some_ => ?_⟩
      · rw [queue]
        simp only [current.mpr none_, if_true]
      · have late : ¬scanResultStillCurrentLocked s.system.miner copy = true :=
          fun is => some_ (current.mp is)
        rw [queue]
        simp only [late, Bool.false_eq_true, if_false, List.append_nil]
  · rcases calm_step wf room isCalm with rolls | ⟨-, entered, queue, -⟩
    · exact .inl rolls
    · exact .inr ⟨entered, queue⟩

/-- A scan that reports its first nonce. -/
def matchFirst : Scanner := fun _ _ _ start _ => ([(start, Vector.replicate 8 0)], true)

/-- A device that takes nearly all nonces and finds one match. -/
def bigTurn : SessionEvent := .worker .cuda 0xffffffff matchFirst

/-- A device that takes one nonce and finds nothing. -/
def smallTurn : SessionEvent := .worker (.opencl 0) 1 fun _ _ _ _ _ => ([], true)

/-- No roll: the match enters the queue. -/
theorem roll_share_fate_example :
    let before : List SessionEvent := [.line subscribeLine, .line notifyLine, bigTurn]
    let s := (sessionRun (sessionInitial 0 1 1) (before ++ [bigTurn])).1
    ∃ copy m, reporting s.system .cuda = some (copy, m) ∧
      queueOf (sessionStep s bigTurn).1 = queueOf s ++ [shareOf copy.publicJob m] := by
  intro before s
  have isSome : (reporting s.system .cuda).isSome = true := by decide +kernel
  obtain ⟨⟨copy, m⟩, is⟩ := Option.isSome_iff_exists.mp isSome
  obtain ⟨pending, held⟩ := holds_of_reporting is
  have fate := roll_share_fate 0 1 1 before [] .cuda 0xffffffff matchFirst
    (by decide +kernel) (by decide +kernel) (fun _ => nofun) (by decide +kernel) (by decide +kernel)
  exact ⟨copy, m, is, (fate.1 copy m pending held _ _).1 rfl⟩

/-- The match a step reports, as a share. -/
def reportedBy (s : Session) : SessionEvent → List MinerShare
  | .worker w _ _ => (reporting s.system w).toList.map fun r => shareOf r.1.publicJob r.2
  | _ => []

/-- Every reported match enters the queue, and shares leave it by being popped only. -/
def LosesNothing (s : Session) (e : SessionEvent) : Prop :=
  flushedOf (sessionStep s e).2 ++ queueOf (sessionStep s e).1 = queueOf s ++ reportedBy s e

/-- The small device finds the nonces used up while the big one is still scanning.  The
client loop flushes and rolls.  If the big device reports its match after the roll, the
match is dropped; if it reports it between the flush and the roll, the match is queued and
the roll empties the queue. -/
theorem rolled_match_lost :
    let usedUp : List SessionEvent := [bigTurn, bigTurn, smallTurn, smallTurn, smallTurn, smallTurn,
      smallTurn, .flush true]
    let rest : List SessionEvent := usedUp ++ [.takeExhausted, .roll]
    let queued : List SessionEvent := usedUp ++ [bigTurn, .takeExhausted]
    let session := fun es : List SessionEvent =>
      (sessionRun (sessionInitial 0 1 1) ([.line subscribeLine, .line notifyLine] ++ es)).1
    let s := session rest
    let q := session queued
    ((∀ e ∈ rest, Calm e) ∧ (queueOf s).length < shareQueueSize ∧
      (reportedBy s bigTurn).length = 1 ∧ ¬LosesNothing s bigTurn) ∧
    (∀ e ∈ queued ++ [.roll], Calm e) ∧ (queueOf q).length = 1 ∧
      flushedOf (sessionStep q .roll).2 = [] ∧ queueOf (sessionStep q .roll).1 = [] ∧
      ¬LosesNothing q .roll := by
  intro usedUp rest queued session s q
  have calm : ∀ e ∈ usedUp, Calm e := by
    intro e member
    simp only [usedUp, List.mem_cons, List.not_mem_nil, or_false] at member
    rcases member with rfl | rfl | rfl | rfl | rfl | rfl | rfl | rfl <;> trivial
  refine ⟨?_, ?_⟩
  · have one : (reportedBy s bigTurn).length = 1 := by decide +kernel
    refine ⟨?_, by decide +kernel, one, fun kept => ?_⟩
    · intro e member
      rcases List.mem_append.mp member with old | new
      · exact calm e old
      · simp only [List.mem_cons, List.not_mem_nil, or_false] at new
        rcases new with rfl | rfl <;> trivial
    · have none_ : (flushedOf (sessionStep s bigTurn).2 ++ queueOf (sessionStep s bigTurn).1).length =
          0 := by decide +kernel
      rw [LosesNothing] at kept
      rw [kept, List.length_append, one] at none_
      omega
  · have one : (queueOf q).length = 1 := by decide +kernel
    have unflushed : flushedOf (sessionStep q .roll).2 = [] :=
      List.length_eq_zero_iff.mp (by decide +kernel)
    have emptied : queueOf (sessionStep q .roll).1 = [] :=
      List.length_eq_zero_iff.mp (by decide +kernel)
    refine ⟨?_, one, unflushed, emptied, fun kept => ?_⟩
    · intro e member
      simp only [queued, List.append_assoc, List.mem_append, List.mem_cons, List.not_mem_nil,
        or_false, List.cons_append, List.nil_append] at member
      rcases member with old | rfl | rfl | rfl
      · exact calm e old
      all_goals trivial
    · have none_ := congrArg List.length kept
      simp only [unflushed, emptied, List.length_append, one, List.length_nil] at none_
      omega

end BtcRig.Stratum.Roll
