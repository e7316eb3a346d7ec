/-
# BtcRig.Stratum.Rejected — what is left of the template after a notification

`handle_notify` clears `template_valid` and the branch count first and copies field by
field; only then does it know whether the texts fit.  A notification that does not fit
leaves no valid template behind, one that fits leaves itself, also if no job can be
built from it.  The miner keeps the job it has, and a later roll finds the template
gone.

`rejected_notify_iff`: only a notification that repeats the stored template leaves
the client as if it had not been received.
-/
import BtcRig.Stratum.Template

namespace BtcRig.Stratum.Rejected

open BtcRig.Theory
open BtcRig.Theory.Words
open BtcRig.Mining.Job
open BtcRig.Mining.State
open BtcRig.Mining.Workers
open BtcRig.Stratum.State
open BtcRig.Stratum.Lines
open BtcRig.Stratum.Client
open BtcRig.Stratum.Template

set_option autoImplicit false

/-! ## What a notification leaves -/

theorem stratumProcessLine_notify {state : StratumState} {line : Option Json} {notify : Notify}
    (isNotify : notifyOf line = some notify) :
    NotifyEffect state notify (stratumProcessLine state line) := by
  cases line with
  | none => cases isNotify
  | some root =>
      have isMethod := method_of_notifyOf isNotify
      have present : (Json.get root "method").isSome = true := by
        cases found : Json.get root "method" with
        | none => rw [found] at isMethod; cases isMethod
        | some _ => rfl
      have handled : stratumProcessLine state (some root) =
          handleNotify state (Json.get root "params") := by
        simp only [stratumProcessLine, present, if_true, handleMethod, isMethod]
        rfl
      rw [notifyOf, paramsOf_of_eq isMethod] at isNotify
      simp only at isNotify
      split at isNotify
      · cases isNotify
      · rename_i long
        obtain rfl := Option.some.inj isNotify
        rw [handled]
        exact handleNotify_cases long

theorem builtFrom_notify (s : Session) (line : Option Json) {notify : Notify}
    (isNotify : notifyOf line = some notify)
    (installs : (stratumProcessLine s.state line).2.isSome = true) :
    BuiltFrom (sessionStep s (.line line)).1.state
      (sessionStep s (.line line)).1.system.miner.job.publicJob := by
  have handled := handled_spec s (stratumProcessLine s.state line)
  rw [show Client.handled s (stratumProcessLine s.state line) = sessionStep s (.line line) from rfl]
    at handled
  have effect : NotifyEffect s.state notify (stratumProcessLine s.state line) :=
    stratumProcessLine_notify isNotify
  generalize stratumProcessLine s.state line = r at installs handled effect
  cases effect with
  | stored state' fits core isTemplate =>
      obtain ⟨job, isJob⟩ := Option.isSome_iff_exists.mp installs
      exact builtFrom_rebuild handled isJob
  | tooLong => cases installs

/-! ## Rolling later -/

/-- No line and no roll: the client waits for the miner. -/
def Waits (e : SessionEvent) : Prop := e ≠ .roll ∧ ∀ root, e ≠ .line root

theorem kept_waiting (s : Session) (later : List SessionEvent) (waits : ∀ e ∈ later, Waits e) :
    Kept s.state (sessionRun s later).1.state := by
  refine session_invariant s (fun es t _ => (∀ e ∈ es, Waits e) → Kept s.state t.state)
    (fun _ => .refl _) ?_ later waits
  intro es e t t' os os' effect ih waits
  have before := ih fun e' member => waits e' (by simp [member])
  obtain ⟨noRoll, noLine⟩ := waits e (by simp)
  cases effect with
  | line root r isLine => exact absurd isLine (noLine root)
  | roll isRoll => exact absurd isRoll noRoll
  | other _ kept => exact before.trans kept

/-- What a rebuild installs depends on what is kept. -/
theorem rebuild_of_kept {state state' : StratumState} (kept : Kept state state') :
    (rebuildMinerJob state').2 = (rebuildMinerJob state).2 := by
  have next : nextExtranonce2 state' = nextExtranonce2 state := by
    rw [nextExtranonce2, nextExtranonce2, kept.size, kept.counter]
  by_cases can : CanRebuild state
  · have can' : CanRebuild state' :=
      ⟨kept.attached.trans can.attached, kept.valid.trans can.valid, kept.extranonce1 ▸ can.extranonce1,
        kept.size ▸ can.size⟩
    rw [rebuildMinerJob_of_can can, rebuildMinerJob_of_can can']
    simp only [next, kept.template, kept.extranonce1, kept.difficulty]
  · have not' : ¬CanRebuild state' := fun can' =>
      can ⟨kept.attached ▸ can'.attached, kept.valid ▸ can'.valid, kept.extranonce1 ▸ can'.extranonce1,
        kept.size ▸ can'.size⟩
    rw [rebuildMinerJob_of_not can, rebuildMinerJob_of_not not']

/-- As if nothing had been received: the template stands, and when the nonces are used
up later, the roll has it and builds what it would have built. -/
structure Undisturbed (s s' : Session) : Prop where
  template : templateOf s'.state = templateOf s.state
  count : s'.state.templateMerkleCount = s.state.templateMerkleCount
  valid : s'.state.templateValid = s.state.templateValid
  rolls : ∀ later, (∀ e ∈ later, Waits e) →
    (sessionRun s' later).1.state.templateValid = true ∧ ∀ counter,
      (rebuildMinerJob
          { (sessionRun s' later).1.state with extranonce2Counter := counter }).2 =
        (rebuildMinerJob { s.state with extranonce2Counter := counter }).2

theorem merkleCount_eq (state : StratumState) :
    state.templateMerkleCount = (templateOf state).merkle.length := by
  simp [templateOf, branches]

/-- **A notification leaves the client as if it had not been received exactly when it
repeats the stored template**, whether a job is built from it or not. -/
theorem rejected_notify_iff (threads opencl cuda : Nat) (es : List SessionEvent)
    (line : Option Json) (notify : Notify) (isNotify : notifyOf line = some notify) :
    let s := (sessionRun (sessionInitial threads opencl cuda) es).1
    Undisturbed s (sessionStep s (.line line)).1 ↔
      s.state.templateValid = true ∧ notify = templateOf s.state := by
  intro s
  have stored : (sessionStep s (.line line)).1.state = (stratumProcessLine s.state line).1 :=
    (handled_spec s (stratumProcessLine s.state line)).state
  generalize (sessionStep s (.line line)).1 = s' at stored
  have effect : NotifyEffect s.state notify (stratumProcessLine s.state line) :=
    stratumProcessLine_notify isNotify
  generalize stratumProcessLine s.state line = r at stored effect
  cases effect with
  | stored state' fits core isTemplate =>
      obtain ⟨counter, same⟩ := rebuildMinerJob_frame state'
      rw [same] at stored
      have template : templateOf s'.state = notify := by
        rw [stored]
        exact isTemplate
      constructor
      · intro undisturbed
        refine ⟨?_, template.symm.trans undisturbed.template⟩
        rw [← undisturbed.valid, stored]
        exact core.valid
      · rintro ⟨valid, rfl⟩
        refine ⟨template, ?_, ?_, ?_⟩
        · rw [merkleCount_eq, template, ← merkleCount_eq]
        · rw [stored, valid]
          exact core.valid
        · intro later waits
          have kept := kept_waiting s' later waits
          have there : (sessionRun s' later).1.state.templateValid = true := by
            rw [kept.valid, stored]
            exact core.valid
          refine ⟨there, fun counter' => rebuild_of_kept ⟨⟨?_, there.trans valid.symm, ?_, ?_, ?_, rfl⟩, ?_⟩⟩
          · apply kept.attached.trans
            rw [stored]
            exact core.attached
          · apply kept.extranonce1.trans
            rw [stored]
            exact core.extranonce1
          · apply kept.size.trans
            rw [stored]
            exact core.size
          · apply kept.difficulty.trans
            rw [stored]
            exact core.difficulty
          · exact kept.template.trans template
  | tooLong state' long invalid =>
      constructor
      · intro undisturbed
        have there := (undisturbed.rolls [] nofun).1
        rw [show (sessionRun s' []).1 = s' from rfl, stored, invalid] at there
        cases there
      · rintro ⟨-, rfl⟩
        exact absurd (notifyFits_templateOf s.state) long

/-! ## A notification that is too long -/

/-- Nine digits of version where eight fit. -/
def longVersionLine : Option Json := some <| .object [("id", .null),
  ("method", .string "mining.notify".toList),
  ("params", .array [.string "2".toList, .string (List.replicate 64 '0'), .string [], .string [],
    .array [], .string "200000000".toList, .string "1d00ffff".toList, .string "5f5e1000".toList,
    .bool true])]

/-- The stored notification once more: no job is missing, and nothing is lost. -/
theorem rejected_notify_iff_example :
    Undisturbed (sessionRun (sessionInitial 1 0 0) [.line subscribeLine, .line notifyLine]).1
      (sessionStep (sessionRun (sessionInitial 1 0 0) [.line subscribeLine, .line notifyLine]).1
        (.line notifyLine)).1 :=
  (rejected_notify_iff 1 0 0 [.line subscribeLine, .line notifyLine] notifyLine
    (readNotify (some (.array [.string "1".toList, .string (List.replicate 64 '0'), .string [],
      .string [], .array [], .string "20000000".toList, .string "1d00ffff".toList,
      .string "5f5e1000".toList, .bool true]))) (by decide +kernel)).mpr
    ⟨by decide +kernel, by decide +kernel⟩

/-- A device that takes a range and finds nothing. -/
def idleTurn (batch : Word) : SessionEvent := .worker .cuda batch fun _ _ _ _ _ => ([], true)

/-- The nonces of a job are used up, and the client loop takes the flag. -/
def exhaustion : List SessionEvent :=
  [idleTurn 0xffffffff, idleTurn 0xffffffff, idleTurn 0xffffffff, idleTurn 1, idleTurn 1, idleTurn 1,
    idleTurn 1, idleTurn 1, .takeExhausted]

/-- A job is installed; a notification comes whose version is too long.  When the nonces
are used up the client takes the flag and rolls, and no job is installed; without the
line there would be one. -/
theorem rejected_notify_strands :
    let s := (sessionRun (sessionInitial 0 0 1) [.line subscribeLine, .line notifyLine]).1
    let s' := (sessionStep s (.line longVersionLine)).1
    let waiting := (sessionRun s' exhaustion).1
    (s.state.templateValid = true ∧ BuiltFrom s.state s.system.miner.job.publicJob ∧
        (notifyOf longVersionLine).isSome = true ∧ (stratumProcessLine s.state longVersionLine).2 = none) ∧
      ¬Undisturbed s s' ∧
      (waiting.rolling = true ∧ waiting.system.miner.nonceExhausted = false ∧
        installedOf (sessionStep waiting .roll).2 = [] ∧
        (sessionStep waiting .roll).1.system.miner.job.valid = false) ∧
      (installedOf (sessionStep (sessionRun s exhaustion).1 .roll).2).length = 1 := by
  intro s s' waiting
  refine ⟨⟨by decide +kernel, ?_, by decide +kernel, ?_⟩, ?_,
    ⟨by decide +kernel, by decide +kernel, ?_, by decide +kernel⟩, by decide +kernel⟩
  · exact builtFrom_notify (sessionRun (sessionInitial 0 0 1) [.line subscribeLine]).1 notifyLine rfl
      (by decide +kernel)
  · exact Option.isNone_iff_eq_none.mp (by decide +kernel)
  · intro undisturbed
    have valid := undisturbed.valid
    revert valid
    decide +kernel
  · exact List.length_eq_zero_iff.mp (by decide +kernel)

end BtcRig.Stratum.Rejected
