/-
# BtcRig.Stratum.Template — which notification a job is built from

Four handlers write what a job is built from and four triggers build one.  The
invariant `TemplateCurrent` is the discipline of `template_valid`: while it is set,
the stored template is the latest notification, whole.

* `installed_from_latest_notify`: every installed job is built from one
  notification, the most recent one;
* `installed_matches_run`: under which lines the installed job follows the stored
  template, extranonce1 and extranonce2 size; a subscribe reply behind a
  notification breaks it (`installed_matches_fails`).
-/
import BtcRig.Stratum.Client

namespace BtcRig.Stratum.Template

open BtcRig.Theory
open BtcRig.Mining.Job
open BtcRig.Mining.State
open BtcRig.Mining.Workers
open BtcRig.Mining.Shares
open BtcRig.Stratum.State
open BtcRig.Stratum.Lines
open BtcRig.Stratum.Client

set_option autoImplicit false

/-! ## The latest notification -/

/-- The notifications with nine or more parameters, in order. -/
def notifiesOf (es : List SessionEvent) : List Notify :=
  es.filterMap fun
    | .line root => notifyOf root
    | _ => none

theorem notifiesOf_append (es es' : List SessionEvent) :
    notifiesOf (es ++ es') = notifiesOf es ++ notifiesOf es' :=
  List.filterMap_append

theorem notifiesOf_line (root : Option Json) :
    notifiesOf [.line root] = (notifyOf root).toList := by
  cases found : notifyOf root <;> simp [notifiesOf, found]

theorem notifiesOf_other {e : SessionEvent} (noLine : ∀ root, e ≠ .line root) :
    notifiesOf [e] = [] := by
  cases e with
  | line root => exact absurd rfl (noLine root)
  | _ => rfl

/-- While the template is valid it is the latest notification. -/
def TemplateCurrent (es : List SessionEvent) (state : StratumState) : Prop :=
  state.templateValid = true → (notifiesOf es).getLast? = some (templateOf state)

/-- The state a line leaves before it rebuilds keeps the discipline. -/
theorem TemplateCurrent.resettled {es : List SessionEvent} {state state' : StratumState}
    (inv : TemplateCurrent es state) (resettled : Resettled state state') :
    TemplateCurrent es state' := by
  intro valid
  rw [resettled.template]
  exact inv (resettled.valid ▸ valid)

theorem templateCurrent_rebuilt {es : List SessionEvent} {state : StratumState} :
    TemplateCurrent es (rebuildMinerJob state).1 ↔ TemplateCurrent es state := by
  obtain ⟨counter, same⟩ := rebuildMinerJob_frame state
  rw [same]
  exact Iff.rfl

theorem templateCurrent_line {es : List SessionEvent} {state : StratumState} {root : Option Json}
    {r : StratumState × Option MinerJob} (effect : LineEffect state root r)
    (inv : TemplateCurrent es state) : TemplateCurrent (es ++ [.line root]) r.1 := by
  have unnoticed (none_ : notifyOf root = none) (state : StratumState) :
      TemplateCurrent es state → TemplateCurrent (es ++ [.line root]) state := by
    intro inv valid
    rw [notifiesOf_append, notifiesOf_line, none_]
    exact (List.append_nil _).symm ▸ inv valid
  cases effect with
  | quiet state' none_ kept =>
      apply unnoticed none_ _
      intro valid
      rw [kept.template]
      exact inv (kept.valid ▸ valid)
  | subscribe result none_ =>
      exact unnoticed none_ _ (inv.resettled (resettled_handleSubscribeResult state result))
  | settings state' none_ invalid resettled => exact unnoticed none_ _ (inv.resettled resettled)
  | rebuild state' none_ valid resettled =>
      exact unnoticed none_ _ (templateCurrent_rebuilt.mpr (inv.resettled resettled))
  | rejected notify state' isNotify invalid =>
      intro valid
      rw [invalid] at valid
      cases valid
  | accepted notify state' isNotify core isTemplate =>
      apply templateCurrent_rebuilt.mpr
      intro _
      rw [notifiesOf_append, notifiesOf_line, isNotify, isTemplate]
      exact List.getLast?_concat

theorem templateCurrent_step {es : List SessionEvent} {s s' : Session} {e : SessionEvent}
    {os : List SessionOutput} (effect : ClientEffect s e s' os)
    (inv : TemplateCurrent es s.state) : TemplateCurrent (es ++ [e]) s'.state := by
  cases effect with
  | line root r isLine effect handled =>
      rw [isLine, handled.state]
      exact templateCurrent_line effect inv
  | roll isRoll handled =>
      rw [handled.state]
      intro valid
      rw [notifiesOf_append, isRoll]
      exact (List.append_nil _).symm ▸ templateCurrent_rebuilt.mpr inv valid
  | other noLine kept =>
      intro valid
      rw [notifiesOf_append, notifiesOf_other noLine, List.append_nil, kept.template]
      exact inv (kept.valid ▸ valid)

theorem templateCurrent_run (threads opencl cuda : Nat) (es : List SessionEvent) :
    TemplateCurrent es (sessionRun (sessionInitial threads opencl cuda) es).1.state :=
  session_invariant (sessionInitial threads opencl cuda)
    (fun es s _ => TemplateCurrent es s.state) nofun
    (fun _ _ _ _ _ _ effect inv => templateCurrent_step effect inv) es

/-- The settings a rebuild used are those it leaves behind. -/
def BuiltNow (es : List SessionEvent) (counter : BitVec 64) (state : StratumState)
    (job : MinerJob) : Prop :=
  ∃ notify, (notifiesOf es).getLast? = some notify ∧
    notify.build state.extranonce1.1 (minerFormatExtranonce2 32 state.extranonce2Size counter)
      state.difficulty = some job

theorem builtNow_of_rebuild {es : List SessionEvent} {state : StratumState} {job : MinerJob}
    (inv : TemplateCurrent es state) (installs : (rebuildMinerJob state).2 = some job) :
    BuiltNow es state.extranonce2Counter (rebuildMinerJob state).1 job := by
  obtain ⟨can, built⟩ := rebuildMinerJob_installs installs
  obtain ⟨counter, same⟩ := rebuildMinerJob_frame state
  rw [same]
  exact ⟨templateOf state, inv can.valid, built⟩

/-- **Every installed job is built from the latest notification.**  Whatever lines,
rolls and worker steps came before: a job that a step installs is built from the
texts of the most recent notification with at least nine parameters, all of them,
together with the extranonce1, extranonce2 size and difficulty then stored. -/
theorem installed_from_latest_notify (threads opencl cuda : Nat) (es : List SessionEvent)
    (e : SessionEvent) (job : MinerJob)
    (installed : job ∈ installedOf
      (sessionStep (sessionRun (sessionInitial threads opencl cuda) es).1 e).2) :
    BuiltNow (es ++ [e])
      (sessionRun (sessionInitial threads opencl cuda) es).1.state.extranonce2Counter
      (sessionStep (sessionRun (sessionInitial threads opencl cuda) es).1 e).1.state job := by
  have inv := templateCurrent_run threads opencl cuda es
  generalize (sessionRun (sessionInitial threads opencl cuda) es).1 = s at installed inv ⊢
  have after := templateCurrent_step (sessionStep_effect s e) inv
  cases sessionStep_effect s e with
  | line root r isLine effect handled =>
      rw [handled.installed, Option.mem_toList] at installed
      rw [handled.state] at after ⊢
      cases effect with
      | rebuild state' none_ valid resettled =>
          rw [← resettled.counter]
          exact builtNow_of_rebuild (templateCurrent_rebuilt.mp after) installed
      | accepted notify state' isNotify core =>
          rw [← core.counter]
          exact builtNow_of_rebuild (templateCurrent_rebuilt.mp after) installed
      | _ => cases installed
  | roll isRoll handled =>
      rw [handled.installed, Option.mem_toList] at installed
      rw [handled.state] at after ⊢
      exact builtNow_of_rebuild (templateCurrent_rebuilt.mp after) installed
  | other noLine kept none_ =>
      rw [none_] at installed
      cases installed

/-- A subscribe reply: extranonce1 `00`, four bytes of extranonce2. -/
def subscribeLine : Option Json := some <| .object [("id", .int 1),
  ("result", .array [.array [], .string "00".toList, .int 4]), ("error", .null)]

/-- A notification without merkle branches. -/
def notifyLine : Option Json := some <| .object [("id", .null),
  ("method", .string "mining.notify".toList),
  ("params", .array [.string "1".toList, .string (List.replicate 64 '0'), .string [], .string [],
    .array [], .string "20000000".toList, .string "1d00ffff".toList, .string "5f5e1000".toList,
    .bool true])]

/-- A notification with two coinbase parts and these branches. -/
def announceLine (jobId coinb1 coinb2 : String) (branches : List (List Char)) : Option Json :=
  some <| .object [("id", .null), ("method", .string "mining.notify".toList),
    ("params", .array [.string jobId.toList, .string (List.replicate 64 '0'), .string coinb1.toList,
      .string coinb2.toList, .array (branches.map .string), .string "20000000".toList,
      .string "1d00ffff".toList, .string "5f5e1000".toList, .bool true])]

/-- The second notification has a branch of 65 digits: it is rejected with its coinbase parts
and its first branch already stored.  The third is mined on. -/
theorem installed_from_latest_notify_example :
    let first := SessionEvent.line (announceLine "1" "01" "02" [List.replicate 64 '1'])
    let second := SessionEvent.line
      (announceLine "2" "03" "04" [List.replicate 64 '2', List.replicate 65 '2'])
    let third := SessionEvent.line
      (announceLine "3" "05" "06" [List.replicate 64 '3', List.replicate 64 '4'])
    let es : List SessionEvent := [.line subscribeLine, first, second]
    let s := (sessionRun (sessionInitial 1 0 0) es).1
    (s.state.templateValid = false ∧ s.state.templateCoinb1 = "03".toList ∧
      s.state.templateMerkleCount = 1) ∧
      ∃ job ∈ installedOf (sessionStep s third).2,
        BuiltNow (es ++ [third]) s.state.extranonce2Counter (sessionStep s third).1.state job := by
  intro first second third es s
  have one : (installedOf (sessionStep s third).2).length = 1 := by decide +kernel
  obtain ⟨job, only⟩ := List.length_eq_one_iff.mp one
  have installed := only ▸ List.mem_singleton_self job
  exact ⟨by decide +kernel, job, installed,
    installed_from_latest_notify 1 0 0 es third job installed⟩

/-! ## Does the installed job follow the stored settings? -/

/-- The stored template can be mined on: it is valid, the pool has given an
extranonce1 and a usable size, and `miner_build_job` succeeds with an extranonce2 of
that size. -/
structure Ready (state : StratumState) : Prop where
  valid : state.templateValid = true
  extranonce1 : state.extranonce1.1 ≠ []
  low : 1 ≤ state.extranonce2Size
  high : state.extranonce2Size ≤ 15
  buildable : ∃ extranonce2 difficulty, extranonce2.length = 2 * state.extranonce2Size.toNat ∧
    ((templateOf state).build state.extranonce1.1 extranonce2 difficulty).isSome = true

/-- The job was built from the stored template, extranonce1 and extranonce2 size. -/
def BuiltFrom (state : StratumState) (job : MinerJob) : Prop :=
  ∃ value difficulty, (templateOf state).build state.extranonce1.1
    (minerFormatExtranonce2 32 state.extranonce2Size value) difficulty = some { job with seq := 0 }

/-- Whenever there is something to mine on, the miner mines on it. -/
def InstalledMatches (s : Session) : Prop :=
  Ready s.state → BuiltFrom s.state s.system.miner.job.publicJob

/-- A line after which the installed job still follows the settings: a subscribe reply
does not change the extranonces under a valid template, and a rebuild's extranonce2 has
an even number of digits. -/
structure Healthy (state : StratumState) (line : Option Json) : Prop where
  subscribe : ∀ result, subscribeReply line = some result → state.templateValid = true →
    (∀ text, Json.stringValue (Json.element result 1) = some text →
      text.take 127 = state.extranonce1.1) ∧
    (∀ size, Json.integerValue (Json.element result 2) = some size →
      toInt size = state.extranonce2Size)
  digits : Rebuilds state line →
    (minerFormatExtranonce2 32 (sizeAfter state line) state.extranonce2Counter).length % 2 = 0

/-- Settings that agree on what a job is built from. -/
theorem ready_congr {state state' : StratumState} (valid : state'.templateValid = state.templateValid)
    (extranonce1 : state'.extranonce1 = state.extranonce1)
    (size : state'.extranonce2Size = state.extranonce2Size)
    (template : templateOf state' = templateOf state) :
    (Ready state' → Ready state) ∧ ∀ job, BuiltFrom state job → BuiltFrom state' job := by
  constructor
  · intro ready
    refine ⟨valid ▸ ready.valid, extranonce1 ▸ ready.extranonce1, size ▸ ready.low, size ▸ ready.high,
      ?_⟩
    rw [← template, ← extranonce1, ← size]
    exact ready.buildable
  · rintro job ⟨value, difficulty, built⟩
    refine ⟨value, difficulty, ?_⟩
    rw [template, extranonce1, size]
    exact built

/-- A rebuild succeeds if there is something to mine on and the counter's text has an
even number of digits. -/
theorem rebuild_succeeds {state : StratumState} (attached : state.minerAttached = true)
    (ready : Ready state) (even : (nextExtranonce2 state).length % 2 = 0) :
    ∃ job, (rebuildMinerJob state).2 = some job := by
  have can : CanRebuild state := ⟨attached, ready.valid, ready.extranonce1, by have := ready.low; omega⟩
  obtain ⟨extranonce2, difficulty, size, succeeds⟩ := ready.buildable
  have formed := minerBuildJob_isSome.mp succeeds
  have text : nextExtranonce2 state = _ :=
    minerFormatExtranonce2_of_size ready.low ready.high state.extranonce2Counter
  have fits : (nextExtranonce2 state).length < 32 := by
    rw [text, ← take_format _ _ (by have := ready.high; omega), List.length_take]
    omega
  have nonempty : nextExtranonce2 state ≠ [] := by
    intro empty
    have length := congrArg List.length (text.symm.trans empty)
    rw [Hex.length_format, List.length_nil] at length
    have := ready.low
    omega
  have wellFormed : WellFormed (templateOf state).jobId (templateOf state).prevhash
      (templateOf state).coinb1 (templateOf state).coinb2 (templateOf state).merkle
      (templateOf state).version (templateOf state).nbits (templateOf state).ntime
      state.extranonce1.1 (nextExtranonce2 state) := by
    refine { formed with extranonce2_fits := fits, coinbase_even := ?_, coinbase_hex := ?_ }
    · have whole := formed.coinbase_even
      simp only [List.length_append] at whole ⊢
      omega
    · have whole := formed.coinbase_hex
      simp only [Hex.isHex_append] at whole ⊢
      exact ⟨⟨whole.1.1, text ▸ Hex.isHex_format _ _⟩, whole.2⟩
  have succeeds : ((templateOf state).build state.extranonce1.1 (nextExtranonce2 state)
      state.difficulty).isSome = true := minerBuildJob_isSome.mpr wellFormed
  obtain ⟨job, built⟩ := Option.isSome_iff_exists.mp succeeds
  refine ⟨job, ?_⟩
  rw [rebuildMinerJob_of_can can]
  simp only [nonempty, if_false]
  exact built

/-- An installed job was built from the settings in force. -/
theorem builtFrom_rebuild {s s' : Session} {os : List SessionOutput} {state : StratumState}
    {job : MinerJob} (handled : Handled s s' os (rebuildMinerJob state))
    (installs : (rebuildMinerJob state).2 = some job) :
    BuiltFrom s'.state s'.system.miner.job.publicJob := by
  obtain ⟨-, built⟩ := rebuildMinerJob_installs installs
  obtain ⟨counter, same⟩ := rebuildMinerJob_frame state
  have unnumbered : job.seq = 0 := (minerBuildJob_fields built).1
  rw [handled.state, handled.publicJob, installs, same]
  refine ⟨state.extranonce2Counter, state.difficulty, built.trans ?_⟩
  rw [← unnumbered]

theorem rebuild_congr (state : StratumState) :
    (Ready (rebuildMinerJob state).1 → Ready state) ∧
      ∀ job, BuiltFrom state job → BuiltFrom (rebuildMinerJob state).1 job := by
  obtain ⟨counter, same⟩ := rebuildMinerJob_frame state
  rw [same]
  exact ready_congr rfl rfl rfl rfl

theorem handleSubscribeResult_unchanged {state : StratumState} {result : Option Json}
    (text : ∀ text, Json.stringValue (Json.element result 1) = some text →
      text.take 127 = state.extranonce1.1)
    (size : ∀ size, Json.integerValue (Json.element result 2) = some size →
      toInt size = state.extranonce2Size) :
    (handleSubscribeResult state result).extranonce1 = state.extranonce1 ∧
      (handleSubscribeResult state result).extranonce2Size = state.extranonce2Size := by
  unfold handleSubscribeResult
  split
  · cases isText : Json.stringValue (Json.element result 1) with
    | none =>
        cases isSize : Json.integerValue (Json.element result 2) with
        | none => exact ⟨rfl, rfl⟩
        | some n => exact ⟨rfl, size n isSize⟩
    | some t =>
        cases isSize : Json.integerValue (Json.element result 2) with
        | none => exact ⟨Subtype.ext (text t isText), rfl⟩
        | some n => exact ⟨Subtype.ext (text t isText), size n isSize⟩
  · exact ⟨rfl, rfl⟩

theorem sizeAfter_notify {state : StratumState} {line : Option Json} {notify : Notify}
    (isNotify : notifyOf line = some notify) : sizeAfter state line = state.extranonce2Size := by
  cases line with
  | none => rfl
  | some root =>
      have isMethod := method_of_notifyOf isNotify
      have noExtranonce : paramsOf "mining.set_extranonce" (some root) = none :=
        paramsOf_of_ne (by rw [isMethod]; decide)
      simp only [sizeAfter, noExtranonce]

theorem installedMatches_line {s s' : Session} {os : List SessionOutput} {root : Option Json}
    {r : StratumState × Option MinerJob} (attached : s.state.minerAttached = true)
    (effect : LineEffect s.state root r) (handled : Handled s s' os r)
    (healthy : Healthy s.state root) (inv : InstalledMatches s) : InstalledMatches s' := by
  intro ready
  have unmoved (none_ : r.2 = none) :
      s'.system.miner.job.publicJob = s.system.miner.job.publicJob := by
    rw [handled.publicJob, none_]
  rw [handled.state] at ready
  cases effect with
  | quiet state' none_ kept =>
      rw [handled.state, unmoved rfl]
      have congr := ready_congr kept.valid kept.extranonce1 kept.size kept.template
      exact congr.2 _ (inv (congr.1 ready))
  | subscribe result none_ isReply =>
      have resettled := resettled_handleSubscribeResult s.state result
      obtain ⟨text, size⟩ := healthy.subscribe result isReply (resettled.valid ▸ ready.valid)
      obtain ⟨sameText, sameSize⟩ := handleSubscribeResult_unchanged text size
      rw [handled.state, unmoved rfl]
      have congr := ready_congr resettled.valid sameText sameSize resettled.template
      exact congr.2 _ (inv (congr.1 ready))
  | settings state' none_ invalid resettled =>
      have valid := ready.valid
      rw [resettled.valid, invalid] at valid
      cases valid
  | rebuild state' none_ valid resettled rebuilds size =>
      obtain ⟨job, installs⟩ := rebuild_succeeds (resettled.attached.trans attached)
        ((rebuild_congr state').1 ready) (by
          rw [nextExtranonce2, size, resettled.counter]
          exact healthy.digits rebuilds)
      exact builtFrom_rebuild handled installs
  | rejected notify state' isNotify invalid =>
      have valid := ready.valid
      rw [invalid] at valid
      cases valid
  | accepted notify state' isNotify core isTemplate =>
      have rebuilds : Rebuilds s.state root :=
        .inr ⟨notify, isNotify, isTemplate ▸ notifyFits_templateOf state'⟩
      obtain ⟨job, installs⟩ := rebuild_succeeds (core.attached.trans attached)
        ((rebuild_congr state').1 ready) (by
          rw [nextExtranonce2, core.size, core.counter]
          exact sizeAfter_notify isNotify ▸ healthy.digits rebuilds)
      exact builtFrom_rebuild handled installs

theorem installedMatches_step {s s' : Session} {e : SessionEvent} {os : List SessionOutput}
    (attached : s.state.minerAttached = true) (effect : ClientEffect s e s' os)
    (healthy : ∀ root, e = .line root → Healthy s.state root) (inv : InstalledMatches s) :
    InstalledMatches s' := by
  cases effect with
  | line root r isLine effect handled =>
      exact installedMatches_line attached effect handled (healthy root isLine) inv
  | roll isRoll handled =>
      intro ready
      rw [handled.state] at ready
      -- a roll that builds nothing leaves the old job, which was built from the same settings
      cases installs : (rebuildMinerJob s.state).2 with
      | some job => exact builtFrom_rebuild handled installs
      | none =>
          rw [handled.state, handled.publicJob, installs]
          exact (rebuild_congr s.state).2 _ (inv ((rebuild_congr s.state).1 ready))
  | other noLine kept none_ attempts publicJob =>
      intro ready
      rw [publicJob]
      have congr := ready_congr kept.valid kept.extranonce1 kept.size kept.template
      exact congr.2 _ (inv (congr.1 ready))

theorem attached_step {s s' : Session} {e : SessionEvent} {os : List SessionOutput}
    (effect : ClientEffect s e s' os) : s'.state.minerAttached = s.state.minerAttached := by
  cases effect with
  | line root r isLine effect handled =>
      rw [handled.state]
      cases effect with
      | quiet state' none_ kept => exact kept.attached
      | subscribe result none_ => exact (resettled_handleSubscribeResult s.state result).attached
      | settings state' none_ invalid resettled => exact resettled.attached
      | rebuild state' none_ valid resettled =>
          obtain ⟨counter, same⟩ := rebuildMinerJob_frame state'
          rw [same]
          exact resettled.attached
      | rejected notify state' isNotify invalid attached => exact attached
      | accepted notify state' isNotify core =>
          obtain ⟨counter, same⟩ := rebuildMinerJob_frame state'
          rw [same]
          exact core.attached
  | roll isRoll handled =>
      obtain ⟨counter, same⟩ := rebuildMinerJob_frame s.state
      rw [handled.state, same]
  | other noLine kept => exact kept.attached

/-- **The installed job follows the stored settings** in every state of every run whose
lines are all healthy, rolls and worker steps in between as they come. -/
theorem installed_matches_run (threads opencl cuda : Nat) (es : List SessionEvent)
    (healthy : ∀ before root after, es = before ++ .line root :: after →
      Healthy (sessionRun (sessionInitial threads opencl cuda) before).1.state root) :
    InstalledMatches (sessionRun (sessionInitial threads opencl cuda) es).1 := by
  induction es using List.reverseRecOn with
  | nil =>
      intro ready
      cases ready.valid
  | append_singleton es e ih =>
      have prefix_ := ih fun before root after split =>
        healthy before root (after ++ [e]) (by rw [split]; simp)
      have attached := session_invariant (sessionInitial threads opencl cuda)
        (fun _ s _ => s.state.minerAttached = true) rfl
        (fun _ _ _ _ _ _ effect is => (attached_step effect).trans is) es
      rw [sessionRun_snoc]
      refine installedMatches_step attached (sessionStep_effect _ e) ?_ prefix_
      intro root isLine
      exact healthy es root [] (by rw [isLine])

theorem ready_example (state : StratumState) (valid : state.templateValid = true)
    (extranonce1 : state.extranonce1.1 = "00".toList) (size : state.extranonce2Size = 4)
    (builds : ((templateOf state).build "00".toList "00000000".toList 1).isSome = true) :
    Ready state := by
  refine ⟨valid, by rw [extranonce1]; decide, by rw [size]; decide, by rw [size]; decide,
    "00000000".toList, 1, by rw [size]; decide, ?_⟩
  rw [extranonce1]
  exact builds

/-- The notification comes first and the subscribe reply second: everything to mine on
is there, and the miner still has no job. -/
theorem installed_matches_fails :
    ¬InstalledMatches
      (sessionRun (sessionInitial 1 0 0) [.line notifyLine, .line subscribeLine]).1 := by
  intro isMatch
  have ready : Ready
      (sessionRun (sessionInitial 1 0 0) [.line notifyLine, .line subscribeLine]).1.state :=
    ready_example _ (by decide +kernel) (by decide +kernel) (by decide +kernel) (by decide +kernel)
  obtain ⟨value, difficulty, built⟩ := isMatch ready
  have sameId := (minerBuildJob_fields built).2.1
  have differ : (sessionRun (sessionInitial 1 0 0)
      [.line notifyLine, .line subscribeLine]).1.system.miner.job.publicJob.jobId.1 ≠
      (templateOf (sessionRun (sessionInitial 1 0 0)
        [.line notifyLine, .line subscribeLine]).1.state).jobId := by decide +kernel
  exact differ sameId

/-- In the usual order both lines are healthy. -/
theorem installed_matches_run_example :
    InstalledMatches
      (sessionRun (sessionInitial 1 0 0) [.line subscribeLine, .line notifyLine]).1 := by
  apply installed_matches_run 1 0 0 _
  intro before root after split
  match before, split with
  | [], split =>
      cases split
      exact ⟨fun _ _ valid => absurd valid (by decide +kernel), fun _ => by decide +kernel⟩
  | [_], split =>
      cases split
      have noReply : subscribeReply notifyLine = none := rfl
      refine ⟨fun result isReply => ?_, fun _ => by decide +kernel⟩
      rw [noReply] at isReply
      cases isReply
  | _ :: _ :: rest, split =>
      simp at split

end BtcRig.Stratum.Template
