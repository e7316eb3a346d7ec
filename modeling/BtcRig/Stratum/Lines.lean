/-
# BtcRig.Stratum.Lines — what one pool line does to the stored template

`stratum_process_line` has many ends, but for the template there are five:
nothing, a subscribe reply, a rebuild of the same template, a notification that
does not fit, and one that does.  `LineEffect` lists them and
`stratumProcessLine_effect` says that there is no other.
-/
import BtcRig.Stratum.State

namespace BtcRig.Stratum.Lines

open BtcRig.Theory
open BtcRig.Mining.Job
open BtcRig.Mining.State
open BtcRig.Stratum.State

set_option autoImplicit false

/-! ## Lines, by what they ask for -/

/-- The parameters of a call of `method`. -/
def paramsOf (method : String) : Option Json → Option (Option Json)
  | some root =>
      if Json.stringValue (Json.get root "method") = some method.toList then
        some (Json.get root "params")
      else none
  | none => none

/-- A notification whose parameters are an array of at least nine elements. -/
def notifyOf (line : Option Json) : Option Notify :=
  match paramsOf "mining.notify" line with
  | some params =>
      if !Json.isArray params || Json.arraySize params < 9 then none else some (readNotify params)
  | none => none

/-- The result of a subscribe reply that is taken over. -/
def subscribeReply : Option Json → Option (Option Json)
  | some root =>
      let result := Json.get root "result"
      let error := Json.get root "error"
      if (Json.get root "method").isNone && !(error.isSome && !Json.isNull error) &&
          Json.integerValue (Json.get root "id") == some 1 &&
          (Json.isArray result && Json.arraySize result ≥ 3) then some result
      else none
  | none => none

/-- The difficulty a line sets. -/
def difficultyOf (line : Option Json) : Option ℚ :=
  match paramsOf "mining.set_difficulty" line with
  | some params => Json.numberValue (if Json.isArray params then Json.element params 0 else none)
  | none => none

/-- The extranonce2 size in force when the line's handler rebuilds. -/
def sizeAfter (state : StratumState) (line : Option Json) : Int :=
  match paramsOf "mining.set_extranonce" line with
  | some params =>
      match Json.integerValue (if Json.isArray params then Json.element params 1 else none) with
      | some size => toInt size
      | none => state.extranonce2Size
  | none => state.extranonce2Size

/-- Every text of the notification fits its buffer. -/
def NotifyFits (notify : Notify) : Prop :=
  notify.jobId.length < 128 ∧ notify.prevhash.length < 65 ∧
    notify.coinb1.length < stratumMaxCoinbaseHex ∧ notify.coinb2.length < stratumMaxCoinbaseHex ∧
    notify.version.length < 9 ∧ notify.nbits.length < 9 ∧ notify.ntime.length < 9 ∧
    ∀ branch ∈ notify.merkle, branch.length < 65

/-- The line makes its handler rebuild the job: new settings for a valid template, or
a notification that fits. -/
def Rebuilds (state : StratumState) (line : Option Json) : Prop :=
  (state.templateValid = true ∧
    ((difficultyOf line).isSome ∨ (paramsOf "mining.set_extranonce" line).isSome)) ∨
  ∃ notify, notifyOf line = some notify ∧ NotifyFits notify

theorem paramsOf_of_eq {root : Json} {method : String}
    (is : Json.stringValue (Json.get root "method") = some method.toList) :
    paramsOf method (some root) = some (Json.get root "params") := by
  simp only [paramsOf, is, if_true]

theorem paramsOf_of_ne {root : Json} {method : String}
    (other : Json.stringValue (Json.get root "method") ≠ some method.toList) :
    paramsOf method (some root) = none := by
  simp only [paramsOf, other, if_false]

theorem notifyFits_templateOf (state : StratumState) : NotifyFits (templateOf state) := by
  refine ⟨state.templateJobId.2, state.templatePrevhash.2, state.templateCoinb1.2,
    state.templateCoinb2.2, state.templateVersion.2, state.templateNbits.2, state.templateNtime.2, ?_⟩
  intro branch member
  obtain ⟨i, -, rfl⟩ := List.mem_map.mp member
  exact (state.templateMerkle i).2

/-- The copies succeed exactly if every text fits its field. -/
theorem storeNotify_fits (notify : Notify) (state : StratumState) :
    (storeNotify notify state).2 = true ↔ NotifyFits notify := by
  simp only [storeNotify, andThen_fits, storeTemplateString_fits, storeBranches_fits, NotifyFits]

/-! ## The effect of a line -/

/-- Nothing the template or a rebuild depends on has changed. -/
structure Kept (state state' : StratumState) : Prop extends SameCore state state' where
  template : templateOf state' = templateOf state

theorem Kept.refl (state : StratumState) : Kept state state := ⟨.refl state, rfl⟩

theorem Kept.trans {s₁ s₂ s₃ : StratumState} (h : Kept s₁ s₂) (h' : Kept s₂ s₃) : Kept s₁ s₃ :=
  ⟨h.toSameCore.trans h'.toSameCore, h'.template.trans h.template⟩

/-- The same template, to be combined with other pool settings. -/
structure Resettled (state state' : StratumState) : Prop where
  attached : state'.minerAttached = state.minerAttached
  valid : state'.templateValid = state.templateValid
  counter : state'.extranonce2Counter = state.extranonce2Counter
  template : templateOf state' = templateOf state

inductive LineEffect (state : StratumState) (line : Option Json) :
    StratumState × Option MinerJob → Prop where
  | quiet (state' : StratumState) : notifyOf line = none → Kept state state' →
      LineEffect state line (state', none)
  | subscribe (result : Option Json) : notifyOf line = none → subscribeReply line = some result →
      LineEffect state line (handleSubscribeResult state result, none)
  /-- New settings while no template is valid. -/
  | settings (state' : StratumState) : notifyOf line = none → state.templateValid = false →
      Resettled state state' → LineEffect state line (state', none)
  /-- New settings, and the template rebuilt with them. -/
  | rebuild (state' : StratumState) : notifyOf line = none → state.templateValid = true →
      Resettled state state' → Rebuilds state line → state'.extranonce2Size = sizeAfter state line →
      LineEffect state line (rebuildMinerJob state')
  | rejected (notify : Notify) (state' : StratumState) : notifyOf line = some notify →
      state'.templateValid = false → state'.minerAttached = state.minerAttached →
      state'.extranonce2Counter = state.extranonce2Counter → LineEffect state line (state', none)
  | accepted (notify : Notify) (state' : StratumState) : notifyOf line = some notify →
      SameCore { state with templateValid := true } state' → templateOf state' = notify →
      LineEffect state line (rebuildMinerJob state')

theorem kept_completePendingShare (state : StratumState) (id : Int) (accepted : Bool) :
    Kept state (completePendingShare state id accepted) := by
  unfold completePendingShare
  simp only
  split
  · exact ⟨⟨rfl, rfl, rfl, rfl, rfl, rfl⟩, rfl⟩
  · exact ⟨⟨rfl, rfl, rfl, rfl, rfl, rfl⟩, rfl⟩

theorem kept_registerPendingShare (state : StratumState) (id : Int) (share : MinerShare) :
    Kept state (registerPendingShare state id share) :=
  ⟨⟨rfl, rfl, rfl, rfl, rfl, rfl⟩, rfl⟩

/-- A subscribe reply changes the settings, but neither template nor counter. -/
theorem resettled_handleSubscribeResult (state : StratumState) (result : Option Json) :
    Resettled state (handleSubscribeResult state result) := by
  unfold handleSubscribeResult
  split
  · split <;> split <;> exact ⟨rfl, rfl, rfl, rfl⟩
  · exact ⟨rfl, rfl, rfl, rfl⟩

theorem handleSubscribeResult_short {state : StratumState} {result : Option Json}
    (short : ¬(Json.isArray result && Json.arraySize result ≥ 3) = true) :
    handleSubscribeResult state result = state := by
  rw [handleSubscribeResult, if_neg short]

theorem notifyOf_of_ne {root : Json}
    (other : Json.stringValue (Json.get root "method") ≠ some "mining.notify".toList) :
    notifyOf (some root) = none := by
  simp only [notifyOf, paramsOf, other, if_false]

theorem method_of_notifyOf {root : Json} {notify : Notify}
    (isNotify : notifyOf (some root) = some notify) :
    Json.stringValue (Json.get root "method") = some "mining.notify".toList := by
  by_contra other
  rw [notifyOf_of_ne other] at isNotify
  cases isNotify

/-- A response never touches the template. -/
theorem handleResponse_effect (state : StratumState) (root : Json)
    (noMethod : Json.get root "method" = none) :
    LineEffect state (some root) (handleResponse state root, none) := by
  have noNotify : notifyOf (some root) = none := by
    apply notifyOf_of_ne
    rw [noMethod]
    nofun
  have counted : Kept state { state with rejectCount := state.rejectCount + 1 } :=
    ⟨⟨rfl, rfl, rfl, rfl, rfl, rfl⟩, rfl⟩
  unfold handleResponse
  simp only
  split
  · split
    · exact .quiet _ noNotify (counted.trans (kept_completePendingShare _ _ _))
    · exact .quiet _ noNotify (.refl state)
  · rename_i noError
    split
    · rename_i isOne
      by_cases long : (Json.isArray (Json.get root "result") &&
          Json.arraySize (Json.get root "result") ≥ 3) = true
      · refine .subscribe _ noNotify ?_
        have isId : Json.integerValue (Json.get root "id") = some 1 := by
          cases found : Json.integerValue (Json.get root "id") with
          | none => rw [found] at isOne; cases isOne
          | some id => rw [found] at isOne; exact congrArg some isOne
        simp only [subscribeReply, noMethod, noError, isId, long]
        rfl
      · rw [handleSubscribeResult_short long]
        exact .quiet _ noNotify (.refl state)
    · split
      · exact .quiet _ noNotify ⟨⟨rfl, rfl, rfl, rfl, rfl, rfl⟩, rfl⟩
      · split
        · have completed := kept_completePendingShare state
            (toInt ((Json.integerValue (Json.get root "id")).getD (-1)))
            (Json.isTrue (Json.get root "result"))
          split
          · exact .quiet _ noNotify (completed.trans ⟨⟨rfl, rfl, rfl, rfl, rfl, rfl⟩, rfl⟩)
          · exact .quiet _ noNotify (completed.trans ⟨⟨rfl, rfl, rfl, rfl, rfl, rfl⟩, rfl⟩)
        · exact .quiet _ noNotify (.refl state)

/-- New settings take effect at once if there is a template, and else wait for one. -/
theorem settings_effect {state state' : StratumState} {line : Option Json}
    (noNotify : notifyOf line = none) (resettled : Resettled state state')
    (asked : (difficultyOf line).isSome ∨ (paramsOf "mining.set_extranonce" line).isSome)
    (size : state'.extranonce2Size = sizeAfter state line) :
    LineEffect state line (if state'.templateValid then rebuildMinerJob state' else (state', none)) := by
  rw [resettled.valid]
  cases valid : state.templateValid with
  | true => exact .rebuild state' noNotify valid resettled (.inl ⟨valid, asked⟩) size
  | false => exact .settings state' noNotify valid resettled

/-- A new difficulty rebuilds the job if there is a template. -/
theorem handleSetDifficulty_effect {state : StratumState} {root : Json}
    (isMethod : Json.stringValue (Json.get root "method") = some "mining.set_difficulty".toList) :
    LineEffect state (some root) (handleSetDifficulty state (Json.get root "params")) := by
  have noNotify : notifyOf (some root) = none :=
    notifyOf_of_ne (by rw [isMethod]; decide)
  have noExtranonce : paramsOf "mining.set_extranonce" (some root) = none :=
    paramsOf_of_ne (by rw [isMethod]; decide)
  unfold handleSetDifficulty
  simp only
  split
  · rename_i difficulty isNumber
    have resettled : Resettled state { state with difficulty := difficulty } := ⟨rfl, rfl, rfl, rfl⟩
    refine settings_effect noNotify resettled (.inl ?_) ?_
    · simp only [difficultyOf, paramsOf_of_eq isMethod, isNumber, Option.isSome_some]
    · simp only [sizeAfter, noExtranonce]
  · exact .quiet _ noNotify (.refl state)

/-- So does a new extranonce. -/
theorem handleSetExtranonce_effect {state : StratumState} {root : Json}
    (isMethod : Json.stringValue (Json.get root "method") = some "mining.set_extranonce".toList) :
    LineEffect state (some root) (handleSetExtranonce state (Json.get root "params")) := by
  have noNotify : notifyOf (some root) = none :=
    notifyOf_of_ne (by rw [isMethod]; decide)
  unfold handleSetExtranonce
  refine settings_effect noNotify ?_ (.inr ?_) ?_
  · split <;> split <;> exact ⟨rfl, rfl, rfl, rfl⟩
  · rw [paramsOf_of_eq isMethod]
    rfl
  · simp only [sizeAfter, paramsOf_of_eq isMethod]
    cases Json.stringValue
        (if Json.isArray (Json.get root "params") then Json.element (Json.get root "params") 0 else none) <;>
      cases Json.integerValue
        (if Json.isArray (Json.get root "params") then Json.element (Json.get root "params") 1 else none) <;>
      rfl

/-- A notification is stored whole or leaves no valid template. -/
inductive NotifyEffect (state : StratumState) (notify : Notify) :
    StratumState × Option MinerJob → Prop where
  | stored (state' : StratumState) : NotifyFits notify →
      SameCore { state with templateValid := true } state' → templateOf state' = notify →
      NotifyEffect state notify (rebuildMinerJob state')
  | tooLong (state' : StratumState) : ¬NotifyFits notify → state'.templateValid = false →
      state'.minerAttached = state.minerAttached →
      state'.extranonce2Counter = state.extranonce2Counter → NotifyEffect state notify (state', none)

theorem handleNotify_cases {state : StratumState} {params : Option Json}
    (long : ¬(!Json.isArray params || Json.arraySize params < 9) = true) :
    NotifyEffect state (readNotify params) (handleNotify state params) := by
  rw [handleNotify, if_neg long]
  generalize readNotify params = notify
  generalize begun : ({ state with
    notifyCount := state.notifyCount + 1
    currentJobId := snprintf room128 notify.jobId
    currentNtime := snprintf room16 notify.ntime
    templateValid := false
    templateMerkleCount := 0 } : StratumState) = state₀
  have kept := keeps_storeNotify notify state₀
  simp only
  split
  · rename_i fitted
    refine .stored _ ((storeNotify_fits notify _).mp fitted) ?_ ?_
    · subst begun
      exact ⟨kept.attached, rfl, kept.extranonce1, kept.size, kept.difficulty, kept.counter⟩
    · exact storeNotify_fitted (by subst begun; rfl) fitted
  · rename_i unfitted
    subst begun
    exact .tooLong _ (fun fits => unfitted ((storeNotify_fits notify _).mpr fits)) kept.valid
      kept.attached kept.counter

/-- A notification is either stored whole or rejected. -/
theorem handleNotify_effect {state : StratumState} {root : Json}
    (isNotify : Json.stringValue (Json.get root "method") = some "mining.notify".toList) :
    LineEffect state (some root) (handleNotify state (Json.get root "params")) := by
  by_cases short : (!Json.isArray (Json.get root "params") ||
      Json.arraySize (Json.get root "params") < 9) = true
  · rw [handleNotify, if_pos short]
    refine .quiet _ ?_ (.refl state)
    simp only [notifyOf, paramsOf, isNotify, short, if_true]
  · have isNotify : notifyOf (some root) = some (readNotify (Json.get root "params")) := by
      simp only [notifyOf, paramsOf, isNotify, short, if_true]
      rfl
    have effect : NotifyEffect state (readNotify (Json.get root "params"))
        (handleNotify state (Json.get root "params")) := handleNotify_cases short
    generalize handleNotify state (Json.get root "params") = r at effect ⊢
    cases effect with
    | stored state' fits core isTemplate => exact .accepted _ state' isNotify core isTemplate
    | tooLong state' long invalid attached counter =>
        exact .rejected _ state' isNotify invalid attached counter

/-- **Every line has one of these effects.** -/
theorem stratumProcessLine_effect (state : StratumState) (line : Option Json) :
    LineEffect state line (stratumProcessLine state line) := by
  cases line with
  | none => exact .quiet _ rfl (.refl state)
  | some root =>
      unfold stratumProcessLine
      simp only
      cases isMethod : Json.get root "method" with
      | none => exact handleResponse_effect state root isMethod
      | some value =>
          unfold handleMethod
          simp only [Option.isSome_some, if_true]
          split
          · rename_i noText
            refine .quiet _ (notifyOf_of_ne ?_) (.refl state)
            rw [noText]
            nofun
          · rename_i method isText
            split
            · rename_i isDifficulty
              exact handleSetDifficulty_effect (isText.trans (congrArg some isDifficulty))
            · split
              · rename_i isNotify
                exact handleNotify_effect (isText.trans (congrArg some isNotify))
              · rename_i notNotify
                have noNotify : notifyOf (some root) = none := by
                  apply notifyOf_of_ne
                  rw [isText]
                  intro same
                  exact notNotify (Option.some.inj same)
                split
                · rename_i isExtranonce
                  exact handleSetExtranonce_effect (isText.trans (congrArg some isExtranonce))
                · exact .quiet _ noNotify (.refl state)

end BtcRig.Stratum.Lines
