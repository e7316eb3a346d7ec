/-
# BtcRig.Stratum.State — the pool client's state and its message handlers

The handlers of `stratum.c`, from `stratum_process_line` down.  A line is what the
JSON library made of it, `none` if it did not parse.  The miner is behind a
pointer, so a handler does not return a new miner: it returns the job it passes to
`miner_set_job`, if it does.

Times, the strings shown to the user and what is only printed are left out.

* `rebuildMinerJob_of_can` and `rebuildMinerJob_of_not` say when a job is built and
  what it is built from;
* `storeNotify_fitted` follows the ten copies of a notification.
-/
import BtcRig.Mining.State
import BtcRig.Theory.Json

namespace BtcRig.Stratum.State

open BtcRig.Theory
open BtcRig.Mining.Job
open BtcRig.Mining.State

set_option autoImplicit false

def stratumPendingShares : Nat := 64
def stratumMaxMerkleBranches : Nat := 128
def stratumMaxCoinbaseHex : Nat := 16384

structure PendingShare where
  id : Int
  active : Bool
  difficulty : WithTop ℚ

structure StratumState where
  extranonce1 : CStr 128
  currentJobId : CStr 128
  currentNtime : CStr 16
  templateJobId : CStr 128
  templatePrevhash : CStr 65
  templateCoinb1 : CStr stratumMaxCoinbaseHex
  templateCoinb2 : CStr stratumMaxCoinbaseHex
  templateVersion : CStr 9
  templateNbits : CStr 9
  templateNtime : CStr 9
  templateMerkle : Nat → CStr 65
  templateMerkleCount : Nat
  templateValid : Bool
  extranonce2Size : Int
  difficulty : ℚ
  lastShareDifficulty : WithTop ℚ
  bestShareDifficulty : WithTop ℚ
  lastResultDifficulty : WithTop ℚ
  notifyCount : Nat
  submitCount : Nat
  acceptCount : Nat
  rejectCount : Nat
  pendingCount : Int
  lastResultAccepted : Int
  subscribed : Bool
  authorized : Bool
  /-- `state->miner != NULL`. -/
  minerAttached : Bool
  extranonce2Counter : BitVec 64
  pending : Vector PendingShare stratumPendingShares

def stratumStateInit (minerAttached : Bool) : StratumState where
  extranonce1 := .empty room128
  currentJobId := .empty room128
  currentNtime := .empty room16
  templateJobId := .empty room128
  templatePrevhash := .empty room65
  templateCoinb1 := .empty (by decide)
  templateCoinb2 := .empty (by decide)
  templateVersion := .empty room9
  templateNbits := .empty room9
  templateNtime := .empty room9
  templateMerkle := fun _ => .empty room65
  templateMerkleCount := 0
  templateValid := false
  extranonce2Size := 4
  difficulty := 1
  lastShareDifficulty := 0
  bestShareDifficulty := 0
  lastResultDifficulty := 0
  notifyCount := 0
  submitCount := 0
  acceptCount := 0
  rejectCount := 0
  pendingCount := 0
  lastResultAccepted := 0
  subscribed := false
  authorized := false
  minerAttached := minerAttached
  extranonce2Counter := 1
  pending := Vector.replicate stratumPendingShares ⟨0, false, 0⟩

/-! ## Strings -/

def jsonStringOrEmpty (value : Option Json) : List Char := (Json.stringValue value).getD []

/-- `snprintf(dst, size, "%s", text)`. -/
def snprintf {size : Nat} (room : 0 < size) (text : List Char) : CStr size :=
  ⟨text.take (size - 1), by rw [List.length_take]; omega⟩

/-! ## Submitted shares -/

/-- The slot loop of `register_pending_share`: an active slot with this id, else the
first free one. -/
def pendingSlot (pending : List PendingShare) (id : Int) : Option Nat :=
  match pending.findIdx? fun p => p.active && p.id == id with
  | some slot => some slot
  | none => pending.findIdx? fun p => !p.active

def registerPendingShare (state : StratumState) (id : Int) (share : MinerShare) : StratumState :=
  let slot := match pendingSlot state.pending.toList id with
    | some slot => slot
    | none => (id.tmod stratumPendingShares).toNat
  let wasActive := (state.pending.toList[slot]?).any fun p => p.active
  { state with
    pendingCount := if wasActive then state.pendingCount else state.pendingCount + 1
    pending := state.pending.setIfInBounds slot ⟨id, true, share.difficulty⟩
    lastShareDifficulty := share.difficulty
    bestShareDifficulty :=
      if share.difficulty > state.bestShareDifficulty then share.difficulty
      else state.bestShareDifficulty }

def completePendingShare (state : StratumState) (id : Int) (accepted : Bool) : StratumState :=
  let lastResultAccepted : Int := if accepted then 1 else -1
  match state.pending.toList.findIdx? fun p => p.active && p.id == id with
  | some slot =>
      let found := state.pending.toList.getD slot ⟨0, false, 0⟩
      { state with
        pending := state.pending.setIfInBounds slot { found with active := false }
        pendingCount :=
          if state.pendingCount > 0 then state.pendingCount - 1 else state.pendingCount
        lastResultAccepted := lastResultAccepted
        lastResultDifficulty := found.difficulty }
  | none => { state with lastResultAccepted := lastResultAccepted, lastResultDifficulty := 0 }

/-! ## Responses -/

/-- The reply to `mining.subscribe`. -/
def handleSubscribeResult (state : StratumState) (result : Option Json) : StratumState :=
  if Json.isArray result && Json.arraySize result ≥ 3 then
    let state := match Json.stringValue (Json.element result 1) with
      | some extranonce1 => { state with extranonce1 := snprintf room128 extranonce1 }
      | none => state
    let state := match Json.integerValue (Json.element result 2) with
      | some size => { state with extranonce2Size := toInt size }
      | none => state
    { state with subscribed := true }
  else state

def handleResponse (state : StratumState) (root : Json) : StratumState :=
  let result := Json.get root "result"
  let error := Json.get root "error"
  let id := (Json.integerValue (Json.get root "id")).getD (-1)
  if error.isSome && !Json.isNull error then
    if id ≥ 4 then
      let state := { state with rejectCount := state.rejectCount + 1 }
      completePendingShare state (toInt id) false
    else state
  else if id = 1 then handleSubscribeResult state result
  else if id = 2 then { state with authorized := Json.isTrue result }
  else if id ≥ 4 then
    let state := completePendingShare state (toInt id) (Json.isTrue result)
    if Json.isTrue result then { state with acceptCount := state.acceptCount + 1 }
    else { state with rejectCount := state.rejectCount + 1 }
  else state

/-! ## Building a job from the stored template -/

/-- The branches in use. -/
def branches (state : StratumState) : List (List Char) :=
  (List.range state.templateMerkleCount).map fun i => (state.templateMerkle i).1

/-- `miner_build_job` on the stored template. -/
def buildJob (state : StratumState) (extranonce2 : List Char) (difficulty : ℚ) : Option MinerJob :=
  minerBuildJob state.templateJobId.1 state.templatePrevhash.1 state.templateCoinb1.1
    state.templateCoinb2.1 (branches state) state.templateVersion.1 state.templateNbits.1
    state.templateNtime.1 state.extranonce1.1 extranonce2 difficulty

/-- The job is the one passed to `miner_set_job`. -/
def rebuildMinerJob (state : StratumState) : StratumState × Option MinerJob :=
  if !state.minerAttached || !state.templateValid || state.extranonce1.1.isEmpty ||
      state.extranonce2Size ≤ 0 then
    (state, none)
  else
    let extranonce2 := minerFormatExtranonce2 32 state.extranonce2Size state.extranonce2Counter
    let state := { state with extranonce2Counter := state.extranonce2Counter + 1 }
    if extranonce2.isEmpty then (state, none)
    else (state, buildJob state extranonce2 state.difficulty)

/-! ## Methods -/

def handleSetDifficulty (state : StratumState) (params : Option Json) :
    StratumState × Option MinerJob :=
  let value := if Json.isArray params then Json.element params 0 else none
  match Json.numberValue value with
  | some difficulty =>
      let state := { state with difficulty := difficulty }
      if state.templateValid then rebuildMinerJob state else (state, none)
  | none => (state, none)

def handleSetExtranonce (state : StratumState) (params : Option Json) :
    StratumState × Option MinerJob :=
  let extranonce1 := if Json.isArray params then Json.element params 0 else none
  let extranonce2Size := if Json.isArray params then Json.element params 1 else none
  let state := match Json.stringValue extranonce1 with
    | some text => { state with extranonce1 := snprintf room128 text }
    | none => state
  let state := match Json.integerValue extranonce2Size with
    | some size => { state with extranonce2Size := toInt size }
    | none => state
  if state.templateValid then rebuildMinerJob state else (state, none)

/-- A copy into the template: the new state and whether it fitted. -/
abbrev Store := StratumState → StratumState × Bool

def storeTemplateString {size : Nat} (write : StratumState → CStr size → StratumState)
    (src : List Char) : Store := fun state =>
  match copyChecked size src with
  | some text => (write state text, true)
  | none => (state, false)

/-- `a || b`: the second copy is made only if the first one fitted. -/
def Store.andThen (first second : Store) : Store := fun state =>
  let (state, fitted) := first state
  if fitted then second state else (state, false)

/-- Copy a branch behind those already stored. -/
def storeBranch (src : List Char) : Store :=
  storeTemplateString (fun state text => { state with
    templateMerkle := Function.update state.templateMerkle state.templateMerkleCount text
    templateMerkleCount := state.templateMerkleCount + 1 }) src

/-- The loop over the merkle branches. -/
def storeBranches : List (List Char) → Store
  | [] => fun state => (state, true)
  | src :: rest => (storeBranch src).andThen (storeBranches rest)

/-- The texts of a notification, as the handler reads them. -/
structure Notify where
  jobId : List Char
  prevhash : List Char
  coinb1 : List Char
  coinb2 : List Char
  merkle : List (List Char)
  version : List Char
  nbits : List Char
  ntime : List Char
deriving DecidableEq

/-- Of the branches the first 128 are used; a list that is no array counts as empty. -/
def readNotify (params : Option Json) : Notify where
  jobId := jsonStringOrEmpty (Json.element params 0)
  prevhash := jsonStringOrEmpty (Json.element params 1)
  coinb1 := jsonStringOrEmpty (Json.element params 2)
  coinb2 := jsonStringOrEmpty (Json.element params 3)
  merkle :=
    let merkleBranch := Json.element params 4
    if Json.isArray merkleBranch then
      (List.range (min (Json.arraySize merkleBranch) stratumMaxMerkleBranches)).map fun i =>
        jsonStringOrEmpty (Json.element merkleBranch i)
    else []
  version := jsonStringOrEmpty (Json.element params 5)
  nbits := jsonStringOrEmpty (Json.element params 6)
  ntime := jsonStringOrEmpty (Json.element params 7)

/-- The copies of `handle_notify`, in order. -/
def storeNotify (notify : Notify) : Store :=
  (storeTemplateString (fun state text => { state with templateJobId := text }) notify.jobId).andThen <|
  (storeTemplateString (fun state text => { state with templatePrevhash := text })
    notify.prevhash).andThen <|
  (storeTemplateString (fun state text => { state with templateCoinb1 := text })
    notify.coinb1).andThen <|
  (storeTemplateString (fun state text => { state with templateCoinb2 := text })
    notify.coinb2).andThen <|
  (storeTemplateString (fun state text => { state with templateVersion := text })
    notify.version).andThen <|
  (storeTemplateString (fun state text => { state with templateNbits := text })
    notify.nbits).andThen <|
  (storeTemplateString (fun state text => { state with templateNtime := text })
    notify.ntime).andThen <|
  storeBranches notify.merkle

def handleNotify (state : StratumState) (params : Option Json) : StratumState × Option MinerJob :=
  if !Json.isArray params || Json.arraySize params < 9 then (state, none)
  else
    let notify := readNotify params
    let state := { state with
      notifyCount := state.notifyCount + 1
      currentJobId := snprintf room128 notify.jobId
      currentNtime := snprintf room16 notify.ntime
      templateValid := false
      templateMerkleCount := 0 }
    let (state, fitted) := storeNotify notify state
    if fitted then rebuildMinerJob { state with templateValid := true } else (state, none)

def handleMethod (state : StratumState) (root : Json) : StratumState × Option MinerJob :=
  let params := Json.get root "params"
  match Json.stringValue (Json.get root "method") with
  | none => (state, none)
  | some method =>
      if method = "mining.set_difficulty".toList then handleSetDifficulty state params
      else if method = "mining.notify".toList then handleNotify state params
      else if method = "mining.set_extranonce".toList then handleSetExtranonce state params
      else (state, none)

def stratumProcessLine (state : StratumState) : Option Json → StratumState × Option MinerJob
  | none => (state, none)
  | some root =>
      if (Json.get root "method").isSome then handleMethod state root
      else (handleResponse state root, none)

/-! ## What the handlers do -/

/-- The stored template, as texts. -/
def templateOf (state : StratumState) : Notify where
  jobId := state.templateJobId.1
  prevhash := state.templatePrevhash.1
  coinb1 := state.templateCoinb1.1
  coinb2 := state.templateCoinb2.1
  merkle := branches state
  version := state.templateVersion.1
  nbits := state.templateNbits.1
  ntime := state.templateNtime.1

/-- `miner_build_job` on the texts of a notification. -/
def Notify.build (notify : Notify) (extranonce1 extranonce2 : List Char) (difficulty : ℚ) :
    Option MinerJob :=
  minerBuildJob notify.jobId notify.prevhash notify.coinb1 notify.coinb2 notify.merkle
    notify.version notify.nbits notify.ntime extranonce1 extranonce2 difficulty

/-- A rebuild goes ahead: it will use up a value of the counter. -/
structure CanRebuild (state : StratumState) : Prop where
  attached : state.minerAttached = true
  valid : state.templateValid = true
  extranonce1 : state.extranonce1.1 ≠ []
  size : 0 < state.extranonce2Size

/-- The extranonce2 text of the next rebuild. -/
def nextExtranonce2 (state : StratumState) : List Char :=
  minerFormatExtranonce2 32 state.extranonce2Size state.extranonce2Counter

theorem rebuildMinerJob_of_not {state : StratumState} (idle : ¬CanRebuild state) :
    rebuildMinerJob state = (state, none) := by
  unfold rebuildMinerJob
  split
  · rfl
  · rename_i go
    refine absurd ?_ idle
    simp only [Bool.or_eq_true, Bool.not_eq_true', List.isEmpty_iff, decide_eq_true_eq, not_or,
      Bool.not_eq_false, not_le] at go
    exact ⟨go.1.1.1, go.1.1.2, go.1.2, go.2⟩

/-- A rebuild that is possible uses up one extranonce2. -/
theorem rebuildMinerJob_of_can {state : StratumState} (can : CanRebuild state) :
    rebuildMinerJob state =
      ({ state with extranonce2Counter := state.extranonce2Counter + 1 },
        if nextExtranonce2 state = [] then none
        else (templateOf state).build state.extranonce1.1 (nextExtranonce2 state)
          state.difficulty) := by
  have go : ¬((!state.minerAttached || !state.templateValid || state.extranonce1.1.isEmpty ||
      state.extranonce2Size ≤ 0) = true) := by
    simp [can.attached, can.valid, can.extranonce1, can.size]
  unfold rebuildMinerJob
  rw [if_neg go]
  by_cases empty : nextExtranonce2 state = []
  · have isEmpty : (minerFormatExtranonce2 32 state.extranonce2Size
        state.extranonce2Counter).isEmpty = true := List.isEmpty_iff.mpr empty
    simp only [isEmpty, empty, if_true]
  · have isEmpty : ¬(minerFormatExtranonce2 32 state.extranonce2Size
        state.extranonce2Counter).isEmpty = true := fun is => empty (List.isEmpty_iff.mp is)
    simp only [isEmpty, empty, if_false]
    rfl

/-- A rebuild changes the counter only. -/
theorem rebuildMinerJob_frame (state : StratumState) :
    ∃ counter, (rebuildMinerJob state).1 = { state with extranonce2Counter := counter } := by
  by_cases can : CanRebuild state
  · rw [rebuildMinerJob_of_can can]
    exact ⟨_, rfl⟩
  · rw [rebuildMinerJob_of_not can]
    exact ⟨state.extranonce2Counter, rfl⟩

/-- What an installed job was built from. -/
theorem rebuildMinerJob_installs {state : StratumState} {job : MinerJob}
    (installs : (rebuildMinerJob state).2 = some job) :
    CanRebuild state ∧ (templateOf state).build state.extranonce1.1 (nextExtranonce2 state)
      state.difficulty = some job := by
  by_cases can : CanRebuild state
  · rw [rebuildMinerJob_of_can can] at installs
    simp only at installs
    split at installs
    · cases installs
    · exact ⟨can, installs⟩
  · rw [rebuildMinerJob_of_not can] at installs
    cases installs

/-- The fields that copying a template leaves alone. -/
structure SameCore (state state' : StratumState) : Prop where
  attached : state'.minerAttached = state.minerAttached
  valid : state'.templateValid = state.templateValid
  extranonce1 : state'.extranonce1 = state.extranonce1
  size : state'.extranonce2Size = state.extranonce2Size
  difficulty : state'.difficulty = state.difficulty
  counter : state'.extranonce2Counter = state.extranonce2Counter

theorem SameCore.refl (state : StratumState) : SameCore state state := ⟨rfl, rfl, rfl, rfl, rfl, rfl⟩

theorem SameCore.trans {s₁ s₂ s₃ : StratumState} (h : SameCore s₁ s₂) (h' : SameCore s₂ s₃) :
    SameCore s₁ s₃ :=
  ⟨h'.1.trans h.1, h'.2.trans h.2, h'.3.trans h.3, h'.4.trans h.4, h'.5.trans h.5, h'.6.trans h.6⟩

/-- What a copy keeps whether it fits or not. -/
def Store.Keeps (store : Store) : Prop := ∀ state, SameCore state (store state).1

theorem keeps_storeTemplateString {size : Nat} {write : StratumState → CStr size → StratumState}
    (keeps : ∀ state text, SameCore state (write state text)) (src : List Char) :
    (storeTemplateString write src).Keeps := by
  intro state
  unfold storeTemplateString
  split
  · exact keeps state _
  · exact .refl state

theorem keeps_andThen {first second : Store} (keeps : first.Keeps) (keeps' : second.Keeps) :
    (first.andThen second).Keeps := by
  intro state
  unfold Store.andThen
  simp only
  split
  · exact (keeps state).trans (keeps' _)
  · exact keeps state

theorem keeps_storeBranches (srcs : List (List Char)) : (storeBranches srcs).Keeps := by
  induction srcs with
  | nil => exact SameCore.refl
  | cons src rest ih =>
      refine keeps_andThen (keeps_storeTemplateString ?_ src) ih
      intro _ _
      exact ⟨rfl, rfl, rfl, rfl, rfl, rfl⟩

/-- The copies change nothing but the template. -/
theorem keeps_storeNotify (notify : Notify) : (storeNotify notify).Keeps := by
  refine keeps_andThen (keeps_storeTemplateString ?_ _) <|
    keeps_andThen (keeps_storeTemplateString ?_ _) <|
    keeps_andThen (keeps_storeTemplateString ?_ _) <|
    keeps_andThen (keeps_storeTemplateString ?_ _) <|
    keeps_andThen (keeps_storeTemplateString ?_ _) <|
    keeps_andThen (keeps_storeTemplateString ?_ _) <|
    keeps_andThen (keeps_storeTemplateString ?_ _) (keeps_storeBranches notify.merkle)
  all_goals exact fun _ _ => ⟨rfl, rfl, rfl, rfl, rfl, rfl⟩

/-! ## A copy that fits -/

theorem storeTemplateString_fits {size : Nat} {write : StratumState → CStr size → StratumState}
    {src : List Char} {state : StratumState} :
    (storeTemplateString write src state).2 = true ↔ src.length < size := by
  rw [← copyChecked_isSome, storeTemplateString]
  cases copyChecked size src with
  | none => exact iff_of_false nofun nofun
  | some text => exact iff_of_true rfl rfl

theorem andThen_fits {first second : Store} {state : StratumState} :
    (first.andThen second state).2 = true ↔
      (first state).2 = true ∧ (second (first state).1).2 = true := by
  unfold Store.andThen
  cases isFirst : (first state).2 with
  | true => simp [isFirst]
  | false => simp [isFirst]

/-- The branches are stored if none is too long. -/
theorem storeBranches_fits (srcs : List (List Char)) (state : StratumState) :
    (storeBranches srcs state).2 = true ↔ ∀ branch ∈ srcs, branch.length < 65 := by
  induction srcs generalizing state with
  | nil => exact iff_of_true rfl nofun
  | cons src rest ih =>
      rw [storeBranches, andThen_fits, ih, storeBranch, storeTemplateString_fits, List.forall_mem_cons]

theorem storeTemplateString_fitted {size : Nat} {write : StratumState → CStr size → StratumState}
    {src : List Char} {state : StratumState}
    (fitted : (storeTemplateString write src state).2 = true) :
    ∃ text : CStr size, text.1 = src ∧ (storeTemplateString write src state).1 = write state text := by
  unfold storeTemplateString at fitted ⊢
  cases copied : copyChecked size src with
  | some text => exact ⟨text, copyChecked_eq_some.mp copied, rfl⟩
  | none =>
      rw [copied] at fitted
      cases fitted

theorem andThen_fitted {first second : Store} {state : StratumState}
    (fitted : (first.andThen second state).2 = true) :
    (first state).2 = true ∧ (second (first state).1).2 = true ∧
      (first.andThen second state).1 = (second (first state).1).1 := by
  unfold Store.andThen at fitted ⊢
  cases isFirst : (first state).2 with
  | true => simpa [isFirst] using fitted
  | false => simp [isFirst] at fitted

/-- After a copy that fitted, the others run on a state whose template has the new
text. -/
theorem storeTemplateString_andThen_fitted {size : Nat}
    {write : StratumState → CStr size → StratumState} {f : Notify → List Char → Notify}
    (effect : ∀ state text, templateOf (write state text) = f (templateOf state) text.1)
    {src : List Char} {second : Store} {state : StratumState}
    (fitted : ((storeTemplateString write src).andThen second state).2 = true) :
    ∃ state₁, templateOf state₁ = f (templateOf state) src ∧ (second state₁).2 = true ∧
      ((storeTemplateString write src).andThen second state).1 = (second state₁).1 := by
  obtain ⟨first, rest, both⟩ := andThen_fitted fitted
  obtain ⟨text, rfl, stored⟩ := storeTemplateString_fitted first
  rw [stored] at rest both
  exact ⟨write state text, effect state text, rest, both⟩

theorem templateOf_storeBranch (state : StratumState) (text : CStr 65) :
    templateOf { state with
      templateMerkle := Function.update state.templateMerkle state.templateMerkleCount text
      templateMerkleCount := state.templateMerkleCount + 1 } =
      { templateOf state with merkle := (templateOf state).merkle ++ [text.1] } := by
  have old : (List.range state.templateMerkleCount).map (fun i =>
      (Function.update state.templateMerkle state.templateMerkleCount text i).1) =
      branches state := by
    apply List.map_congr_left
    intro i member
    rw [Function.update_of_ne (List.mem_range.mp member).ne]
  simp only [templateOf, branches, List.range_succ, List.map_append, List.map_cons, List.map_nil,
    Function.update_self, old]

/-- Then they are the branches of the template. -/
theorem storeBranches_fitted {srcs : List (List Char)} {state : StratumState}
    (fitted : (storeBranches srcs state).2 = true) :
    templateOf (storeBranches srcs state).1 =
      { templateOf state with merkle := (templateOf state).merkle ++ srcs } := by
  induction srcs generalizing state with
  | nil =>
      rw [List.append_nil]
      rfl
  | cons src rest ih =>
      obtain ⟨state₁, template, fitted, both⟩ := storeTemplateString_andThen_fitted
        (f := fun notify text => { notify with merkle := notify.merkle ++ [text] })
        templateOf_storeBranch fitted
      have isRest : (storeBranches (src :: rest) state).1 = (storeBranches rest state₁).1 := both
      rw [isRest, ih fitted, template, List.append_assoc]
      rfl

/-- When every copy fits, the stored template is the notification. -/
theorem storeNotify_fitted {notify : Notify} {state : StratumState}
    (empty : state.templateMerkleCount = 0) (fitted : (storeNotify notify state).2 = true) :
    templateOf (storeNotify notify state).1 = notify := by
  have none_ : (templateOf state).merkle = [] := by rw [templateOf, branches, empty]; rfl
  obtain ⟨s₁, t₁, fitted, eq₁⟩ := storeTemplateString_andThen_fitted
    (f := fun n text => { n with jobId := text }) (fun _ _ => rfl) fitted
  obtain ⟨s₂, t₂, fitted, eq₂⟩ := storeTemplateString_andThen_fitted
    (f := fun n text => { n with prevhash := text }) (fun _ _ => rfl) fitted
  obtain ⟨s₃, t₃, fitted, eq₃⟩ := storeTemplateString_andThen_fitted
    (f := fun n text => { n with coinb1 := text }) (fun _ _ => rfl) fitted
  obtain ⟨s₄, t₄, fitted, eq₄⟩ := storeTemplateString_andThen_fitted
    (f := fun n text => { n with coinb2 := text }) (fun _ _ => rfl) fitted
  obtain ⟨s₅, t₅, fitted, eq₅⟩ := storeTemplateString_andThen_fitted
    (f := fun n text => { n with version := text }) (fun _ _ => rfl) fitted
  obtain ⟨s₆, t₆, fitted, eq₆⟩ := storeTemplateString_andThen_fitted
    (f := fun n text => { n with nbits := text }) (fun _ _ => rfl) fitted
  obtain ⟨s₇, t₇, fitted, eq₇⟩ := storeTemplateString_andThen_fitted
    (f := fun n text => { n with ntime := text }) (fun _ _ => rfl) fitted
  have stored : (storeNotify notify state).1 = (storeBranches notify.merkle s₇).1 :=
    eq₁.trans <| eq₂.trans <| eq₃.trans <| eq₄.trans <| eq₅.trans <| eq₆.trans eq₇
  rw [stored, storeBranches_fitted fitted, t₇, t₆, t₅, t₄, t₃, t₂, t₁, none_]
  rfl

end BtcRig.Stratum.State
