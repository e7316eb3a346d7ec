/-
# BtcRig.Stratum.Settings — the extranonce settings a line stores

Two kinds of line carry an extranonce1 and an extranonce2 size: a subscribe reply and
`mining.set_extranonce`.  Both print the text into a buffer of 128 bytes and convert
the number to an `int`.  `stored_processLine` says what is stored after any line: the
values it carries, so converted, and else what was there.
-/
import BtcRig.Stratum.Client

namespace BtcRig.Stratum.Settings

open BtcRig.Theory
open BtcRig.Mining.Job
open BtcRig.Mining.State
open BtcRig.Stratum.State
open BtcRig.Stratum.Lines
open BtcRig.Stratum.Client

set_option autoImplicit false

/-- Where a line carries its extranonce1 and its extranonce2 size. -/
def settingsSent (line : Option Json) : Option Json × Option Json :=
  match paramsOf "mining.set_extranonce" line with
  | some params =>
      if Json.isArray params then (Json.element params 0, Json.element params 1) else (none, none)
  | none =>
      match subscribeReply line with
      | some result => (Json.element result 1, Json.element result 2)
      | none => (none, none)

def textSent (line : Option Json) : Option (List Char) := Json.stringValue (settingsSent line).1

/-- The size as the unbounded integer that was sent. -/
def sizeSent (line : Option Json) : Option Int := Json.integerValue (settingsSent line).2

/-- The range of a C `int`. -/
def IsInt (n : Int) : Prop := -2 ^ 31 ≤ n ∧ n < 2 ^ 31

instance (n : Int) : Decidable (IsInt n) := inferInstanceAs (Decidable (_ ∧ _))

theorem isInt_toInt (n : Int) : IsInt (toInt n) := by
  have low := Int.le_bmod (x := n) (m := 2 ^ 32) (by decide)
  have high := Int.bmod_lt (x := n) (m := 2 ^ 32) (by decide)
  unfold IsInt toInt
  omega

theorem toInt_eq_iff (n : Int) : toInt n = n ↔ IsInt n := by
  constructor
  · intro same
    exact same ▸ isInt_toInt n
  · intro inRange
    exact toInt_of_small inRange.1 inRange.2

/-! ## What a line stores -/

/-- The settings after carrying over what was sent. -/
structure Carried (state state' : StratumState) (text : Option (List Char)) (size : Option Int) :
    Prop where
  text : state'.extranonce1 = (text.map (snprintf room128)).getD state.extranonce1
  size : state'.extranonce2Size = (size.map toInt).getD state.extranonce2Size

theorem carried_none {state state' : StratumState} (text : state'.extranonce1 = state.extranonce1)
    (size : state'.extranonce2Size = state.extranonce2Size) : Carried state state' none none :=
  ⟨text, size⟩

theorem carried_kept {state state' : StratumState} (kept : SameCore state state') :
    Carried state state' none none :=
  carried_none kept.extranonce1 kept.size

/-- A rebuild sends nothing new. -/
theorem carried_rebuild {state state' : StratumState} {text : Option (List Char)}
    {size : Option Int} (carried : Carried state state' text size) :
    Carried state (rebuildMinerJob state').1 text size := by
  obtain ⟨counter, same⟩ := rebuildMinerJob_frame state'
  rw [same]
  exact ⟨carried.text, carried.size⟩

/-- New settings are followed by a rebuild if a template is there. -/
theorem carried_settle {state state' : StratumState} {text : Option (List Char)}
    {size : Option Int} (carried : Carried state state' text size) :
    Carried state (if state'.templateValid then rebuildMinerJob state' else (state', none)).1 text
      size := by
  split
  · exact carried_rebuild carried
  · exact carried

/-- A subscribe reply carries both settings. -/
theorem carried_handleSubscribeResult {state : StratumState} {result : Option Json}
    (long : (Json.isArray result && Json.arraySize result ≥ 3) = true) :
    Carried state (handleSubscribeResult state result) (Json.stringValue (Json.element result 1))
      (Json.integerValue (Json.element result 2)) := by
  rw [handleSubscribeResult, if_pos long]
  cases Json.stringValue (Json.element result 1) with
  | none => cases Json.integerValue (Json.element result 2) <;> exact ⟨rfl, rfl⟩
  | some text => cases Json.integerValue (Json.element result 2) <;> exact ⟨rfl, rfl⟩

theorem carried_handleNotify (state : StratumState) (params : Option Json) :
    Carried state (handleNotify state params).1 none none := by
  unfold handleNotify
  split
  · exact carried_none rfl rfl
  · simp only
    split
    · apply carried_rebuild
      exact carried_none (keeps_storeNotify _ _).extranonce1 (keeps_storeNotify _ _).size
    · exact carried_none (keeps_storeNotify _ _).extranonce1 (keeps_storeNotify _ _).size

theorem carried_handleSetDifficulty (state : StratumState) (params : Option Json) :
    Carried state (handleSetDifficulty state params).1 none none := by
  unfold handleSetDifficulty
  simp only
  split
  · rename_i difficulty isNumber
    have settled : Carried state { state with difficulty := difficulty } none none :=
      carried_none rfl rfl
    exact carried_settle settled
  · exact carried_none rfl rfl

/-- So does `mining.set_extranonce`. -/
theorem carried_handleSetExtranonce (state : StratumState) (params : Option Json) :
    Carried state (handleSetExtranonce state params).1
      (Json.stringValue (if Json.isArray params then Json.element params 0 else none))
      (Json.integerValue (if Json.isArray params then Json.element params 1 else none)) := by
  unfold handleSetExtranonce
  apply carried_settle
  cases Json.stringValue (if Json.isArray params then Json.element params 0 else none) with
  | none =>
      cases Json.integerValue (if Json.isArray params then Json.element params 1 else none) <;>
        exact ⟨rfl, rfl⟩
  | some text =>
      cases Json.integerValue (if Json.isArray params then Json.element params 1 else none) <;>
        exact ⟨rfl, rfl⟩

theorem subscribeReply_of_method {root : Json} {value : Json}
    (isMethod : Json.get root "method" = some value) : subscribeReply (some root) = none := by
  simp only [subscribeReply, isMethod]
  rfl

/-- A line that is neither a subscribe reply nor `mining.set_extranonce`. -/
theorem settingsSent_other {line : Option Json}
    (noParams : paramsOf "mining.set_extranonce" line = none)
    (noReply : subscribeReply line = none) : textSent line = none ∧ sizeSent line = none := by
  rw [textSent, sizeSent, settingsSent, noParams, noReply]
  exact ⟨rfl, rfl⟩

theorem carried_handleResponse (state : StratumState) {root : Json}
    (noMethod : Json.get root "method" = none) :
    Carried state (handleResponse state root) (textSent (some root)) (sizeSent (some root)) := by
  have noParams : paramsOf "mining.set_extranonce" (some root) = none := by
    apply paramsOf_of_ne
    rw [noMethod]
    nofun
  have quiet {state' : StratumState} (noReply : subscribeReply (some root) = none)
      (kept : SameCore state state') :
      Carried state state' (textSent (some root)) (sizeSent (some root)) := by
    obtain ⟨noText, noSize⟩ := settingsSent_other noParams noReply
    rw [noText, noSize]
    exact carried_kept kept
  have unanswered (other : Json.integerValue (Json.get root "id") ≠ some 1) :
      subscribeReply (some root) = none := by
    simp only [subscribeReply, beq_eq_false_iff_ne.mpr other, Bool.and_false, Bool.false_and]
    rfl
  unfold handleResponse
  simp only
  split
  · rename_i isError
    have noReply : subscribeReply (some root) = none := by
      simp only [subscribeReply, isError]
      simp
    have counted : SameCore state { state with rejectCount := state.rejectCount + 1 } :=
      ⟨rfl, rfl, rfl, rfl, rfl, rfl⟩
    split
    · exact quiet noReply (counted.trans (kept_completePendingShare _ _ _).toSameCore)
    · exact quiet noReply (.refl state)
  · rename_i noError
    split
    · rename_i isOne
      have isId : Json.integerValue (Json.get root "id") = some 1 := by
        cases found : Json.integerValue (Json.get root "id") with
        | none => rw [found] at isOne; cases isOne
        | some id => rw [found] at isOne; exact congrArg some isOne
      by_cases long : (Json.isArray (Json.get root "result") &&
          Json.arraySize (Json.get root "result") ≥ 3) = true
      · have isReply : subscribeReply (some root) = some (Json.get root "result") := by
          simp only [subscribeReply, noMethod, noError, isId, long]
          rfl
        rw [textSent, sizeSent, settingsSent, noParams, isReply]
        exact carried_handleSubscribeResult long
      · rw [handleSubscribeResult_short long]
        refine quiet ?_ (.refl state)
        simp only [subscribeReply, long]
        simp
    · rename_i notOne
      have other : Json.integerValue (Json.get root "id") ≠ some 1 := by
        intro isId
        rw [isId] at notOne
        exact notOne rfl
      split
      · exact quiet (unanswered other) ⟨rfl, rfl, rfl, rfl, rfl, rfl⟩
      · split
        · have completed := kept_completePendingShare state
            (toInt ((Json.integerValue (Json.get root "id")).getD (-1)))
            (Json.isTrue (Json.get root "result"))
          split
          · exact quiet (unanswered other)
              (completed.toSameCore.trans ⟨rfl, rfl, rfl, rfl, rfl, rfl⟩)
          · exact quiet (unanswered other)
              (completed.toSameCore.trans ⟨rfl, rfl, rfl, rfl, rfl, rfl⟩)
        · exact quiet (unanswered other) (.refl state)

theorem carried_handleMethod (state : StratumState) {root : Json} {value : Json}
    (isMethod : Json.get root "method" = some value) :
    Carried state (handleMethod state root).1 (textSent (some root)) (sizeSent (some root)) := by
  have noReply := subscribeReply_of_method isMethod
  have other (isOther : Json.stringValue (Json.get root "method") ≠
      some "mining.set_extranonce".toList) {state' : StratumState}
      (carried : Carried state state' none none) :
      Carried state state' (textSent (some root)) (sizeSent (some root)) := by
    obtain ⟨noText, noSize⟩ := settingsSent_other (paramsOf_of_ne isOther) noReply
    rw [noText, noSize]
    exact carried
  unfold handleMethod
  simp only
  split
  · rename_i noText
    exact other (by rw [noText]; nofun) (carried_none rfl rfl)
  · rename_i method isText
    split
    · rename_i isDifficulty
      exact other (by rw [isText, isDifficulty]; decide) (carried_handleSetDifficulty state _)
    · split
      · rename_i isNotify
        exact other (by rw [isText, isNotify]; decide) (carried_handleNotify state _)
      · split
        · rename_i isExtranonce
          have isParams : paramsOf "mining.set_extranonce" (some root) =
              some (Json.get root "params") := paramsOf_of_eq (by rw [isText, isExtranonce])
          have carried := carried_handleSetExtranonce state (Json.get root "params")
          rw [textSent, sizeSent, settingsSent, isParams]
          simp only
          split
          · rename_i isArray
            rwa [if_pos isArray, if_pos isArray] at carried
          · rename_i noArray
            rwa [if_neg noArray, if_neg noArray] at carried
        · rename_i notExtranonce
          refine other ?_ (carried_none rfl rfl)
          rw [isText]
          intro same
          exact notExtranonce (Option.some.inj same)

/-- **After any line the settings are those it carries, cut and converted, and else
those from before.** -/
theorem stored_processLine (state : StratumState) (line : Option Json) :
    Carried state (stratumProcessLine state line).1 (textSent line) (sizeSent line) := by
  cases line with
  | none => exact carried_none rfl rfl
  | some root =>
      simp only [stratumProcessLine]
      cases isMethod : Json.get root "method" with
      | none => exact carried_handleResponse state isMethod
      | some value => exact carried_handleMethod state isMethod

/-! ## What a session stores -/

/-- The line of a step, if it is one. -/
def lineOf : SessionEvent → Option Json
  | .line root => root
  | _ => none

/-- Every step stores what its line carries, and nothing else. -/
theorem carried_step (s : Session) (e : SessionEvent) :
    Carried s.state (sessionStep s e).1.state (textSent (lineOf e)) (sizeSent (lineOf e)) := by
  by_cases isLine : ∃ root, e = .line root
  · obtain ⟨root, rfl⟩ := isLine
    show Carried s.state (handled s (stratumProcessLine s.state root)).1.state _ _
    rw [(handled_spec s _).state]
    exact stored_processLine s.state root
  · have noLine : lineOf e = none := by
      cases e with
      | line root => exact absurd ⟨root, rfl⟩ isLine
      | _ => rfl
    rw [noLine]
    cases sessionStep_effect s e with
    | line root r is => exact absurd ⟨root, is⟩ isLine
    | roll isRoll handled =>
        rw [handled.state]
        exact carried_rebuild (carried_none rfl rfl)
    | other notLine kept => exact carried_kept kept.toSameCore

/-- The stored size is a C `int` in every state of every session. -/
theorem isInt_run (threads opencl cuda : Nat) (es : List SessionEvent) :
    IsInt (sessionRun (sessionInitial threads opencl cuda) es).1.state.extranonce2Size := by
  refine Machine.exec_invariant sessionStep (sessionInitial threads opencl cuda)
    (fun _ s _ => IsInt s.state.extranonce2Size) (show IsInt 4 by decide) ?_ es
  intro es e s os inRange
  rw [(carried_step s e).size]
  cases sizeSent (lineOf e) with
  | none => exact inRange
  | some size => exact isInt_toInt size

end BtcRig.Stratum.Settings
