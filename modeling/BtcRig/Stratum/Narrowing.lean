/-
# BtcRig.Stratum.Narrowing — pool values that are cut on the way in

An id of a response and an extranonce2 size are 64-bit integers that are cast to an
`int`, and an extranonce1 is printed into 128 bytes; the template fields go through a
checked copy instead.  `narrowing_iff` says when the cut shows: a response clears the
slot of another submission, or a job is built from settings that were not sent.
-/
import BtcRig.Stratum.Template
import BtcRig.Stratum.Settings
import BtcRig.Stratum.Pending

namespace BtcRig.Stratum.Narrowing

open BtcRig.Theory
open BtcRig.Theory.Words
open BtcRig.Mining.Job
open BtcRig.Mining.State
open BtcRig.Mining.Workers
open BtcRig.Stratum.State
open BtcRig.Stratum.Lines
open BtcRig.Stratum.Client
open BtcRig.Stratum.Template
open BtcRig.Stratum.Settings
open BtcRig.Stratum.Pending

set_option autoImplicit false

/-! ## Responses -/

/-- The JSON id of a line, as the unbounded integer. -/
def idOf : Option Json → Option Int
  | some root => Json.integerValue (Json.get root "id")
  | none => none

/-- A slot that the line clears belongs to the submission with the line's id. -/
def ClearsOwn (state : StratumState) (line : Option Json) : Prop :=
  ∀ (slot : Nat) (p p' : PendingShare), (slotsOf state)[slot]? = some p →
    (slotsOf (stratumProcessLine state line).1)[slot]? = some p' →
    p.active = true → p'.active = false → idOf line = some p.id

theorem idOf_answer {line : Option Json} {id : Int} (isAnswer : answerOf line = some id) :
    idOf line = some id := by
  cases line with
  | none => cases isAnswer
  | some root =>
      rw [answerOf] at isAnswer
      rw [idOf]
      split at isAnswer
      · cases found : Json.integerValue (Json.get root "id") with
        | none => rw [found] at isAnswer; cases isAnswer
        | some id' =>
            rw [found] at isAnswer
            simp only at isAnswer
            split at isAnswer
            · exact isAnswer
            · cases isAnswer
      · cases isAnswer

/-- Completing clears one slot, that of the narrowed id. -/
theorem cleared_completed {state state' : StratumState} {id : Int}
    (completed : Completed state id state') {slot : Nat} {p p' : PendingShare}
    (is : (slotsOf state)[slot]? = some p) (is' : (slotsOf state')[slot]? = some p')
    (isActive : p.active = true) (cleared : p'.active = false) : p.id = id := by
  cases completed with
  | found before y after slots slots' active sameId =>
      rw [slots] at is
      rw [slots'] at is'
      rcases lt_trichotomy slot before.length with early | rfl | late
      · rw [List.getElem?_append_left early] at is is'
        obtain rfl := Option.some.inj (is.symm.trans is')
        rw [isActive] at cleared
        cases cleared
      · obtain rfl : y = p := by simpa using is
        exact sameId
      · obtain ⟨k, rfl⟩ : ∃ k, slot = before.length + (k + 1) := ⟨slot - before.length - 1, by omega⟩
        rw [List.getElem?_append_right (by omega), Nat.add_sub_cancel_left, List.getElem?_cons_succ]
          at is is'
        obtain rfl := Option.some.inj (is.symm.trans is')
        rw [isActive] at cleared
        cases cleared
  | absent none_ slots =>
      rw [slots] at is'
      obtain rfl := Option.some.inj (is.symm.trans is')
      rw [isActive] at cleared
      cases cleared

theorem clearsOwn_iff (state : StratumState) (line : Option Json) :
    ClearsOwn state line ↔ ∀ id, answerOf line = some id →
      (∃ p ∈ active (slotsOf state), p.id = toInt id) → IsInt id := by
  have tally := stratumProcessLine_tally state line
  unfold ClearsOwn
  generalize (stratumProcessLine state line).1 = state' at tally
  constructor
  · rintro own id isAnswer ⟨p, isNoted, sameId⟩
    cases tally with
    | answered id' isAnswer' completed =>
        obtain rfl := Option.some.inj (isAnswer'.symm.trans isAnswer)
        cases completed with
        | found before y after slots slots' isActive sameId' =>
            have isOwn := own before.length y { y with active := false } (by simp [slots])
              (by simp [slots']) isActive rfl
            rw [idOf_answer isAnswer, Option.some.injEq, sameId'] at isOwn
            exact (toInt_eq_iff id').mp isOwn.symm
        | absent none_ => exact absurd sameId (none_ p isNoted)
    | other noAnswer => exact absurd (noAnswer.symm.trans isAnswer) nofun
  · intro inRange slot p p' is is' isActive cleared
    cases tally with
    | answered id isAnswer completed =>
        have sameId := cleared_completed completed is is' isActive cleared
        have isNoted : p ∈ active (slotsOf state) :=
          List.mem_filter.mpr ⟨List.mem_of_getElem? is, isActive⟩
        rw [idOf_answer isAnswer, sameId, (toInt_eq_iff id).mpr (inRange id isAnswer ⟨p, isNoted, sameId⟩)]
    | other noAnswer same =>
        have slots : slotsOf state' = slotsOf state := congrArg (fun t => t.pending.toList) same
        rw [slots] at is'
        obtain rfl := Option.some.inj (is.symm.trans is')
        rw [isActive] at cleared
        cases cleared

/-! ## Extranonce settings -/

/-- The extranonce1 last sent. -/
def lastText (es : List SessionEvent) : Option (List Char) :=
  (es.filterMap fun e => textSent (lineOf e)).getLast?

/-- The extranonce2 size last sent, as the unbounded integer. -/
def lastSize (es : List SessionEvent) : Option Int :=
  (es.filterMap fun e => sizeSent (lineOf e)).getLast?

theorem getLast?_filterMap_snoc {α β : Type} (f : α → Option β) (xs : List α) (x : α) :
    ((xs ++ [x]).filterMap f).getLast? =
      match f x with
      | some y => some y
      | none => (xs.filterMap f).getLast? := by
  rw [List.filterMap_append]
  cases is : f x with
  | none => simp [is]
  | some y => simp [is]

/-- The stored settings are those last sent, cut to 127 characters and to an `int`. -/
theorem stored_run (threads opencl cuda : Nat) (es : List SessionEvent) :
    let state := (sessionRun (sessionInitial threads opencl cuda) es).1.state
    state.extranonce1.1 = ((lastText es).getD []).take 127 ∧
      state.extranonce2Size = toInt ((lastSize es).getD 4) := by
  refine Machine.exec_invariant sessionStep (sessionInitial threads opencl cuda)
    (fun es s _ => s.state.extranonce1.1 = ((lastText es).getD []).take 127 ∧
      s.state.extranonce2Size = toInt ((lastSize es).getD 4)) ⟨rfl, rfl⟩ ?_ es
  rintro es e s os ⟨text, size⟩
  have carried := carried_step s e
  rw [lastText, lastSize, getLast?_filterMap_snoc, getLast?_filterMap_snoc, carried.text, carried.size]
  constructor
  · cases textSent (lineOf e) with
    | none => exact text
    | some sent => rfl
  · cases sizeSent (lineOf e) with
    | none => exact size
    | some sent => rfl

/-- The stored settings are those last sent. -/
structure AsSent (es : List SessionEvent) (state : StratumState) : Prop where
  text : ∀ text, lastText es = some text → state.extranonce1.1 = text
  size : ∀ size, lastSize es = some size → state.extranonce2Size = size

/-- What was last sent fits what it is stored in. -/
structure SentFits (es : List SessionEvent) : Prop where
  text : ∀ text, lastText es = some text → text.length ≤ 127
  size : ∀ size, lastSize es = some size → IsInt size

theorem asSent_iff (threads opencl cuda : Nat) (es : List SessionEvent) :
    AsSent es (sessionRun (sessionInitial threads opencl cuda) es).1.state ↔ SentFits es := by
  obtain ⟨text, size⟩ := stored_run threads opencl cuda es
  constructor
  · rintro ⟨sameText, sameSize⟩
    constructor
    · intro sent isSent
      have whole := sameText sent isSent
      rw [text, isSent, Option.getD_some, List.take_eq_self_iff] at whole
      exact whole
    · intro sent isSent
      have whole := sameSize sent isSent
      rw [size, isSent, Option.getD_some] at whole
      exact (toInt_eq_iff sent).mp whole
  · rintro ⟨shortText, smallSize⟩
    constructor
    · intro sent isSent
      rw [text, isSent, Option.getD_some]
      exact List.take_of_length_le (shortText sent isSent)
    · intro sent isSent
      rw [size, isSent, Option.getD_some]
      exact (toInt_eq_iff sent).mpr (smallSize sent isSent)

/-- An installed job is built from the stored settings. -/
theorem builtFrom_installed {s : Session} {e : SessionEvent} {job : MinerJob}
    (installed : job ∈ installedOf (sessionStep s e).2) : BuiltFrom (sessionStep s e).1.state job := by
  have rebuilt {state : StratumState} {s' : Session} {os : List SessionOutput}
      (handled : Handled s s' os (rebuildMinerJob state)) (is : job ∈ installedOf os) :
      BuiltFrom s'.state job := by
    rw [handled.installed] at is
    have installs : (rebuildMinerJob state).2 = some job := Option.mem_toList.mp is
    have built := builtFrom_rebuild handled installs
    rw [handled.publicJob, installs] at built
    exact built
  have effect := sessionStep_effect s e
  generalize sessionStep s e = r at installed effect
  cases effect with
  | line root r isLine effect handled =>
      cases effect with
      | quiet | subscribe | settings | rejected =>
          rw [handled.installed] at installed
          cases installed
      | rebuild => exact rebuilt handled installed
      | accepted => exact rebuilt handled installed
  | roll isRoll handled => exact rebuilt handled installed
  | other noLine kept none_ =>
      rw [none_] at installed
      cases installed

/-- **Where narrowing shows.**  A response clears only the slot of its own submission
exactly when its id is an `int` or no submission is noted under the id cut to one; and a
job a session installs is built from the settings last sent exactly when the extranonce1
has at most 127 characters and the size is an `int`. -/
theorem narrowing_iff (state : StratumState) (line : Option Json) (threads opencl cuda : Nat)
    (es : List SessionEvent) (e : SessionEvent) (job : MinerJob) :
    (ClearsOwn state line ↔ ∀ id, answerOf line = some id →
      (∃ p ∈ active (slotsOf state), p.id = toInt id) → IsInt id) ∧
    (let s := (sessionRun (sessionInitial threads opencl cuda) es).1
     job ∈ installedOf (sessionStep s e).2 →
      BuiltFrom (sessionStep s e).1.state job ∧
        (AsSent (es ++ [e]) (sessionStep s e).1.state ↔ SentFits (es ++ [e]))) := by
  refine ⟨clearsOwn_iff state line, ?_⟩
  intro s installed
  refine ⟨builtFrom_installed installed, ?_⟩
  rw [← sessionRun_snoc]
  exact asSent_iff threads opencl cuda (es ++ [e])

/-! ## Values that are too large -/

/-- A device takes a range, finds a match and reports it. -/
def matchTurn : SessionEvent :=
  .worker .cuda 0xffffffff fun _ _ _ start _ => ([(start, Vector.replicate 8 0)], true)

/-- One submission, with id 4, is on its way. -/
def oneSubmitted : List SessionEvent :=
  [.line subscribeLine, .line notifyLine, matchTurn, matchTurn, matchTurn, .flush true]

/-- An answer with an id that is four only modulo `2 ^ 32`. -/
def wideAnswer : Option Json := some <| .object [("id", .int (4 + 2 ^ 32)), ("result", .bool true),
  ("error", .null)]

/-- New settings for the session: an extranonce1 of 128 digits. -/
def wideText : Option Json := some <| .object [("id", .null),
  ("method", .string "mining.set_extranonce".toList),
  ("params", .array [.string (List.replicate 128 '0'), .int 4])]

/-- New settings for the session: a size that is four only modulo `2 ^ 32`. -/
def wideSize : Option Json := some <| .object [("id", .null),
  ("method", .string "mining.set_extranonce".toList),
  ("params", .array [.string "00".toList, .int (4 + 2 ^ 32)])]

/-- A notification whose coinbase has an odd number of digits before the extranonce1. -/
def oddLine : Option Json := some <| .object [("id", .null),
  ("method", .string "mining.notify".toList),
  ("params", .array [.string "1".toList, .string (List.replicate 64 '0'), .string ['0'], .string [],
    .array [], .string "20000000".toList, .string "1d00ffff".toList, .string "5f5e1000".toList,
    .bool true])]

/-- An answer to nobody clears the slot of submission 4, and jobs are built from an
extranonce1 and from a size that were not sent. -/
theorem narrowing_shows :
    ¬ClearsOwn (sessionRun (sessionInitial 0 0 1) oneSubmitted).1.state wideAnswer ∧
      (let s := (sessionRun (sessionInitial 0 0 1) [.line wideText]).1
       installedOf (sessionStep s (.line oddLine)).2 ≠ [] ∧
         ¬AsSent [.line wideText, .line oddLine] (sessionStep s (.line oddLine)).1.state) ∧
      (let s := (sessionRun (sessionInitial 0 0 1) [.line wideSize]).1
       installedOf (sessionStep s (.line notifyLine)).2 ≠ [] ∧
         ¬AsSent [.line wideSize, .line notifyLine] (sessionStep s (.line notifyLine)).1.state) := by
  have some_ {jobs : List MinerJob} (one : jobs.length = 1) : jobs ≠ [] := by
    rintro rfl
    cases one
  refine ⟨?_, ⟨some_ (by decide +kernel), ?_⟩, ⟨some_ (by decide +kernel), ?_⟩⟩
  · rw [clearsOwn_iff]
    intro inRange
    have isNoted : ((active (slotsOf (sessionRun (sessionInitial 0 0 1) oneSubmitted).1.state)).map
        PendingShare.id) = [4] := by decide +kernel
    obtain ⟨p, member, isFour⟩ := List.mem_map.mp (isNoted ▸ List.mem_singleton_self (4 : Int))
    exact absurd (inRange (4 + 2 ^ 32) rfl ⟨p, member, isFour⟩) (by decide)
  · intro asSent
    have whole := asSent.text (List.replicate 128 '0') rfl
    revert whole
    decide +kernel
  · intro asSent
    have whole := asSent.size (4 + 2 ^ 32) rfl
    revert whole
    decide +kernel

end BtcRig.Stratum.Narrowing
