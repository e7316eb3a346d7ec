/-
# BtcRig.Donation.Period — the client loop does what the schedule assumes

`Donation.Schedule` has its own, coarse picture of `stratum_run_client`: one step for
each pass of the loop, given what the pass met.  Here the loop itself, with its points,
workers and bytes, refines that picture.

* `Follows` is the simulation relation, `follows_run` the simulation: after every run
  the passes so far take the coarse client to the same deadline and result;
* `session_period`: what a session that returns 0 has been through.
-/
import BtcRig.Stratum.Handshake

namespace BtcRig.Donation.Period

open BtcRig.Theory
open BtcRig.Theory.Words
open BtcRig.Mining.State
open BtcRig.Stratum.State
open BtcRig.Stratum.Lines
open BtcRig.Stratum.Client
open BtcRig.Stratum.Reader
open BtcRig.Stratum.Wire
open BtcRig.Stratum.Loop
open BtcRig.Stratum.Conversation
open BtcRig.Stratum.Handshake
open BtcRig.Donation.Schedule (Turn clientRun clientStep Active)

set_option autoImplicit false

/-- The return value, once there is one. -/
def resultOf : Point → Option Int
  | .returned result => some result
  | _ => none

/-- The pass got past the check of the program's runtime. -/
def Early (config : ClientConfig) (turn : Turn) : Prop :=
  ¬(config.stopAt > 0 ∧ turn.runtimeNow ≥ config.stopAt)

/-- It got past the check of the session's period too, and nothing went wrong since. -/
structure Going (config : ClientConfig) (stop : ℚ) (turn : Turn) : Prop where
  early : Early config turn
  inTime : ¬(stop > 0 ∧ turn.sessionNow ≥ stop)
  flushed : turn.flushed = true
  requestsSent : turn.requestsSent = true

/-- What the record of a pass says at each point of it. -/
def Recorded (config : ClientConfig) (stop : ℚ) (turn : Turn) : Point → Prop
  | .subscribe | .runtime | .writing | .returned _ => True
  | .period => Early config turn ∧ turn.flushed = true ∧ turn.requestsSent = true
  | .keyboard | .flush | .exhausted | .roll | .read => Going config stop turn
  | .authorize | .suggest | .start => Going config stop turn ∧ turn.read = .line

/-- The coarse client is where the loop is, unless the loop failed before its first pass. -/
structure Follows (config : ClientConfig) (c : LoopState) (os : List LoopOutput) : Prop where
  recorded : Recorded config c.sessionStopAt c.turn c.point
  unopened : c.point = .subscribe → passesOf os = [] ∧ c.sessionStopAt = 0
  coarse : (clientRun config.stopAt config.sessionSeconds (passesOf os)).1 =
      ⟨c.sessionStopAt, resultOf c.point⟩ ∨
    (passesOf os = [] ∧ c.sessionStopAt = 0 ∧ c.point = .returned 1)

/-- What the coarse client makes of a pass that got past both clock checks. -/
structure Coarse (config : ClientConfig) (stop : ℚ) (turn : Turn) : Prop where
  unflushed : turn.flushed = false →
    (clientStep config.stopAt config.sessionSeconds ⟨stop, none⟩ turn).1 = ⟨stop, some 1⟩
  timeout : turn.flushed = true → turn.read = .timeout →
    (clientStep config.stopAt config.sessionSeconds ⟨stop, none⟩ turn).1 = ⟨stop, none⟩
  ended : turn.flushed = true → turn.read = .closed ∨ turn.read = .failed →
    (clientStep config.stopAt config.sessionSeconds ⟨stop, none⟩ turn).1 = ⟨stop, some 1⟩
  unsent : turn.flushed = true → turn.read = .line → turn.requestsSent = false →
    (clientStep config.stopAt config.sessionSeconds ⟨stop, none⟩ turn).1 = ⟨stop, some 1⟩
  line : turn.flushed = true → turn.read = .line → turn.requestsSent = true →
    (clientStep config.stopAt config.sessionSeconds ⟨stop, none⟩ turn).1 =
      ⟨if stop = 0 ∧ config.sessionSeconds > 0 ∧ turn.authorized ∧ turn.notifyCount > 0 then
        turn.startNow + config.sessionSeconds else stop, none⟩

/-- The clocks decide, whatever else the pass met. -/
theorem Going.coarse {config : ClientConfig} {stop : ℚ} {met : Turn} (going : Going config stop met)
    (turn : Turn) (clocks : turn.runtimeNow = met.runtimeNow ∧ turn.sessionNow = met.sessionNow) :
    Coarse config stop turn := by
  have early := going.early
  have inTime := going.inTime
  rw [Early, ← clocks.1] at early
  rw [← clocks.2] at inTime
  constructor
  · intro unflushed
    simp [clientStep, if_neg early, if_neg inTime, unflushed]
  · intro flushed read
    simp [clientStep, if_neg early, if_neg inTime, flushed, read]
  · intro flushed read
    rcases read with read | read <;>
      simp [clientStep, if_neg early, if_neg inTime, flushed, read]
  · intro flushed read unsent
    simp [clientStep, if_neg early, if_neg inTime, flushed, read, unsent]
  · intro flushed read sent
    simp only [clientStep, if_neg early, if_neg inTime, flushed, read, sent, Bool.not_true,
      Bool.false_eq_true, if_false]
    split <;> rfl

section Steps

variable {json : JsonText} {config : ClientConfig} {c c' : LoopState} {os os' : List LoopOutput}

/-- A step within a pass. -/
theorem Follows.within (inv : Follows config c os) (quiet : passesOf os' = [])
    (sameStop : c'.sessionStopAt = c.sessionStopAt) (sameResult : resultOf c'.point = resultOf c.point)
    (unopened : c'.point = .subscribe → c.point = .subscribe)
    (recorded : Recorded config c'.sessionStopAt c'.turn c'.point) :
    Follows config c' (os ++ os') := by
  have same : passesOf (os ++ os') = passesOf os := by
    rw [passesOf_append, quiet, List.append_nil]
  refine ⟨recorded, fun is => ?_, ?_⟩
  · rw [same, sameStop]
    exact inv.unopened (unopened is)
  · rw [same, sameStop, sameResult]
    refine inv.coarse.imp id fun ⟨none_, zero, point⟩ => ⟨none_, zero, ?_⟩
    rw [point] at sameResult
    cases at_ : c'.point with
    | returned result => rw [at_] at sameResult; exact congrArg _ (Option.some.inj sameResult)
    | _ => rw [at_] at sameResult; cases sameResult

/-- The end of a pass, at a point where the loop has not returned. -/
theorem Follows.pass (inv : Follows config c os) (running : resultOf c.point = none) {turn : Turn}
    (one : passesOf os' = [turn])
    (step : (clientStep config.stopAt config.sessionSeconds ⟨c.sessionStopAt, none⟩ turn).1 =
      ⟨c'.sessionStopAt, resultOf c'.point⟩)
    (left : c'.point ≠ .subscribe)
    (recorded : Recorded config c'.sessionStopAt c'.turn c'.point) :
    Follows config c' (os ++ os') := by
  refine ⟨recorded, fun is => absurd is left, .inl ?_⟩
  rcases inv.coarse with same | ⟨-, -, point⟩
  · rw [passesOf_append, one, clientRun, Machine.exec_snoc]
    rw [clientRun, running] at same
    simp only [Machine.extend, same, step]
  · rw [point] at running
    cases running

/-- A request within a pass. -/
theorem follows_tell {request : Request} {writes : List WriteAnswer}
    {sent failed blocked : LoopState × List LoopOutput}
    (isSent : Follows config sent.1 (os ++ sent.2)) (isFailed : Follows config failed.1 (os ++ failed.2))
    (isBlocked : Follows config blocked.1 (os ++ blocked.2)) :
    Follows config (tell json config request writes sent failed blocked).1
      (os ++ (tell json config request writes sent failed blocked).2) := by
  refine tell_rule (fun c' os' => Follows config c' (os ++ os')) (fun c' os' attempt follows => ?_)
    isSent isFailed isBlocked
  have same : passesOf (os ++ .tried attempt :: os') = passesOf (os ++ os') := by
    rw [passesOf_append, passesOf_append]
    rfl
  refine ⟨follows.recorded, fun is => ?_, ?_⟩
  · rw [same]
    exact follows.unopened is
  · rw [same]
    exact follows.coarse

/-- A step of the session alone. -/
theorem Follows.act (inv : Follows config c os) (e : SessionEvent) :
    Follows config (c.act e).1 (os ++ (c.act e).2) :=
  inv.within rfl rfl rfl id inv.recorded

theorem follows_key (inv : Follows config c os) (ch : Char) :
    Follows config (handleKey c ch).1 (os ++ (handleKey c ch).2) := by
  apply handleKey_rule fun c' os' => Follows config c' (os ++ os')
  · exact inv.within rfl rfl rfl id inv.recorded
  · intro paused
    exact inv.act _

theorem follows_flush (inv : Follows config c os) (point : c.point = .flush)
    (writes : List WriteAnswer) :
    Follows config (flushShare json config c writes).1
      (os ++ (flushShare json config c writes).2) := by
  have going : Going config c.sessionStopAt c.turn := by
    have recorded := inv.recorded
    rwa [point] at recorded
  have running : resultOf c.point = none := by rw [point]; rfl
  unfold flushShare
  split
  · exact inv.within rfl rfl (by rw [running]; rfl) (by simp [LoopState.goTo]) going
  · refine follows_tell (inv.act _) ?_ ?_
    · exact inv.pass running rfl ((going.coarse { c.turn with flushed := false } ⟨rfl, rfl⟩).unflushed rfl)
        (by simp [LoopState.pass]) trivial
    · exact inv.within rfl rfl (by rw [running]; rfl) (by simp [LoopState.goTo]) trivial

theorem follows_read (inv : Follows config c os) (point : c.point = .read) (reads : List Answer) :
    Follows config (readPool json c reads).1 (os ++ (readPool json c reads).2) := by
  have going : Going config c.sessionStopAt c.turn := by
    have recorded := inv.recorded
    rwa [point] at recorded
  have running : resultOf c.point = none := by rw [point]; rfl
  have ended (read : Donation.Schedule.ReadResult) :
      Coarse config c.sessionStopAt { c.turn with read := read } := going.coarse _ ⟨rfl, rfl⟩
  unfold readPool
  cases readLine lineSize c.reader c.incoming reads with
  | none => exact inv.within rfl rfl rfl id inv.recorded
  | some call =>
      simp only
      cases call.result with
      | timeout =>
          exact inv.pass running rfl ((ended .timeout).timeout going.flushed rfl)
            (by simp [LoopState.pass]) trivial
      | closed =>
          exact inv.pass running rfl ((ended .closed).ended going.flushed (.inl rfl))
            (by simp [LoopState.pass]) trivial
      | failed =>
          exact inv.pass running rfl ((ended .failed).ended going.flushed (.inr rfl))
            (by simp [LoopState.pass]) trivial
      | tooLong =>
          exact inv.pass running rfl ((ended .failed).ended going.flushed (.inr rfl))
            (by simp [LoopState.pass]) trivial
      | line text =>
          have recorded : Recorded config c.sessionStopAt { c.turn with read := .line } .authorize :=
            ⟨⟨going.early, going.inTime, going.flushed, going.requestsSent⟩, rfl⟩
          simp only
          split
          · exact inv.within rfl rfl (by rw [running]; rfl) (by simp) recorded
          · exact inv.within rfl rfl (by rw [running]; rfl) (by simp [LoopState.act]) recorded

/-- The requests that are due once. -/
theorem follows_once (inv : Follows config c os) (running : resultOf c.point = none)
    (going : Going config c.sessionStopAt c.turn) (read : c.turn.read = .line) {due : Bool}
    {request : Request} {writes : List WriteAnswer} {point : Point} {sent : LoopState}
    (same : sent.sessionStopAt = c.sessionStopAt ∧ sent.turn = c.turn)
    (next : point = .suggest ∨ point = .start) :
    Follows config (tellOnce json config c due request writes point sent).1
      (os ++ (tellOnce json config c due request writes point sent).2) := by
  have onward (c' : LoopState) (is : c'.sessionStopAt = c.sessionStopAt ∧ c'.turn = c.turn) :
      Follows config (c'.goTo point) (os ++ []) := by
    refine inv.within rfl is.1 ?_ ?_ ?_
    · rw [running]
      rcases next with rfl | rfl <;> rfl
    · rcases next with rfl | rfl <;> simp [LoopState.goTo]
    · simp only [LoopState.goTo, is]
      rcases next with rfl | rfl <;> exact ⟨going, read⟩
  unfold tellOnce
  split
  · refine follows_tell (onward sent same) ?_ ?_
    · exact inv.pass running rfl ((going.coarse { c.turn with requestsSent := false } ⟨rfl, rfl⟩).unsent
        going.flushed read rfl) (by simp [LoopState.pass]) trivial
    · exact inv.within rfl rfl (by rw [running]; rfl) (by simp [LoopState.goTo]) trivial
  · exact onward c ⟨rfl, rfl⟩

theorem follows_client (inv : Follows config c os) (a : Answers) :
    Follows config (clientThread json config c a).1 (os ++ (clientThread json config c a).2) := by
  have recorded := inv.recorded
  unfold clientThread
  cases point : c.point with
  | subscribe =>
      obtain ⟨none_, zero⟩ := inv.unopened point
      refine follows_tell ?_ ?_ ?_
      · exact inv.within rfl rfl (by rw [point]; rfl) (by simp [LoopState.goTo]) trivial
      · refine ⟨trivial, by simp [LoopState.goTo], .inr ⟨?_, zero, rfl⟩⟩
        rwa [List.append_nil]
      · exact inv.within rfl rfl (by rw [point]; rfl) (by simp [LoopState.goTo]) trivial
  | runtime =>
      have running : resultOf c.point = none := by rw [point]; rfl
      simp only
      split
      · rename_i ended
        refine inv.pass running rfl ?_ (by simp [LoopState.pass]) trivial
        simp only [clientStep, if_pos ended]
        rfl
      · rename_i early
        exact inv.within rfl rfl (by rw [running]; rfl) (by simp) ⟨early, rfl, rfl⟩
  | period =>
      have running : resultOf c.point = none := by rw [point]; rfl
      rw [point] at recorded
      obtain ⟨early, flushed, requestsSent⟩ := recorded
      simp only
      split
      · rename_i complete
        refine inv.pass running rfl ?_ (by simp [LoopState.pass]) trivial
        simp only [clientStep]
        rw [if_neg early, if_pos complete]
        rfl
      · rename_i inTime
        exact inv.within rfl rfl (by rw [running]; rfl) (by simp)
          ⟨early, inTime, flushed, requestsSent⟩
  | keyboard =>
      rw [point] at recorded
      simp only
      split
      · exact follows_key inv _
      · exact inv.within rfl rfl (by rw [point]; rfl) (by simp [LoopState.goTo]) recorded
  | flush =>
      rw [point] at recorded
      simp only
      split
      · exact follows_flush inv point a.writes
      · exact inv.within rfl rfl (by rw [point]; rfl) (by simp [LoopState.goTo]) recorded
  | exhausted =>
      rw [point] at recorded
      simp only
      split <;> exact inv.within rfl rfl (by rw [point]; rfl) (by simp [LoopState.goTo]) recorded
  | roll =>
      rw [point] at recorded
      exact inv.within rfl rfl (by rw [point]; rfl) (by simp [LoopState.goTo]) recorded
  | read => exact follows_read inv point a.reads
  | authorize =>
      rw [point] at recorded
      exact follows_once inv (by rw [point]; rfl) recorded.1 recorded.2 ⟨rfl, rfl⟩ (.inl rfl)
  | suggest =>
      rw [point] at recorded
      exact follows_once inv (by rw [point]; rfl) recorded.1 recorded.2 ⟨rfl, rfl⟩ (.inr rfl)
  | start =>
      rw [point] at recorded
      obtain ⟨going, read⟩ := recorded
      have coarse := going.coarse { c.turn with
        authorized := c.session.state.authorized
        notifyCount := c.session.state.notifyCount
        startNow := a.now
        started := a.nonneg } ⟨rfl, rfl⟩
      exact inv.pass (by rw [point]; rfl) rfl (coarse.line going.flushed read going.requestsSent)
        (by simp [LoopState.pass]) trivial
  | writing =>
      exact inv.within rfl rfl rfl id inv.recorded
  | returned result =>
      exact inv.within rfl rfl rfl id inv.recorded

theorem follows_step (inv : Follows config c os) (e : LoopEvent) :
    Follows config (loopStep json config c e).1 (os ++ (loopStep json config c e).2) := by
  cases e with
  | client answers => exact follows_client inv answers
  | worker w batch scan => exact inv.act _
  | spurious w => exact inv.act _

end Steps

/-- **The loop refines its picture in the schedule.** -/
theorem follows_run (json : JsonText) (config : ClientConfig) (threads opencl cuda : Nat)
    (stream : List Byte) (es : List LoopEvent) :
    let r := loopRun json config (loopInitial config threads opencl cuda stream) es
    Follows config r.1 r.2 := by
  refine Machine.exec_invariant (loopStep json config)
    (loopInitial config threads opencl cuda stream) (fun _ => Follows config) ?_ ?_ es
  · exact ⟨trivial, fun _ => ⟨rfl, rfl⟩, .inl rfl⟩
  · intro _ e c os inv
    exact follows_step inv e

/-! ## What the passes met -/

/-- The record of a pass comes from the one before, from scratch or from the session. -/
inductive Met (c : LoopState) (turn : Turn) : Prop where
  | kept : turn.authorized = c.turn.authorized → turn.notifyCount = c.turn.notifyCount → Met c turn
  | blank : turn.authorized = false → turn.notifyCount = 0 → Met c turn
  | read : turn.authorized = c.session.state.authorized →
      turn.notifyCount = c.session.state.notifyCount → Met c turn

/-- A pass that is put out is the one on record. -/
structure Records (c c' : LoopState) (os : List LoopOutput) : Prop where
  passes : passesOf os = [] ∨ passesOf os = [c'.turn]
  met : Met c c'.turn

section Records

variable {json : JsonText} {config : ClientConfig} {c : LoopState}

theorem records_within {c' : LoopState} {os : List LoopOutput} (quiet : passesOf os = [])
    (same : c'.turn.authorized = c.turn.authorized ∧ c'.turn.notifyCount = c.turn.notifyCount) :
    Records c c' os :=
  ⟨.inl quiet, .kept same.1 same.2⟩

theorem records_tell {request : Request} {writes : List WriteAnswer}
    {sent failed blocked : LoopState × List LoopOutput} (isSent : Records c sent.1 sent.2)
    (isFailed : Records c failed.1 failed.2) (isBlocked : Records c blocked.1 blocked.2) :
    Records c (tell json config request writes sent failed blocked).1
      (tell json config request writes sent failed blocked).2 :=
  tell_rule (Records c) (fun _ _ _ records => ⟨records.passes, records.met⟩) isSent isFailed isBlocked

theorem loopStep_records (e : LoopEvent) :
    Records c (loopStep json config c e).1 (loopStep json config c e).2 := by
  have kept {c' : LoopState} {os : List LoopOutput} (quiet : passesOf os = [])
      (same : c'.turn = c.turn) : Records c c' os := records_within quiet (by simp [same])
  have ended (turn : Turn) (point : Point) (met : Met c turn) :
      Records c (c.pass turn point).1 (c.pass turn point).2 := ⟨.inr rfl, met⟩
  have same : Met c c.turn := .kept rfl rfl
  cases e with
  | worker w batch scan => exact kept rfl rfl
  | spurious w => exact kept rfl rfl
  | client a =>
      simp only [loopStep, clientThread]
      cases c.point with
      | subscribe => exact records_tell (kept rfl rfl) (kept rfl rfl) (kept rfl rfl)
      | runtime =>
          simp only
          split
          · exact ended _ _ (.blank rfl rfl)
          · exact ⟨.inl rfl, .blank rfl rfl⟩
      | period =>
          simp only
          split
          · exact ended _ _ (.kept rfl rfl)
          · exact records_within rfl ⟨rfl, rfl⟩
      | keyboard =>
          simp only
          split
          · exact handleKey_rule (Records c) (kept rfl rfl) (fun _ => kept rfl rfl) _
          · exact kept rfl rfl
      | flush =>
          simp only
          split
          · unfold flushShare
            split
            · exact kept rfl rfl
            · exact records_tell (kept rfl rfl) ⟨.inr rfl, .kept rfl rfl⟩ (kept rfl rfl)
          · exact kept rfl rfl
      | exhausted => simp only; split <;> exact kept rfl rfl
      | roll => exact kept rfl rfl
      | read =>
          simp only [readPool]
          cases readLine lineSize c.reader c.incoming a.reads with
          | none => exact kept rfl rfl
          | some call =>
              simp only
              cases call.result with
              | line text => simp only; split <;> exact records_within rfl ⟨rfl, rfl⟩
              | _ => exact ⟨.inr rfl, .kept rfl rfl⟩
      | authorize =>
          simp only [tellOnce]
          split
          · exact records_tell (kept rfl rfl) (ended _ _ (.kept rfl rfl)) (kept rfl rfl)
          · exact kept rfl rfl
      | suggest =>
          simp only [tellOnce]
          split
          · exact records_tell (kept rfl rfl) (ended _ _ (.kept rfl rfl)) (kept rfl rfl)
          · exact kept rfl rfl
      | start => exact ⟨.inr rfl, .read rfl rfl⟩
      | writing => exact kept rfl rfl
      | returned result => exact kept rfl rfl

end Records

/-- What a pass has on record about the pool was said by the pool. -/
structure Truthful (es : List SessionEvent) (turn : Turn) : Prop where
  authorized : turn.authorized = true → Said es fun line => authorizeReply line = some true
  notified : 0 < turn.notifyCount → Said es fun line => (notifyOf line).isSome

theorem Truthful.more {es es' : List SessionEvent} {turn : Turn} (truthful : Truthful es turn) :
    Truthful (es ++ es') turn :=
  ⟨fun is => (truthful.authorized is).more, fun is => (truthful.notified is).more⟩

/-- The records of the passes of a run, each true of what was read before the pass ended. -/
structure Told (json : JsonText) (config : ClientConfig) (s₀ : Session) (c : LoopState)
    (os : List LoopOutput) : Prop where
  converses : Converses json config s₀ c os
  current : Truthful (eventsOf os) c.turn
  passes : ∀ before turn after, os = before ++ .passed turn :: after →
    Truthful (eventsOf before) turn

theorem mem_passesOf {os : List LoopOutput} {turn : Turn} :
    turn ∈ passesOf os ↔ LoopOutput.passed turn ∈ os := by
  simp only [passesOf, List.mem_filterMap]
  constructor
  · rintro ⟨o, member, is⟩
    cases o <;> simp_all
  · intro member
    exact ⟨_, member, rfl⟩

theorem told_step {json : JsonText} {config : ClientConfig} {s₀ : Session} {c : LoopState}
    {os : List LoopOutput} (fresh : ∃ attached, s₀.state = stratumStateInit attached)
    (inv : Told json config s₀ c os) (e : LoopEvent) :
    Told json config s₀ (loopStep json config c e).1 (os ++ (loopStep json config c e).2) := by
  have records : Records c (loopStep json config c e).1 (loopStep json config c e).2 :=
    loopStep_records e
  have current : Truthful (eventsOf os) (loopStep json config c e).1.turn := by
    have opening := opening_run s₀ fresh (eventsOf os)
    rw [← inv.converses.session] at opening
    cases records.met with
    | kept authorized count =>
        exact ⟨fun is => inv.current.authorized (authorized ▸ is),
          fun is => inv.current.notified (count ▸ is)⟩
    | blank authorized count =>
        refine ⟨fun is => ?_, fun is => ?_⟩
        · rw [authorized] at is
          cases is
        · rw [count] at is
          cases is
    | read authorized count =>
        exact ⟨fun is => opening.flags.authorized (authorized.symm.trans is),
          fun is => opening.flags.notified (is.trans_eq count)⟩
  have ended (turn : Turn) (isNew : LoopOutput.passed turn ∈ (loopStep json config c e).2) :
      turn = (loopStep json config c e).1.turn := by
    have member := mem_passesOf.mpr isNew
    rcases records.passes with none_ | one
    · rw [none_] at member
      cases member
    · rwa [one, List.mem_singleton] at member
  refine ⟨converses_move (loopStep_move e) inv.converses, ?_, fun before turn after split => ?_⟩
  · rw [eventsOf_append]
    exact current.more
  rcases List.append_eq_append_iff.mp split with ⟨within, isBefore, isNew⟩ | ⟨within, isOld, isAfter⟩
  · rw [isBefore, eventsOf_append, ended turn (by simp [isNew])]
    exact current.more
  · cases within with
    | nil =>
        rw [List.append_nil] at isOld
        rw [List.nil_append] at isAfter
        rw [← isOld, ended turn (by simp [← isAfter])]
        exact current
    | cons o within =>
        obtain ⟨isPass, -⟩ := List.cons.inj isAfter
        exact inv.passes before turn within (isPass ▸ isOld)

theorem told_run (json : JsonText) (config : ClientConfig) (threads opencl cuda : Nat)
    (stream : List Byte) (es : List LoopEvent) :
    let c₀ := loopInitial config threads opencl cuda stream
    Told json config c₀.session (loopRun json config c₀ es).1 (loopRun json config c₀ es).2 := by
  intro c₀
  refine Machine.exec_invariant (loopStep json config) c₀ (fun _ => Told json config c₀.session) ?_
    (fun _ e c os inv => told_step ⟨_, rfl⟩ inv e) es
  refine ⟨converses_run json config threads opencl cuda stream [], ?_, by simp⟩
  exact ⟨fun is => absurd is Bool.false_ne_true, fun is => absurd is (Nat.lt_irrefl 0)⟩

/-- The coarse client goes through passes it was given. -/
theorem ran_mem (stopAt sessionSeconds : ℚ) (turns : List Turn) :
    ∀ turn ∈ (clientRun stopAt sessionSeconds turns).2, turn ∈ turns := by
  have one (c : Schedule.Client) (turn : Turn) :
      ∀ t ∈ (clientStep stopAt sessionSeconds c turn).2, t = turn := by
    intro t member
    unfold clientStep at member
    split at member
    · cases member
    · split at member
      · cases member
      · split at member
        · cases member
        · split at member
          · simpa using member
          · split at member
            · simpa using member
            · simpa using member
            · simpa using member
            · split at member
              · simpa using member
              · split at member <;> simpa using member
  refine Machine.exec_invariant (clientStep stopAt sessionSeconds) Schedule.clientInitial
    (fun turns _ ran => ∀ turn ∈ ran, turn ∈ turns) (by simp) ?_ turns
  intro turns turn c ran inv t member
  rcases List.mem_append.mp member with old | new
  · exact List.mem_append_left _ (inv t old)
  · rw [one c turn t new]
    simp

/-- **The client loop refines its picture in the schedule.**  After every run the passes of
the loop take the coarse client to the deadline and the result that the loop has, unless
the very first write failed.  So a session with a length that returns 0 was ended by the
program's runtime limit, or it ran for its full length from a pass before whose end the
pool had, by lines it really sent, authorized the user and given a job. -/
theorem loop_refines_schedule (json : JsonText) (config : ClientConfig) (threads opencl cuda : Nat)
    (stream : List Byte) (es : List LoopEvent) :
    let r := loopRun json config (loopInitial config threads opencl cuda stream) es
    let coarse := clientRun config.stopAt config.sessionSeconds (passesOf r.2)
    (coarse.1 = ⟨r.1.sessionStopAt, resultOf r.1.point⟩ ∨
      (passesOf r.2 = [] ∧ r.1.point = .returned 1)) ∧
    (0 < config.sessionSeconds → r.1.point = .returned 0 →
      (∃ turn ∈ passesOf r.2, 0 < config.stopAt ∧ config.stopAt ≤ turn.runtimeNow) ∨
      ∃ first, Schedule.Period config.sessionSeconds coarse.2 first ∧
        (∃ last ∈ passesOf r.2, first.startNow + config.sessionSeconds ≤ last.sessionNow) ∧
        first ∈ passesOf r.2 ∧
        ∀ before after, r.2 = before ++ .passed first :: after →
          (Said (eventsOf before) fun line => authorizeReply line = some true) ∧
          Said (eventsOf before) fun line => (notifyOf line).isSome) := by
  intro r coarse
  have follows : Follows config r.1 r.2 := follows_run json config threads opencl cuda stream es
  refine ⟨follows.coarse.imp id fun ⟨none_, _, point⟩ => ⟨none_, point⟩, fun positive isZero => ?_⟩
  have result : coarse.1.result = some 0 := by
    rcases follows.coarse with same | ⟨-, -, failed⟩
    · rw [same, isZero]
      rfl
    · rw [isZero] at failed
      cases failed
  rcases Schedule.client_full_phase positive config.stopAt (passesOf r.2) result with
    ended | ⟨first, period, complete⟩
  · exact .inl ended
  · obtain ⟨_, _, isRan, active, -, -⟩ := id period
    have member : first ∈ passesOf r.2 := by
      refine ran_mem config.stopAt config.sessionSeconds (passesOf r.2) first ?_
      rw [isRan]
      simp
    refine .inr ⟨first, period, complete, member, fun before after split => ?_⟩
    have truthful :=
      (told_run json config threads opencl cuda stream es).passes before first after split
    exact ⟨truthful.authorized active.2.2.2.1, truthful.notified active.2.2.2.2⟩

end BtcRig.Donation.Period
