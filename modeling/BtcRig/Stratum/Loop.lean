/-
# BtcRig.Stratum.Loop — `stratum_run_client`, from the first request to the return

The client thread as a program counter over a session: every step is one check, one
call or one lock section of the loop, and the workers step in between as they like.
Bytes come in through `read_line` and go out through `send_request`, so a run starts at
the pool's bytes and ends at the bytes the pool gets.

* `Move` lists what one step of the loop can do to its session and to the wire, and
  `loopStep_move` says that it does nothing else;
* `lines_run` ties the lines a session handles to the pool's bytes.

Printing, and the statistics read for it, are left out.
-/
import BtcRig.Stratum.Wire
import BtcRig.Stratum.Extranonce
import BtcRig.Donation.Schedule

namespace BtcRig.Stratum.Loop

open BtcRig.Theory
open BtcRig.Theory.Words
open BtcRig.Theory.Framing
open BtcRig.Mining.Job
open BtcRig.Mining.State
open BtcRig.Mining.Workers (Scanner run_singleton)
open BtcRig.Mining.Shares
open BtcRig.Stratum.State
open BtcRig.Stratum.Lines
open BtcRig.Stratum.Client
open BtcRig.Stratum.Extranonce
open BtcRig.Stratum.Reader
open BtcRig.Stratum.Wire
open BtcRig.Donation.Schedule (Turn)

set_option autoImplicit false

/-! ## The client thread -/

/-- Where the client thread is. -/
inductive Point where
  | subscribe
  /-- About to compare the clock with `stop_at`, then with `session_stop_at`. -/
  | runtime
  | period
  | keyboard
  | flush
  /-- About to take the exhausted flag, then to roll if it was set. -/
  | exhausted
  | roll
  | read
  | authorize
  | suggest
  /-- About to start the session's period, if it is time. -/
  | start
  /-- Inside a write that has not returned. -/
  | writing
  | returned (result : Int)
deriving DecidableEq

structure LoopState where
  session : Session
  reader : LineReader
  /-- The pool's bytes that have not been read. -/
  incoming : List Byte
  point : Point
  authorizeSent : Bool
  suggestSent : Bool
  sessionStopAt : ℚ
  /-- What this pass of the loop has met so far; the code keeps no such record. -/
  turn : Turn

/-- What a step of the client thread comes back with from the outside. -/
structure Answers where
  now : ℚ
  nonneg : 0 ≤ now
  key : Option Char
  writes : List WriteAnswer
  reads : List Answer

inductive LoopEvent where
  | client (answers : Answers)
  | worker (w : WorkerId) (batch : Word) (scan : Scanner)
  | spurious (w : WorkerId)

inductive LoopOutput where
  /-- The session did a step. -/
  | did (e : SessionEvent)
  | tried (attempt : Attempt)
  | read (result : ReadResult)
  /-- A pass of the loop is over. -/
  | passed (turn : Turn)

def blankTurn : Turn where
  runtimeNow := 0
  sessionNow := 0
  flushed := true
  read := .timeout
  requestsSent := true
  authorized := false
  notifyCount := 0
  startNow := 0
  started := le_rfl

def LoopState.act (c : LoopState) (e : SessionEvent) : LoopState × List LoopOutput :=
  ({ c with session := (sessionStep c.session e).1 }, [.did e])

def LoopState.goTo (c : LoopState) (point : Point) : LoopState := { c with point := point }

/-- End a pass of the loop. -/
def LoopState.pass (c : LoopState) (turn : Turn) (point : Point) : LoopState × List LoopOutput :=
  ({ c with point := point, turn := turn }, [.passed turn])

/-- One key of `handle_keyboard_input`. -/
def handleKey (c : LoopState) (ch : Char) : LoopState × List LoopOutput :=
  if ch = 'p' ∨ ch = 'P' then
    if !c.session.state.minerAttached || c.session.system.miner.paused then (c, [])
    else c.act (.setPaused true)
  else if ch = 'r' ∨ ch = 'R' then
    if !c.session.state.minerAttached || !c.session.system.miner.paused then (c, [])
    else c.act (.setPaused false)
  else (c, [])

/-- What the C string in a buffer is. -/
def cString (bytes : List Byte) : List Byte := bytes.takeWhile (· ≠ 0)

section Step

variable (json : JsonText) (config : ClientConfig)

/-- Try a request; `sent`, `failed` and `blocked` are what follows. -/
def tell (request : Request) (writes : List WriteAnswer)
    (sent failed blocked : LoopState × List LoopOutput) : LoopState × List LoopOutput :=
  let w := send json config request writes
  let next := match w.ok with
    | some true => sent
    | some false => failed
    | none => blocked
  (next.1, .tried (request, w.ok, w.bytes) :: next.2)

/-- One iteration of `flush_shares`. -/
def flushShare (c : LoopState) (writes : List WriteAnswer) : LoopState × List LoopOutput :=
  match (minerPopShare c.session.system.miner).1 with
  | none =>
      let (c, os) := c.act (.flush true)
      (c.goTo .exhausted, os)
  | some share =>
      let failed := c.act (.flush false)
      tell json config (.submit c.session.nextRpcId share) writes
        (c.act (.flush true))
        (let (c', os) := failed.1.pass { c.turn with flushed := false } (.returned 1)
         (c', failed.2 ++ os))
        (failed.1.goTo .writing, failed.2)

/-- `read_line` and what is done with its result. -/
def readPool (c : LoopState) (reads : List Answer) : LoopState × List LoopOutput :=
  match readLine lineSize c.reader c.incoming reads with
  | none => (c, [])
  | some call =>
      let c := { c with reader := call.reader, incoming := call.incoming }
      let (c, os) := match call.result with
        | .timeout => c.pass { c.turn with read := .timeout } .runtime
        | .closed => c.pass { c.turn with read := .closed } (.returned 1)
        | .failed | .tooLong => c.pass { c.turn with read := .failed } (.returned 1)
        | .line text =>
            let c := { c with point := .authorize, turn := { c.turn with read := .line } }
            if cString text = [] then (c, []) else c.act (.line (json.loads (cString text)))
      (c, .read call.result :: os)

/-- A request that is due once: `sent` is the state in which that is noted. -/
def tellOnce (c : LoopState) (due : Bool) (request : Request) (writes : List WriteAnswer)
    (point : Point) (sent : LoopState) : LoopState × List LoopOutput :=
  if due then
    tell json config request writes (sent.goTo point, [])
      (c.pass { c.turn with requestsSent := false } (.returned 1)) (c.goTo .writing, [])
  else (c.goTo point, [])

/-- The next step of the client thread. -/
def clientThread (c : LoopState) (a : Answers) : LoopState × List LoopOutput :=
  match c.point with
  | .subscribe =>
      tell json config .subscribe a.writes (c.goTo .runtime, []) (c.goTo (.returned 1), [])
        (c.goTo .writing, [])
  | .runtime =>
      let turn := { blankTurn with runtimeNow := a.now }
      if config.stopAt > 0 ∧ a.now ≥ config.stopAt then c.pass turn (.returned 0)
      else ({ c with point := .period, turn := turn }, [])
  | .period =>
      let turn := { c.turn with sessionNow := a.now }
      if c.sessionStopAt > 0 ∧ a.now ≥ c.sessionStopAt then c.pass turn (.returned 0)
      else ({ c with point := .keyboard, turn := turn }, [])
  | .keyboard =>
      match a.key with
      | some ch => handleKey c ch
      | none => (c.goTo .flush, [])
  | .flush =>
      if c.session.state.minerAttached then flushShare json config c a.writes
      else (c.goTo .exhausted, [])
  | .exhausted =>
      if c.session.state.minerAttached then
        let (c, os) := c.act .takeExhausted
        (c.goTo .roll, os)
      else (c.goTo .read, [])
  | .roll =>
      let (c, os) := c.act .roll
      (c.goTo .read, os)
  | .read => readPool json c a.reads
  | .authorize =>
      tellOnce json config c (c.session.state.subscribed && !c.authorizeSent) .authorize a.writes
        .suggest { c with authorizeSent := true }
  | .suggest =>
      tellOnce json config c
        (c.session.state.authorized && decide (config.suggestDifficulty > 0) && !c.suggestSent)
        .suggestDifficulty a.writes .start { c with suggestSent := true }
  | .start =>
      let state := c.session.state
      let turn : Turn := { c.turn with
        authorized := state.authorized
        notifyCount := state.notifyCount
        startNow := a.now
        started := a.nonneg }
      let starts := c.sessionStopAt = 0 ∧ config.sessionSeconds > 0 ∧ state.authorized ∧
        state.notifyCount > 0
      { c with sessionStopAt := if starts then a.now + config.sessionSeconds else c.sessionStopAt }.pass
        turn .runtime
  | .writing => (c, [])
  | .returned _ => (c, [])

def loopStep (c : LoopState) : LoopEvent → LoopState × List LoopOutput
  | .client answers => clientThread json config c answers
  | .worker w batch scan => c.act (.worker w batch scan)
  | .spurious w => c.act (.spurious w)

/-- Connected, with the miner started if there is to be one; `stream` is everything the
pool will send. -/
def loopInitial (threads opencl cuda : Nat) (stream : List Byte) : LoopState where
  session := { sessionInitial threads opencl cuda with state := stratumStateInit config.enableMining }
  reader := .empty
  incoming := stream
  point := .subscribe
  authorizeSent := false
  suggestSent := false
  sessionStopAt := 0
  turn := blankTurn

def loopRun (c : LoopState) (es : List LoopEvent) : LoopState × List LoopOutput :=
  Machine.exec (loopStep json config) c es

end Step

/-! ## Outputs -/

def eventsOf (os : List LoopOutput) : List SessionEvent :=
  os.filterMap fun
    | .did e => some e
    | _ => none

def triedOf (os : List LoopOutput) : List Attempt :=
  os.filterMap fun
    | .tried attempt => some attempt
    | _ => none

def resultsOf (os : List LoopOutput) : List ReadResult :=
  os.filterMap fun
    | .read result => some result
    | _ => none

def passesOf (os : List LoopOutput) : List Turn :=
  os.filterMap fun
    | .passed turn => some turn
    | _ => none

theorem eventsOf_append (os os' : List LoopOutput) :
    eventsOf (os ++ os') = eventsOf os ++ eventsOf os' :=
  List.filterMap_append

theorem triedOf_append (os os' : List LoopOutput) :
    triedOf (os ++ os') = triedOf os ++ triedOf os' :=
  List.filterMap_append

theorem resultsOf_append (os os' : List LoopOutput) :
    resultsOf (os ++ os') = resultsOf os ++ resultsOf os' :=
  List.filterMap_append

theorem passesOf_append (os os' : List LoopOutput) :
    passesOf (os ++ os') = passesOf os ++ passesOf os' :=
  List.filterMap_append

/-! ## Rules for the parts of a step -/

/-- A key does nothing, or it pauses or resumes the miner. -/
theorem handleKey_rule {c : LoopState} (P : LoopState → List LoopOutput → Prop) (nothing : P c [])
    (paused : ∀ paused, P (c.act (.setPaused paused)).1 (c.act (.setPaused paused)).2) (ch : Char) :
    P (handleKey c ch).1 (handleKey c ch).2 := by
  unfold handleKey
  split
  · split
    · exact nothing
    · exact paused true
  · split
    · split
      · exact nothing
      · exact paused false
    · exact nothing

/-- What holds of all three ends of a request, with the attempt put out, holds of the request. -/
theorem tell_rule {json : JsonText} {config : ClientConfig} {request : Request}
    {writes : List WriteAnswer} {sent failed blocked : LoopState × List LoopOutput}
    (P : LoopState → List LoopOutput → Prop)
    (tried : ∀ c os attempt, P c os → P c (.tried attempt :: os))
    (isSent : P sent.1 sent.2) (isFailed : P failed.1 failed.2) (isBlocked : P blocked.1 blocked.2) :
    P (tell json config request writes sent failed blocked).1
      (tell json config request writes sent failed blocked).2 := by
  simp only [tell]
  apply tried
  cases (send json config request writes).ok with
  | none => exact isBlocked
  | some ok =>
      cases ok with
      | true => exact isSent
      | false => exact isFailed

/-! ## The session inside the loop -/

/-- The share an event of the session takes from the queue. -/
def takenBy (s : Session) : SessionEvent → List MinerShare
  | .flush _ => (minerPopShare s.system.miner).1.toList
  | _ => []

/-- `shares` left the queue, and each got an id. -/
structure Takes (s s' : Session) (os : List SessionOutput) (shares : List MinerShare) : Prop where
  flushed : flushedOf os = shares
  ids : s'.nextRpcId = s.nextRpcId + shares.length

/-- Only a flush takes a share from the queue. -/
theorem takes_step (s : Session) (e : SessionEvent) :
    Takes s (sessionStep s e).1 (sessionStep s e).2 (takenBy s e) := by
  have flushed : flushedOf (sessionStep s e).2 = takenBy s e := by
    cases e with
    | line root => exact flushedOf_handled s _
    | flush sent =>
        have popped := flushedOf_popShare s
        simp only [sessionStep, flushOne, takenBy]
        cases taken : (minerPopShare s.system.miner).1 <;> rw [popped, taken]
    | takeExhausted => exact flushedOf_perform s (e := .takeNonceExhausted) (by simp)
    | roll =>
        simp only [sessionStep]
        split
        · exact flushedOf_handled { s with rolling := false } _
        · rfl
    | worker w batch scan => exact flushedOf_perform s (by simp)
    | spurious w => exact flushedOf_perform s (by simp)
    | setPaused paused => exact flushedOf_perform s (by simp)
    | stop => exact flushedOf_perform s (by simp)
  exact ⟨flushed, by rw [nextRpcId_step, flushed]⟩

/-- A step of the loop runs the session on the events it puts out. -/
structure Runs (c c' : LoopState) (os : List LoopOutput) (shares : List MinerShare) : Prop where
  session : c'.session = (sessionRun c.session (eventsOf os)).1
  takes : Takes c.session c'.session (sessionRun c.session (eventsOf os)).2 shares

theorem runs_none {c c' : LoopState} {os : List LoopOutput} (same : c'.session = c.session)
    (none_ : eventsOf os = []) : Runs c c' os [] := by
  refine ⟨by rw [none_, same]; rfl, ?_⟩
  rw [none_, same]
  exact ⟨rfl, by simp⟩

theorem runs_act {c c' : LoopState} {os : List LoopOutput} (e : SessionEvent)
    (did : c'.session = (sessionStep c.session e).1) (one : eventsOf os = [e]) :
    Runs c c' os (takenBy c.session e) := by
  have single : sessionRun c.session [e] = ((sessionStep c.session e).1, (sessionStep c.session e).2) := by
    simp [sessionRun, Machine.exec, Machine.extend]
  refine ⟨by rw [one, single, did], ?_⟩
  rw [one, single, did]
  exact takes_step c.session e

/-! ## One step -/

/-- No write failed, and none is under way. -/
def Point.Intact (point : Point) : Prop := point ≠ .writing ∧ point ≠ .returned 1

instance (point : Point) : Decidable point.Intact :=
  inferInstanceAs (Decidable (point ≠ .writing ∧ point ≠ .returned 1))

/-- The requests that are due at a point. -/
inductive Due (config : ClientConfig) (c : LoopState) : Request → Prop where
  | subscribe : c.point = .subscribe → Due config c .subscribe
  | authorize : c.point = .authorize → c.session.state.subscribed = true →
      c.authorizeSent = false → Due config c .authorize
  | suggestDifficulty : c.point = .suggest → c.session.state.authorized = true →
      0 < config.suggestDifficulty → c.suggestSent = false → Due config c .suggestDifficulty
  | submit (share : MinerShare) : c.point = .flush → c.session.state.minerAttached = true →
      (minerPopShare c.session.system.miner).1 = some share →
      Due config c (.submit c.session.nextRpcId share)

inductive Move (json : JsonText) (config : ClientConfig) (c c' : LoopState) (os : List LoopOutput) :
    Prop where
  | quiet : triedOf os = [] → Runs c c' os [] → c'.authorizeSent = c.authorizeSent →
      c'.suggestSent = c.suggestSent → (c'.point = .subscribe ↔ c.point = .subscribe) →
      (c'.point.Intact → c.point.Intact) → Move json config c c' os
  | told (request : Request) (writes : List WriteAnswer) : Due config c request →
      triedOf os = [(request, (send json config request writes).ok,
        (send json config request writes).bytes)] →
      Runs c c' os request.shares → c'.point ≠ .subscribe →
      ((send json config request writes).ok = some true → c'.point.Intact ∧
        c'.authorizeSent = (c.authorizeSent || request.isAuthorize) ∧
        c'.suggestSent = (c.suggestSent || request.isSuggest)) →
      ((send json config request writes).ok ≠ some true → ¬c'.point.Intact ∧
        c'.authorizeSent = c.authorizeSent ∧ c'.suggestSent = c.suggestSent) →
      Move json config c c' os

/-- Every move of the loop is a run of the session. -/
theorem Move.runs {json : JsonText} {config : ClientConfig} {c c' : LoopState} {os : List LoopOutput}
    (move : Move json config c c' os) : ∃ shares, Runs c c' os shares := by
  cases move with
  | quiet _ runs => exact ⟨_, runs⟩
  | told _ _ _ _ runs => exact ⟨_, runs⟩

theorem not_intact_writing : ¬Point.Intact .writing := fun intact => intact.1 rfl

theorem not_intact_failed : ¬Point.Intact (.returned 1) := fun intact => intact.2 rfl

section Moves

variable {json : JsonText} {config : ClientConfig} {c : LoopState}

/-- A step that only the thread itself notices. -/
theorem Move.only {c' : LoopState} {os : List LoopOutput} (noAttempt : triedOf os = [])
    (noEvent : eventsOf os = []) (session : c'.session = c.session)
    (authorizeSent : c'.authorizeSent = c.authorizeSent) (suggestSent : c'.suggestSent = c.suggestSent)
    (from_ : c.point ≠ .subscribe) (to_ : c'.point ≠ .subscribe)
    (intact : c'.point.Intact → c.point.Intact) : Move json config c c' os :=
  .quiet noAttempt (runs_none session noEvent) authorizeSent suggestSent
    ⟨fun is => absurd is to_, fun is => absurd is from_⟩ intact

/-- The same with an event of the session that takes no share. -/
theorem Move.acting {c' : LoopState} {os : List LoopOutput} (e : SessionEvent)
    (noAttempt : triedOf os = []) (one : eventsOf os = [e])
    (did : c'.session = (sessionStep c.session e).1) (untaken : takenBy c.session e = [])
    (authorizeSent : c'.authorizeSent = c.authorizeSent) (suggestSent : c'.suggestSent = c.suggestSent)
    (point : c'.point = .subscribe ↔ c.point = .subscribe)
    (intact : c'.point.Intact → c.point.Intact) : Move json config c c' os :=
  .quiet noAttempt (untaken ▸ runs_act e did one) authorizeSent suggestSent point intact

theorem handleKey_move (ch : Char) (point : c.point = .keyboard) :
    Move json config c (handleKey c ch).1 (handleKey c ch).2 := by
  apply handleKey_rule (Move json config c)
  · exact .only rfl rfl rfl rfl rfl (by simp [point]) (by simp [point]) id
  · intro paused
    exact .acting (.setPaused paused) rfl rfl rfl rfl rfl rfl Iff.rfl id

/-- Flushing one share. -/
theorem flushShare_move (writes : List WriteAnswer) (point : c.point = .flush)
    (attached : c.session.state.minerAttached = true) :
    Move json config c (flushShare json config c writes).1 (flushShare json config c writes).2 := by
  have intact : c.point.Intact := by simp [Point.Intact, point]
  unfold flushShare
  cases taken : (minerPopShare c.session.system.miner).1 with
  | none =>
      exact .acting (.flush true) rfl rfl rfl (by simp [takenBy, taken]) rfl rfl
        (by simp [LoopState.goTo, point]) fun _ => intact
  | some share =>
      have takes (sent : Bool) : takenBy c.session (.flush sent) =
          (Request.submit c.session.nextRpcId share).shares := by
        simp [takenBy, taken, Request.shares]
      simp only [tell]
      cases ok : (send json config (.submit c.session.nextRpcId share) writes).ok with
      | none =>
          refine .told _ writes (.submit share point attached taken) (by rw [ok]; rfl) ?_
            (by simp [LoopState.goTo]) (by simp [ok]) fun _ => ⟨not_intact_writing, rfl, rfl⟩
          rw [← takes false]
          exact runs_act (.flush false) rfl rfl
      | some sent =>
          cases sent with
          | true =>
              refine .told _ writes (.submit share point attached taken) (by rw [ok]; rfl) ?_
                (by simp [LoopState.act, point]) (fun _ => ⟨intact, ?_, ?_⟩) (by simp [ok])
              · rw [← takes true]
                exact runs_act (.flush true) rfl rfl
              · simp [Request.isAuthorize, LoopState.act]
              · simp [Request.isSuggest, LoopState.act]
          | false =>
              refine .told _ writes (.submit share point attached taken) (by rw [ok]; rfl) ?_
                (by simp [LoopState.pass]) (by simp [ok]) fun _ => ⟨not_intact_failed, rfl, rfl⟩
              rw [← takes false]
              exact runs_act (.flush false) rfl rfl

/-- Reading one line, or what came of it. -/
theorem readPool_move (reads : List Answer) (point : c.point = .read) :
    Move json config c (readPool json c reads).1 (readPool json c reads).2 := by
  have intact : c.point.Intact := by simp [Point.Intact, point]
  have from_ : c.point ≠ .subscribe := by simp [point]
  unfold readPool
  cases readLine lineSize c.reader c.incoming reads with
  | none => exact .only rfl rfl rfl rfl rfl from_ from_ id
  | some call =>
      simp only
      cases call.result with
      | timeout => exact .only rfl rfl rfl rfl rfl from_ (by simp [LoopState.pass]) fun _ => intact
      | closed => exact .only rfl rfl rfl rfl rfl from_ (by simp [LoopState.pass]) fun _ => intact
      | failed => exact .only rfl rfl rfl rfl rfl from_ (by simp [LoopState.pass]) fun _ => intact
      | tooLong => exact .only rfl rfl rfl rfl rfl from_ (by simp [LoopState.pass]) fun _ => intact
      | line text =>
          simp only
          split
          · exact .only rfl rfl rfl rfl rfl from_ (by simp) fun _ => intact
          · exact .acting (.line (json.loads (cString text))) rfl rfl rfl rfl rfl rfl
              (by simp [LoopState.act, point]) fun _ => intact

theorem tell_move {request : Request} (writes : List WriteAnswer)
    {sent failed blocked : LoopState × List LoopOutput} (due : Due config c request)
    (shares : request.shares = [])
    (noEvents : eventsOf sent.2 = [] ∧ eventsOf failed.2 = [] ∧ eventsOf blocked.2 = [])
    (noAttempts : triedOf sent.2 = [] ∧ triedOf failed.2 = [] ∧ triedOf blocked.2 = [])
    (session : sent.1.session = c.session ∧ failed.1.session = c.session ∧
      blocked.1.session = c.session)
    (point : sent.1.point ≠ .subscribe ∧ failed.1.point ≠ .subscribe ∧ blocked.1.point ≠ .subscribe)
    (intact : sent.1.point.Intact ∧ ¬failed.1.point.Intact ∧ ¬blocked.1.point.Intact)
    (flags : sent.1.authorizeSent = (c.authorizeSent || request.isAuthorize) ∧
      sent.1.suggestSent = (c.suggestSent || request.isSuggest))
    (failedFlags : failed.1.authorizeSent = c.authorizeSent ∧ failed.1.suggestSent = c.suggestSent)
    (blockedFlags : blocked.1.authorizeSent = c.authorizeSent ∧
      blocked.1.suggestSent = c.suggestSent) :
    Move json config c (tell json config request writes sent failed blocked).1
      (tell json config request writes sent failed blocked).2 := by
  -- the attempt, in front of outputs that hold none
  have one (w : Option Bool × List Byte) {os : List LoopOutput} (none_ : triedOf os = []) :
      triedOf (.tried (request, w) :: os) = [(request, w)] := congrArg ((request, w) :: ·) none_
  have runs {c' : LoopState} {os : List LoopOutput} (same : c'.session = c.session)
      (none_ : eventsOf os = []) (attempt : Attempt) :
      Runs c c' (.tried attempt :: os) request.shares := by
    rw [shares]
    exact runs_none same none_
  simp only [tell]
  cases ok : (send json config request writes).ok with
  | none =>
      refine .told request writes due (by rw [ok, one _ noAttempts.2.2])
        (runs session.2.2 noEvents.2.2 _) point.2.2 (by simp [ok]) fun _ => ⟨intact.2.2, blockedFlags⟩
  | some isOk =>
      cases isOk with
      | true =>
          exact .told request writes due (by rw [ok, one _ noAttempts.1])
            (runs session.1 noEvents.1 _) point.1 (fun _ => ⟨intact.1, flags⟩) (by simp [ok])
      | false =>
          exact .told request writes due (by rw [ok, one _ noAttempts.2.1])
            (runs session.2.1 noEvents.2.1 _) point.2.1 (by simp [ok])
            fun _ => ⟨intact.2.1, failedFlags⟩

/-- Whatever the client thread does is one of the moves. -/
theorem clientThread_move (a : Answers) :
    Move json config c (clientThread json config c a).1 (clientThread json config c a).2 := by
  unfold clientThread
  cases point : c.point with
  | subscribe =>
      exact tell_move a.writes (.subscribe point) rfl ⟨rfl, rfl, rfl⟩ ⟨rfl, rfl, rfl⟩ ⟨rfl, rfl, rfl⟩
        (by simp [LoopState.goTo])
        ⟨by simp [LoopState.goTo, Point.Intact], not_intact_failed, not_intact_writing⟩
        (by simp [LoopState.goTo, Request.isAuthorize, Request.isSuggest]) ⟨rfl, rfl⟩ ⟨rfl, rfl⟩
  | runtime =>
      simp only
      split <;> exact .only rfl rfl rfl rfl rfl (by simp [point]) (by simp [LoopState.pass])
        (by simp [Point.Intact, point])
  | period =>
      simp only
      split <;> exact .only rfl rfl rfl rfl rfl (by simp [point]) (by simp [LoopState.pass])
        (by simp [Point.Intact, point])
  | keyboard =>
      simp only
      split
      · exact handleKey_move _ point
      · exact .only rfl rfl rfl rfl rfl (by simp [point]) (by simp [LoopState.goTo])
          (by simp [Point.Intact, point])
  | flush =>
      simp only
      split
      · rename_i attached
        exact flushShare_move a.writes point attached
      · exact .only rfl rfl rfl rfl rfl (by simp [point]) (by simp [LoopState.goTo])
          (by simp [Point.Intact, point])
  | exhausted =>
      simp only
      split
      · exact .acting .takeExhausted rfl rfl rfl rfl rfl rfl (by simp [LoopState.goTo, point])
          (by simp [Point.Intact, point])
      · exact .only rfl rfl rfl rfl rfl (by simp [point]) (by simp [LoopState.goTo])
          (by simp [Point.Intact, point])
  | roll =>
      exact .acting .roll rfl rfl rfl rfl rfl rfl (by simp [LoopState.goTo, point])
        (by simp [Point.Intact, point])
  | read => exact readPool_move a.reads point
  | authorize =>
      simp only [tellOnce]
      split
      · rename_i due
        obtain ⟨subscribed, unsent⟩ : c.session.state.subscribed = true ∧ c.authorizeSent = false := by
          simpa using due
        exact tell_move a.writes (.authorize point subscribed unsent) rfl ⟨rfl, rfl, rfl⟩
          ⟨rfl, rfl, rfl⟩ ⟨rfl, rfl, rfl⟩ (by simp [LoopState.goTo, LoopState.pass])
          ⟨by simp [LoopState.goTo, Point.Intact], not_intact_failed, not_intact_writing⟩
          (by simp [LoopState.goTo, Request.isAuthorize, Request.isSuggest]) ⟨rfl, rfl⟩ ⟨rfl, rfl⟩
      · exact .only rfl rfl rfl rfl rfl (by simp [point]) (by simp [LoopState.goTo])
          (by simp [Point.Intact, point])
  | suggest =>
      simp only [tellOnce]
      split
      · rename_i due
        obtain ⟨⟨authorized, wanted⟩, unsent⟩ : (c.session.state.authorized = true ∧
            0 < config.suggestDifficulty) ∧ c.suggestSent = false := by
          simpa using due
        exact tell_move a.writes (.suggestDifficulty point authorized wanted unsent) rfl
          ⟨rfl, rfl, rfl⟩ ⟨rfl, rfl, rfl⟩ ⟨rfl, rfl, rfl⟩
          (by simp [LoopState.goTo, LoopState.pass])
          ⟨by simp [LoopState.goTo, Point.Intact], not_intact_failed, not_intact_writing⟩
          (by simp [LoopState.goTo, Request.isAuthorize, Request.isSuggest]) ⟨rfl, rfl⟩ ⟨rfl, rfl⟩
      · exact .only rfl rfl rfl rfl rfl (by simp [point]) (by simp [LoopState.goTo])
          (by simp [Point.Intact, point])
  | start =>
      exact .only rfl rfl rfl rfl rfl (by simp [point]) (by simp [LoopState.pass])
        (by simp [Point.Intact, point])
  | writing => exact .only rfl rfl rfl rfl rfl (by simp [point]) (by simp [point]) id
  | returned result => exact .only rfl rfl rfl rfl rfl (by simp [point]) (by simp [point]) id

/-- So is every step of the loop. -/
theorem loopStep_move (e : LoopEvent) :
    Move json config c (loopStep json config c e).1 (loopStep json config c e).2 := by
  cases e with
  | client answers => exact clientThread_move answers
  | worker w batch scan =>
      exact .acting (.worker w batch scan) rfl rfl rfl rfl rfl rfl Iff.rfl id
  | spurious w => exact .acting (.spurious w) rfl rfl rfl rfl rfl rfl Iff.rfl id

end Moves

/-- The invariant rule over moves. -/
theorem loop_invariant (json : JsonText) (config : ClientConfig) (c₀ : LoopState)
    (P : LoopState → List LoopOutput → Prop) (initially : P c₀ [])
    (preserved : ∀ c c' os os', Move json config c c' os' → P c os → P c' (os ++ os'))
    (es : List LoopEvent) : P (loopRun json config c₀ es).1 (loopRun json config c₀ es).2 :=
  Machine.exec_invariant (loopStep json config) c₀ (fun _ => P) initially
    (fun _ e c os => preserved c _ os _ (loopStep_move e)) es

/-! ## The pool's lines -/

/-- The lines a session was given. -/
def linesOf (es : List SessionEvent) : List (Option Json) :=
  es.filterMap fun
    | .line root => some root
    | _ => none

theorem linesOf_append (es es' : List SessionEvent) :
    linesOf (es ++ es') = linesOf es ++ linesOf es' :=
  List.filterMap_append

theorem lineCount_append (rs rs' : List ReadResult) :
    lineCount (rs ++ rs') = lineCount rs + lineCount rs' :=
  List.countP_append

/-- The lines of some segments as the session gets them: an empty C string is no line. -/
def parsed (json : JsonText) (segments : List (List Byte)) : List (Option Json) :=
  ((segments.map fun segment => cString (chomp segment)).filter fun text => text ≠ []).map json.loads

theorem parsed_append (json : JsonText) (xs ys : List (List Byte)) :
    parsed json (xs ++ ys) = parsed json xs ++ parsed json ys := by
  simp [parsed]

/-- What the loop has read but not returned, and what is still to come. -/
def unreadOf (c : LoopState) : List Byte := c.reader.buffer ++ c.incoming

/-- One step reads one segment, or none. -/
inductive ReadMove (json : JsonText) (c c' : LoopState) (os : List LoopOutput) : Prop where
  | none : unreadOf c' = unreadOf c → linesOf (eventsOf os) = [] → lineCount (resultsOf os) = 0 →
      ReadMove json c c' os
  | line (segment : List Byte) : unreadOf c = segment ++ newline :: unreadOf c' →
      newline ∉ segment → segment.length < bufferSize →
      linesOf (eventsOf os) = parsed json [segment] → lineCount (resultsOf os) = 1 →
      ReadMove json c c' os

section Reading

variable {json : JsonText} {config : ClientConfig} {c : LoopState}

/-- A read that returns a line takes one segment off the stream. -/
theorem readPool_reads (reads : List Answer) :
    ReadMove json c (readPool json c reads).1 (readPool json c reads).2 := by
  unfold readPool
  cases returned : readLine lineSize c.reader c.incoming reads with
  | none => exact .none rfl rfl rfl
  | some call =>
      have spec := readLine_spec returned
      rcases spec with ⟨segment, is, clean, short, whole⟩ | ⟨is, same, -, -⟩ | ⟨is, same, -, -⟩ |
        ⟨is, same⟩ | ⟨is, same⟩
      · simp only [is]
        split
        · rename_i empty
          exact .line segment whole clean short (by simp [parsed, empty, eventsOf, linesOf]) rfl
        · rename_i some_
          exact .line segment whole clean short (by simp [parsed, some_, eventsOf, linesOf, LoopState.act])
            rfl
      all_goals
        simp only [is]
        exact .none same rfl rfl

/-- Nothing is read, and the session is given no line. -/
structure Apart (c c' : LoopState) (os : List LoopOutput) : Prop where
  unread : unreadOf c' = unreadOf c
  noLine : linesOf (eventsOf os) = []
  noCount : lineCount (resultsOf os) = 0

theorem apart_tell {request : Request} {writes : List WriteAnswer}
    {sent failed blocked : LoopState × List LoopOutput} (isSent : Apart c sent.1 sent.2)
    (isFailed : Apart c failed.1 failed.2) (isBlocked : Apart c blocked.1 blocked.2) :
    Apart c (tell json config request writes sent failed blocked).1
      (tell json config request writes sent failed blocked).2 :=
  tell_rule (Apart c) (fun _ _ _ apart => ⟨apart.unread, apart.noLine, apart.noCount⟩) isSent isFailed
    isBlocked

/-- Only `readPool` reads. -/
theorem loopStep_apart (e : LoopEvent) :
    (∃ reads, loopStep json config c e = readPool json c reads) ∨
      Apart c (loopStep json config c e).1 (loopStep json config c e).2 := by
  cases e with
  | worker w batch scan => exact .inr ⟨rfl, rfl, rfl⟩
  | spurious w => exact .inr ⟨rfl, rfl, rfl⟩
  | client a =>
      simp only [loopStep, clientThread]
      cases c.point with
      | read => exact .inl ⟨a.reads, rfl⟩
      | subscribe => exact .inr (apart_tell ⟨rfl, rfl, rfl⟩ ⟨rfl, rfl, rfl⟩ ⟨rfl, rfl, rfl⟩)
      | runtime => simp only; split <;> exact .inr ⟨rfl, rfl, rfl⟩
      | period => simp only; split <;> exact .inr ⟨rfl, rfl, rfl⟩
      | keyboard =>
          refine .inr ?_
          simp only
          split
          · exact handleKey_rule (Apart c) ⟨rfl, rfl, rfl⟩ (fun _ => ⟨rfl, rfl, rfl⟩) _
          · exact ⟨rfl, rfl, rfl⟩
      | flush =>
          refine .inr ?_
          simp only
          split
          · unfold flushShare
            split
            · exact ⟨rfl, rfl, rfl⟩
            · exact apart_tell ⟨rfl, rfl, rfl⟩ ⟨rfl, rfl, rfl⟩ ⟨rfl, rfl, rfl⟩
          · exact ⟨rfl, rfl, rfl⟩
      | exhausted => simp only; split <;> exact .inr ⟨rfl, rfl, rfl⟩
      | roll => exact .inr ⟨rfl, rfl, rfl⟩
      | authorize =>
          refine .inr ?_
          simp only [tellOnce]
          split
          · exact apart_tell ⟨rfl, rfl, rfl⟩ ⟨rfl, rfl, rfl⟩ ⟨rfl, rfl, rfl⟩
          · exact ⟨rfl, rfl, rfl⟩
      | suggest =>
          refine .inr ?_
          simp only [tellOnce]
          split
          · exact apart_tell ⟨rfl, rfl, rfl⟩ ⟨rfl, rfl, rfl⟩ ⟨rfl, rfl, rfl⟩
          · exact ⟨rfl, rfl, rfl⟩
      | start => exact .inr ⟨rfl, rfl, rfl⟩
      | writing => exact .inr ⟨rfl, rfl, rfl⟩
      | returned result => exact .inr ⟨rfl, rfl, rfl⟩

theorem loopStep_reads (e : LoopEvent) :
    ReadMove json c (loopStep json config c e).1 (loopStep json config c e).2 := by
  rcases loopStep_apart e with ⟨reads, isRead⟩ | apart
  · rw [isRead]
    exact readPool_reads reads
  · exact .none apart.unread apart.noLine apart.noCount

end Reading

/-- The lines a run of the loop gives to its session are the pool's, in order: the first
ones of the segments that the stream is cut into at its line ends. -/
theorem lines_run (json : JsonText) (config : ClientConfig) (threads opencl cuda : Nat)
    (stream : List Byte) (es : List LoopEvent) :
    let r := loopRun json config (loopInitial config threads opencl cuda stream) es
    let segments := (frames bufferSize newline stream).1.take (lineCount (resultsOf r.2))
    linesOf (eventsOf r.2) = parsed json segments ∧
      stream = segments.flatMap (· ++ [newline]) ++ unreadOf r.1 := by
  intro r segments
  -- the segments read so far are cut off the front of the stream, one after another
  have inv : ∃ before : List (List Byte), before.length = lineCount (resultsOf r.2) ∧
      linesOf (eventsOf r.2) = parsed json before ∧
      stream = before.flatMap (· ++ [newline]) ++ unreadOf r.1 ∧
      frames bufferSize newline stream =
        (before ++ (frames bufferSize newline (unreadOf r.1)).1,
          (frames bufferSize newline (unreadOf r.1)).2) := by
    refine Machine.exec_invariant (loopStep json config)
      (loopInitial config threads opencl cuda stream) (fun _ c os => ∃ before,
      before.length = lineCount (resultsOf os) ∧ linesOf (eventsOf os) = parsed json before ∧
      stream = before.flatMap (· ++ [newline]) ++ unreadOf c ∧
      frames bufferSize newline stream = (before ++ (frames bufferSize newline (unreadOf c)).1,
        (frames bufferSize newline (unreadOf c)).2)) ⟨[], rfl, rfl, rfl, rfl⟩ ?_ es
    rintro - e c os ⟨before, count, lines, whole, cut⟩
    have move : ReadMove json c (loopStep json config c e).1 (loopStep json config c e).2 :=
      loopStep_reads e
    rw [eventsOf_append, linesOf_append, resultsOf_append, lineCount_append]
    cases move with
    | none same noLine noCount =>
        rw [noLine, List.append_nil, noCount, Nat.add_zero, same]
        exact ⟨before, count, lines, whole, cut⟩
    | line segment more clean short isLine isCount =>
        refine ⟨before ++ [segment], ?_, ?_, ?_, ?_⟩
        · rw [List.length_append, count, isCount, List.length_singleton]
        · rw [lines, isLine, parsed_append]
        · rw [whole, more]
          simp
        · rw [cut, more, frames_segment clean short]
          simp
  obtain ⟨before, count, lines, whole, cut⟩ := inv
  have isBefore : segments = before := by
    simp only [segments, cut, ← count, List.take_left']
  rw [isBefore]
  exact ⟨lines, whole⟩

end BtcRig.Stratum.Loop
