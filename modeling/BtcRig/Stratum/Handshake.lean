/-
# BtcRig.Stratum.Handshake — what has to happen before a share goes out

The client authorizes once the pool has answered its subscription, and submits what
the miner finds.  Nothing in the code says that the one comes before the other; it
follows from what a job needs.

* `Greets` is the effect of a line on the flags of the connection;
* `Opening` is the invariant of a session: every flag that is set was set by a line,
  and a job was installed only with an extranonce1 and after a notification;
* `authorized_before_submissions`: from a pool that does not change the extranonce1
  unasked, every submission comes after the authorization.
-/
import BtcRig.Stratum.Conversation
import BtcRig.Theory.Ownership

namespace BtcRig.Stratum.Handshake

open BtcRig.Theory
open BtcRig.Theory.Words
open BtcRig.Theory.Framing
open BtcRig.Mining.Job
open BtcRig.Mining.State
open BtcRig.Mining.Workers (initial)
open BtcRig.Mining.Shares
open BtcRig.Stratum.State
open BtcRig.Stratum.Lines
open BtcRig.Stratum.Client
open BtcRig.Stratum.Extranonce
open BtcRig.Stratum.Reader
open BtcRig.Stratum.Wire
open BtcRig.Stratum.Loop
open BtcRig.Stratum.Conversation

set_option autoImplicit false

/-! ## Lines -/

/-- The pool's answer to `mining.authorize`, if the line is one. -/
def authorizeReply : Option Json → Option Bool
  | some root =>
      let error := Json.get root "error"
      if (Json.get root "method").isNone && !(error.isSome && !Json.isNull error) &&
          Json.integerValue (Json.get root "id") == some 2 then
        some (Json.isTrue (Json.get root "result"))
      else none
  | none => none

/-- The flags of a connection, and what a job needs besides the template. -/
structure Greeting where
  subscribed : Bool
  authorized : Bool
  extranonce1 : CStr 128
  notifyCount : Nat
  templateValid : Bool

def greetingOf (state : StratumState) : Greeting where
  subscribed := state.subscribed
  authorized := state.authorized
  extranonce1 := state.extranonce1
  notifyCount := state.notifyCount
  templateValid := state.templateValid

/-- The effect of a line on the greeting. -/
inductive Greets (line : Option Json) (g g' : Greeting) : Prop where
  | same : g' = g → Greets line g g'
  | subscribed (extranonce1 : CStr 128) : (subscribeReply line).isSome →
      g' = { g with subscribed := true, extranonce1 := extranonce1 } → Greets line g g'
  | authorized (accepted : Bool) : authorizeReply line = some accepted →
      g' = { g with authorized := accepted } → Greets line g g'
  | extranonce (extranonce1 : CStr 128) : (paramsOf "mining.set_extranonce" line).isSome →
      g' = { g with extranonce1 := extranonce1 } → Greets line g g'
  | notified (valid : Bool) : (notifyOf line).isSome →
      g' = { g with notifyCount := g.notifyCount + 1, templateValid := valid } → Greets line g g'

def KeepsGreeting (store : Store) : Prop := ∀ state, greetingOf (store state).1 = greetingOf state

theorem keepsGreeting_storeTemplateString {size : Nat}
    {write : StratumState → CStr size → StratumState}
    (keeps : ∀ state text, greetingOf (write state text) = greetingOf state) (src : List Char) :
    KeepsGreeting (storeTemplateString write src) := by
  intro state
  unfold storeTemplateString
  split
  · exact keeps state _
  · rfl

theorem keepsGreeting_andThen {first second : Store} (keeps : KeepsGreeting first)
    (keeps' : KeepsGreeting second) : KeepsGreeting (first.andThen second) := by
  intro state
  unfold Store.andThen
  simp only
  split
  · exact (keeps' _).trans (keeps state)
  · exact keeps state

theorem keepsGreeting_storeBranches (srcs : List (List Char)) :
    KeepsGreeting (storeBranches srcs) := by
  induction srcs with
  | nil => exact fun _ => rfl
  | cons src rest ih =>
      refine keepsGreeting_andThen (keepsGreeting_storeTemplateString ?_ src) ih
      exact fun _ _ => rfl

theorem keepsGreeting_storeNotify (notify : Notify) : KeepsGreeting (storeNotify notify) := by
  refine keepsGreeting_andThen (keepsGreeting_storeTemplateString ?_ _) <|
    keepsGreeting_andThen (keepsGreeting_storeTemplateString ?_ _) <|
    keepsGreeting_andThen (keepsGreeting_storeTemplateString ?_ _) <|
    keepsGreeting_andThen (keepsGreeting_storeTemplateString ?_ _) <|
    keepsGreeting_andThen (keepsGreeting_storeTemplateString ?_ _) <|
    keepsGreeting_andThen (keepsGreeting_storeTemplateString ?_ _) <|
    keepsGreeting_andThen (keepsGreeting_storeTemplateString ?_ _)
      (keepsGreeting_storeBranches notify.merkle)
  all_goals exact fun _ _ => rfl

theorem greeting_rebuild (state : StratumState) :
    greetingOf (rebuildMinerJob state).1 = greetingOf state := by
  obtain ⟨counter, same⟩ := rebuildMinerJob_frame state
  rw [same]
  rfl

theorem greeting_settled (state : StratumState) :
    greetingOf (if state.templateValid then rebuildMinerJob state else (state, none)).1 =
      greetingOf state := by
  split
  · exact greeting_rebuild state
  · rfl

theorem greeting_setExtranonce (state : StratumState) (params : Option Json) :
    ∃ extranonce1, greetingOf (handleSetExtranonce state params).1 =
      { greetingOf state with extranonce1 := extranonce1 } := by
  have settled (state' : StratumState)
      (is : greetingOf state' = { greetingOf state with extranonce1 := state'.extranonce1 }) :
      ∃ extranonce1, greetingOf (if state'.templateValid then rebuildMinerJob state'
        else (state', none)).1 = { greetingOf state with extranonce1 := extranonce1 } :=
    ⟨_, (greeting_settled state').trans is⟩
  unfold handleSetExtranonce
  apply settled
  split <;> split <;> rfl

theorem greeting_complete (state : StratumState) (id : Int) (accepted : Bool) :
    greetingOf (completePendingShare state id accepted) = greetingOf state := by
  unfold completePendingShare
  simp only
  split <;> rfl

theorem handleResponse_greets (state : StratumState) {root : Json}
    (noMethod : Json.get root "method" = none) :
    Greets (some root) (greetingOf state) (greetingOf (handleResponse state root)) := by
  unfold handleResponse
  simp only
  split
  · split
    · exact .same (greeting_complete { state with rejectCount := state.rejectCount + 1 } _ _)
    · exact .same rfl
  · rename_i noError
    -- an id that is no integer counts as none of the requests'
    have idOf (n : Int) (some_ : n ≠ -1)
        (is : (Json.integerValue (Json.get root "id")).getD (-1) = n) :
        Json.integerValue (Json.get root "id") = some n := by
      cases found : Json.integerValue (Json.get root "id") with
      | none => rw [found] at is; exact absurd is.symm some_
      | some id => rw [found] at is; exact congrArg some is
    split
    · rename_i isOne
      by_cases long : (Json.isArray (Json.get root "result") &&
          Json.arraySize (Json.get root "result") ≥ 3) = true
      · refine .subscribed (handleSubscribeResult state (Json.get root "result")).extranonce1 ?_ ?_
        · simp only [subscribeReply, noMethod, noError, idOf 1 (by decide) isOne, long]
          rfl
        · simp only [handleSubscribeResult, long, if_true]
          split <;> split <;> rfl
      · rw [handleSubscribeResult_short long]
        exact .same rfl
    · split
      · rename_i isTwo
        refine .authorized (Json.isTrue (Json.get root "result")) ?_ rfl
        simp only [authorizeReply, noMethod, noError, idOf 2 (by decide) isTwo]
        rfl
      · split
        · split
          · exact .same (greeting_complete _ _ _)
          · exact .same (greeting_complete _ _ _)
        · exact .same rfl

theorem handleNotify_greets (state : StratumState) {root : Json}
    (isNotify : Json.stringValue (Json.get root "method") = some "mining.notify".toList) :
    Greets (some root) (greetingOf state)
      (greetingOf (handleNotify state (Json.get root "params")).1) := by
  by_cases short : (!Json.isArray (Json.get root "params") ||
      Json.arraySize (Json.get root "params") < 9) = true
  · rw [handleNotify, if_pos short]
    exact .same rfl
  · have isSome : (notifyOf (some root)).isSome := by
      simp only [notifyOf, paramsOf, isNotify, short, if_true]
      rfl
    rw [handleNotify, if_neg short]
    simp only
    generalize begun : ({ state with
      notifyCount := state.notifyCount + 1
      currentJobId := snprintf room128 (readNotify (Json.get root "params")).jobId
      currentNtime := snprintf room16 (readNotify (Json.get root "params")).ntime
      templateValid := false
      templateMerkleCount := 0 } : StratumState) = state₀
    have first : greetingOf state₀ = { greetingOf state with
        notifyCount := state.notifyCount + 1, templateValid := false } := by
      rw [← begun]
      rfl
    have stored := keepsGreeting_storeNotify (readNotify (Json.get root "params")) state₀
    split
    · refine .notified true isSome ?_
      have valid (s : StratumState) : greetingOf { s with templateValid := true } =
          { greetingOf s with templateValid := true } := rfl
      rw [greeting_rebuild, valid, stored, first]
      rfl
    · refine .notified false isSome ?_
      exact stored.trans first

theorem stratumProcessLine_greets (state : StratumState) (line : Option Json) :
    Greets line (greetingOf state) (greetingOf (stratumProcessLine state line).1) := by
  cases line with
  | none => exact .same rfl
  | some root =>
      simp only [stratumProcessLine]
      cases isMethod : Json.get root "method" with
      | none => exact handleResponse_greets state isMethod
      | some value =>
          simp only [Option.isSome_some, if_true, handleMethod]
          split
          · exact .same rfl
          · rename_i method isText
            split
            · unfold handleSetDifficulty
              simp only
              split
              · rename_i difficulty isNumber
                exact .same (greeting_settled { state with difficulty := difficulty })
              · exact .same rfl
            · split
              · rename_i isNotify
                exact handleNotify_greets state (isText.trans (congrArg some isNotify))
              · split
                · rename_i isExtranonce
                  have asked := paramsOf_of_eq (isText.trans (congrArg some isExtranonce))
                  obtain ⟨extranonce1, is⟩ :=
                    greeting_setExtranonce state (Json.get root "params")
                  exact .extranonce extranonce1 (by rw [asked]; rfl) is
                · exact .same rfl

/-! ## Sessions -/

/-- Some line of a session's. -/
def Said (es : List SessionEvent) (about : Option Json → Prop) : Prop := ∃ line ∈ linesOf es, about line

def setsExtranonce (line : Option Json) : Prop := (paramsOf "mining.set_extranonce" line).isSome

instance : DecidablePred setsExtranonce := fun line =>
  inferInstanceAs (Decidable ((paramsOf "mining.set_extranonce" line).isSome = true))

/-- Whatever is set was set by a line. -/
structure Flags (es : List SessionEvent) (g : Greeting) : Prop where
  subscribed : g.subscribed = true → Said es fun line => (subscribeReply line).isSome
  authorized : g.authorized = true → Said es fun line => authorizeReply line = some true
  notified : 0 < g.notifyCount → Said es fun line => (notifyOf line).isSome
  valid : g.templateValid = true → 0 < g.notifyCount
  extranonce : g.extranonce1.1 ≠ [] → g.subscribed = true ∨ Said es setsExtranonce

/-- The flags of a session, and that a job was installed only with what it needs. -/
structure Opening (es : List SessionEvent) (g : Greeting) (os : List SessionOutput) : Prop where
  flags : Flags es g
  installed : installedOf os ≠ [] →
    (g.subscribed = true ∨ Said es setsExtranonce) ∧ 0 < g.notifyCount

theorem Said.more {es es' : List SessionEvent} {about : Option Json → Prop} (said : Said es about) :
    Said (es ++ es') about := by
  obtain ⟨line, member, is⟩ := said
  exact ⟨line, by rw [linesOf_append]; exact List.mem_append_left _ member, is⟩

theorem said_last (es : List SessionEvent) {line : Option Json} {about : Option Json → Prop}
    (is : about line) : Said (es ++ [.line line]) about :=
  ⟨line, by rw [linesOf_append]; exact List.mem_append_right _ (List.mem_singleton.mpr rfl), is⟩

/-- A line that installs a job leaves a valid template and an extranonce1. -/
theorem installs_ready {state : StratumState} {line : Option Json} {r : StratumState × Option MinerJob}
    (effect : LineEffect state line r) (installs : r.2 ≠ none) :
    r.1.templateValid = true ∧ r.1.extranonce1.1 ≠ [] := by
  have rebuilt (state' : StratumState) (made : (rebuildMinerJob state').2 ≠ none) :
      (rebuildMinerJob state').1.templateValid = true ∧
        (rebuildMinerJob state').1.extranonce1.1 ≠ [] := by
    obtain ⟨job, isJob⟩ := Option.ne_none_iff_exists'.mp made
    obtain ⟨can, -⟩ := rebuildMinerJob_installs isJob
    obtain ⟨counter, same⟩ := rebuildMinerJob_frame state'
    rw [same]
    exact ⟨can.valid, can.extranonce1⟩
  cases effect with
  | rebuild state' => exact rebuilt state' installs
  | accepted notify state' => exact rebuilt state' installs
  | _ => exact absurd rfl installs

theorem Flags.more {es es' : List SessionEvent} {g : Greeting} (flags : Flags es g) :
    Flags (es ++ es') g where
  subscribed is := (flags.subscribed is).more
  authorized is := (flags.authorized is).more
  notified is := (flags.notified is).more
  valid := flags.valid
  extranonce is := (flags.extranonce is).imp id Said.more

theorem flags_line {es : List SessionEvent} {line : Option Json} {g g' : Greeting}
    (greets : Greets line g g') (flags : Flags es g) : Flags (es ++ [.line line]) g' := by
  have old : Flags (es ++ [.line line]) g := flags.more
  cases greets with
  | same is => exact is ▸ old
  | subscribed extranonce1 reply is =>
      subst is
      exact ⟨fun _ => said_last es reply, old.authorized, old.notified, old.valid, fun _ => .inl rfl⟩
  | authorized accepted reply is =>
      subst is
      refine ⟨old.subscribed, fun yes => said_last es ?_, old.notified, old.valid, old.extranonce⟩
      rw [reply, show accepted = true from yes]
  | extranonce extranonce1 asked is =>
      subst is
      exact ⟨old.subscribed, old.authorized, old.notified, old.valid,
        fun _ => .inr (said_last es asked)⟩
  | notified valid isNotify is =>
      subst is
      exact ⟨old.subscribed, old.authorized, fun _ => said_last es isNotify,
        fun _ => Nat.succ_pos _, old.extranonce⟩

/-- Subscriptions and notifications are not taken back. -/
theorem Greets.mono {line : Option Json} {g g' : Greeting} (greets : Greets line g g') :
    (g.subscribed = true → g'.subscribed = true) ∧ g.notifyCount ≤ g'.notifyCount := by
  cases greets with
  | same is => subst is; exact ⟨id, le_rfl⟩
  | subscribed extranonce1 _ is => subst is; exact ⟨fun _ => rfl, le_rfl⟩
  | authorized accepted _ is => subst is; exact ⟨id, le_rfl⟩
  | extranonce extranonce1 _ is => subst is; exact ⟨id, le_rfl⟩
  | notified valid _ is => subst is; exact ⟨id, Nat.le_succ _⟩

/-- A step that keeps the flags, and installs only where the template is valid and there is
an extranonce1. -/
theorem Opening.next {es : List SessionEvent} {e : SessionEvent} {g g' : Greeting}
    {os os' : List SessionOutput} (inv : Opening es g os) (flags : Flags (es ++ [e]) g')
    (mono : (g.subscribed = true → g'.subscribed = true) ∧ g.notifyCount ≤ g'.notifyCount)
    (ready : installedOf os' ≠ [] → g'.templateValid = true ∧ g'.extranonce1.1 ≠ []) :
    Opening (es ++ [e]) g' (os ++ os') := by
  refine ⟨flags, fun is => ?_⟩
  by_cases old : installedOf os = []
  · rw [installedOf_append, old, List.nil_append] at is
    obtain ⟨valid, some_⟩ := ready is
    exact ⟨flags.extranonce some_, flags.valid valid⟩
  · obtain ⟨subscribed, notified⟩ := inv.installed old
    exact ⟨subscribed.imp mono.1 Said.more, notified.trans_le mono.2⟩

/-- Only lines change the flags. -/
theorem greeting_other (s : Session) {e : SessionEvent} (noLine : ∀ root, e ≠ .line root) :
    greetingOf (sessionStep s e).1.state = greetingOf s.state := by
  cases e with
  | line root => exact absurd rfl (noLine root)
  | flush sent =>
      simp only [sessionStep, flushOne]
      cases (minerPopShare s.system.miner).1 with
      | none => rfl
      | some share => cases sent <;> rfl
  | roll =>
      simp only [sessionStep]
      split
      · rw [(handled_spec { s with rolling := false } (rebuildMinerJob s.state)).state,
          greeting_rebuild]
      · rfl
  | _ => rfl

theorem opening_step {es : List SessionEvent} {s : Session} {os : List SessionOutput}
    (inv : Opening es (greetingOf s.state) os) (e : SessionEvent) :
    Opening (es ++ [e]) (greetingOf (sessionStep s e).1.state) (os ++ (sessionStep s e).2) := by
  cases sessionStep_effect s e with
  | line root r isLine effect handled =>
      subst isLine
      have state : (sessionStep s (.line root)).1.state = (stratumProcessLine s.state root).1 :=
        (handled_spec s _).state
      have greets := stratumProcessLine_greets s.state root
      rw [← state] at greets
      refine inv.next (flags_line greets inv.flags) greets.mono fun some_ => ?_
      rw [handled.installed] at some_
      rw [handled.state]
      refine installs_ready effect fun none_ => some_ ?_
      rw [none_]
      rfl
  | roll isRoll handled =>
      rw [greeting_other s (by simp [isRoll])]
      refine inv.next inv.flags.more ⟨id, le_rfl⟩ fun some_ => ?_
      rw [handled.installed] at some_
      obtain ⟨job, isJob⟩ : ∃ job, (rebuildMinerJob s.state).2 = some job := by
        refine Option.ne_none_iff_exists'.mp fun none_ => some_ ?_
        rw [none_]
        rfl
      obtain ⟨can, -⟩ := rebuildMinerJob_installs isJob
      exact ⟨can.valid, can.extranonce1⟩
  | other noLine kept none_ =>
      rw [greeting_other s noLine]
      exact inv.next inv.flags.more ⟨id, le_rfl⟩ fun some_ => absurd none_ some_

theorem opening_run (s₀ : Session) (fresh : ∃ attached, s₀.state = stratumStateInit attached)
    (es : List SessionEvent) :
    Opening es (greetingOf (sessionRun s₀ es).1.state) (sessionRun s₀ es).2 := by
  obtain ⟨attached, isInit⟩ := fresh
  refine Machine.exec_invariant sessionStep s₀ (fun es s os => Opening es (greetingOf s.state) os)
    ?_ (fun es e s os inv => opening_step inv e) es
  rw [isInit]
  refine ⟨⟨?_, ?_, ?_, ?_, ?_⟩, fun is => absurd rfl is⟩ <;>
    simp [greetingOf, stratumStateInit, CStr.empty]

/-- A share can be taken only after a job was installed. -/
theorem installed_of_taken (s₀ : Session) (threads opencl cuda : Nat)
    (fresh : s₀.system = initial threads opencl cuda) (es : List SessionEvent) {share : MinerShare}
    (taken : (minerPopShare (sessionRun s₀ es).1.system.miner).1 = some share) :
    installedOf (sessionRun s₀ es).2 ≠ [] := by
  obtain ⟨system, -⟩ := session_simulates s₀ es
  generalize isTrace : minerTrace (sessionRun s₀ es).2 = trace at system
  rw [fresh] at system
  -- pop it: what is popped is a share of a job that was set
  have source := sourced_run (fun _ _ => True) threads opencl cuda (trace ++ [.popShare])
    fun _ _ _ _ _ _ _ _ _ _ _ => trivial
  have popped : share ∈ poppedOf
      (Mining.Workers.run (initial threads opencl cuda) (trace ++ [.popShare])).2 := by
    rw [Mining.Workers.run_append, poppedOf_append, Mining.Workers.run_singleton, ← system]
    refine List.mem_append_right _ ?_
    simp [Mining.Workers.step, poppedOf, taken]
  obtain ⟨k, job, m, set, -⟩ := source.shares share (List.mem_append_left _ popped)
  intro none_
  have noJobs : jobsOf (trace ++ [.popShare]) = [] := by
    rw [jobsOf_append, jobsOf_other (by simp), List.append_nil, ← isTrace]
    exact none_
  rw [noJobs] at set
  cases set

/-! ## The loop -/

/-- Once subscribed, the client has authorized or is about to, unless a write failed. -/
def Asked (c : LoopState) : Prop :=
  c.session.state.subscribed = true → c.authorizeSent = true ∨ c.point = .authorize ∨ ¬c.point.Intact

section Steps

variable {json : JsonText} {config : ClientConfig} {c : LoopState}

theorem greeting_run (s : Session) {es : List SessionEvent} (noLine : linesOf es = []) :
    greetingOf (sessionRun s es).1.state = greetingOf s.state := by
  refine Machine.exec_invariant_of sessionStep s (fun e => ∀ root, e ≠ .line root)
    (fun s' _ => greetingOf s'.state = greetingOf s.state) rfl ?_ es ?_
  · intro e s' _ other same
    rw [greeting_other s' other, same]
  · rintro _ member root rfl
    have isLine : root ∈ linesOf es := List.mem_filterMap.mpr ⟨_, member, rfl⟩
    rw [noLine] at isLine
    cases isLine

/-- The subscription changes only where a line is read. -/
theorem subscribed_step (e : LoopEvent) :
    (loopStep json config c e).1.session.state.subscribed = c.session.state.subscribed ∨
      (loopStep json config c e).1.point = .authorize := by
  rcases loopStep_apart e with ⟨reads, isRead⟩ | apart
  · rw [isRead, readPool]
    cases readLine lineSize c.reader c.incoming reads with
    | none => exact .inl rfl
    | some call =>
        simp only
        cases call.result with
        | line text =>
            refine .inr ?_
            simp only
            split <;> rfl
        | _ => exact .inl rfl
  · obtain ⟨shares, runs⟩ : ∃ shares, Runs c (loopStep json config c e).1 (loopStep json config c e).2
        shares := (loopStep_move e).runs
    refine .inl ?_
    rw [runs.session]
    exact congrArg Greeting.subscribed (greeting_run c.session apart.noLine)

/-- The step that authorizes. -/
theorem authorize_step (a : Answers) (point : c.point = .authorize)
    (subscribed : c.session.state.subscribed = true) :
    (clientThread json config c a).1.authorizeSent = true ∨
      ¬(clientThread json config c a).1.point.Intact := by
  simp only [clientThread, point, tellOnce]
  split
  · exact tell_rule (fun c' _ => c'.authorizeSent = true ∨ ¬c'.point.Intact) (fun _ _ _ is => is)
      (.inl rfl) (.inr not_intact_failed) (.inr not_intact_writing)
  · rename_i undue
    simp only [subscribed, Bool.true_and, Bool.not_eq_true', Bool.not_eq_false] at undue
    exact .inl undue

theorem asked_step (asked : Asked c) (e : LoopEvent) : Asked (loopStep json config c e).1 := by
  intro subscribed
  have move : Move json config c (loopStep json config c e).1 (loopStep json config c e).2 :=
    loopStep_move e
  have whence : (loopStep json config c e).1.session.state.subscribed =
      c.session.state.subscribed ∨ (loopStep json config c e).1.point = .authorize :=
    subscribed_step e
  rcases whence with same | isPoint
  · rw [same] at subscribed
    rcases asked subscribed with sent | point | broken
    · refine .inl ?_
      cases move with
      | quiet _ _ authorizeSent => rw [authorizeSent, sent]
      | told request writes _ _ _ _ isSent unsent =>
          by_cases ok : (send json config request writes).ok = some true
          · rw [(isSent ok).2.1, sent, Bool.true_or]
          · rw [(unsent ok).2.1, sent]
    · cases e with
      | client a =>
          exact (authorize_step a point subscribed).imp id .inr
      | worker w batch scan => exact .inr (.inl point)
      | spurious w => exact .inr (.inl point)
    · refine .inr (.inr fun intact => ?_)
      cases move with
      | quiet _ _ _ _ _ before => exact broken (before intact)
      | told request writes due => exact broken (due_once due).2.2.2
  · exact .inr (.inl isPoint)

end Steps

/-- The order of what was tried, and the lines it rests on. -/
structure Ordered (tried : List Request) (es : List SessionEvent) : Prop where
  authorized : ∀ before id share after, tried = before ++ .submit id share :: after →
    .authorize ∈ before
  subscribe : .authorize ∈ tried → Said es fun line => (subscribeReply line).isSome
  suggest : .suggestDifficulty ∈ tried → Said es fun line => authorizeReply line = some true
  submit : ∀ id share, .submit id share ∈ tried → Said es fun line => (notifyOf line).isSome

theorem Ordered.more {tried : List Request} {es es' : List SessionEvent} (inv : Ordered tried es) :
    Ordered tried (es ++ es') :=
  ⟨inv.authorized, fun is => (inv.subscribe is).more, fun is => (inv.suggest is).more,
    fun id share is => (inv.submit id share is).more⟩

/-- One more request that is no submission. -/
theorem Ordered.snoc {tried : List Request} {es : List SessionEvent} {request : Request}
    (inv : Ordered tried es) (noShare : request.shares = [])
    (subscribe : request = .authorize → Said es fun line => (subscribeReply line).isSome)
    (suggest : request = .suggestDifficulty → Said es fun line => authorizeReply line = some true) :
    Ordered (tried ++ [request]) es := by
  have noSubmit (id : Int) (share : MinerShare) : Request.submit id share ≠ request := by
    rintro rfl
    cases noShare
  have earlier {other : Request} (member : other ∈ tried ++ [request]) :
      other ∈ tried ∨ other = request := by simpa using member
  refine ⟨fun before id share after is => ?_, fun is => ?_, fun is => ?_, fun id share is => ?_⟩
  · rcases Ownership.snoc_split is with ⟨-, -, same⟩ | ⟨after', -, is⟩
    · exact absurd same (noSubmit id share)
    · exact inv.authorized before id share after' is
  · exact (earlier is).elim inv.subscribe fun same => subscribe same.symm
  · exact (earlier is).elim inv.suggest fun same => suggest same.symm
  · exact (earlier is).elim (inv.submit id share) fun same => absurd same (noSubmit id share)

theorem Ordered.snoc_submit {tried : List Request} {es : List SessionEvent} {id : Int}
    {share : MinerShare} (inv : Ordered tried es) (authorized : .authorize ∈ tried)
    (notified : Said es fun line => (notifyOf line).isSome) :
    Ordered (tried ++ [.submit id share]) es := by
  refine ⟨fun before id' share' after is => ?_, fun is => ?_, fun is => ?_, fun _ _ _ => notified⟩
  · rcases Ownership.snoc_split is with ⟨-, rfl, -⟩ | ⟨after', -, is⟩
    · exact authorized
    · exact inv.authorized before id' share' after' is
  · exact inv.subscribe (by simpa using is)
  · exact inv.suggest (by simpa using is)

/-- What holds of a run as long as no line has set an extranonce1. -/
structure Greeted (json : JsonText) (config : ClientConfig) (s₀ : Session) (c : LoopState)
    (os : List LoopOutput) : Prop where
  converses : Converses json config s₀ c os
  asked : Asked c
  ordered : (∀ line ∈ linesOf (eventsOf os), ¬setsExtranonce line) →
    Ordered ((triedOf os).map Prod.fst) (eventsOf os)

theorem ordered_due {json : JsonText} {config : ClientConfig} {s₀ : Session} {c : LoopState}
    {os : List LoopOutput} {request : Request} (threads opencl cuda : Nat)
    (fresh : (∃ attached, s₀.state = stratumStateInit attached) ∧
      s₀.system = initial threads opencl cuda)
    (inv : Greeted json config s₀ c os) (due : Due config c request)
    (still : ∀ line ∈ linesOf (eventsOf os), ¬setsExtranonce line) :
    Ordered ((triedOf os).map Prod.fst ++ [request]) (eventsOf os) := by
  have before := inv.ordered still
  have opening := opening_run s₀ fresh.1 (eventsOf os)
  rw [← inv.converses.session] at opening
  cases due with
  | subscribe => exact before.snoc rfl (by simp) (by simp)
  | authorize _ subscribed =>
      exact before.snoc rfl (fun _ => opening.flags.subscribed subscribed) (by simp)
  | suggestDifficulty _ authorized =>
      exact before.snoc rfl (by simp) fun _ => opening.flags.authorized authorized
  | submit share point attached taken =>
      rw [inv.converses.session] at taken
      obtain ⟨subscribed, notified⟩ := opening.installed
        (installed_of_taken s₀ threads opencl cuda fresh.2 (eventsOf os) taken)
      have isSubscribed : c.session.state.subscribed = true := by
        rcases subscribed with is | ⟨line, member, sets⟩
        · exact is
        · exact absurd sets (still line member)
      -- at this point of the loop, subscribed means authorized
      have isSent : c.authorizeSent = true := by
        rcases inv.asked isSubscribed with sent | at_ | broken
        · exact sent
        · rw [point] at at_
          cases at_
        · rw [point] at broken
          exact absurd (by decide) broken
      refine before.snoc_submit ?_ (opening.flags.notified notified)
      have whole := inv.converses.intact (by rw [point]; decide)
      have count := inv.converses.authorizes
      rw [isSent, ← whole] at count
      have some_ : 0 < ((triedOf os).map Prod.fst).countP Request.isAuthorize := by
        rw [count]
        exact Nat.one_pos
      obtain ⟨other, member, is⟩ := List.countP_pos_iff.mp some_
      cases other with
      | authorize => exact member
      | _ => cases is

theorem greeted_run (json : JsonText) (config : ClientConfig) (threads opencl cuda : Nat)
    (stream : List Byte) (es : List LoopEvent) :
    let c₀ := loopInitial config threads opencl cuda stream
    Greeted json config c₀.session (loopRun json config c₀ es).1 (loopRun json config c₀ es).2 := by
  intro c₀
  refine Machine.exec_invariant (loopStep json config) c₀
    (fun _ => Greeted json config c₀.session) ?_ ?_ es
  · exact {
      converses := converses_run json config threads opencl cuda stream []
      asked := fun is => by cases is
      ordered := fun _ => ⟨by simp [triedOf], by simp [triedOf], by simp [triedOf], by simp [triedOf]⟩ }
  · intro _ e c os inv
    have move : Move json config c (loopStep json config c e).1 (loopStep json config c e).2 :=
      loopStep_move e
    refine ⟨converses_move move inv.converses, asked_step inv.asked e, fun still => ?_⟩
    rw [eventsOf_append, triedOf_append]
    have stillOld : ∀ line ∈ linesOf (eventsOf os), ¬setsExtranonce line := by
      intro line member
      refine still line ?_
      rw [eventsOf_append, linesOf_append]
      exact List.mem_append_left _ member
    cases move with
    | quiet none_ =>
        rw [none_, List.append_nil]
        exact (inv.ordered stillOld).more
    | told request writes due attempt =>
        rw [attempt, List.map_append]
        exact (ordered_due threads opencl cuda ⟨⟨_, rfl⟩, rfl⟩ inv due stillOld).more

/-- **No share before the authorization.**  From a pool that never sends
`mining.set_extranonce`: in every run the client authorizes only after a subscribe reply,
suggests a difficulty only after it was authorized, and tries every submission after it
has sent the authorization and after a notification. -/
theorem authorized_before_submissions (json : JsonText) (config : ClientConfig)
    (threads opencl cuda : Nat) (stream : List Byte) (es : List LoopEvent)
    (still : ∀ line ∈ parsed json (frames bufferSize newline stream).1, ¬setsExtranonce line) :
    let r := loopRun json config (loopInitial config threads opencl cuda stream) es
    Ordered ((triedOf r.2).map Prod.fst) (eventsOf r.2) := by
  intro r
  refine (greeted_run json config threads opencl cuda stream es).ordered fun line member => ?_
  obtain ⟨lines, -⟩ := lines_run json config threads opencl cuda stream es
  rw [lines] at member
  refine still line ?_
  rw [← List.take_append_drop (lineCount (resultsOf r.2)) (frames bufferSize newline stream).1,
    parsed_append]
  exact List.mem_append_left _ member

/-- The client authorizes once the subscribe reply has come, and submits once a share was
found for the job of the notification. -/
theorem authorized_before_submissions_example :
    let r := loopRun plainJson plainConfig (loopInitial plainConfig 1 0 0 plainStream) plainEvents
    ∃ before id share, (triedOf r.2).map Prod.fst = before ++ [.submit id share] ∧ .authorize ∈ before ∧
      (Said (eventsOf r.2) fun line => (subscribeReply line).isSome) ∧
      Said (eventsOf r.2) fun line => (notifyOf line).isSome := by
  intro r
  have ordered := authorized_before_submissions plainJson plainConfig 1 0 0 plainStream plainEvents
    (by decide +kernel)
  have ids : ((triedOf r.2).map Prod.fst).map Request.id = [1, 2, 4] := by decide +kernel
  obtain ⟨first, _, tried, -, more⟩ := List.map_eq_cons_iff.mp ids
  obtain ⟨second, _, rfl, -, more⟩ := List.map_eq_cons_iff.mp more
  obtain ⟨third, _, rfl, isFour, none_⟩ := List.map_eq_cons_iff.mp more
  obtain rfl := List.map_eq_nil_iff.mp none_
  cases third with
  | submit id share =>
      have split : (triedOf r.2).map Prod.fst = [first, second] ++ .submit id share :: [] := tried
      have before := ordered.authorized _ _ _ _ split
      refine ⟨[first, second], id, share, split, before, ordered.subscribe ?_, ordered.submit id share ?_⟩
      · rw [split]
        exact List.mem_append_left _ before
      · rw [split]
        exact List.mem_append_right _ (List.mem_singleton_self _)
  | _ => cases isFour

end BtcRig.Stratum.Handshake
