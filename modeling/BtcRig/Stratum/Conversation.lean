/-
# BtcRig.Stratum.Conversation — what the pool gets

`Converses` is the invariant of the client loop about its requests: which were
tried, which went out, and how the submissions are numbered.  Nothing is assumed of
the pool, the connection or the workers.

* `client_conversation`: the bytes on the wire are whole lines, one for each request
  sent, and at most the beginning of one more; the requests are one `mining.subscribe`,
  then at most one `mining.authorize` and one `mining.suggest_difficulty`, and the shares
  taken from the queue under the ids from 4 on, in order.
-/
import BtcRig.Stratum.Loop

namespace BtcRig.Stratum.Conversation

open BtcRig.Theory
open BtcRig.Theory.Words
open BtcRig.Theory.Framing
open BtcRig.Mining.State
open BtcRig.Stratum.State
open BtcRig.Stratum.Client
open BtcRig.Stratum.Extranonce
open BtcRig.Stratum.Reader
open BtcRig.Stratum.Wire
open BtcRig.Stratum.Loop

set_option autoImplicit false

/-- The submissions among some requests, with their ids. -/
def submissionsOf (requests : List Request) : List (Int × MinerShare) :=
  requests.filterMap fun
    | .submit id share => some (id, share)
    | _ => none

/-- The shares under the ids from 4 on. -/
def numbered (shares : List MinerShare) : List (Int × MinerShare) :=
  shares.mapIdx fun i share => (4 + (i : Int), share)

theorem submissionsOf_append (xs ys : List Request) :
    submissionsOf (xs ++ ys) = submissionsOf xs ++ submissionsOf ys :=
  List.filterMap_append

theorem numbered_snoc (shares : List MinerShare) (share : MinerShare) :
    numbered (shares ++ [share]) = numbered shares ++ [(4 + (shares.length : Int), share)] :=
  List.mapIdx_concat

/-- What was tried and what was sent, in a run of the loop on the session `s₀`. -/
structure Converses (json : JsonText) (config : ClientConfig) (s₀ : Session) (c : LoopState)
    (os : List LoopOutput) : Prop where
  session : c.session = (sessionRun s₀ (eventsOf os)).1
  wire : ∃ rest, Transmits json config (triedOf os) (sentOf (triedOf os)) rest
  intact : c.point.Intact → (triedOf os).map Prod.fst = sentOf (triedOf os)
  unopened : c.point = .subscribe → triedOf os = []
  opened : c.point ≠ .subscribe →
    ∃ more, (triedOf os).map Prod.fst = .subscribe :: more ∧ .subscribe ∉ more
  authorizes : (sentOf (triedOf os)).countP Request.isAuthorize = c.authorizeSent.toNat
  suggests : (sentOf (triedOf os)).countP Request.isSuggest = c.suggestSent.toNat
  submissions : submissionsOf ((triedOf os).map Prod.fst) =
    numbered (flushedOf (sessionRun s₀ (eventsOf os)).2)
  nextId : c.session.nextRpcId = 4 + (flushedOf (sessionRun s₀ (eventsOf os)).2).length

section Conversations

variable {json : JsonText} {config : ClientConfig} {s₀ : Session} {c c' : LoopState}
  {os os' : List LoopOutput}

/-- The session and the shares taken from it, over one more step. -/
theorem Converses.runs (inv : Converses json config s₀ c os) {shares : List MinerShare}
    (runs : Runs c c' os' shares) :
    c'.session = (sessionRun s₀ (eventsOf (os ++ os'))).1 ∧
      flushedOf (sessionRun s₀ (eventsOf (os ++ os'))).2 =
        flushedOf (sessionRun s₀ (eventsOf os)).2 ++ shares ∧
      c'.session.nextRpcId = 4 + (flushedOf (sessionRun s₀ (eventsOf (os ++ os'))).2).length := by
  have session := inv.session
  have taken := runs.takes.flushed
  have both : sessionRun s₀ (eventsOf (os ++ os')) =
      ((sessionRun c.session (eventsOf os')).1, (sessionRun s₀ (eventsOf os)).2 ++
        (sessionRun c.session (eventsOf os')).2) := by
    rw [eventsOf_append, session]
    exact Machine.exec_append _ _ _ _
  have flushed : flushedOf (sessionRun s₀ (eventsOf (os ++ os'))).2 =
      flushedOf (sessionRun s₀ (eventsOf os)).2 ++ shares := by
    rw [both, flushedOf_append, taken]
  refine ⟨by rw [both, runs.session], flushed, ?_⟩
  rw [flushed, runs.takes.ids, inv.nextId, List.length_append]
  push_cast
  ring

theorem due_once {request : Request} (due : Due config c request) :
    (request.isAuthorize = true → c.authorizeSent = false) ∧
      (request.isSuggest = true → c.suggestSent = false) ∧
      (request = .subscribe ↔ c.point = .subscribe) ∧ c.point.Intact := by
  cases due with
  | subscribe point => simp [Request.isAuthorize, Request.isSuggest, Point.Intact, point]
  | authorize point _ unsent =>
      simp [Request.isAuthorize, Request.isSuggest, Point.Intact, point, unsent]
  | suggestDifficulty point _ _ unsent =>
      simp [Request.isAuthorize, Request.isSuggest, Point.Intact, point, unsent]
  | submit share point => simp [Request.isAuthorize, Request.isSuggest, Point.Intact, point]

/-- The number of requests of a kind, with one more that was not there yet. -/
theorem count_once {sent : List Request} {kind : Request → Bool} {flag : Bool} {request : Request}
    (count : sent.countP kind = flag.toNat) (once : kind request = true → flag = false) :
    (sent ++ [request]).countP kind = (flag || kind request).toNat := by
  rw [List.countP_append, count, List.countP_singleton]
  cases is : kind request with
  | true => simp [once is]
  | false => simp

/-- A submission has the next id. -/
theorem due_submissions {request : Request} (due : Due config c request)
    {shares : List MinerShare} (next : c.session.nextRpcId = 4 + (shares.length : Int)) :
    numbered shares ++ submissionsOf [request] = numbered (shares ++ request.shares) := by
  cases due with
  | submit share => rw [Request.shares, numbered_snoc, next]; rfl
  | _ => simp [submissionsOf, Request.shares]

theorem converses_told {request : Request} {writes : List WriteAnswer}
    (inv : Converses json config s₀ c os) (due : Due config c request)
    (attempt : triedOf os' = [(request, (send json config request writes).ok,
      (send json config request writes).bytes)])
    (runs : Runs c c' os' request.shares) (left : c'.point ≠ .subscribe)
    (sent : (send json config request writes).ok = some true → c'.point.Intact ∧
      c'.authorizeSent = (c.authorizeSent || request.isAuthorize) ∧
      c'.suggestSent = (c.suggestSent || request.isSuggest))
    (unsent : (send json config request writes).ok ≠ some true → ¬c'.point.Intact ∧
      c'.authorizeSent = c.authorizeSent ∧ c'.suggestSent = c.suggestSent) :
    Converses json config s₀ c' (os ++ os') := by
  obtain ⟨authorizeOnce, suggestOnce, isSubscribe, intact⟩ := due_once due
  obtain ⟨session, flushed, nextId⟩ := inv.runs runs
  have whole := inv.intact intact
  have before : Transmits json config (triedOf os) (sentOf (triedOf os)) [] := by
    obtain ⟨rest, transmits⟩ := inv.wire
    rcases transmits.last with ⟨-, rfl⟩ | ⟨other, more, -⟩
    · exact transmits
    · have longer := congrArg List.length (whole.symm.trans more)
      simp at longer
  obtain ⟨complete, cut⟩ := transmits_snoc before whole request writes
  have attempts : triedOf (os ++ os') = triedOf os ++ [(request,
      (send json config request writes).ok, (send json config request writes).bytes)] := by
    rw [triedOf_append, attempt]
  have tried : (triedOf (os ++ os')).map Prod.fst =
      (triedOf os).map Prod.fst ++ [request] := by rw [attempts, List.map_append]; rfl
  have submissions : submissionsOf ((triedOf (os ++ os')).map Prod.fst) =
      numbered (flushedOf (sessionRun s₀ (eventsOf (os ++ os'))).2) := by
    rw [tried, submissionsOf_append, inv.submissions, flushed]
    exact due_submissions due inv.nextId
  have opened : ∃ more, (triedOf (os ++ os')).map Prod.fst = .subscribe :: more ∧
      .subscribe ∉ more := by
    rw [tried]
    by_cases first : c.point = .subscribe
    · exact ⟨[], by rw [inv.unopened first, isSubscribe.mpr first]; rfl, List.not_mem_nil⟩
    · obtain ⟨more, is, absent⟩ := inv.opened first
      refine ⟨more ++ [request], by rw [is]; rfl, ?_⟩
      have other : request ≠ .subscribe := fun is => first (isSubscribe.mp is)
      simp [absent, other.symm]
  by_cases ok : (send json config request writes).ok = some true
  · obtain ⟨isIntact, authorizeSent, suggestSent⟩ := sent ok
    have isSent : sentOf (triedOf (os ++ os')) = sentOf (triedOf os) ++ [request] := by
      rw [attempts, sentOf_append]
      simp [sentOf, ok]
    exact {
      session := session
      wire := ⟨[], by rw [isSent, attempts]; exact complete ok⟩
      intact := fun _ => by rw [tried, isSent, whole]
      unopened := fun is => absurd is left
      opened := fun _ => opened
      authorizes := by rw [isSent, authorizeSent]; exact count_once inv.authorizes authorizeOnce
      suggests := by rw [isSent, suggestSent]; exact count_once inv.suggests suggestOnce
      submissions := submissions
      nextId := nextId }
  · obtain ⟨notIntact, authorizeSent, suggestSent⟩ := unsent ok
    have isSent : sentOf (triedOf (os ++ os')) = sentOf (triedOf os) := by
      rw [attempts, sentOf_append]
      simp [sentOf, ok]
    exact {
      session := session
      wire := ⟨_, by rw [isSent, attempts]; exact cut ok⟩
      intact := fun is => absurd is notIntact
      unopened := fun is => absurd is left
      opened := fun _ => opened
      authorizes := by rw [isSent, authorizeSent]; exact inv.authorizes
      suggests := by rw [isSent, suggestSent]; exact inv.suggests
      submissions := submissions
      nextId := nextId }

theorem converses_move (move : Move json config c c' os')
    (inv : Converses json config s₀ c os) : Converses json config s₀ c' (os ++ os') := by
  cases move with
  | quiet none_ runs authorizeSent suggestSent point intact =>
      obtain ⟨session, flushed, nextId⟩ := inv.runs runs
      rw [List.append_nil] at flushed
      have same : triedOf (os ++ os') = triedOf os := by
        rw [triedOf_append, none_, List.append_nil]
      exact {
        session := session
        wire := same ▸ inv.wire
        intact := fun is => same ▸ inv.intact (intact is)
        unopened := fun is => same ▸ inv.unopened (point.mp is)
        opened := fun is => same ▸ inv.opened fun was => is (point.mpr was)
        authorizes := by rw [same, authorizeSent]; exact inv.authorizes
        suggests := by rw [same, suggestSent]; exact inv.suggests
        submissions := by rw [same, flushed]; exact inv.submissions
        nextId := nextId }
  | told request writes due attempt runs left sent unsent =>
      exact converses_told inv due attempt runs left sent unsent

end Conversations

theorem converses_run (json : JsonText) (config : ClientConfig) (threads opencl cuda : Nat)
    (stream : List Byte) (es : List LoopEvent) :
    let c₀ := loopInitial config threads opencl cuda stream
    Converses json config c₀.session (loopRun json config c₀ es).1 (loopRun json config c₀ es).2 := by
  intro c₀
  refine loop_invariant json config c₀ (Converses json config c₀.session) ?_ ?_ es
  · exact {
      session := rfl
      wire := ⟨[], rfl, .inl ⟨rfl, rfl⟩⟩
      intact := fun _ => rfl
      unopened := fun _ => rfl
      opened := fun is => absurd rfl is
      authorizes := rfl
      suggests := rfl
      submissions := rfl
      nextId := rfl }
  · intro c c' os os' move inv
    exact converses_move move inv

/-- A first write in three pieces. -/
def subscribing : LoopEvent :=
  .client ⟨0, Rat.le_refl, none, [.took 9, .again, .took 200, .took 0], []⟩

theorem no_wait : (0 : ℚ) ≤ 0 := Rat.le_refl

/-- A step of the client to which the pool's bytes arrive and whose writes succeed. -/
def easyStep : LoopEvent :=
  .client ⟨0, no_wait, none, [.took 200, .took 0], [.arrive 200]⟩

/-- A subscribe reply, and a notification. -/
def plainStream : List Byte := plainReply ++ newline :: plainNotify ++ [newline]

/-- A worker that finds a share. -/
def findingTurn : LoopEvent :=
  .worker (.cpu 0) 1 fun _ _ _ start _ => ([(start, Vector.replicate 8 0)], true)

/-- Both lines are read, a share is found, and the client takes it. -/
def plainEvents : List LoopEvent :=
  subscribing :: List.replicate 20 easyStep ++ [findingTurn, findingTurn, findingTurn] ++
    List.replicate 5 easyStep

end BtcRig.Stratum.Conversation
