/-
# BtcRig.Stratum.Pending — submissions and their answers

A submission that goes out is noted in one of 64 slots, and an answer frees the slot
of its id.  When all slots are in use a new submission takes the place of an older
one that is still unanswered.

* `tidy_run`: whatever the pool sends, `pending_count` is the number of active
  slots and their ids differ;
* `Answered`: with a pool that answers each submission once, every submission is
  accepted, rejected or outstanding, and the slots hold outstanding ones only; all of
  them, as long as there were never more than 64.
-/
import BtcRig.Stratum.Extranonce

namespace BtcRig.Stratum.Pending

open BtcRig.Theory
open BtcRig.Theory.Words
open BtcRig.Mining.Job
open BtcRig.Mining.State
open BtcRig.Mining.Workers
open BtcRig.Mining.Shares
open BtcRig.Stratum.State
open BtcRig.Stratum.Lines
open BtcRig.Stratum.Client
open BtcRig.Stratum.Template
open BtcRig.Stratum.Extranonce

set_option autoImplicit false

/-! ## The slot table -/

def slotsOf (state : StratumState) : List PendingShare := state.pending.toList

/-- The submissions noted in the table. -/
def active (slots : List PendingShare) : List PendingShare := slots.filter fun p => p.active

theorem length_slotsOf (state : StratumState) : (slotsOf state).length = stratumPendingShares := by
  simp [slotsOf]

theorem active_append (xs ys : List PendingShare) : active (xs ++ ys) = active xs ++ active ys :=
  List.filter_append ..

theorem active_cons (x : PendingShare) (xs : List PendingShare) :
    active (x :: xs) = (if x.active then [x] else []) ++ active xs := by
  cases is : x.active <;> simp [active, is]

/-- Slot `i` of the table, and the table with it replaced. -/
theorem split_at {slots : List PendingShare} {i : Nat} {y : PendingShare}
    (is : slots[i]? = some y) (x : PendingShare) :
    slots = slots.take i ++ y :: slots.drop (i + 1) ∧
      slots.set i x = slots.take i ++ x :: slots.drop (i + 1) := by
  obtain ⟨inside, rfl⟩ := List.getElem?_eq_some_iff.mp is
  refine ⟨?_, List.set_eq_take_append_cons_drop.trans (if_pos inside)⟩
  rw [List.cons_getElem_drop_succ, List.take_append_drop]

/-- What registering does to the table. -/
inductive Registered (state : StratumState) (id : Int) (share : MinerShare) (state' : StratumState)
    (before : List PendingShare) (y : PendingShare) (after : List PendingShare) : Prop where
  /-- The id is noted already. -/
  | again : y.active = true → y.id = id → state'.pendingCount = state.pendingCount →
      Registered state id share state' before y after
  | free : y.active = false → (∀ p ∈ active (slotsOf state), p.id ≠ id) →
      state'.pendingCount = state.pendingCount + 1 → Registered state id share state' before y after
  /-- There is no free slot, and `y` is overwritten. -/
  | evicted : y.active = true → (∀ p ∈ slotsOf state, p.active = true) →
      (∀ p ∈ active (slotsOf state), p.id ≠ id) → state'.pendingCount = state.pendingCount →
      Registered state id share state' before y after

theorem evictedSlot_lt (id : Int) : (id.tmod stratumPendingShares).toNat < stratumPendingShares := by
  have bound := Int.tmod_lt_of_pos id (show (0 : Int) < stratumPendingShares by decide)
  have room : (0 : Nat) < stratumPendingShares := by decide
  omega

/-- The slot a submission is noted in. -/
def slotFor (state : StratumState) (id : Int) : Nat :=
  (pendingSlot (slotsOf state) id).getD (id.tmod stratumPendingShares).toNat

theorem registerPendingShare_eq (state : StratumState) (id : Int) (share : MinerShare) :
    slotsOf (registerPendingShare state id share) =
        (slotsOf state).set (slotFor state id) ⟨id, true, share.difficulty⟩ ∧
      (registerPendingShare state id share).pendingCount =
        if ((slotsOf state)[slotFor state id]?).any fun p => p.active then state.pendingCount
        else state.pendingCount + 1 := by
  simp only [slotFor, slotsOf, registerPendingShare]
  rcases Option.eq_none_or_eq_some (pendingSlot state.pending.toList id) with none_ | ⟨slot, some_⟩
  · simp [none_]
  · simp [some_]

/-- A share takes the slot that was found, whatever was there. -/
theorem registerPendingShare_cases (state : StratumState) (id : Int) (share : MinerShare) :
    ∃ before y after, slotsOf state = before ++ y :: after ∧
      slotsOf (registerPendingShare state id share) =
        before ++ ⟨id, true, share.difficulty⟩ :: after ∧
      Registered state id share (registerPendingShare state id share) before y after := by
  have length := length_slotsOf state
  -- the slot that is chosen, and why
  obtain ⟨slot, y, chosen, isSlot, why⟩ : ∃ slot y,
      slotFor state id = slot ∧ (slotsOf state)[slot]? = some y ∧
      ((y.active = true ∧ y.id = id) ∨
        ((∀ p ∈ active (slotsOf state), p.id ≠ id) ∧
          (y.active = false ∨ (y.active = true ∧ ∀ p ∈ slotsOf state, p.active = true)))) := by
    unfold slotFor pendingSlot
    cases same : (slotsOf state).findIdx? fun p => p.active && p.id == id with
    | some slot =>
        obtain ⟨inside, is, -⟩ := List.findIdx?_eq_some_iff_getElem.mp same
        simp only [Bool.and_eq_true, beq_iff_eq] at is
        exact ⟨slot, _, rfl, List.getElem?_eq_getElem inside, .inl is⟩
    | none =>
        have absent : ∀ p ∈ active (slotsOf state), p.id ≠ id := by
          intro p member sameId
          obtain ⟨member, isActive⟩ := List.mem_filter.mp member
          have := List.findIdx?_eq_none_iff.mp same p member
          simp [isActive, sameId] at this
        cases unused : (slotsOf state).findIdx? fun p => !p.active with
        | some slot =>
            obtain ⟨inside, is, -⟩ := List.findIdx?_eq_some_iff_getElem.mp unused
            exact ⟨slot, _, rfl, List.getElem?_eq_getElem inside, .inr ⟨absent, .inl (by simpa using is)⟩⟩
        | none =>
            have all : ∀ p ∈ slotsOf state, p.active = true := by
              intro p member
              simpa using List.findIdx?_eq_none_iff.mp unused p member
            have inside : (id.tmod stratumPendingShares).toNat < (slotsOf state).length :=
              length ▸ evictedSlot_lt id
            exact ⟨_, _, rfl, List.getElem?_eq_getElem inside,
              .inr ⟨absent, .inr ⟨all _ (List.getElem_mem inside), all⟩⟩⟩
  obtain ⟨isSplit, isSet⟩ := split_at isSlot ⟨id, true, share.difficulty⟩
  obtain ⟨slots, count⟩ := registerPendingShare_eq state id share
  rw [chosen] at slots
  rw [chosen, isSlot, Option.any_some] at count
  refine ⟨_, y, _, isSplit, slots.trans isSet, ?_⟩
  rcases why with ⟨isActive, sameId⟩ | ⟨absent, isFree | ⟨isActive, all⟩⟩
  · exact .again isActive sameId (by rw [count, if_pos isActive])
  · exact .free isFree absent (by rw [count, isFree]; rfl)
  · exact .evicted isActive all absent (by rw [count, if_pos isActive])

/-- What completing does to the table. -/
inductive Completed (state : StratumState) (id : Int) (state' : StratumState) : Prop where
  | found (before : List PendingShare) (y : PendingShare) (after : List PendingShare) :
      slotsOf state = before ++ y :: after →
      slotsOf state' = before ++ { y with active := false } :: after →
      y.active = true → y.id = id →
      state'.pendingCount = (if state.pendingCount > 0 then state.pendingCount - 1
        else state.pendingCount) →
      state'.lastResultDifficulty = y.difficulty → Completed state id state'
  | absent : (∀ p ∈ active (slotsOf state), p.id ≠ id) → slotsOf state' = slotsOf state →
      state'.pendingCount = state.pendingCount → Completed state id state'

/-- An answer empties its own slot, if there is one. -/
theorem completePendingShare_cases (state : StratumState) (id : Int) (accepted : Bool) :
    Completed state id (completePendingShare state id accepted) := by
  unfold completePendingShare
  cases found : state.pending.toList.findIdx? fun p => p.active && p.id == id with
  | none =>
      refine .absent (fun p member sameId => ?_) rfl rfl
      obtain ⟨member, isActive⟩ := List.mem_filter.mp member
      have := List.findIdx?_eq_none_iff.mp found p member
      simp [isActive, sameId] at this
  | some slot =>
      obtain ⟨inside, is, -⟩ := List.findIdx?_eq_some_iff_getElem.mp found
      simp only [Bool.and_eq_true, beq_iff_eq] at is
      obtain ⟨isSplit, isSet⟩ := split_at (List.getElem?_eq_getElem inside)
        { state.pending.toList[slot] with active := false }
      have isFound : state.pending.toList.getD slot ⟨0, false, 0⟩ = state.pending.toList[slot] := by
        simp [List.getD, List.getElem?_eq_getElem inside]
      refine .found _ _ _ isSplit ?_ is.1 is.2 rfl (by simp only [isFound])
      simp only [isFound]
      refine Eq.trans ?_ isSet
      simp [slotsOf]

/-- `pending_count` counts the active slots, and their ids differ. -/
structure Tidy (state : StratumState) : Prop where
  count : state.pendingCount = (active (slotsOf state)).length
  ids : ((active (slotsOf state)).map PendingShare.id).Nodup

/-- The active slots around slot `y`. -/
theorem active_split (before after : List PendingShare) (y : PendingShare) :
    active (before ++ y :: after) =
      active before ++ ((if y.active then [y] else []) ++ active after) := by
  rw [active_append, active_cons]

/-- The table stays tidy. -/
theorem tidy_register {state : StratumState} (tidy : Tidy state) (id : Int) (share : MinerShare) :
    Tidy (registerPendingShare state id share) := by
  obtain ⟨before, y, after, slots, slots', registered⟩ := registerPendingShare_cases state id share
  have isNew : active (slotsOf (registerPendingShare state id share)) =
      active before ++ ⟨id, true, share.difficulty⟩ :: active after := by
    rw [slots', active_split]
    rfl
  have tidyCount := tidy.count
  have tidyIds := tidy.ids
  cases registered with
  | again isActive sameId count =>
      have isOld : active (slotsOf state) = active before ++ y :: active after := by
        rw [slots, active_split, if_pos isActive]
        rfl
      rw [isOld] at tidyCount tidyIds
      refine ⟨?_, ?_⟩
      · rw [count, tidyCount, isNew]
        simp
      · rw [isNew]
        simpa [sameId] using tidyIds
  | free isFree absent count =>
      have isOld : active (slotsOf state) = active before ++ active after := by
        rw [slots, active_split, isFree]
        rfl
      rw [isOld] at tidyCount tidyIds absent
      refine ⟨?_, ?_⟩
      · rw [count, tidyCount, isNew]
        simp only [List.length_append, List.length_cons]
        omega
      · rw [isNew, List.map_append, List.map_cons, List.nodup_middle, List.nodup_cons,
          ← List.map_append]
        refine ⟨fun member => ?_, tidyIds⟩
        obtain ⟨p, isP, sameId⟩ := List.mem_map.mp member
        exact absent p isP sameId
  | evicted isActive all absent count =>
      have isOld : active (slotsOf state) = active before ++ y :: active after := by
        rw [slots, active_split, if_pos isActive]
        rfl
      rw [isOld] at tidyCount tidyIds absent
      refine ⟨?_, ?_⟩
      · rw [count, tidyCount, isNew]
        simp
      · rw [List.map_append, List.map_cons, List.nodup_middle, List.nodup_cons] at tidyIds
        rw [isNew, List.map_append, List.map_cons, List.nodup_middle, List.nodup_cons,
          ← List.map_append]
        refine ⟨fun member => ?_, List.map_append ▸ tidyIds.2⟩
        obtain ⟨p, isP, sameId⟩ := List.mem_map.mp member
        refine absent p ?_ sameId
        rcases List.mem_append.mp isP with isP | isP
        · exact List.mem_append_left _ isP
        · exact List.mem_append_right _ (List.mem_cons_of_mem _ isP)

theorem tidy_complete {state state' : StratumState} {id : Int} (tidy : Tidy state)
    (completed : Completed state id state') : Tidy state' := by
  have tidyCount := tidy.count
  have tidyIds := tidy.ids
  cases completed with
  | found before y after slots slots' isActive sameId count =>
      have isOld : active (slotsOf state) = active before ++ y :: active after := by
        rw [slots, active_split, if_pos isActive]
        rfl
      have isNew : active (slotsOf state') = active before ++ active after := by
        rw [slots', active_split]
        rfl
      rw [isOld] at tidyCount tidyIds
      refine ⟨?_, ?_⟩
      · have length : (active before ++ y :: active after).length =
            (active before ++ active after).length + 1 := by simp [Nat.add_assoc]
        rw [length] at tidyCount
        rw [count, isNew, if_pos (by omega)]
        omega
      · rw [List.map_append, List.map_cons, List.nodup_middle, List.nodup_cons] at tidyIds
        rw [isNew, List.map_append]
        exact tidyIds.2
  | absent none_ slots count =>
      exact ⟨by rw [count, slots, tidyCount], slots ▸ tidyIds⟩

/-! ## Everything else leaves the tally alone -/

structure Tally where
  submitCount : Nat
  acceptCount : Nat
  rejectCount : Nat
  pendingCount : Int
  pending : Vector PendingShare stratumPendingShares

def tallyOf (state : StratumState) : Tally where
  submitCount := state.submitCount
  acceptCount := state.acceptCount
  rejectCount := state.rejectCount
  pendingCount := state.pendingCount
  pending := state.pending

/-- The id of an answer to a submission. -/
def answerOf : Option Json → Option Int
  | some root =>
      if (Json.get root "method").isNone then
        match Json.integerValue (Json.get root "id") with
        | some id => if id ≥ 4 then some id else none
        | none => none
      else none
  | none => none

def Store.KeepsTally (store : Store) : Prop := ∀ state, tallyOf (store state).1 = tallyOf state

theorem keepsTally_storeTemplateString {size : Nat}
    {write : StratumState → CStr size → StratumState}
    (keeps : ∀ state text, tallyOf (write state text) = tallyOf state) (src : List Char) :
    Store.KeepsTally (storeTemplateString write src) := by
  intro state
  unfold storeTemplateString
  split
  · exact keeps state _
  · rfl

theorem keepsTally_andThen {first second : Store} (keeps : Store.KeepsTally first)
    (keeps' : Store.KeepsTally second) : Store.KeepsTally (first.andThen second) := by
  intro state
  unfold Store.andThen
  simp only
  split
  · exact (keeps' _).trans (keeps state)
  · exact keeps state

theorem keepsTally_storeBranches (srcs : List (List Char)) :
    Store.KeepsTally (storeBranches srcs) := by
  induction srcs with
  | nil => exact fun _ => rfl
  | cons src rest ih =>
      refine keepsTally_andThen (keepsTally_storeTemplateString ?_ src) ih
      intro _ _
      exact rfl

/-- A notification touches no counter of submissions. -/
theorem keepsTally_storeNotify (notify : Notify) : Store.KeepsTally (storeNotify notify) := by
  refine keepsTally_andThen (keepsTally_storeTemplateString ?_ _) <|
    keepsTally_andThen (keepsTally_storeTemplateString ?_ _) <|
    keepsTally_andThen (keepsTally_storeTemplateString ?_ _) <|
    keepsTally_andThen (keepsTally_storeTemplateString ?_ _) <|
    keepsTally_andThen (keepsTally_storeTemplateString ?_ _) <|
    keepsTally_andThen (keepsTally_storeTemplateString ?_ _) <|
    keepsTally_andThen (keepsTally_storeTemplateString ?_ _) (keepsTally_storeBranches notify.merkle)
  all_goals exact fun _ _ => rfl

theorem tally_rebuild (state : StratumState) :
    tallyOf (rebuildMinerJob state).1 = tallyOf state := by
  obtain ⟨counter, same⟩ := rebuildMinerJob_frame state
  rw [same]
  rfl

theorem tally_handleMethod (state : StratumState) (root : Json) :
    tallyOf (handleMethod state root).1 = tallyOf state := by
  have settled : ∀ state' : StratumState, tallyOf state' = tallyOf state →
      tallyOf (if state'.templateValid then rebuildMinerJob state' else (state', none)).1 =
        tallyOf state := by
    intro state' same
    split
    · exact (tally_rebuild state').trans same
    · exact same
  unfold handleMethod
  simp only
  split
  · rfl
  · split
    · unfold handleSetDifficulty
      simp only
      split
      · rename_i difficulty isNumber
        exact settled { state with difficulty := difficulty } rfl
      · rfl
    · split
      · unfold handleNotify
        split
        · rfl
        · simp only
          split
          · exact (tally_rebuild _).trans (keepsTally_storeNotify _ _)
          · exact keepsTally_storeNotify _ _
      · split
        · unfold handleSetExtranonce
          refine settled _ ?_
          split <;> split <;> rfl
        · rfl

theorem tally_handleSubscribeResult (state : StratumState) (result : Option Json) :
    tallyOf (handleSubscribeResult state result) = tallyOf state := by
  unfold handleSubscribeResult
  split
  · split <;> split <;> rfl
  · rfl

/-- The effect of a line on the tally. -/
inductive LineTally (state : StratumState) (line : Option Json) (state' : StratumState) : Prop where
  | answered (id : Int) : answerOf line = some id → Completed state (toInt id) state' →
      state'.submitCount = state.submitCount →
      state'.acceptCount + state'.rejectCount = state.acceptCount + state.rejectCount + 1 →
      LineTally state line state'
  | other : answerOf line = none → tallyOf state' = tallyOf state → LineTally state line state'

theorem answerOf_response {root : Json} (noMethod : Json.get root "method" = none) :
    answerOf (some root) =
      if (Json.integerValue (Json.get root "id")).getD (-1) ≥ 4 then
        some ((Json.integerValue (Json.get root "id")).getD (-1))
      else none := by
  simp only [answerOf, noMethod]
  cases Json.integerValue (Json.get root "id") <;> rfl

theorem completed_congr {state state₁ state' state₂ : StratumState} {id : Int}
    (completed : Completed state id state') (sameSlots : slotsOf state₁ = slotsOf state)
    (sameCount : state₁.pendingCount = state.pendingCount) (sameSlots' : slotsOf state₂ = slotsOf state')
    (sameCount' : state₂.pendingCount = state'.pendingCount)
    (sameDifficulty : state₂.lastResultDifficulty = state'.lastResultDifficulty) :
    Completed state₁ id state₂ := by
  cases completed with
  | found before y after slots slots' isActive sameId count difficulty =>
      exact .found before y after (sameSlots.trans slots) (sameSlots'.trans slots') isActive sameId
        (by rw [sameCount', count, sameCount]) (sameDifficulty.trans difficulty)
  | absent none_ slots count =>
      exact .absent (sameSlots ▸ none_) (by rw [sameSlots', slots, sameSlots])
        (by rw [sameCount', count, sameCount])

theorem completePendingShare_counts (state : StratumState) (id : Int) (accepted : Bool) :
    (completePendingShare state id accepted).submitCount = state.submitCount ∧
      (completePendingShare state id accepted).acceptCount = state.acceptCount ∧
      (completePendingShare state id accepted).rejectCount = state.rejectCount := by
  unfold completePendingShare
  simp only
  split <;> exact ⟨rfl, rfl, rfl⟩

/-- What a response does to the counters. -/
theorem handleResponse_tally (state : StratumState) {root : Json}
    (noMethod : Json.get root "method" = none) :
    LineTally state (some root) (handleResponse state root) := by
  have isAnswer := answerOf_response noMethod
  unfold handleResponse
  simp only
  generalize (Json.integerValue (Json.get root "id")).getD (-1) = id at isAnswer ⊢
  split
  · split
    · rename_i large
      rw [if_pos large] at isAnswer
      obtain ⟨submits, accepts, rejects⟩ := completePendingShare_counts
        { state with rejectCount := state.rejectCount + 1 } (toInt id) false
      have completed := completePendingShare_cases
        { state with rejectCount := state.rejectCount + 1 } (toInt id) false
      refine .answered id isAnswer (completed_congr completed rfl rfl rfl rfl rfl) submits ?_
      rw [accepts, rejects]
      rfl
    · rename_i small
      rw [if_neg small] at isAnswer
      exact .other isAnswer rfl
  · split
    · rename_i isOne
      rw [if_neg (by omega)] at isAnswer
      exact .other isAnswer (tally_handleSubscribeResult _ _)
    · split
      · rename_i isTwo
        rw [if_neg (by omega)] at isAnswer
        exact .other isAnswer rfl
      · split
        · rename_i large
          rw [if_pos large] at isAnswer
          obtain ⟨submits, accepts, rejects⟩ :=
            completePendingShare_counts state (toInt id) (Json.isTrue (Json.get root "result"))
          have completed :=
            completePendingShare_cases state (toInt id) (Json.isTrue (Json.get root "result"))
          split
          · refine .answered id isAnswer (completed_congr completed rfl rfl rfl rfl rfl) submits ?_
            simp only [accepts, rejects]
            omega
          · refine .answered id isAnswer (completed_congr completed rfl rfl rfl rfl rfl) submits ?_
            simp only [accepts, rejects]
            omega
        · rename_i small
          rw [if_neg small] at isAnswer
          exact .other isAnswer rfl

/-- What any line does to them. -/
theorem stratumProcessLine_tally (state : StratumState) (line : Option Json) :
    LineTally state line (stratumProcessLine state line).1 := by
  cases line with
  | none => exact .other rfl rfl
  | some root =>
      simp only [stratumProcessLine]
      cases isMethod : Json.get root "method" with
      | none => exact handleResponse_tally state isMethod
      | some value =>
          refine .other ?_ (tally_handleMethod state root)
          simp only [answerOf, isMethod]
          rfl

/-! ## A session's submissions -/

/-- What went out and what was answered, kept beside the session. -/
structure Log where
  sent : List (Int × WithTop ℚ)
  answered : List Int

/-- The ids sent and not yet answered, with their shares' difficulties. -/
def Log.outstanding (log : Log) : List (Int × WithTop ℚ) :=
  log.sent.filter fun x => x.1 ∉ log.answered

def sentBy (s : Session) : SessionEvent → List (Int × WithTop ℚ)
  | .flush true =>
      (minerPopShare s.system.miner).1.toList.map fun share => (s.nextRpcId, share.difficulty)
  | _ => []

def answeredBy : SessionEvent → List Int
  | .line root => (answerOf root).toList
  | _ => []

def logStep (r : Session × Log) (e : SessionEvent) : (Session × Log) × List SessionOutput :=
  (((sessionStep r.1 e).1, ⟨r.2.sent ++ sentBy r.1 e, r.2.answered ++ answeredBy e⟩),
    (sessionStep r.1 e).2)

def logRun (s : Session) (es : List SessionEvent) : (Session × Log) × List SessionOutput :=
  Machine.exec logStep (s, ⟨[], []⟩) es

def logOf (s : Session) (es : List SessionEvent) : Log := (logRun s es).1.2

theorem logRun_session (s : Session) (es : List SessionEvent) :
    (logRun s es).1.1 = (sessionRun s es).1 ∧ (logRun s es).2 = (sessionRun s es).2 := by
  induction es using List.reverseRecOn with
  | nil => exact ⟨rfl, rfl⟩
  | append_singleton es e ih =>
      rw [logRun, sessionRun, Machine.exec_snoc, Machine.exec_snoc]
      simp only [Machine.extend, logStep]
      rw [logRun, sessionRun] at ih
      rw [ih.1, ih.2]
      exact ⟨rfl, rfl⟩

theorem logOf_snoc (s : Session) (es : List SessionEvent) (e : SessionEvent) :
    logOf s (es ++ [e]) =
      ⟨(logOf s es).sent ++ sentBy (sessionRun s es).1 e, (logOf s es).answered ++ answeredBy e⟩ := by
  rw [← (logRun_session s es).1, logOf, logRun, Machine.exec_snoc]
  rfl

/-- The effect of a step on the tally, the next id and the log. -/
inductive SubmitEffect (s : Session) (e : SessionEvent) (s' : Session) : Prop where
  | submitted (share : MinerShare) : sentBy s e = [(s.nextRpcId, share.difficulty)] →
      answeredBy e = [] →
      s'.state = { registerPendingShare s.state s.nextRpcId share with
        submitCount := s.state.submitCount + 1 } →
      s'.nextRpcId = s.nextRpcId + 1 → SubmitEffect s e s'
  | answered (root : Option Json) (id : Int) : e = .line root → sentBy s e = [] →
      answeredBy e = [id] → answerOf root = some id → Completed s.state (toInt id) s'.state →
      s'.state.submitCount = s.state.submitCount →
      s'.state.acceptCount + s'.state.rejectCount =
        s.state.acceptCount + s.state.rejectCount + 1 →
      s'.nextRpcId = s.nextRpcId → SubmitEffect s e s'
  | other : sentBy s e = [] → answeredBy e = [] → tallyOf s'.state = tallyOf s.state →
      s.nextRpcId ≤ s'.nextRpcId → SubmitEffect s e s'

/-- What any event does to the slots: the invariants are proved from this. -/
theorem sessionStep_submit (s : Session) (e : SessionEvent) :
    SubmitEffect s e (sessionStep s e).1 := by
  have handled_ : ∀ (s : Session) (r : StratumState × Option MinerJob),
      (handled s r).1.nextRpcId = s.nextRpcId := by
    intro s r
    unfold handled
    cases r.2 <;> rfl
  cases e with
  | line root =>
      have spec := handled_spec s (stratumProcessLine s.state root)
      have state : (sessionStep s (.line root)).1.state = (stratumProcessLine s.state root).1 :=
        spec.state
      cases stratumProcessLine_tally s.state root with
      | answered id isAnswer completed submits counts =>
          refine .answered root id rfl rfl (by simp [answeredBy, isAnswer]) isAnswer ?_ ?_ ?_
            (handled_ _ _)
          · rw [state]; exact completed
          · rw [state]; exact submits
          · rw [state]; exact counts
      | other noAnswer same =>
          exact .other rfl (by simp [answeredBy, noAnswer]) (state ▸ same) (handled_ _ _).ge
  | flush sent =>
      simp only [sessionStep, flushOne]
      cases popped : (minerPopShare s.system.miner).1 with
      | none => exact .other (by cases sent <;> simp [sentBy, popped]) rfl rfl le_rfl
      | some share =>
          cases sent with
          | true => exact .submitted share (by simp [sentBy, popped]) rfl rfl rfl
          | false => exact .other rfl rfl rfl (by simp)
  | takeExhausted => exact .other rfl rfl rfl le_rfl
  | roll =>
      refine .other rfl rfl ?_ ?_
      · simp only [sessionStep]
        split
        · rw [(handled_spec { s with rolling := false } (rebuildMinerJob s.state)).state]
          exact tally_rebuild s.state
        · rfl
      · simp only [sessionStep]
        split
        · exact (handled_ _ _).ge
        · exact le_rfl
  | worker w batch scan => exact .other rfl rfl rfl le_rfl
  | spurious w => exact .other rfl rfl rfl le_rfl
  | setPaused paused => exact .other rfl rfl rfl le_rfl
  | stop => exact .other rfl rfl rfl le_rfl

theorem tidy_congr {state state' : StratumState} (same : tallyOf state' = tallyOf state)
    (tidy : Tidy state) : Tidy state' := by
  have slots : slotsOf state' = slotsOf state := congrArg (fun t => t.pending.toList) same
  have count : state'.pendingCount = state.pendingCount := congrArg Tally.pendingCount same
  exact ⟨by rw [count, slots, tidy.count], slots ▸ tidy.ids⟩

/-- **The count is the number of active slots, with different ids**, whatever the pool
sends. -/
theorem tidy_run (threads opencl cuda : Nat) (es : List SessionEvent) :
    Tidy (sessionRun (sessionInitial threads opencl cuda) es).1.state := by
  refine Machine.exec_invariant sessionStep (sessionInitial threads opencl cuda)
    (fun _ s _ => Tidy s.state) ?_ ?_ es
  · have none_ : active (slotsOf (sessionInitial threads opencl cuda).state) = [] := by
      simp [active, slotsOf, sessionInitial, stratumStateInit]
    exact ⟨by rw [none_]; rfl, by rw [none_]; exact List.nodup_nil⟩
  · intro _ e s _ tidy
    cases sessionStep_submit s e with
    | submitted share isSent noAnswer state next =>
        have registered := tidy_register tidy s.nextRpcId share
        rw [state]
        exact ⟨registered.count, registered.ids⟩
    | answered root id isLine noSent isAnswered isAnswer completed =>
        exact tidy_complete tidy completed
    | other noSent noAnswer same => exact tidy_congr same tidy

/-! ## Request ids -/

theorem nextRpcId_run (threads opencl cuda : Nat) (es : List SessionEvent) :
    (sessionRun (sessionInitial threads opencl cuda) es).1.nextRpcId =
      4 + (flushedOf (sessionRun (sessionInitial threads opencl cuda) es).2).length := by
  refine Machine.exec_invariant sessionStep (sessionInitial threads opencl cuda)
    (fun _ s os => s.nextRpcId = 4 + (flushedOf os).length) rfl ?_ es
  intro _ e s os same
  rw [nextRpcId_step, same, flushedOf_append, List.length_append]
  omega

/-! ## A pool that answers each submission once -/

/-- Every answer is to a submission that went out and was not answered before. -/
def AnswersOnce (s : Session) (es : List SessionEvent) : Prop :=
  ∀ before root after, es = before ++ .line root :: after → ∀ id, answerOf root = some id →
    id ∈ (logOf s before).outstanding.map Prod.fst

/-- Never more submissions outstanding than there are slots. -/
def NeverFull (s : Session) (es : List SessionEvent) : Prop :=
  ∀ before after, es = before ++ after → (logOf s before).outstanding.length ≤ stratumPendingShares

/-- Both can be checked event by event. -/
theorem answersOnce_iff {s : Session} {es : List SessionEvent} :
    AnswersOnce s es ↔ ∀ i : Fin es.length, ∀ id ∈ answeredBy (es.get i),
      id ∈ (logOf s (es.take i)).outstanding.map Prod.fst := by
  constructor
  · intro once i id member
    have split : es = es.take i ++ es.get i :: es.drop (i + 1) := by simp
    cases isLine : es.get i with
    | line root =>
        rw [isLine] at member split
        exact once _ root _ split id (by simpa [answeredBy] using member)
    | _ =>
        rw [isLine] at member
        cases member
  · intro each before root after split id isAnswer
    subst split
    have answered := each ⟨before.length, by simp⟩ id (by simp [answeredBy, isAnswer])
    simpa using answered

theorem neverFull_iff {s : Session} {es : List SessionEvent} :
    NeverFull s es ↔ ∀ i : Fin (es.length + 1),
      (logOf s (es.take i)).outstanding.length ≤ stratumPendingShares := by
  constructor
  · intro never i
    exact never _ _ (List.take_append_drop i es).symm
  · intro each before after split
    subst split
    simpa using each ⟨before.length, by simp⟩

instance (s : Session) (es : List SessionEvent) : Decidable (AnswersOnce s es) :=
  decidable_of_iff _ answersOnce_iff.symm

instance (s : Session) (es : List SessionEvent) : Decidable (NeverFull s es) :=
  decidable_of_iff _ neverFull_iff.symm

structure Answered (s : Session) (log : Log) : Prop where
  tidy : Tidy s.state
  first : 4 ≤ s.nextRpcId
  ids : ∀ x ∈ log.sent, 4 ≤ x.1 ∧ x.1 < s.nextRpcId
  answered : ∀ id ∈ log.answered, id < s.nextRpcId
  nodup : (log.sent.map Prod.fst).Nodup
  tally : s.state.submitCount =
    s.state.acceptCount + s.state.rejectCount + log.outstanding.length
  slots : ∀ p ∈ active (slotsOf s.state), (p.id, p.difficulty) ∈ log.outstanding

/-- A new id joins the outstanding ones. -/
theorem outstanding_sent {log : Log} {id : Int} {difficulty : WithTop ℚ}
    (fresh : id ∉ log.answered) :
    Log.outstanding ⟨log.sent ++ [(id, difficulty)], log.answered ++ []⟩ =
      log.outstanding ++ [(id, difficulty)] := by
  simp [Log.outstanding, List.filter_append, fresh]

/-- An answered id leaves them. -/
theorem outstanding_answered (log : Log) (id : Int) :
    Log.outstanding ⟨log.sent ++ [], log.answered ++ [id]⟩ =
      log.outstanding.filter fun x => x.1 ≠ id := by
  simp only [Log.outstanding, List.append_nil, List.filter_filter]
  apply List.filter_congr
  intro x _
  simp only [List.mem_append, List.mem_singleton, not_or]
  by_cases isAnswered : x.1 ∈ log.answered <;> by_cases same : x.1 = id <;> simp [isAnswered, same]

theorem length_filter_ne {xs : List (Int × WithTop ℚ)} {id : Int}
    (nodup : (xs.map Prod.fst).Nodup) (member : id ∈ xs.map Prod.fst) :
    (xs.filter fun x => x.1 ≠ id).length + 1 = xs.length := by
  induction xs with
  | nil => cases member
  | cons x xs ih =>
      rw [List.map_cons, List.nodup_cons] at nodup
      by_cases same : x.1 = id
      · have none_ : xs.filter (fun x => x.1 ≠ id) = xs := by
          apply List.filter_eq_self.mpr
          intro y isY
          have other : y.1 ≠ id := fun is =>
            nodup.1 (List.mem_map.mpr ⟨y, isY, is.trans same.symm⟩)
          simpa using other
        rw [List.filter_cons_of_neg (by simpa using same), none_, List.length_cons]
      · have later : id ∈ xs.map Prod.fst := by
          rw [List.map_cons, List.mem_cons] at member
          exact member.resolve_left fun is => same is.symm
        rw [List.filter_cons_of_pos (by simpa using same), List.length_cons, List.length_cons,
          ih nodup.2 later]

theorem mem_active_register {state : StratumState} {id : Int} {share : MinerShare} {p : PendingShare}
    (member : p ∈ active (slotsOf (registerPendingShare state id share))) :
    p = ⟨id, true, share.difficulty⟩ ∨ p ∈ active (slotsOf state) := by
  obtain ⟨before, y, after, slots, slots', -⟩ := registerPendingShare_cases state id share
  rw [slots', active_split, if_pos rfl] at member
  rw [slots, active_split]
  simp only [List.mem_append, List.mem_singleton] at member ⊢
  rcases member with old | new | old
  · exact .inr (.inl old)
  · exact .inl new
  · exact .inr (.inr (.inr old))

/-- Completing takes exactly the slot with this id away. -/
theorem mem_active_complete {state state' : StratumState} {id : Int} (tidy : Tidy state)
    (completed : Completed state id state') (p : PendingShare) :
    p ∈ active (slotsOf state') ↔ p ∈ active (slotsOf state) ∧ p.id ≠ id := by
  cases completed with
  | found before y after slots slots' isActive sameId =>
      have ids := tidy.ids
      rw [slots, active_split, if_pos isActive, List.singleton_append, List.map_append, List.map_cons,
        List.nodup_middle, List.nodup_cons, ← List.map_append] at ids
      have others : ∀ q ∈ active before ++ active after, q.id ≠ id := fun q isQ same =>
        ids.1 (List.mem_map.mpr ⟨q, isQ, same.trans sameId.symm⟩)
      rw [slots', slots, active_split, active_split, if_pos isActive]
      simp only [Bool.false_eq_true, if_false, List.nil_append, List.singleton_append]
      constructor
      · intro member
        refine ⟨?_, others p member⟩
        simp only [List.mem_append, List.mem_cons] at member ⊢
        exact member.imp_right .inr
      · rintro ⟨member, other⟩
        simp only [List.mem_append, List.mem_cons] at member ⊢
        rcases member with old | rfl | old
        · exact .inl old
        · exact absurd sameId other
        · exact .inr old
  | absent none_ slots =>
      rw [slots]
      exact ⟨fun member => ⟨member, none_ p member⟩, And.left⟩

theorem outstanding_nodup {log : Log} (nodup : (log.sent.map Prod.fst).Nodup) :
    (log.outstanding.map Prod.fst).Nodup :=
  nodup.sublist (List.filter_sublist.map _)

theorem mem_sent_of_outstanding {log : Log} {x : Int × WithTop ℚ} (member : x ∈ log.outstanding) :
    x ∈ log.sent :=
  List.mem_of_mem_filter member

/-- The request ids are `int`s. -/
theorem toInt_id {s : Session} {log : Log} (inv : Answered s log) (small : s.nextRpcId < 2 ^ 31)
    {id : Int} (member : id ∈ log.outstanding.map Prod.fst) : toInt id = id := by
  obtain ⟨x, isX, rfl⟩ := List.mem_map.mp member
  have bounds := inv.ids x (mem_sent_of_outstanding isX)
  exact toInt_of_small (by omega) (by omega)

/-- One event keeps the accounts. -/
theorem answered_step {s s' : Session} {e : SessionEvent} {log : Log} (effect : SubmitEffect s e s')
    (small : s.nextRpcId < 2 ^ 31)
    (once : ∀ root, e = .line root → ∀ id, answerOf root = some id →
      id ∈ log.outstanding.map Prod.fst)
    (inv : Answered s log) :
    Answered s' ⟨log.sent ++ sentBy s e, log.answered ++ answeredBy e⟩ := by
  have first := inv.first
  cases effect with
  | submitted share isSent noAnswer state next =>
      have fresh : s.nextRpcId ∉ log.answered := fun member =>
        absurd (inv.answered _ member) (lt_irrefl _)
      have registered := tidy_register inv.tidy s.nextRpcId share
      rw [isSent, noAnswer]
      refine {
        tidy := by rw [state]; exact ⟨registered.count, registered.ids⟩
        first := by omega
        ids := fun x member => ?_
        answered := fun id member => ?_
        nodup := ?_
        tally := ?_
        slots := fun p member => ?_ }
      · rcases List.mem_append.mp member with old | new
        · have := inv.ids x old
          omega
        · rw [List.mem_singleton.mp new]
          exact ⟨first, by rw [next]; exact Int.lt_succ _⟩
      · have := inv.answered id (by simpa using member)
        omega
      · rw [List.map_append, List.map_singleton]
        refine inv.nodup.append (List.nodup_singleton _) (List.disjoint_singleton.mpr fun member => ?_)
        obtain ⟨x, isX, same⟩ := List.mem_map.mp member
        have := inv.ids x isX
        omega
      · rw [outstanding_sent fresh, List.length_append, List.length_singleton, state]
        show s.state.submitCount + 1 = s.state.acceptCount + s.state.rejectCount + _
        rw [inv.tally]
        omega
      · rw [outstanding_sent fresh]
        have member : p ∈ active (slotsOf (registerPendingShare s.state s.nextRpcId share)) := by
          rw [state] at member
          exact member
        rcases mem_active_register member with rfl | old
        · exact List.mem_append_right _ (List.mem_singleton_self _)
        · exact List.mem_append_left _ (inv.slots p old)
  | answered root id isLine noSent isAnswered isAnswer completed submits counts next =>
      have isOutstanding := once root isLine id isAnswer
      have nodup := outstanding_nodup inv.nodup
      have less := length_filter_ne nodup isOutstanding
      rw [toInt_id inv small isOutstanding] at completed
      rw [noSent, isAnswered]
      refine {
        tidy := tidy_complete inv.tidy completed
        first := by omega
        ids := fun x member => ?_
        answered := fun id' member => ?_
        nodup := by simpa using inv.nodup
        tally := ?_
        slots := fun p member => ?_ }
      · rw [next]
        exact inv.ids x (by simpa using member)
      · rw [next]
        rcases List.mem_append.mp member with old | new
        · exact inv.answered id' old
        · obtain ⟨x, isX, same⟩ := List.mem_map.mp isOutstanding
          rw [List.mem_singleton.mp new, ← same]
          exact (inv.ids x (mem_sent_of_outstanding isX)).2
      · have tally := inv.tally
        rw [outstanding_answered, submits, counts]
        omega
      · rw [outstanding_answered]
        obtain ⟨old, other⟩ := (mem_active_complete inv.tidy completed p).mp member
        exact List.mem_filter.mpr ⟨inv.slots p old, by simpa using other⟩
  | other noSent noAnswer same next =>
      have slots : slotsOf s'.state = slotsOf s.state := congrArg (fun t => t.pending.toList) same
      rw [noSent, noAnswer, List.append_nil, List.append_nil]
      exact {
        tidy := tidy_congr same inv.tidy
        first := first.trans next
        ids := fun x member => ⟨(inv.ids x member).1, (inv.ids x member).2.trans_le next⟩
        answered := fun id member => (inv.answered id member).trans_le next
        nodup := inv.nodup
        tally := by
          rw [show s'.state.submitCount = s.state.submitCount from congrArg Tally.submitCount same,
            show s'.state.acceptCount = s.state.acceptCount from congrArg Tally.acceptCount same,
            show s'.state.rejectCount = s.state.rejectCount from congrArg Tally.rejectCount same]
          exact inv.tally
        slots := by rw [slots]; exact inv.slots }

/-- Every outstanding submission has its slot. -/
def AllNoted (s : Session) (log : Log) : Prop :=
  ∀ x ∈ log.outstanding, ∃ p ∈ active (slotsOf s.state), (p.id, p.difficulty) = x

/-- A full table means at least 64 outstanding submissions. -/
theorem full_outstanding {s : Session} {log : Log} (inv : Answered s log)
    (all : ∀ p ∈ slotsOf s.state, p.active = true) :
    stratumPendingShares ≤ log.outstanding.length := by
  have isAll : active (slotsOf s.state) = slotsOf s.state := List.filter_eq_self.mpr all
  have nodup : ((active (slotsOf s.state)).map fun p => (p.id, p.difficulty)).Nodup := by
    apply List.Nodup.of_map Prod.fst
    rw [List.map_map]
    exact inv.tidy.ids
  have within : ((active (slotsOf s.state)).map fun p => (p.id, p.difficulty)) ⊆ log.outstanding := by
    intro x member
    obtain ⟨p, isP, rfl⟩ := List.mem_map.mp member
    exact inv.slots p isP
  have := (List.subperm_of_subset nodup within).length_le
  rw [List.length_map, isAll, length_slotsOf] at this
  exact this

/-- And with room in the table it keeps every outstanding submission noted. -/
theorem allNoted_step {s s' : Session} {e : SessionEvent} {log : Log} (effect : SubmitEffect s e s')
    (small : s.nextRpcId < 2 ^ 31)
    (once : ∀ root, e = .line root → ∀ id, answerOf root = some id →
      id ∈ log.outstanding.map Prod.fst)
    (inv : Answered s log)
    (room : (Log.outstanding ⟨log.sent ++ sentBy s e, log.answered ++ answeredBy e⟩).length ≤
      stratumPendingShares)
    (noted : AllNoted s log) : AllNoted s' ⟨log.sent ++ sentBy s e, log.answered ++ answeredBy e⟩ := by
  cases effect with
  | submitted share isSent noAnswer state next =>
      have fresh : s.nextRpcId ∉ log.answered := fun member =>
        absurd (inv.answered _ member) (lt_irrefl _)
      rw [isSent, noAnswer, outstanding_sent fresh, List.length_append, List.length_singleton] at room
      rw [isSent, noAnswer, AllNoted, outstanding_sent fresh]
      have slots : slotsOf s'.state = slotsOf (registerPendingShare s.state s.nextRpcId share) := by
        rw [state]
        rfl
      rw [slots]
      obtain ⟨before, y, after, isOld, isNew, registered⟩ :=
        registerPendingShare_cases s.state s.nextRpcId share
      have isFree : y.active = false := by
        cases registered with
        | again isActive sameId =>
            have member : y ∈ active (slotsOf s.state) :=
              List.mem_filter.mpr ⟨isOld ▸ List.mem_append_right _ (List.mem_cons_self ..), isActive⟩
            have := inv.ids _ (mem_sent_of_outstanding (inv.slots y member))
            simp only [sameId] at this
            omega
        | free isFree => exact isFree
        | evicted isActive all =>
            have := full_outstanding inv all
            omega
      intro x member
      rcases List.mem_append.mp member with old | new
      · obtain ⟨p, isP, same⟩ := noted x old
        refine ⟨p, ?_, same⟩
        rw [isOld, active_split, isFree] at isP
        rw [isNew, active_split]
        rcases List.mem_append.mp isP with isP | isP
        · exact List.mem_append_left _ isP
        · exact List.mem_append_right _ (List.mem_append_right _ isP)
      · refine ⟨⟨s.nextRpcId, true, share.difficulty⟩, ?_, (List.mem_singleton.mp new).symm⟩
        rw [isNew, active_split]
        exact List.mem_append_right _ (List.mem_append_left _ (List.mem_singleton_self _))
  | answered root id isLine noSent isAnswered isAnswer completed submits counts next =>
      have isOutstanding := once root isLine id isAnswer
      rw [toInt_id inv small isOutstanding] at completed
      rw [noSent, isAnswered, AllNoted, outstanding_answered]
      intro x member
      obtain ⟨member, other⟩ := List.mem_filter.mp member
      obtain ⟨p, isP, rfl⟩ := noted x member
      exact ⟨p, (mem_active_complete inv.tidy completed p).mpr ⟨isP, by simpa using other⟩, rfl⟩
  | other noSent noAnswer same next =>
      have slots : slotsOf s'.state = slotsOf s.state := congrArg (fun t => t.pending.toList) same
      rw [noSent, noAnswer, List.append_nil, List.append_nil, AllNoted, slots]
      exact noted

/-! ## Whole sessions -/

section Session

variable (threads opencl cuda : Nat)

theorem answered_run (es : List SessionEvent)
    (once : AnswersOnce (sessionInitial threads opencl cuda) es)
    (small : (sessionRun (sessionInitial threads opencl cuda) es).1.nextRpcId < 2 ^ 31) :
    Answered (sessionRun (sessionInitial threads opencl cuda) es).1
      (logOf (sessionInitial threads opencl cuda) es) := by
  induction es using List.reverseRecOn with
  | nil =>
      have none_ : active (slotsOf (sessionInitial threads opencl cuda).state) = [] := by
        simp [active, slotsOf, sessionInitial, stratumStateInit]
      exact {
        tidy := tidy_run threads opencl cuda []
        first := le_rfl
        ids := fun _ => nofun
        answered := fun _ => nofun
        nodup := List.nodup_nil
        tally := rfl
        slots := fun p member => absurd (none_ ▸ member) List.not_mem_nil }
  | append_singleton es e ih =>
      rw [sessionRun_snoc] at small ⊢
      rw [logOf_snoc]
      have small₀ : (sessionRun (sessionInitial threads opencl cuda) es).1.nextRpcId < 2 ^ 31 := by
        rw [nextRpcId_step] at small
        omega
      refine answered_step (sessionStep_submit _ e) small₀ ?_ (ih ?_ small₀)
      · intro root isLine id isAnswer
        exact once es root [] (by rw [isLine]) id isAnswer
      · intro before root after split
        exact once before root (after ++ [e]) (by rw [split]; simp)

theorem allNoted_run (es : List SessionEvent)
    (once : AnswersOnce (sessionInitial threads opencl cuda) es)
    (small : (sessionRun (sessionInitial threads opencl cuda) es).1.nextRpcId < 2 ^ 31)
    (room : NeverFull (sessionInitial threads opencl cuda) es) :
    AllNoted (sessionRun (sessionInitial threads opencl cuda) es).1
      (logOf (sessionInitial threads opencl cuda) es) := by
  induction es using List.reverseRecOn with
  | nil => exact fun _ => nofun
  | append_singleton es e ih =>
      have space := room (es ++ [e]) [] (List.append_nil _).symm
      rw [sessionRun_snoc] at small ⊢
      rw [logOf_snoc] at space ⊢
      have small₀ : (sessionRun (sessionInitial threads opencl cuda) es).1.nextRpcId < 2 ^ 31 := by
        rw [nextRpcId_step] at small
        omega
      have once₀ : AnswersOnce (sessionInitial threads opencl cuda) es := by
        intro before root after split
        exact once before root (after ++ [e]) (by rw [split]; simp)
      have room₀ : NeverFull (sessionInitial threads opencl cuda) es := by
        intro before after split
        exact room before (after ++ [e]) (by rw [split]; simp)
      refine allNoted_step (sessionStep_submit _ e) small₀ ?_
        (answered_run threads opencl cuda es once₀ small₀) space (ih once₀ small₀ room₀)
      intro root isLine id isAnswer
      exact once es root [] (by rw [isLine]) id isAnswer

/-- An answer to a submission that has its slot is matched with that slot. -/
theorem answer_matched {s : Session} {log : Log} (inv : Answered s log) (noted : AllNoted s log)
    (small : s.nextRpcId < 2 ^ 31) {root : Option Json} {id : Int} (isAnswer : answerOf root = some id)
    (isOutstanding : id ∈ log.outstanding.map Prod.fst) :
    (id, (sessionStep s (.line root)).1.state.lastResultDifficulty) ∈ log.sent := by
  cases sessionStep_submit s (.line root) with
  | submitted share isSent => cases isSent
  | other noSent noAnswer => simp [answeredBy, isAnswer] at noAnswer
  | answered root' id' isLine noSent isAnswered isAnswer' completed =>
      cases isLine
      cases isAnswer.symm.trans isAnswer'
      rw [toInt_id inv small isOutstanding] at completed
      obtain ⟨x, isX, rfl⟩ := List.mem_map.mp isOutstanding
      obtain ⟨p, isP, rfl⟩ := noted x isX
      cases completed with
      | found before y after slots slots' isActive sameId count difficulty =>
          have member : y ∈ active (slotsOf s.state) :=
            List.mem_filter.mpr ⟨slots ▸ List.mem_append_right _ (List.mem_cons_self ..), isActive⟩
          rw [difficulty, ← sameId]
          exact mem_sent_of_outstanding (inv.slots y member)
      | absent none_ => exact absurd rfl (none_ p isP)

/-- **Submissions are accounted for.**  In every session `pending_count` is the number of
active slots, at most 64, and active slots have different ids.  If the pool answers each
submission at most once and nothing else, and the ids stay in range, then every
submission was accepted, rejected or is outstanding, and active slots are outstanding
ones.  If moreover at most 64 were ever outstanding, the active slots are all of them,
and each answer is matched with the difficulty of its own share. -/
theorem submissions_accounted (es : List SessionEvent) :
    let s := (sessionRun (sessionInitial threads opencl cuda) es).1
    let log := logOf (sessionInitial threads opencl cuda) es
    let ids := (active (slotsOf s.state)).map PendingShare.id
    (s.state.pendingCount = ids.length ∧ s.state.pendingCount ≤ 64 ∧ ids.Nodup) ∧
      (AnswersOnce (sessionInitial threads opencl cuda) es →
        (flushedOf (sessionRun (sessionInitial threads opencl cuda) es).2).length < 2 ^ 31 - 4 →
        s.state.submitCount =
            s.state.acceptCount + s.state.rejectCount + log.outstanding.length ∧
          (∀ id ∈ ids, id ∈ log.outstanding.map Prod.fst) ∧
          (NeverFull (sessionInitial threads opencl cuda) es →
            (∀ id, id ∈ ids ↔ id ∈ log.outstanding.map Prod.fst) ∧
            ∀ before root after id, es = before ++ .line root :: after → answerOf root = some id →
              (id, (sessionStep (sessionRun (sessionInitial threads opencl cuda) before).1
                (.line root)).1.state.lastResultDifficulty) ∈
                  (logOf (sessionInitial threads opencl cuda) before).sent)) := by
  intro s log ids
  have tidy : Tidy s.state := tidy_run threads opencl cuda es
  have count : s.state.pendingCount = ids.length := by
    rw [tidy.count, List.length_map]
  have atMost : ids.length ≤ 64 := by
    rw [List.length_map]
    exact (List.length_filter_le _ _).trans (length_slotsOf s.state).le
  refine ⟨⟨count, by rw [count]; exact_mod_cast atMost, tidy.ids⟩, fun once few => ?_⟩
  have small : s.nextRpcId < 2 ^ 31 := by
    rw [nextRpcId_run]
    omega
  have inv := answered_run threads opencl cuda es once small
  have within : ∀ id ∈ ids, id ∈ log.outstanding.map Prod.fst := by
    intro id member
    obtain ⟨p, isP, rfl⟩ := List.mem_map.mp member
    exact List.mem_map.mpr ⟨_, inv.slots p isP, rfl⟩
  refine ⟨inv.tally, within, fun room => ⟨fun id => ⟨within id, fun member => ?_⟩, ?_⟩⟩
  · obtain ⟨x, isX, rfl⟩ := List.mem_map.mp member
    obtain ⟨p, isP, rfl⟩ := allNoted_run threads opencl cuda es once small room x isX
    exact List.mem_map.mpr ⟨p, isP, rfl⟩
  · intro before root after id split isAnswer
    have once₀ : AnswersOnce (sessionInitial threads opencl cuda) before := by
      intro before' root' after' split'
      exact once before' root' (after' ++ .line root :: after) (by rw [split, split']; simp)
    have room₀ : NeverFull (sessionInitial threads opencl cuda) before := by
      intro before' after' split'
      exact room before' (after' ++ .line root :: after) (by rw [split, split']; simp)
    have small₀ : (sessionRun (sessionInitial threads opencl cuda) before).1.nextRpcId < 2 ^ 31 := by
      have total := nextRpcId_run threads opencl cuda es
      have part := nextRpcId_run threads opencl cuda before
      have more : (flushedOf (sessionRun (sessionInitial threads opencl cuda) before).2).length ≤
          (flushedOf (sessionRun (sessionInitial threads opencl cuda) es).2).length := by
        rw [split, sessionRun, sessionRun, Machine.exec_append, flushedOf_append, List.length_append]
        exact Nat.le_add_right _ _
      omega
    exact answer_matched (answered_run threads opencl cuda before once₀ small₀)
      (allNoted_run threads opencl cuda before once₀ small₀ room₀) small₀ isAnswer
      (once before root after split id isAnswer)

end Session

/-- Two shares are submitted, and the second is answered first. -/
theorem submissions_accounted_example :
    let found : Word → SessionEvent := fun word => .worker .cuda 16 fun _ _ _ start _ =>
      ([(start, Vector.replicate 8 word)], true)
    let accept : Int → SessionEvent := fun id =>
      .line (some (.object [("id", .int id), ("result", .bool true), ("error", .null)]))
    let before : List SessionEvent := [.line subscribeLine, .line notifyLine, found 1, found 1, found 1,
      .flush true, found 2, found 2, found 2, found 2, .flush true]
    let es := before ++ [accept 5]
    let s := (sessionRun (sessionInitial 0 0 1) es).1
    let log := logOf (sessionInitial 0 0 1) es
    (AnswersOnce (sessionInitial 0 0 1) es ∧ NeverFull (sessionInitial 0 0 1) es) ∧
      log.sent.map Prod.fst = [4, 5] ∧ log.answered = [5] ∧
      s.state.submitCount = s.state.acceptCount + s.state.rejectCount + 1 ∧
      (active (slotsOf s.state)).map PendingShare.id = [4] ∧
      (5, s.state.lastResultDifficulty) ∈ (logOf (sessionInitial 0 0 1) before).sent := by
  intro found accept before es s log
  have once : AnswersOnce (sessionInitial 0 0 1) es := by decide +kernel
  have never : NeverFull (sessionInitial 0 0 1) es := by decide +kernel
  have few : (flushedOf (sessionRun (sessionInitial 0 0 1) es).2).length < 2 ^ 31 - 4 := by
    decide +kernel
  obtain ⟨tally, -, exact_⟩ := (submissions_accounted 0 0 1 es).2 once few
  have outstanding : log.outstanding.map Prod.fst = [4] := by decide +kernel
  have one : log.outstanding.length = 1 := by simpa using congrArg List.length outstanding
  refine ⟨⟨once, never⟩, by decide +kernel, by decide +kernel, ?_, by decide +kernel, ?_⟩
  · rw [tally, one]
  · have last : s = (sessionStep (sessionRun (sessionInitial 0 0 1) before).1 (accept 5)).1 := by
      simp only [s, es, sessionRun, Machine.exec_snoc, Machine.extend]
    rw [last]
    exact (exact_ never).2 before _ [] 5 rfl rfl

end BtcRig.Stratum.Pending
