/-
# BtcRig.Theory.Ownership — threads, the resources they use, and the log of both

A program starts and joins threads, makes and destroys resources, and in the end frees
what they all share.  A thread may be started with a resource that it uses until it is
joined.

`Books log running live` says that every event of `log` was legal when it happened, and
which threads run and which resources live after it.  A program keeps it one event at a
time; what the whole log then says is read off:

* `Books.nodup_started` and its companions — nothing is started, joined, made or
  destroyed twice;
* `Books.joined_perm`, `Books.destroyed_perm` — once nothing runs, what was joined is
  what was started, and once nothing lives, what was destroyed is what was made;
* `Books.joined_before_destroyed`, `Books.joined_before_freed` — the order.
-/
import Mathlib

namespace BtcRig.Theory.Ownership

set_option autoImplicit false

variable {W D : Type}

inductive Event (W D : Type)
  | started (worker : W) (resource : Option D)
  | joined (worker : W)
  | made (resource : D)
  | destroyed (resource : D)
  | freed
deriving DecidableEq

def startedOf (log : List (Event W D)) : List W :=
  log.filterMap fun e => match e with | .started worker _ => some worker | _ => none

def joinedOf (log : List (Event W D)) : List W :=
  log.filterMap fun e => match e with | .joined worker => some worker | _ => none

def madeOf (log : List (Event W D)) : List D :=
  log.filterMap fun e => match e with | .made resource => some resource | _ => none

def destroyedOf (log : List (Event W D)) : List D :=
  log.filterMap fun e => match e with | .destroyed resource => some resource | _ => none

/-- Threads run with the resource that they were started with. -/
inductive Books : List (Event W D) → Set (W × Option D) → Set D → Prop
  | nil : Books [] ∅ ∅
  | start {log : List (Event W D)} {running : Set (W × Option D)} {live : Set D} {worker : W}
      {resource : Option D} (books : Books log running live)
      (fresh : ∀ other, .started worker other ∉ log) (held : ∀ d ∈ resource, d ∈ live) :
      Books (log ++ [.started worker resource]) (insert (worker, resource) running) live
  | join {log : List (Event W D)} {running : Set (W × Option D)} {live : Set D} {worker : W}
      {resource : Option D} (books : Books log running live) (runs : (worker, resource) ∈ running) :
      Books (log ++ [.joined worker]) {thread ∈ running | thread.1 ≠ worker} live
  | make {log : List (Event W D)} {running : Set (W × Option D)} {live : Set D} {resource : D}
      (books : Books log running live) (fresh : .made resource ∉ log) :
      Books (log ++ [.made resource]) running (insert resource live)
  | destroy {log : List (Event W D)} {running : Set (W × Option D)} {live : Set D} {resource : D}
      (books : Books log running live) (lives : resource ∈ live)
      (idle : ∀ worker, (worker, some resource) ∉ running) :
      Books (log ++ [.destroyed resource]) running (live \ {resource})
  | free {log : List (Event W D)} {live : Set D} (books : Books log ∅ live) :
      Books (log ++ [.freed]) ∅ live

section Reading

variable {log : List (Event W D)} {running : Set (W × Option D)} {live : Set D}

theorem mem_read {X : Type} {read : Event W D → Option X} {write : X → Event W D}
    (inverse : ∀ e x, read e = some x ↔ e = write x) {x : X} :
    x ∈ log.filterMap read ↔ write x ∈ log := by
  simp [List.mem_filterMap, inverse]

@[simp] theorem mem_startedOf {worker : W} :
    worker ∈ startedOf log ↔ ∃ resource, .started worker resource ∈ log := by
  simp only [startedOf, List.mem_filterMap]
  constructor
  · rintro ⟨e, member, isWorker⟩
    cases e with
    | started w r => exact ⟨r, Option.some.inj isWorker ▸ member⟩
    | _ => cases isWorker
  · rintro ⟨resource, member⟩
    exact ⟨_, member, rfl⟩

@[simp] theorem mem_joinedOf {worker : W} : worker ∈ joinedOf log ↔ .joined worker ∈ log :=
  mem_read fun e x => by cases e <;> simp

@[simp] theorem mem_madeOf {resource : D} : resource ∈ madeOf log ↔ .made resource ∈ log :=
  mem_read fun e x => by cases e <;> simp

@[simp] theorem mem_destroyedOf {resource : D} :
    resource ∈ destroyedOf log ↔ .destroyed resource ∈ log :=
  mem_read fun e x => by cases e <;> simp

/-- What runs and what lives, read off the log. -/
structure Consistent (log : List (Event W D)) (running : Set (W × Option D)) (live : Set D) : Prop where
  running_iff : ∀ worker resource, (worker, resource) ∈ running ↔
    .started worker resource ∈ log ∧ .joined worker ∉ log
  live_iff : ∀ resource, resource ∈ live ↔ .made resource ∈ log ∧ .destroyed resource ∉ log
  joined_started : ∀ worker, .joined worker ∈ log → ∃ resource, .started worker resource ∈ log
  destroyed_made : ∀ resource, .destroyed resource ∈ log → .made resource ∈ log

theorem Books.consistent (books : Books log running live) : Consistent log running live := by
  induction books with
  | nil => exact ⟨by simp, by simp, by simp, by simp⟩
  | @start log running live worker resource _ fresh _ ih =>
      have unjoined : .joined worker ∉ log := fun joined =>
        (ih.joined_started worker joined).elim fresh
      refine ⟨fun w r => ?_, fun d => ?_, fun w joined => ?_, fun d => ?_⟩
      · simp only [Set.mem_insert_iff, Prod.mk.injEq, ih.running_iff, List.mem_append,
          List.mem_singleton, Event.started.injEq, reduceCtorEq, or_false]
        constructor
        · rintro (⟨rfl, rfl⟩ | ⟨started, runs⟩)
          · exact ⟨.inr ⟨rfl, rfl⟩, unjoined⟩
          · exact ⟨.inl started, runs⟩
        · rintro ⟨started | new, runs⟩
          · exact .inr ⟨started, runs⟩
          · exact .inl new
      · simp [ih.live_iff]
      · obtain ⟨r, started⟩ := ih.joined_started w (by simpa using joined)
        exact ⟨r, List.mem_append_left _ started⟩
      · simpa using ih.destroyed_made d
  | @join log running live worker resource _ runs ih =>
      refine ⟨fun w r => ?_, fun d => ?_, fun w joined => ?_, fun d => ?_⟩
      · simp only [Set.mem_ofPred_eq, ih.running_iff, List.mem_append, List.mem_singleton,
          Event.joined.injEq, reduceCtorEq, or_false, not_or]
        exact and_assoc
      · simp [ih.live_iff]
      · rcases List.mem_append.mp joined with earlier | new
        · obtain ⟨r, started⟩ := ih.joined_started w earlier
          exact ⟨r, List.mem_append_left _ started⟩
        · have same : w = worker := by simpa using new
          exact ⟨resource, List.mem_append_left _ (same ▸ ((ih.running_iff _ _).mp runs).1)⟩
      · simpa using ih.destroyed_made d
  | @make log running live resource _ fresh ih =>
      have undestroyed : .destroyed resource ∉ log := fun destroyed =>
        fresh (ih.destroyed_made resource destroyed)
      refine ⟨fun w r => ?_, fun d => ?_, fun w joined => ?_, fun d destroyed => ?_⟩
      · simp [ih.running_iff]
      · simp only [Set.mem_insert_iff, ih.live_iff, List.mem_append, List.mem_singleton,
          Event.made.injEq, reduceCtorEq, or_false]
        constructor
        · rintro (rfl | ⟨made, lives⟩)
          · exact ⟨.inr rfl, undestroyed⟩
          · exact ⟨.inl made, lives⟩
        · rintro ⟨made | new, lives⟩
          · exact .inr ⟨made, lives⟩
          · exact .inl new
      · obtain ⟨r, started⟩ := ih.joined_started w (by simpa using joined)
        exact ⟨r, List.mem_append_left _ started⟩
      · exact List.mem_append_left _ (ih.destroyed_made d (by simpa using destroyed))
  | @destroy log running live resource _ lives _ ih =>
      refine ⟨fun w r => ?_, fun d => ?_, fun w joined => ?_, fun d destroyed => ?_⟩
      · simp [ih.running_iff]
      · simp only [Set.mem_sdiff, Set.mem_singleton_iff, ih.live_iff, List.mem_append,
          List.mem_singleton, Event.destroyed.injEq, reduceCtorEq, or_false, not_or]
        exact and_assoc
      · obtain ⟨r, started⟩ := ih.joined_started w (by simpa using joined)
        exact ⟨r, List.mem_append_left _ started⟩
      · rcases List.mem_append.mp destroyed with earlier | new
        · exact List.mem_append_left _ (ih.destroyed_made d earlier)
        · have same : d = resource := by simpa using new
          exact List.mem_append_left _ (same ▸ ((ih.live_iff _).mp lives).1)
  | @free log live _ ih =>
      refine ⟨fun w r => ?_, fun d => ?_, fun w joined => ?_, fun d => ?_⟩
      · simpa using ih.running_iff w r
      · simp [ih.live_iff]
      · obtain ⟨r, started⟩ := ih.joined_started w (by simpa using joined)
        exact ⟨r, List.mem_append_left _ started⟩
      · simpa using ih.destroyed_made d

/-! ## Once -/

theorem nodup_snoc {X : Type} {xs : List X} {x : X} (nodup : xs.Nodup) (new : x ∉ xs) :
    (xs ++ [x]).Nodup :=
  nodup.append (List.nodup_singleton x) (by simpa using new)

theorem Books.nodup_started (books : Books log running live) : (startedOf log).Nodup := by
  induction books with
  | nil => exact List.nodup_nil
  | start _ fresh _ ih =>
      rw [startedOf, List.filterMap_append]
      exact nodup_snoc ih fun old => (mem_startedOf.mp old).elim fresh
  | join _ _ ih | make _ _ ih | destroy _ _ _ ih | free _ ih =>
      rw [startedOf, List.filterMap_append]
      simpa [startedOf] using ih

theorem Books.nodup_joined (books : Books log running live) : (joinedOf log).Nodup := by
  induction books with
  | nil => exact List.nodup_nil
  | join books runs ih =>
      rw [joinedOf, List.filterMap_append]
      exact nodup_snoc ih fun old =>
        ((books.consistent.running_iff _ _).mp runs).2 (mem_joinedOf.mp old)
  | start _ _ _ ih | make _ _ ih | destroy _ _ _ ih | free _ ih =>
      rw [joinedOf, List.filterMap_append]
      simpa [joinedOf] using ih

theorem Books.nodup_made (books : Books log running live) : (madeOf log).Nodup := by
  induction books with
  | nil => exact List.nodup_nil
  | make _ fresh ih =>
      rw [madeOf, List.filterMap_append]
      exact nodup_snoc ih fun old => fresh (mem_madeOf.mp old)
  | start _ _ _ ih | join _ _ ih | destroy _ _ _ ih | free _ ih =>
      rw [madeOf, List.filterMap_append]
      simpa [madeOf] using ih

theorem Books.nodup_destroyed (books : Books log running live) : (destroyedOf log).Nodup := by
  induction books with
  | nil => exact List.nodup_nil
  | destroy books lives _ ih =>
      rw [destroyedOf, List.filterMap_append]
      exact nodup_snoc ih fun old =>
        ((books.consistent.live_iff _).mp lives).2 (mem_destroyedOf.mp old)
  | start _ _ _ ih | join _ _ ih | make _ _ ih | free _ ih =>
      rw [destroyedOf, List.filterMap_append]
      simpa [destroyedOf] using ih

/-- Once nothing runs, every started thread has been joined, and no other. -/
theorem Books.joined_perm (books : Books log ∅ live) : (joinedOf log).Perm (startedOf log) := by
  rw [List.perm_ext_iff_of_nodup books.nodup_joined books.nodup_started]
  intro worker
  rw [mem_joinedOf, mem_startedOf]
  refine ⟨books.consistent.joined_started worker, fun ⟨resource, started⟩ => ?_⟩
  by_contra unjoined
  exact (books.consistent.running_iff worker resource).mpr ⟨started, unjoined⟩

/-- Once nothing lives, every made resource has been destroyed, and no other. -/
theorem Books.destroyed_perm (books : Books log running ∅) : (destroyedOf log).Perm (madeOf log) := by
  rw [List.perm_ext_iff_of_nodup books.nodup_destroyed books.nodup_made]
  intro resource
  rw [mem_destroyedOf, mem_madeOf]
  refine ⟨books.consistent.destroyed_made resource, fun made => ?_⟩
  by_contra undestroyed
  exact (books.consistent.live_iff resource).mpr ⟨made, undestroyed⟩

/-! ## Order -/

/-- An event of a longer log is the new one or an earlier one. -/
theorem snoc_split {X : Type} {log before after : List X} {e x : X}
    (split : log ++ [e] = before ++ x :: after) :
    (after = [] ∧ before = log ∧ x = e) ∨ ∃ after', after = after' ++ [e] ∧ log = before ++ x :: after' := by
  rcases List.eq_nil_or_concat after with rfl | ⟨after', last, rfl⟩
  · obtain ⟨isLog, isEvent⟩ := List.append_inj' split rfl
    exact .inl ⟨rfl, isLog.symm, (List.singleton_inj.mp isEvent).symm⟩
  · have regrouped : log ++ [e] = (before ++ x :: after') ++ [last] := by simpa using split
    obtain ⟨isLog, isEvent⟩ := List.append_inj' regrouped rfl
    exact .inr ⟨after', by rw [List.singleton_inj.mp isEvent, List.concat_eq_append], isLog⟩

/-- The event that ends a longer log is not the one looked for, so that one is earlier. -/
theorem split_earlier {X : Type} {log before after : List X} {e x : X}
    (split : log ++ [e] = before ++ x :: after) (other : x ≠ e) :
    ∃ after', log = before ++ x :: after' := by
  rcases snoc_split split with ⟨-, -, same⟩ | ⟨after', -, earlier⟩
  · exact absurd same other
  · exact ⟨after', earlier⟩

/-- A resource is destroyed after every thread that was started with it, before or since,
has been joined. -/
theorem Books.joined_before_destroyed (books : Books log running live) {resource : D} :
    ∀ {before after : List (Event W D)}, log = before ++ .destroyed resource :: after →
      ∀ worker, .started worker (some resource) ∈ log → .joined worker ∈ before := by
  induction books with
  | nil => simp
  | @start log running live worker _ books _ held ih =>
      intro before after split w started
      obtain ⟨after', earlier⟩ := split_earlier split (by simp)
      rcases List.mem_append.mp started with old | new
      · exact ih earlier w old
      · obtain ⟨rfl, rfl⟩ := Event.started.inj (List.mem_singleton.mp new)
        have undestroyed := ((books.consistent.live_iff resource).mp (held resource rfl)).2
        exact absurd (by simp [earlier]) undestroyed
  | join _ _ ih | make _ _ ih | free _ ih =>
      intro before after split w started
      obtain ⟨after', earlier⟩ := split_earlier split (by simp)
      exact ih earlier w (by simpa using started)
  | @destroy log running live other books _ idle ih =>
      intro before after split w started
      have old : .started w (some resource) ∈ log := by simpa using started
      rcases snoc_split split with ⟨-, rfl, same⟩ | ⟨after', -, earlier⟩
      · obtain rfl := Event.destroyed.inj same
        by_contra unjoined
        exact idle w ((books.consistent.running_iff w _).mpr ⟨old, unjoined⟩)
      · exact ih earlier w old

/-- What is freed is freed after every thread started so far has been joined. -/
theorem Books.joined_before_freed (books : Books log running live) :
    ∀ {before after : List (Event W D)}, log = before ++ .freed :: after →
      ∀ worker resource, .started worker resource ∈ before → .joined worker ∈ before := by
  induction books with
  | nil => simp
  | start _ _ _ ih | join _ _ ih | make _ _ ih | destroy _ _ _ ih =>
      intro before after split
      obtain ⟨after', earlier⟩ := split_earlier split (by simp)
      exact ih earlier
  | @free log live books ih =>
      intro before after split w resource started
      rcases snoc_split split with ⟨-, rfl, -⟩ | ⟨after', -, earlier⟩
      · by_contra unjoined
        exact (books.consistent.running_iff w resource).mpr ⟨started, unjoined⟩
      · exact ih earlier w resource started

end Reading

end BtcRig.Theory.Ownership
