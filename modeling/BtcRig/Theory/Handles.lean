/-
# BtcRig.Theory.Handles — resources that are numbered as they are opened

A table hands out handles of several kinds, each with the next number, and logs what is
opened and closed.  `Holds table live` says that the log is legal so far and which
handles are open; a program keeps it one call at a time.

* `holds_open`, `holds_close`, `holds_closeAll` — the rules of the calls;
* `Holds.balanced` — once nothing is open, everything opened was closed, once;
* `Owned` — the same with the open handles in a list, for a program whose threads each
  own a part: `Owned.open`, `Owned.closeAll`, `Owned.perm`;
* `flatMap_perm_set` — one owner's part is exchanged and the others' stay.
-/
import BtcRig.Theory.Ownership

namespace BtcRig.Theory.Handles

open BtcRig.Theory.Ownership

set_option autoImplicit false

variable {K : Type}

abbrev Handle (K : Type) := K × Nat

structure Table (K : Type) where
  next : Nat
  log : List (Event Empty (Handle K))

def Table.empty : Table K := ⟨0, []⟩

/-- The handle that is opened next. -/
def Table.fresh (t : Table K) (kind : K) : Handle K := (kind, t.next)

def Table.opened (t : Table K) (kind : K) : Table K := ⟨t.next + 1, t.log ++ [.made (t.fresh kind)]⟩

def Table.close (t : Table K) (h : Handle K) : Table K := { t with log := t.log ++ [.destroyed h] }

/-- Close some handles, in order. -/
def Table.closeAll (t : Table K) (hs : List (Handle K)) : Table K := hs.foldl Table.close t

structure Holds (t : Table K) (live : Set (Handle K)) : Prop where
  books : Books t.log ∅ live
  numbered : ∀ h, .made h ∈ t.log → h.2 < t.next

section Rules

variable {t : Table K} {live : Set (Handle K)}

theorem holds_empty : Holds (Table.empty : Table K) ∅ := ⟨.nil, by simp [Table.empty]⟩

/-- An open handle has a number that was used. -/
theorem Holds.below (holds : Holds t live) {h : Handle K} (isLive : h ∈ live) : h.2 < t.next :=
  holds.numbered h ((holds.books.consistent.live_iff h).mp isLive).1

theorem Holds.notMem_of_le (holds : Holds t live) {h : Handle K} (new : t.next ≤ h.2) : h ∉ live :=
  fun isLive => absurd (holds.below isLive) (Nat.not_lt.mpr new)

/-- A new handle is live. -/
theorem holds_open (holds : Holds t live) (kind : K) :
    Holds (t.opened kind) (insert (t.fresh kind) live) := by
  refine ⟨.make holds.books fun old => ?_, fun h member => ?_⟩
  · exact absurd (holds.numbered _ old) (Nat.lt_irrefl _)
  · rcases List.mem_append.mp member with old | new
    · exact Nat.lt_succ_of_lt (holds.numbered h old)
    · rw [Event.made.inj (List.mem_singleton.mp new)]
      exact Nat.lt_succ_self _

/-- A closed one is not. -/
theorem holds_close (holds : Holds t live) {h : Handle K} (isLive : h ∈ live) :
    Holds (t.close h) (live \ {h}) := by
  refine ⟨.destroy holds.books isLive fun worker => worker.elim, fun h' member => ?_⟩
  rcases List.mem_append.mp member with old | new
  · exact holds.numbered h' old
  · simp at new

theorem holds_close_insert {h : Handle K} (holds : Holds t (insert h live)) (new : h ∉ live) :
    Holds (t.close h) live := by
  have closed := holds_close holds (Set.mem_insert h live)
  rwa [Set.insert_sdiff_self_of_notMem new] at closed

theorem holds_closeAll (hs : List (Handle K)) {t : Table K} {live : Set (Handle K)}
    (holds : Holds t live) (distinct : hs.Nodup) (isLive : ∀ h ∈ hs, h ∈ live) :
    Holds (t.closeAll hs) (live \ {h | h ∈ hs}) := by
  induction hs generalizing t live with
  | nil => simpa [Table.closeAll] using holds
  | cons h hs ih =>
      obtain ⟨absent, distinct⟩ := List.nodup_cons.mp distinct
      have first := holds_close holds (isLive h List.mem_cons_self)
      have rest := ih first distinct fun h' member =>
        ⟨isLive h' (List.mem_cons_of_mem _ member), fun same => absent (same ▸ member)⟩
      have both : live \ {h' | h' ∈ h :: hs} = (live \ {h}) \ {h' | h' ∈ hs} := by
        ext h'
        simp only [List.mem_cons, Set.mem_sdiff, Set.mem_ofPred_eq, Set.mem_singleton_iff, not_or]
        exact and_assoc.symm
      rw [both]
      exact rest

/-- Nothing is closed twice, or before it was opened. -/
theorem Holds.closed_once (holds : Holds t live) :
    (destroyedOf t.log).Nodup ∧ ∀ h ∈ destroyedOf t.log, h ∈ madeOf t.log :=
  ⟨holds.books.nodup_destroyed, fun h member =>
    mem_madeOf.mpr (holds.books.consistent.destroyed_made h (mem_destroyedOf.mp member))⟩

/-- When nothing is live, everything made was destroyed once. -/
theorem Holds.balanced (holds : Holds t ∅) :
    (destroyedOf t.log).Nodup ∧ (destroyedOf t.log).Perm (madeOf t.log) :=
  ⟨holds.books.nodup_destroyed, holds.books.destroyed_perm⟩

end Rules

/-! ## Handles and their owners -/

/-- The open handles, each once. -/
structure Owned (t : Table K) (owned : List (Handle K)) : Prop where
  holds : Holds t {h | h ∈ owned}
  nodup : owned.Nodup

section Owners

variable {t : Table K} {hs hs' rest : List (Handle K)}

theorem owned_empty : Owned (Table.empty : Table K) [] :=
  ⟨by simpa using holds_empty, List.nodup_nil⟩

theorem Owned.perm (owned : Owned t hs) (same : hs.Perm hs') : Owned t hs' := by
  refine ⟨?_, same.nodup_iff.mp owned.nodup⟩
  have members : {h | h ∈ hs'} = {h | h ∈ hs} := Set.ext fun _ => same.mem_iff.symm
  rw [members]
  exact owned.holds

/-- Who opens a handle owns it. -/
theorem Owned.open (owned : Owned t hs) (kind : K) : Owned (t.opened kind) (t.fresh kind :: hs) := by
  refine ⟨?_, List.nodup_cons.mpr ⟨owned.holds.notMem_of_le le_rfl, owned.nodup⟩⟩
  convert holds_open owned.holds kind using 1
  ext h
  simp

/-- Closing all one owns leaves what others own. -/
theorem Owned.closeAll (owned : Owned t (hs ++ rest)) : Owned (t.closeAll hs) rest := by
  obtain ⟨distinct, distinct', apart⟩ := List.nodup_append'.mp owned.nodup
  refine ⟨?_, distinct'⟩
  convert holds_closeAll hs owned.holds distinct fun h member => List.mem_append_left _ member using 1
  ext h
  simp only [Set.mem_ofPred_eq, Set.mem_sdiff, List.mem_append]
  exact ⟨fun member => ⟨.inr member, fun first => apart first member⟩,
    fun ⟨either, notFirst⟩ => either.resolve_left notFirst⟩

theorem Owned.close {h : Handle K} (owned : Owned t (h :: rest)) : Owned (t.close h) rest := by
  have front : Owned t ([h] ++ rest) := owned
  exact front.closeAll

/-- One of many owners, and what it is exchanged for. -/
theorem flatMap_perm_set {A B : Type} (f : A → List B) {as : List A} {i : Nat} {a : A}
    (found : as[i]? = some a) (a' : A) :
    (as.flatMap f).Perm (f a ++ (as.eraseIdx i).flatMap f) ∧
      ((as.set i a').flatMap f).Perm (f a' ++ (as.eraseIdx i).flatMap f) := by
  obtain ⟨inRange, rfl⟩ := List.getElem?_eq_some_iff.mp found
  exact ⟨((List.getElem_cons_eraseIdx_perm inRange).symm.flatMap_right f),
    ((List.set_perm_cons_eraseIdx inRange a').flatMap_right f)⟩

end Owners

end BtcRig.Theory.Handles
