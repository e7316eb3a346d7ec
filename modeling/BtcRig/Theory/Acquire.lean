/-
# BtcRig.Theory.Acquire — an object made in stages, and given back when one fails

A constructor fills the pointers of an object one call after another.  A call that fails
leaves its pointer null, and the constructor then runs the destructor, which closes what
the other pointers hold, in an order of its own.

* `Holding`: the open handles are those of the pointers that are set and `rest`, which
  belongs to others;
* `yields_acquire`, `yields_require`, `Yields.bind`: the rules of the stages, which say
  when they succeed, too;
* `Holding.release`, `Holding.clear`: the destructor, and a part given up for a new try.
-/
import BtcRig.Theory.Handles

namespace BtcRig.Theory.Acquire

open BtcRig.Theory.Handles

set_option autoImplicit false

variable {K : Type}

/-- The pointers of an object, by what they point to; `none` is null. -/
abbrev Pointers (K : Type) := K → Option Nat

/-- What the pointers hold, in the order of the destructor. -/
def Pointers.handles (order : List K) (p : Pointers K) : List (Handle K) :=
  order.filterMap fun kind => (p kind).map (kind, ·)

structure Object (K : Type) where
  table : Table K
  pointers : Pointers K

def Object.make [DecidableEq K] (s : Object K) (kind : K) : Object K :=
  ⟨s.table.opened kind, Function.update s.pointers kind (some s.table.next)⟩

/-- The destructor. -/
def Object.release (order : List K) (s : Object K) : Table K :=
  s.table.closeAll (s.pointers.handles order)

/-- Close some of the pointers and set them to null. -/
def Object.clear [DecidableEq K] (kinds : List K) (s : Object K) : Object K :=
  ⟨s.table.closeAll (s.pointers.handles kinds),
    fun kind => if kind ∈ kinds then none else s.pointers kind⟩

/-- A stage that fills a pointer. -/
def acquire [DecidableEq K] (made : Bool) (kind : K) (s : Object K) :
    Except (Object K) (Object K) :=
  if made then .ok (s.make kind) else .error s

/-- A stage that only has to succeed. -/
def require (good : Bool) (s : Object K) : Except (Object K) (Object K) :=
  if good then .ok s else .error s

/-! ## The handles of pointers -/

section Lists

variable {order kinds : List K} {p : Pointers K}

theorem handles_perm {order' : List K} (same : order.Perm order') :
    (p.handles order).Perm (p.handles order') := same.filterMap _

theorem handles_append (kinds kinds' : List K) :
    p.handles (kinds ++ kinds') = p.handles kinds ++ p.handles kinds' := List.filterMap_append

theorem handles_congr {p' : Pointers K} (same : ∀ kind ∈ order, p' kind = p kind) :
    p'.handles order = p.handles order :=
  List.filterMap_congr fun kind member => by rw [same kind member]

/-- A pointer that is set adds one handle. -/
theorem handles_update [DecidableEq K] (distinct : order.Nodup) {kind : K} (listed : kind ∈ order)
    (unset : p kind = none) (n : Nat) :
    (Pointers.handles order (Function.update p kind (some n))).Perm ((kind, n) :: p.handles order) := by
  obtain ⟨front, back, rfl⟩ := List.append_of_mem listed
  obtain ⟨-, back_distinct, apart⟩ := List.nodup_append.mp distinct
  have not_front : ∀ other ∈ front, Function.update p kind (some n) other = p other := by
    intro other member
    exact Function.update_of_ne (apart other member kind List.mem_cons_self) _ _
  have not_back : ∀ other ∈ back, Function.update p kind (some n) other = p other := by
    intro other member
    refine Function.update_of_ne (fun same => ?_) _ _
    exact (List.nodup_cons.mp back_distinct).1 (same ▸ member)
  have filled : Pointers.handles (kind :: back) (Function.update p kind (some n)) =
      (kind, n) :: p.handles back := by
    rw [Pointers.handles, List.filterMap_cons_some (b := (kind, n)) (by simp)]
    exact congrArg _ (handles_congr not_back)
  have empty : p.handles (kind :: back) = p.handles back :=
    List.filterMap_cons_none (by rw [unset, Option.map_none])
  rw [handles_append, handles_append, handles_congr not_front, filled, empty]
  exact List.perm_middle

/-- What is held beside `kinds`. -/
theorem handles_clear [DecidableEq K] (distinct : order.Nodup) (kinds_distinct : kinds.Nodup)
    (listed : ∀ kind ∈ kinds, kind ∈ order) :
    (p.handles order).Perm (p.handles kinds ++
      Pointers.handles order fun kind => if kind ∈ kinds then none else p kind) := by
  have others : Pointers.handles order (fun kind => if kind ∈ kinds then none else p kind) =
      p.handles (order.filter fun kind => kind ∉ kinds) := by
    rw [Pointers.handles, Pointers.handles, List.filterMap_filter]
    refine List.filterMap_congr fun kind _ => ?_
    by_cases cleared : kind ∈ kinds <;> simp [cleared]
  have chosen : kinds.Perm (order.filter fun kind => kind ∈ kinds) := by
    apply (List.perm_ext_iff_of_nodup kinds_distinct (distinct.filter _)).mpr
    intro kind
    simpa using fun member => listed kind member
  have split : (order.filter (fun kind => kind ∈ kinds) ++
      order.filter fun kind => kind ∉ kinds).Perm order := by
    simpa using List.filter_append_perm (fun kind => decide (kind ∈ kinds)) order
  rw [others, ← handles_append]
  exact handles_perm (split.symm.trans (chosen.symm.append_right _))

end Lists

/-! ## The stages -/

/-- The pointers in `set` are set, and nothing else is open but `rest`. -/
structure Holding (order : List K) (rest : List (Handle K)) (set : List K) (s : Object K) : Prop where
  owned : Owned s.table (s.pointers.handles order ++ rest)
  present : ∀ kind, (s.pointers kind).isSome = true ↔ kind ∈ set

/-- Stages that fill `built` where `before` was filled.  They succeed when `good` says so, and
where they fail, something in between is filled. -/
structure Yields (order : List K) (rest : List (Handle K)) (before built : List K) (good : Prop)
    (r : Except (Object K) (Object K)) : Prop where
  ok : ∀ s, r = .ok s → Holding order rest built s
  error : ∀ s, r = .error s →
    ∃ left, Holding order rest left s ∧ (∀ kind ∈ before, kind ∈ left) ∧ ∀ kind ∈ left, kind ∈ built
  succeeds : (∃ s, r = .ok s) ↔ good
  grows : ∀ kind ∈ before, kind ∈ built

section Rules

variable {order : List K} {rest : List (Handle K)} {before built set : List K} {good : Prop}
  {s : Object K} {r : Except (Object K) (Object K)}

theorem Holding.congr {set' : List K} (holding : Holding order rest set s)
    (same : ∀ kind, kind ∈ set ↔ kind ∈ set') : Holding order rest set' s :=
  ⟨holding.owned, fun kind => (holding.present kind).trans (same kind)⟩

/-- Making what is not held yet. -/
theorem Holding.make [DecidableEq K] (holding : Holding order rest set s) (distinct : order.Nodup)
    {kind : K} (listed : kind ∈ order) (unset : kind ∉ set) :
    Holding order rest (kind :: set) (s.make kind) := by
  have null : s.pointers kind = none := by
    rw [← Option.not_isSome_iff_eq_none]
    exact fun present => unset ((holding.present kind).mp present)
  refine ⟨?_, fun other => ?_⟩
  · exact (holding.owned.open kind).perm
      ((handles_update distinct listed null s.table.next).symm.append_right rest)
  · rw [Object.make, List.mem_cons]
    by_cases same : other = kind
    · simp [same]
    · simp only [Function.update_of_ne same, holding.present, same, false_or]

/-- Releasing everything leaves what others own. -/
theorem Holding.release (holding : Holding order rest set s) : Owned (s.release order) rest :=
  holding.owned.closeAll

theorem Holding.clear [DecidableEq K] (holding : Holding order rest set s) (distinct : order.Nodup)
    {kinds : List K} (kinds_distinct : kinds.Nodup) (listed : ∀ kind ∈ kinds, kind ∈ order) :
    Holding order rest (set.filter fun kind => kind ∉ kinds) (s.clear kinds) := by
  refine ⟨?_, fun kind => ?_⟩
  · apply Owned.closeAll
    rw [← List.append_assoc]
    exact holding.owned.perm ((handles_clear distinct kinds_distinct listed).append_right rest)
  · rw [List.mem_filter, ← holding.present, Object.clear]
    by_cases cleared : kind ∈ kinds <;> simp [cleared]

theorem Yields.congr {good' : Prop} (yields : Yields order rest before built good r)
    (same : good ↔ good') : Yields order rest before built good' r :=
  { yields with succeeds := yields.succeeds.trans same }

/-- One stage after another. -/
theorem Yields.bind {after : List K} {good' : Prop} {f : Object K → Except (Object K) (Object K)}
    (first : Yields order rest before built good r)
    (next : ∀ s, Holding order rest built s → Yields order rest built after good' (f s))
    (grows : ∀ kind ∈ built, kind ∈ after) :
    Yields order rest before after (good ∧ good') (r >>= f) where
  ok s same := by
    cases r with
    | error s₁ => exact nomatch same
    | ok s₁ => exact (next s₁ (first.ok s₁ rfl)).ok s same
  error s same := by
    cases r with
    | error s₁ =>
        obtain ⟨left, holding, low, high⟩ := first.error s₁ rfl
        have failed : s₁ = s := Except.error.inj same
        exact ⟨left, failed ▸ holding, low, fun kind member => grows kind (high kind member)⟩
    | ok s₁ =>
        obtain ⟨left, holding, low, high⟩ := (next s₁ (first.ok s₁ rfl)).error s same
        exact ⟨left, holding, fun kind member => low kind (first.grows kind member), high⟩
  succeeds := by
    cases r with
    | error s₁ =>
        have failed : ¬good := fun holds => nomatch (first.succeeds.mpr holds).choose_spec
        simp only [failed, false_and, iff_false]
        exact fun ⟨s, same⟩ => nomatch same
    | ok s₁ =>
        have went : good := first.succeeds.mp ⟨s₁, rfl⟩
        simp only [went, true_and]
        exact (next s₁ (first.ok s₁ rfl)).succeeds
  grows kind member := grows kind (first.grows kind member)

end Rules

end BtcRig.Theory.Acquire
