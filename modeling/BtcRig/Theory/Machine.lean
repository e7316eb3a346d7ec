/-
# BtcRig.Theory.Machine — runs of a deterministic machine with outputs

A machine is a step function from a state and an event to a state and the list
of outputs the step makes.  Nondeterminism (which thread moves, what the peer
sends) is in the choice of the event list, so "for every interleaving" is "for
every event list".

* `exec` — the state and the outputs after an event list;
* `exec_invariant` — the one induction: a property of (events so far, state,
  outputs so far) that holds initially and survives one more event holds always;
* `exec_append` — a run in two parts;
* `exec_simulates` — two machines whose steps keep a relation and make the same
  outputs keep it, and make the same outputs, over every run;
* `foldl_range_rule`, `foldlM_range_rule` — the invariant of a counted loop, the second
  of one that may end early;
* `loop_rule` — a loop without a counter returns, and with what, by an invariant and a
  bound that goes down.
-/
import Mathlib

namespace BtcRig.Theory.Machine

set_option autoImplicit false

variable {S E O : Type}

/-- One more event after a run. -/
def extend (step : S → E → S × List O) (r : S × List O) (e : E) : S × List O :=
  ((step r.1 e).1, r.2 ++ (step r.1 e).2)

/-- The state reached and everything output on the way. -/
def exec (step : S → E → S × List O) (s : S) (es : List E) : S × List O :=
  es.foldl (extend step) (s, [])

@[simp] theorem exec_nil (step : S → E → S × List O) (s : S) : exec step s [] = (s, []) := rfl

theorem exec_snoc (step : S → E → S × List O) (s : S) (es : List E) (e : E) :
    exec step s (es ++ [e]) = extend step (exec step s es) e := by
  simp [exec]

/-- The state does not depend on the outputs. -/
theorem exec_state (step : S → E → S × List O) (s : S) (es : List E) :
    (exec step s es).1 = es.foldl (fun s e => (step s e).1) s := by
  induction es using List.reverseRecOn with
  | nil => rfl
  | append_singleton es e ih =>
      rw [exec_snoc, List.foldl_append, ← ih]
      rfl

theorem foldl_extend (step : S → E → S × List O) (s : S) (os : List O) (es : List E) :
    es.foldl (extend step) (s, os) = ((exec step s es).1, os ++ (exec step s es).2) := by
  induction es using List.reverseRecOn with
  | nil => simp
  | append_singleton es e ih =>
      rw [List.foldl_append, ih, exec_snoc]
      simp [extend]

theorem exec_append (step : S → E → S × List O) (s : S) (es fs : List E) :
    exec step s (es ++ fs) =
      ((exec step (exec step s es).1 fs).1,
        (exec step s es).2 ++ (exec step (exec step s es).1 fs).2) := by
  rw [exec, List.foldl_append]
  exact foldl_extend step _ _ fs

/-- **The invariant rule.**  `P` speaks of the events so far, the state and the
outputs so far. -/
theorem exec_invariant (step : S → E → S × List O) (s₀ : S) (P : List E → S → List O → Prop)
    (initial : P [] s₀ [])
    (preserved : ∀ es e s os, P es s os → P (es ++ [e]) (step s e).1 (os ++ (step s e).2))
    (es : List E) : P es (exec step s₀ es).1 (exec step s₀ es).2 := by
  induction es using List.reverseRecOn with
  | nil => exact initial
  | append_singleton es e ih =>
      rw [exec_snoc]
      exact preserved es e _ _ ih

/-- The invariant rule under an assumption about events that every step uses. -/
theorem exec_invariant_of (step : S → E → S × List O) (s₀ : S) (allowed : E → Prop)
    (P : S → List O → Prop) (initial : P s₀ [])
    (preserved : ∀ e s os, allowed e → P s os → P (step s e).1 (os ++ (step s e).2))
    (es : List E) (ok : ∀ e ∈ es, allowed e) :
    P (exec step s₀ es).1 (exec step s₀ es).2 := by
  refine exec_invariant step s₀ (fun es s os => (∀ e ∈ es, allowed e) → P s os) (fun _ => initial)
    ?_ es ok
  intro es e s os ih ok
  exact preserved e s os (ok e (by simp)) (ih fun e' member => ok e' (by simp [member]))

/-- **The simulation rule.** -/
theorem exec_simulates {S' : Type} (step : S → E → S × List O) (step' : S' → E → S' × List O)
    (related : S → S' → Prop)
    (preserved : ∀ s s' e, related s s' →
      related (step s e).1 (step' s' e).1 ∧ (step s e).2 = (step' s' e).2)
    {s : S} {s' : S'} (initial : related s s') (es : List E) :
    related (exec step s es).1 (exec step' s' es).1 ∧ (exec step s es).2 = (exec step' s' es).2 := by
  induction es using List.reverseRecOn with
  | nil => exact ⟨initial, rfl⟩
  | append_singleton es e ih =>
      obtain ⟨states, outputs⟩ := ih
      obtain ⟨next, made⟩ := preserved _ _ e states
      rw [exec_snoc, exec_snoc, extend, extend]
      exact ⟨next, by rw [outputs, made]⟩

/-! ## Counted loops -/

theorem foldl_range_rule (f : S → Nat → S) (P : Nat → S → Prop) {s : S} (initial : P 0 s) :
    ∀ n, (∀ i s, i < n → P i s → P (i + 1) (f s i)) → P n ((List.range n).foldl f s)
  | 0, _ => initial
  | n + 1, preserved => by
      rw [List.range_succ, List.foldl_append]
      exact preserved n _ n.lt_succ_self
        (foldl_range_rule f P initial n fun i s below => preserved i s (by omega))

/-- `Q` holds of what an early end leaves, `P n` of what the whole loop leaves. -/
theorem foldlM_range_rule {X : Type} (f : S → Nat → Except X S) (P : Nat → S → Prop) (Q : X → Prop)
    {s : S} (initial : P 0 s) :
    ∀ n, (∀ i s, i < n → P i s →
        (∀ x, f s i = .error x → Q x) ∧ ∀ s', f s i = .ok s' → P (i + 1) s') →
      (∀ x, (List.range n).foldlM f s = .error x → Q x) ∧
        ∀ s', (List.range n).foldlM f s = .ok s' → P n s'
  | 0, _ => by
      refine ⟨fun x ended => ?_, fun s' done => ?_⟩
      · cases ended
      · cases done
        exact initial
  | n + 1, preserved => by
      have earlier := foldlM_range_rule f P Q initial n fun i s below => preserved i s (by omega)
      rw [List.range_succ, List.foldlM_append]
      rcases before : (List.range n).foldlM f s with x | s₁
      · refine ⟨fun x' ended => ?_, fun s' done => ?_⟩
        · cases ended
          exact earlier.1 x before
        · cases done
      · have last := preserved n s₁ n.lt_succ_self (earlier.2 s₁ before)
        have isLast : List.foldlM f s₁ [n] = f s₁ n := by simp
        refine ⟨fun x ended => last.1 x (isLast.symm.trans ended), fun s' done => ?_⟩
        exact last.2 s' (isLast.symm.trans done)

/-! ## Loops that return -/

/-- The loop, given so many passes; nothing if they do not suffice. -/
def loop {R : Type} (pass : S → R ⊕ S) : Nat → S → Option R
  | 0, _ => none
  | passes + 1, s =>
      match pass s with
      | .inl r => some r
      | .inr s' => loop pass passes s'

/-- `P` holds before every pass and `Q` of what is returned. -/
theorem loop_rule {R : Type} (pass : S → R ⊕ S) (P : S → Prop) (Q : R → Prop) (bound : S → Nat)
    (returns : ∀ s r, P s → pass s = .inl r → Q r)
    (goesOn : ∀ s s', P s → pass s = .inr s' → P s' ∧ bound s' < bound s) :
    ∀ passes s, P s → bound s < passes → ∃ r, loop pass passes s = some r ∧ Q r
  | 0, _, _, enough => absurd enough (Nat.not_lt_zero _)
  | passes + 1, s, before, enough => by
      rw [loop]
      rcases done : pass s with r | s'
      · exact ⟨r, rfl, returns s r before done⟩
      · obtain ⟨after, less⟩ := goesOn s s' before done
        exact loop_rule pass P Q bound returns goesOn passes s' after (by omega)

end BtcRig.Theory.Machine
