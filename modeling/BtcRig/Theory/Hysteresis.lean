/-
# BtcRig.Theory.Hysteresis — a search that only moves for a clear improvement

A search tries one configuration after another and keeps the best one so far.  A trial
that fails changes nothing; one that succeeds replaces the best only if its rate is more
than `k` times the best rate, so rates that creep up by less are passed over.

* `accept` — one trial;
* `Bounded` — every rate is at most `k` times the best one.  `bounded_accept` keeps it
  for the trials so far and the new one, `bounded_later` through trials that are
  accepted by another factor;
* `Tried` — the best configuration is one that was tried, with the rate it had.
-/
import Mathlib

namespace BtcRig.Theory.Hysteresis

set_option autoImplicit false

variable {C K : Type*} [Field K] [LinearOrder K]

/-- A configuration and the rate measured for it, none if it failed. -/
structure Trial (C K : Type*) where
  config : C
  rate : Option K

def accept (k : K) (best : Option (C × K)) (trial : Trial C K) : Option (C × K) :=
  match trial.rate with
  | none => best
  | some rate =>
      match best with
      | none => some (trial.config, rate)
      | some standing => if standing.2 * k < rate then some (trial.config, rate) else some standing

def Positive (trials : List (Trial C K)) : Prop := ∀ trial ∈ trials, ∀ rate ∈ trial.rate, 0 < rate

def Bounded (k : K) (trials : List (Trial C K)) (best : Option (C × K)) : Prop :=
  ∀ trial ∈ trials, ∀ rate ∈ trial.rate, ∃ standing ∈ best, rate ≤ k * standing.2

def Tried (trials : List (Trial C K)) (best : Option (C × K)) : Prop :=
  ∀ standing ∈ best, ⟨standing.1, some standing.2⟩ ∈ trials

section Accept

variable {k : K} {trials : List (Trial C K)} {best : Option (C × K)} {trial : Trial C K}

theorem accept_failed (failed : trial.rate = none) : accept k best trial = best := by
  rw [accept, failed]

theorem accept_better {rate : K} (isRate : trial.rate = some rate)
    (better : ∀ standing ∈ best, standing.2 * k < rate) :
    accept k best trial = some (trial.config, rate) := by
  rw [accept, isRate]
  cases best with
  | none => rfl
  | some standing => exact if_pos (better standing rfl)

theorem accept_worse {rate : K} {standing : C × K} (isRate : trial.rate = some rate)
    (worse : ¬standing.2 * k < rate) : accept k (some standing) trial = some standing := by
  rw [accept, isRate]
  exact if_neg worse

theorem tried_positive (tried : Tried trials best) (positive : Positive trials) :
    ∀ standing ∈ best, 0 < standing.2 := by
  intro standing member
  exact positive _ (tried standing member) _ rfl

theorem tried_accept (tried : Tried trials best) : Tried (trials ++ [trial]) (accept k best trial) := by
  have new {rate : K} (isRate : trial.rate = some rate) :
      ⟨trial.config, some rate⟩ ∈ trials ++ [trial] := by
    rw [← isRate]
    exact List.mem_append_right _ (List.mem_singleton.mpr rfl)
  have old : Tried (trials ++ [trial]) best := fun standing member =>
    List.mem_append_left _ (tried standing member)
  unfold accept
  cases isRate : trial.rate with
  | none => exact old
  | some rate =>
      cases best with
      | none =>
          rintro _ ⟨⟩
          exact new isRate
      | some standing =>
          simp only
          split
          · rintro _ ⟨⟩
            exact new isRate
          · exact old

variable [IsStrictOrderedRing K]

/-- The best rate never goes down. -/
theorem accept_ge (one_le : 1 ≤ k) (positive : ∀ standing ∈ best, 0 < standing.2) :
    ∀ standing ∈ best, ∃ after ∈ accept k best trial, standing.2 ≤ after.2 := by
  rintro standing ⟨⟩
  have rate_pos := positive standing rfl
  unfold accept
  cases trial.rate with
  | none => exact ⟨standing, rfl, le_rfl⟩
  | some rate =>
      simp only
      split
      · rename_i better
        refine ⟨(trial.config, rate), rfl, ?_⟩
        exact (le_mul_of_one_le_right rate_pos.le one_le).trans better.le
      · exact ⟨standing, rfl, le_rfl⟩

/-- Trials bounded by the best rate stay bounded by a later one, whatever factor `k'` it
was accepted by. -/
theorem bounded_later {k' : K} (nonneg : 0 ≤ k) (one_le : 1 ≤ k')
    (positive : ∀ standing ∈ best, 0 < standing.2) (bounded : Bounded k trials best) :
    Bounded k trials (accept k' best trial) := by
  intro earlier member rate isRate
  obtain ⟨standing, isStanding, below⟩ := bounded earlier member rate isRate
  obtain ⟨after, isAfter, higher⟩ : ∃ after ∈ accept k' best trial, standing.2 ≤ after.2 :=
    accept_ge one_le positive standing isStanding
  exact ⟨after, isAfter, below.trans (mul_le_mul_of_nonneg_left higher nonneg)⟩

theorem bounded_accept (one_le : 1 ≤ k) (positive : ∀ standing ∈ best, 0 < standing.2)
    (new_pos : ∀ rate ∈ trial.rate, 0 < rate) (bounded : Bounded k trials best) :
    Bounded k (trials ++ [trial]) (accept k best trial) := by
  intro entry member rate isRate
  rcases List.mem_append.mp member with earlier | isLast
  · exact bounded_later (zero_le_one.trans one_le) one_le positive bounded entry earlier rate isRate
  · rw [List.mem_singleton.mp isLast] at isRate
    have rate_pos := new_pos rate isRate
    have own : rate ≤ k * rate := le_mul_of_one_le_left rate_pos.le one_le
    unfold accept
    rw [Option.mem_def.mp isRate]
    cases best with
    | none => exact ⟨_, rfl, own⟩
    | some standing =>
        simp only
        split
        · exact ⟨_, rfl, own⟩
        · rename_i worse
          refine ⟨standing, rfl, ?_⟩
          rw [mul_comm]
          exact not_lt.mp worse

end Accept

end BtcRig.Theory.Hysteresis
