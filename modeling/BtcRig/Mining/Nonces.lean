/-
# BtcRig.Mining.Nonces — the shared nonce allocator over whole runs

Between two job changes every worker, whatever its batch size, takes its ranges
from one counter.  `Allocated` is the invariant: the ranges handed out so far
follow one another from `0` to `next_nonce`, and the exhausted flag is raised
once, when they have used up the nonce space.
-/
import BtcRig.Mining.Workers
import BtcRig.Theory.Intervals

namespace BtcRig.Mining.Nonces

open BtcRig.Theory
open BtcRig.Theory.Words
open BtcRig.Mining.Job
open BtcRig.Mining.State
open BtcRig.Mining.Workers

set_option autoImplicit false

/-- The ranges handed out, in order. -/
def rangesOf (os : List Output) : List (Nat × Nat) :=
  os.filterMap fun
    | .handed _ _ start count => some (start.toNat, count.toNat)
    | _ => none

/-- How often `nonce_exhausted` was raised. -/
def raisedCount (os : List Output) : Nat :=
  os.countP fun
    | .raised => true
    | _ => false

/-- How often `miner_take_nonce_exhausted` returned 1. -/
def exhaustedReads (os : List Output) : Nat :=
  os.countP fun
    | .exhaustedRead exhausted => exhausted
    | _ => false

theorem rangesOf_append (os os' : List Output) :
    rangesOf (os ++ os') = rangesOf os ++ rangesOf os' :=
  List.filterMap_append

theorem raisedCount_append (os os' : List Output) :
    raisedCount (os ++ os') = raisedCount os + raisedCount os' :=
  List.countP_append

theorem exhaustedReads_append (os os' : List Output) :
    exhaustedReads (os ++ os') = exhaustedReads os + exhaustedReads os' :=
  List.countP_append

theorem exhaustedReads_singleton (exhausted : Bool) :
    exhaustedReads [.exhaustedRead exhausted] = exhausted.toNat := by
  cases exhausted <;> rfl

/-- The allocator since the last job change. -/
structure Allocated (miner : Miner) (os : List Output) : Prop where
  chain : Intervals.Consecutive 0 (rangesOf os) miner.nextNonce.toNat
  within : miner.nextNonce.toNat ≤ 2 ^ 32
  open_ : miner.job.valid = true → raisedCount os = 0
  used : miner.job.valid = false → raisedCount os = 1 ∧ miner.nextNonce.toNat = 2 ^ 32
  reads : exhaustedReads os + miner.nonceExhausted.toNat = raisedCount os

theorem allocated_setJob (miner : Miner) (job : MinerJob) : Allocated (minerSetJob miner job) [] where
  chain := rfl
  within := Nat.zero_le _
  open_ := fun _ => rfl
  used := nofun
  reads := rfl

/-- A change that leaves the allocator's fields alone and outputs nothing about it. -/
theorem Allocated.frame {miner miner' : Miner} {os os' : List Output} (inv : Allocated miner os)
    (sameNext : miner'.nextNonce = miner.nextNonce)
    (sameValid : miner'.job.valid = miner.job.valid)
    (sameFlag : miner'.nonceExhausted = miner.nonceExhausted)
    (quiet : rangesOf os' = [] ∧ raisedCount os' = 0 ∧ exhaustedReads os' = 0) :
    Allocated miner' (os ++ os') := by
  obtain ⟨noRange, noRaise, noRead⟩ := quiet
  have ranges : rangesOf (os ++ os') = rangesOf os := by
    rw [rangesOf_append, noRange, List.append_nil]
  have raised : raisedCount (os ++ os') = raisedCount os := by
    rw [raisedCount_append, noRaise, Nat.add_zero]
  have read : exhaustedReads (os ++ os') = exhaustedReads os := by
    rw [exhaustedReads_append, noRead, Nat.add_zero]
  exact {
    chain := by rw [ranges, sameNext]; exact inv.chain
    within := by rw [sameNext]; exact inv.within
    open_ := by rw [raised, sameValid]; exact inv.open_
    used := by rw [raised, sameValid, sameNext]; exact inv.used
    reads := by rw [raised, read, sameFlag]; exact inv.reads }

theorem allocated_change {s s' : System} {e : Event} {os os' : List Output}
    (change : Change s e s' os') (noJob : ∀ job, e ≠ .setJob job) (inv : Allocated s.miner os) :
    Allocated s'.miner (os ++ os') := by
  cases change with
  | move e w p free => exact inv.frame rfl rfl rfl ⟨rfl, rfl, rfl⟩
  | skip e => exact inv.frame rfl rfl rfl ⟨rfl, rfl, rfl⟩
  | hand w batch scan next start range running unpaused valid isStart positive within isNext =>
      have fresh := inv.open_ valid
      have reads := inv.reads
      exact {
        chain := by
          have upTo : Intervals.Consecutive 0 (rangesOf os) start.toNat := isStart ▸ inv.chain
          rw [rangesOf_append, isNext]
          exact Intervals.consecutive_snoc upTo positive
        within := isNext ▸ within
        open_ := fun _ => by rw [raisedCount_append, fresh]; rfl
        used := fun invalid => absurd (valid.symm.trans invalid) (by decide)
        reads := by rw [raisedCount_append, exhaustedReads_append]; exact reads }
  | raise w batch scan running unpaused valid used =>
      have fresh := inv.open_ valid
      have reads := inv.reads
      exact {
        chain := by rw [rangesOf_append]; exact (List.append_nil _).symm ▸ inv.chain
        within := inv.within
        open_ := nofun
        used := fun _ => ⟨by rw [raisedCount_append, fresh]; rfl, le_antisymm inv.within used⟩
        reads := by
          have unread : exhaustedReads os = 0 := by omega
          rw [raisedCount_append, exhaustedReads_append, fresh, unread]
          rfl }
  | report w batch scan job count nonce hashWords pending ok holding =>
      obtain ⟨shares, same⟩ := queueScanMatch_frame s.miner job nonce hashWords
      rw [same]
      exact inv.frame rfl rfl rfl ⟨rfl, rfl, rfl⟩
  | finish w batch scan job count holding =>
      obtain ⟨_, _, _, _, same⟩ := countHashes_frame s.miner w job count
      rw [same]
      exact inv.frame rfl rfl rfl ⟨rfl, rfl, rfl⟩
  | setJob job => exact absurd rfl (noJob job)
  | setPaused paused =>
      rw [minerSetPaused_eq]
      exact inv.frame rfl rfl rfl ⟨rfl, rfl, rfl⟩
  | stop => exact inv.frame rfl rfl rfl ⟨rfl, rfl, rfl⟩
  | take =>
      exact {
        chain := by rw [rangesOf_append]; exact (List.append_nil _).symm ▸ inv.chain
        within := inv.within
        open_ := fun valid => by rw [raisedCount_append, inv.open_ valid]; rfl
        used := fun invalid => by rw [raisedCount_append]; exact inv.used invalid
        reads := by
          rw [raisedCount_append, exhaustedReads_append, exhaustedReads_singleton]
          exact inv.reads }
  | pop => exact inv.frame rfl rfl rfl ⟨rfl, rfl, rfl⟩

/-- The invariant along every run with no job change. -/
theorem allocated_run (s : System) (job : MinerJob) (es : List Event)
    (noJob : ∀ e ∈ es, ∀ job, e ≠ .setJob job) :
    Allocated (run (step s (.setJob job)).1 es).1.miner (run (step s (.setJob job)).1 es).2 := by
  refine run_invariant (step s (.setJob job)).1
    (fun es s os => (∀ e ∈ es, ∀ job, e ≠ .setJob job) → Allocated s.miner os)
    (fun _ => allocated_setJob s.miner job) ?_ es noJob
  intro es e s s' os os' change ih noJob
  exact allocated_change change (noJob e (by simp)) (ih fun e' member => noJob e' (by simp [member]))

theorem exhaustedReads_le (s : System) (es es' : List Event) :
    exhaustedReads (run s es).2 ≤ exhaustedReads (run s (es ++ es')).2 := by
  rw [run_append, exhaustedReads_append]
  exact Nat.le_add_right _ _

/-- The take that follows the raise, if none did before, returns 1. -/
theorem exhaustedReads_take {s : System} {es : List Event}
    (inv : Allocated (run s es).1.miner (run s es).2) (raised : raisedCount (run s es).2 = 1) :
    exhaustedReads (run s (es ++ [.takeNonceExhausted])).2 = 1 := by
  have reads := inv.reads
  rw [run_append, run_singleton, exhaustedReads_append]
  show exhaustedReads _ + exhaustedReads [.exhaustedRead (run s es).1.miner.nonceExhausted] = 1
  rw [exhaustedReads_singleton, reads, raised]

theorem Allocated.raised_le {miner : Miner} {os : List Output} (inv : Allocated miner os) :
    raisedCount os ≤ 1 := by
  cases valid : miner.job.valid with
  | true => rw [inv.open_ valid]; decide
  | false => rw [(inv.used valid).1]

/-- **No nonce twice, none skipped.**  After a job is set, in every interleaving of
any workers with pauses, stops and reads of the flag, up to the next job: the
ranges handed out are nonempty, stay below `2^32`, follow one another from `0` and
are disjoint; `next_nonce` stays at most `2^32`; the exhausted flag is raised at
most once, with the whole nonce space handed out; it is read as set exactly once for
each time it was raised, unless it is still pending, and pending it is only until it
is taken. -/
theorem nonce_ranges_disjoint_contiguous (s : System) (job : MinerJob) (es : List Event)
    (noJob : ∀ e ∈ es, ∀ job, e ≠ .setJob job) :
    let end_ := run (step s (.setJob job)).1 es
    let ranges := rangesOf end_.2
    (∀ r ∈ ranges, 1 ≤ r.2 ∧ r.1 + r.2 ≤ 2 ^ 32) ∧
      ranges.Pairwise (fun r r' => Disjoint (Set.Ico r.1 (r.1 + r.2)) (Set.Ico r'.1 (r'.1 + r'.2))) ∧
      Intervals.Consecutive 0 ranges end_.1.miner.nextNonce.toNat ∧
      end_.1.miner.nextNonce.toNat ≤ 2 ^ 32 ∧
      raisedCount end_.2 ≤ 1 ∧
      (raisedCount end_.2 = 1 →
        ∀ nonce, (∃ r ∈ ranges, nonce ∈ Set.Ico r.1 (r.1 + r.2)) ↔ nonce < 2 ^ 32) ∧
      exhaustedReads end_.2 + end_.1.miner.nonceExhausted.toNat = raisedCount end_.2 ∧
      ∀ before after, es = before ++ .takeNonceExhausted :: after →
        raisedCount (run (step s (.setJob job)).1 before).2 = 1 → exhaustedReads end_.2 = 1 := by
  intro end_ ranges
  have inv : Allocated end_.1.miner end_.2 := allocated_run s job es noJob
  refine ⟨fun r member => ?_, Intervals.consecutive_disjoint inv.chain, inv.chain, inv.within,
    inv.raised_le, ?_, inv.reads, ?_⟩
  · obtain ⟨-, positive, upper⟩ := Intervals.consecutive_bounds inv.chain r member
    exact ⟨positive, upper.trans inv.within⟩
  · intro raised nonce
    have invalid : end_.1.miner.job.valid = false := by
      by_contra valid
      have := inv.open_ (by simpa using valid)
      omega
    have covered := Intervals.consecutive_cover inv.chain nonce
    rw [(inv.used invalid).2] at covered
    simpa using covered
  · intro before after split raised
    have earlier := allocated_run s job before fun e member => noJob e (by simp [split, member])
    have taken := exhaustedReads_take earlier raised
    have kept := exhaustedReads_le (step s (.setJob job)).1 (before ++ [.takeNonceExhausted]) after
    rw [List.append_assoc, List.singleton_append, ← split, taken] at kept
    have reads := inv.reads
    have once := inv.raised_le
    exact le_antisymm (by omega) kept

/-- A device that takes the whole nonce space in two ranges, around a pause, and raises the
flag, which is then taken twice. -/
theorem nonce_ranges_disjoint_contiguous_example :
    let turn : Event := .worker .cuda 0xffffffff fun _ _ _ _ _ => ([], true)
    let before := [turn, turn, turn, .takeNonceExhausted, .setPaused true, .setPaused false, turn, turn,
      turn, turn, turn]
    let es := before ++ .takeNonceExhausted :: [.takeNonceExhausted]
    let end_ := run (step (initial 0 0 1) (.setJob zeroJob)).1 es
    rangesOf end_.2 = [(0, 2 ^ 32 - 1), (2 ^ 32 - 1, 1)] ∧
      (∀ nonce, (∃ r ∈ rangesOf end_.2, nonce ∈ Set.Ico r.1 (r.1 + r.2)) ↔ nonce < 2 ^ 32) ∧
      exhaustedReads end_.2 = 1 := by
  intro turn before es end_
  have noJob : ∀ e ∈ es, ∀ job, e ≠ .setJob job := by
    intro e member job
    simp only [es, before, turn, List.mem_append, List.mem_cons, List.not_mem_nil, or_false] at member
    rcases member with (rfl | rfl | rfl | rfl | rfl | rfl | rfl | rfl | rfl | rfl | rfl) | rfl | rfl <;> nofun
  have all := nonce_ranges_disjoint_contiguous (initial 0 0 1) zeroJob es noJob
  obtain ⟨-, -, -, -, -, covered, -, taken⟩ := all
  exact ⟨by decide +kernel, covered (by decide +kernel),
    taken before [.takeNonceExhausted] rfl (by decide +kernel)⟩

end BtcRig.Mining.Nonces
