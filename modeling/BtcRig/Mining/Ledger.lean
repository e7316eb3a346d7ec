/-
# BtcRig.Mining.Ledger — the fate of every range handed out

The allocator forgets a range as soon as it has handed it out.  The ledger does
not: it is kept beside the run, gets an entry for every range and records how its
scan ended.

* `ledger_effect`: one event opens an entry, settles one, or leaves them alone;
* `none_skipped_iff`: when the nonces of a job are used up, none of them was
  skipped exactly if no scan failed.  A failed range is not handed out again.
-/
import BtcRig.Mining.Nonces

namespace BtcRig.Mining.Ledger

open BtcRig.Theory
open BtcRig.Theory.Words
open BtcRig.Mining.Job
open BtcRig.Mining.State
open BtcRig.Mining.Workers
open BtcRig.Mining.Nonces

set_option autoImplicit false

inductive Fate where
  | scanning
  /-- Completed, and counted as hashes. -/
  | counted
  /-- Completed after the job had changed or mining was paused. -/
  | late
  | failed
deriving DecidableEq

structure Entry where
  worker : WorkerId
  start : Word
  count : Word
  fate : Fate

/-- The nonces of an entry's range. -/
def Entry.nonces (x : Entry) : Set Nat := Set.Ico x.start.toNat (x.start.toNat + x.count.toNat)

/-- The worker's scan ended. -/
def settle (w : WorkerId) (fate : Fate) (ledger : List Entry) : List Entry :=
  ledger.map fun x => if x.worker = w ∧ x.fate = .scanning then { x with fate := fate } else x

/-- How a scan that has nothing left to report ends. -/
def endOf (miner : Miner) (job : ActiveJob) (ok : Bool) : Fate :=
  if ok then if scanResultStillCurrentLocked miner job then .counted else .late else .failed

theorem endOf_ne_scanning (miner : Miner) (job : ActiveJob) (ok : Bool) :
    endOf miner job ok ≠ .scanning := by
  unfold endOf
  split
  · split <;> decide
  · decide

theorem endOf_counted {miner : Miner} {job : ActiveJob} {ok : Bool} :
    endOf miner job ok = .counted ↔ ok = true ∧ scanResultStillCurrentLocked miner job = true := by
  unfold endOf
  cases ok <;> cases scanResultStillCurrentLocked miner job <;> decide

def settledBy (s : System) (e : Event) (ledger : List Entry) : List Entry :=
  match e with
  | .worker w _ _ =>
      match s.workers w with
      | .scanning job _ [] ok => settle w (endOf s.miner job ok) ledger
      | _ => ledger
  | _ => ledger

/-- The entries of the ranges handed out. -/
def openedBy (os : List Output) : List Entry :=
  os.filterMap fun
    | .handed w _ start count => some ⟨w, start, count, .scanning⟩
    | _ => none

def bookStep (r : System × List Entry) (e : Event) : (System × List Entry) × List Output :=
  (((step r.1 e).1, settledBy r.1 e r.2 ++ openedBy (step r.1 e).2), (step r.1 e).2)

/-- A run together with its ledger. -/
def bookRun (s : System) (es : List Event) : (System × List Entry) × List Output :=
  Machine.exec bookStep (s, []) es

def ledgerOf (s : System) (es : List Event) : List Entry := (bookRun s es).1.2

/-- Keeping the ledger does not disturb the run. -/
theorem bookRun_run (s : System) (es : List Event) :
    (bookRun s es).1.1 = (run s es).1 ∧ (bookRun s es).2 = (run s es).2 := by
  induction es using List.reverseRecOn with
  | nil => exact ⟨rfl, rfl⟩
  | append_singleton es e ih =>
      rw [bookRun, run, Machine.exec_snoc, Machine.exec_snoc]
      simp only [Machine.extend, bookStep]
      rw [bookRun, run] at ih
      rw [ih.1, ih.2]
      exact ⟨rfl, rfl⟩

/-- The invariant rule for runs with their ledger. -/
theorem book_invariant (s₀ : System) (P : List Event → System → List Entry → List Output → Prop)
    (initially : P [] s₀ [] [])
    (preserved : ∀ es e s ledger os, P es s ledger os →
      P (es ++ [e]) (step s e).1 (settledBy s e ledger ++ openedBy (step s e).2) (os ++ (step s e).2))
    (es : List Event) : P es (run s₀ es).1 (ledgerOf s₀ es) (run s₀ es).2 := by
  have inv := Machine.exec_invariant bookStep (s₀, []) (fun es r os => P es r.1 r.2 os) initially
    (fun es e r os => preserved es e r.1 r.2 os) es
  obtain ⟨sameState, sameOutputs⟩ := bookRun_run s₀ es
  rw [ledgerOf, ← sameState, ← sameOutputs]
  exact inv

/-! ## The ledger lists the ranges -/

def Entry.range (x : Entry) : Nat × Nat := (x.start.toNat, x.count.toNat)

@[simp] theorem map_range_settle (w : WorkerId) (fate : Fate) (ledger : List Entry) :
    (settle w fate ledger).map Entry.range = ledger.map Entry.range := by
  simp only [settle, List.map_map]
  apply List.map_congr_left
  intro x _
  simp only [Function.comp]
  split <;> rfl

@[simp] theorem map_range_settledBy (s : System) (e : Event) (ledger : List Entry) :
    (settledBy s e ledger).map Entry.range = ledger.map Entry.range := by
  unfold settledBy
  split
  · split
    · exact map_range_settle _ _ _
    · rfl
  · rfl

theorem map_range_openedBy (os : List Output) : (openedBy os).map Entry.range = rangesOf os := by
  rw [openedBy, rangesOf, List.map_filterMap]
  apply List.filterMap_congr
  intro o _
  cases o <;> rfl

theorem map_range_ledgerOf (s : System) (es : List Event) :
    (ledgerOf s es).map Entry.range = rangesOf (run s es).2 :=
  book_invariant s (fun _ _ ledger os => ledger.map Entry.range = rangesOf os) rfl
    (fun es e s ledger os same => by
      rw [List.map_append, map_range_settledBy, map_range_openedBy, same, rangesOf_append]) es

/-! ## One event -/

/-- The miner's counters and their bounds. -/
structure SameCounters (miner miner' : Miner) : Prop where
  threadCount : miner'.threadCount = miner.threadCount
  openclStarted : miner'.openclStarted = miner.openclStarted
  cudaStarted : miner'.cudaStarted = miner.cudaStarted
  hashes : miner'.hashes = miner.hashes
  threadHashes : miner'.threadHashes = miner.threadHashes
  openclHashes : miner'.openclHashes = miner.openclHashes
  cudaHashes : miner'.cudaHashes = miner.cudaHashes

theorem SameCounters.refl (miner : Miner) : SameCounters miner miner :=
  ⟨rfl, rfl, rfl, rfl, rfl, rfl, rfl⟩

/-- The length of the range a worker is busy with. -/
def Phase.busy (p : Phase) : Option Word := p.held.map fun h => h.2.1

inductive LedgerEffect (s : System) (e : Event) (ledger : List Entry) :
    System → List Entry → Prop where
  | opened (s' : System) (w : WorkerId) (start count : Word) (p : Phase) :
      Phase.busy (s.workers w) = none → Phase.busy p = some count →
      s'.workers = Function.update s.workers w p → SameCounters s.miner s'.miner →
      LedgerEffect s e ledger s' (ledger ++ [⟨w, start, count, .scanning⟩])
  | settled (s' : System) (w : WorkerId) (batch : Word) (scan : Scanner) (job : ActiveJob)
      (count : Word) (ok : Bool) : e = .worker w batch scan →
      s.workers w = .scanning job count [] ok →
      s'.workers = Function.update s.workers w .top →
      s'.miner = (if ok then countHashes s.miner w job count else s.miner) →
      LedgerEffect s e ledger s' (settle w (endOf s.miner job ok) ledger)
  | untouched (s' : System) : (∀ w, Phase.busy (s'.workers w) = Phase.busy (s.workers w)) →
      SameCounters s.miner s'.miner → LedgerEffect s e ledger s' ledger

theorem busy_update {workers : WorkerId → Phase} {w : WorkerId} {p : Phase}
    (same : Phase.busy p = Phase.busy (workers w)) (w' : WorkerId) :
    Phase.busy (Function.update workers w p w') = Phase.busy (workers w') := by
  by_cases is : w' = w
  · subst is
    rw [Function.update_self, same]
  · rw [Function.update_of_ne is]

theorem busy_broadcast (workers : WorkerId → Phase) (w : WorkerId) :
    Phase.busy (broadcast workers w) = Phase.busy (workers w) := by
  rw [Phase.busy, held_broadcast]
  rfl

/-- A worker that is not scanning moves on, and hands nothing out. -/
theorem effect_idle {s : System} {e : Event} {ledger : List Entry} {w : WorkerId} {p : Phase}
    {miner : Miner} (idle : Phase.busy (s.workers w) = none) (idle' : Phase.busy p = none)
    (same : SameCounters s.miner miner) :
    LedgerEffect s e ledger { miner := miner, workers := Function.update s.workers w p } ledger :=
  .untouched _ (busy_update (idle'.trans idle.symm)) same

theorem workerStep_effect (s : System) (w : WorkerId) (batch : Word) (scan : Scanner)
    (ledger : List Entry) :
    LedgerEffect s (.worker w batch scan) ledger (workerStep s w batch scan).1
      (settledBy s (.worker w batch scan) ledger ++ openedBy (workerStep s w batch scan).2) := by
  cases phase : s.workers w with
  | top =>
      have idle : Phase.busy (s.workers w) = none := by rw [phase]; rfl
      simp only [workerStep, settledBy, phase]
      split
      · exact (List.append_nil ledger).symm ▸ effect_idle idle rfl (.refl _)
      · split
        · exact (List.append_nil ledger).symm ▸ effect_idle idle rfl (.refl _)
        · exact (List.append_nil ledger).symm ▸ effect_idle idle rfl (.refl _)
  | ready =>
      have idle : Phase.busy (s.workers w) = none := by rw [phase]; rfl
      simp only [workerStep, settledBy, phase]
      rcases copyJobAndNonceRangeSized_cases s.miner (batchOf s.miner batch w) with
        quiet | ⟨-, -, valid, -, exhausted⟩ | ⟨-, -, -, next, start, range, -, -, -, -, handed⟩
      · rw [quiet]
        simp only [Bool.and_not_self, Bool.false_eq_true, if_false]
        exact (List.append_nil ledger).symm ▸ effect_idle idle rfl (.refl _)
      · rw [exhausted]
        simp only [valid, Bool.not_false, Bool.and_self, if_true]
        exact (List.append_nil ledger).symm ▸ effect_idle idle rfl ⟨rfl, rfl, rfl, rfl, rfl, rfl, rfl⟩
      · rw [handed]
        exact .opened _ w start range _ idle rfl rfl ⟨rfl, rfl, rfl, rfl, rfl, rfl, rfl⟩
  | waiting =>
      have idle : Phase.busy (s.workers w) = none := by rw [phase]; rfl
      simp only [workerStep, settledBy, phase]
      split
      · exact (List.append_nil ledger).symm ▸ effect_idle idle rfl (.refl _)
      · exact (List.append_nil ledger).symm ▸ effect_idle idle rfl (.refl _)
  | blocked =>
      simp only [workerStep, settledBy, phase]
      exact (List.append_nil ledger).symm ▸ .untouched s (fun _ => rfl) (.refl _)
  | scanning job count pending ok =>
      cases pending with
      | cons m pending =>
          simp only [workerStep, settledBy, phase]
          refine (List.append_nil ledger).symm ▸ .untouched _ (busy_update (by rw [phase]; rfl)) ?_
          obtain ⟨shares, same⟩ := queueScanMatch_frame s.miner job m.1 m.2
          rw [same]
          exact ⟨rfl, rfl, rfl, rfl, rfl, rfl, rfl⟩
      | nil =>
          cases ok with
          | true =>
              simp only [workerStep, settledBy, phase]
              exact (List.append_nil (settle w _ ledger)).symm ▸
                .settled _ w batch scan job count true rfl phase rfl rfl
          | false =>
              simp only [workerStep, settledBy, phase]
              exact (List.append_nil (settle w _ ledger)).symm ▸
                .settled _ w batch scan job count false rfl phase rfl rfl
  | exited =>
      simp only [workerStep, settledBy, phase]
      exact (List.append_nil ledger).symm ▸ .untouched s (fun _ => rfl) (.refl _)

theorem ledger_effect (s : System) (e : Event) (ledger : List Entry) :
    LedgerEffect s e ledger (step s e).1 (settledBy s e ledger ++ openedBy (step s e).2) := by
  cases e with
  | worker w batch scan => exact workerStep_effect s w batch scan ledger
  | spurious w =>
      simp only [step, settledBy]
      split
      · rename_i asleep
        have idle : Phase.busy (s.workers w) = none := by rw [asleep]; rfl
        exact (List.append_nil ledger).symm ▸ effect_idle idle rfl (.refl _)
      · exact (List.append_nil ledger).symm ▸ .untouched s (fun _ => rfl) (.refl _)
  | setJob job =>
      exact (List.append_nil ledger).symm ▸
        .untouched _ (busy_broadcast s.workers) ⟨rfl, rfl, rfl, rfl, rfl, rfl, rfl⟩
  | setPaused paused =>
      refine (List.append_nil ledger).symm ▸ .untouched _ (busy_broadcast s.workers) ?_
      simp only [step, minerSetPaused_eq]
      exact ⟨rfl, rfl, rfl, rfl, rfl, rfl, rfl⟩
  | stop =>
      refine (List.append_nil ledger).symm ▸ .untouched _ ?_ ?_
      · intro w
        simp only [step]
        split
        · exact busy_broadcast s.workers w
        · rfl
      · simp only [step, minerStop]
        split
        · exact .refl _
        · exact ⟨rfl, rfl, rfl, rfl, rfl, rfl, rfl⟩
  | takeNonceExhausted =>
      exact (List.append_nil ledger).symm ▸
        .untouched _ (fun _ => rfl) ⟨rfl, rfl, rfl, rfl, rfl, rfl, rfl⟩
  | popShare =>
      exact (List.append_nil ledger).symm ▸
        .untouched _ (fun _ => rfl) ⟨rfl, rfl, rfl, rfl, rfl, rfl, rfl⟩

/-! ## Skipped nonces -/

/-- No nonce was skipped: each belongs to a range that was scanned or still is, and
what failed was handed out again. -/
def NoneSkipped (ledger : List Entry) : Prop :=
  (∀ n < 2 ^ 32, ∃ x ∈ ledger, x.fate ≠ .failed ∧ n ∈ x.nonces) ∧
    ∀ (i : Nat) (x : Entry), ledger[i]? = some x → x.fate = .failed →
      ∀ n ∈ x.nonces, ∃ (j : Nat) (y : Entry), i < j ∧ ledger[j]? = some y ∧ n ∈ y.nonces

theorem raised_mem_iff (os : List Output) : Output.raised ∈ os ↔ 0 < raisedCount os := by
  rw [raisedCount, List.countP_pos_iff]
  constructor
  · intro member
    exact ⟨_, member, rfl⟩
  · rintro ⟨o, member, is⟩
    cases o with
    | raised => exact member
    | _ => cases is

/-- When the exhausted flag is raised, the ranges of the job are the nonce space. -/
theorem consecutive_of_raised (s : System) (job : MinerJob) (es : List Event)
    (noJob : ∀ e ∈ es, ∀ job, e ≠ .setJob job) (e : Event)
    (raised : Output.raised ∈ (step (run (step s (.setJob job)).1 es).1 e).2) :
    Intervals.Consecutive 0 ((ledgerOf (step s (.setJob job)).1 es).map Entry.range) (2 ^ 32) := by
  have inv := allocated_run s job es noJob
  rw [map_range_ledgerOf]
  have change := step_change (run (step s (.setJob job)).1 es).1 e
  generalize (run (step s (.setJob job)).1 es).1 = end_ at inv change raised
  generalize (step end_ e).1 = after at change
  generalize (step end_ e).2 = os at change raised
  cases change with
  | raise w batch scan running unpaused valid used =>
      have all : end_.miner.nextNonce.toNat = 2 ^ 32 := le_antisymm inv.within used
      exact all ▸ inv.chain
  | hand => cases List.mem_singleton.mp raised
  | take => cases List.mem_singleton.mp raised
  | pop => cases List.mem_singleton.mp raised
  | _ => cases raised

/-- Two entries of a gapless ledger that share a nonce are the same entry. -/
theorem same_entry {ledger : List Entry} {hi : Nat}
    (chain : Intervals.Consecutive 0 (ledger.map Entry.range) hi) {i j : Nat} {x y : Entry}
    (isX : ledger[i]? = some x) (isY : ledger[j]? = some y) {n : Nat} (inX : n ∈ x.nonces)
    (inY : n ∈ y.nonces) : i = j := by
  obtain ⟨insideX, rfl⟩ := List.getElem?_eq_some_iff.mp isX
  obtain ⟨insideY, rfl⟩ := List.getElem?_eq_some_iff.mp isY
  have apart := List.pairwise_map.mp (Intervals.consecutive_disjoint chain)
  rcases Nat.lt_trichotomy i j with less | same | more
  · have disjoint := List.pairwise_iff_getElem.mp apart i j insideX insideY less
    exact absurd inY (Set.disjoint_left.mp disjoint inX)
  · exact same
  · have disjoint := List.pairwise_iff_getElem.mp apart j i insideY insideX more
    exact absurd inX (Set.disjoint_left.mp disjoint inY)

theorem noneSkipped_iff_of_chain {ledger : List Entry}
    (chain : Intervals.Consecutive 0 (ledger.map Entry.range) (2 ^ 32)) :
    NoneSkipped ledger ↔ ∀ x ∈ ledger, x.fate ≠ .failed := by
  constructor
  · rintro ⟨covered, -⟩ x member failed
    have bounds := Intervals.consecutive_bounds chain _ (List.mem_map_of_mem member)
    have first : x.start.toNat ∈ x.nonces := by
      simp only [Entry.nonces, Entry.range, Set.mem_Ico] at bounds ⊢
      omega
    obtain ⟨y, member', ok, inside⟩ := covered x.start.toNat x.start.isLt
    obtain ⟨i, isX⟩ := List.mem_iff_getElem?.mp member
    obtain ⟨j, isY⟩ := List.mem_iff_getElem?.mp member'
    have same := same_entry chain isX isY first inside
    rw [same, isY] at isX
    exact ok (Option.some.inj isX ▸ failed)
  · intro none_
    refine ⟨fun n small => ?_, fun i x isX failed => ?_⟩
    · obtain ⟨r, member, inside⟩ := (Intervals.consecutive_cover chain n).mpr ⟨Nat.zero_le n, small⟩
      obtain ⟨x, isEntry, rfl⟩ := List.mem_map.mp member
      exact ⟨x, isEntry, none_ x isEntry, inside⟩
    · exact absurd failed (none_ x (List.mem_of_getElem? isX))

/-- **A failed scan loses its range, and nothing else does.**  After a job is set, in
every interleaving up to the next job: when the exhausted flag is raised, every nonce
belongs to a range whose scan completed or is still going on, and failed ranges were
handed out again, exactly if no scan of a range of the job has failed. -/
theorem none_skipped_iff (s : System) (job : MinerJob) (es : List Event)
    (noJob : ∀ e ∈ es, ∀ job, e ≠ .setJob job) (e : Event)
    (raised : Output.raised ∈ (step (run (step s (.setJob job)).1 es).1 e).2) :
    NoneSkipped (ledgerOf (step s (.setJob job)).1 es) ↔
      ∀ x ∈ ledgerOf (step s (.setJob job)).1 es, x.fate ≠ .failed :=
  noneSkipped_iff_of_chain (consecutive_of_raised s job es noJob e raised)

/-- A device with a batch size of `2^31`; `ok` says which of its scans succeed. -/
def halfTurn (ok : Word → Bool) : Event := .worker .cuda 0x80000000 fun _ _ _ start _ => ([], ok start)

/-- It takes the lower half, then the upper half, and is about to ask again. -/
def halves (ok : Word → Bool) : List Event := List.replicate 7 (halfTurn ok)

theorem halves_raise (ok : Word → Bool) (raises : 0 < raisedCount
      (step (run (step (initial 0 0 1) (.setJob zeroJob)).1 (halves ok)).1 (halfTurn ok)).2) :
    (∀ e ∈ halves ok, ∀ job, e ≠ .setJob job) ∧ Output.raised ∈
      (step (run (step (initial 0 0 1) (.setJob zeroJob)).1 (halves ok)).1 (halfTurn ok)).2 := by
  refine ⟨fun e member job => ?_, (raised_mem_iff _).mpr raises⟩
  rw [List.eq_of_mem_replicate member]
  nofun

/-- Both scans succeed. -/
theorem none_skipped_iff_example :
    NoneSkipped (ledgerOf (step (initial 0 0 1) (.setJob zeroJob)).1 (halves fun _ => true)) := by
  obtain ⟨noJob, raised⟩ := halves_raise (fun _ => true) (by decide +kernel)
  apply (none_skipped_iff (initial 0 0 1) zeroJob _ noJob _ raised).mpr
  intro x member failed
  have none_ : ((ledgerOf (step (initial 0 0 1) (.setJob zeroJob)).1 (halves fun _ => true)).all
      fun x => x.fate ≠ .failed) = true := by decide +kernel
  simpa [failed] using List.all_eq_true.mp none_ x member

/-- The scan of the lower half fails.  The worker goes on with the upper half, and
when the flag is raised the lower half has never been scanned. -/
theorem failed_range_skipped :
    let s := (step (initial 0 0 1) (.setJob zeroJob)).1
    let es := halves fun start => start ≠ 0
    Output.raised ∈ (step (run s es).1 (halfTurn fun start => start ≠ 0)).2 ∧
      ¬NoneSkipped (ledgerOf s es) := by
  intro s es
  obtain ⟨noJob, raised⟩ := halves_raise (fun start => start ≠ 0) (by decide +kernel)
  refine ⟨raised, fun skipped => ?_⟩
  obtain ⟨x, member, ok, inside⟩ := skipped.1 0 (by decide)
  have none_ : ((ledgerOf s es).all fun x =>
      !(decide (x.fate ≠ .failed) && decide (x.start.toNat ≤ 0))) = true := by decide +kernel
  have first : x.start.toNat ≤ 0 := inside.1
  simpa [ok, first] using List.all_eq_true.mp none_ x member

end BtcRig.Mining.Ledger
