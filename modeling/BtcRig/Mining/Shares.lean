/-
# BtcRig.Mining.Shares — where a share comes from, and which are dropped

A worker keeps a private copy of the job while it scans.  `Traced` ties every copy
to the job call it was taken from: copy `k` is the `k`-th job set, with the
sequence number that call gave it.  On top of it:

* `ShareFrom` says the same of every share queued or popped;
* `queue_current_late_results_dropped`: the queue holds shares of the current job
  only, and a range handed out before a job change or a pause no longer changes
  anything.
-/
import BtcRig.Mining.Workers

namespace BtcRig.Mining.Shares

open BtcRig.Theory
open BtcRig.Theory.Words
open BtcRig.Mining.Job
open BtcRig.Mining.State
open BtcRig.Mining.Workers

set_option autoImplicit false

/-! ## The jobs of a run -/

/-- The jobs set, in order. -/
def jobsOf (es : List Event) : List MinerJob :=
  es.filterMap fun
    | .setJob job => some job
    | _ => none

/-- The number of calls that ask for a pause. -/
def pausesOf (es : List Event) : Nat :=
  es.countP fun
    | .setPaused paused => paused
    | _ => false

theorem jobsOf_append (es es' : List Event) : jobsOf (es ++ es') = jobsOf es ++ jobsOf es' :=
  List.filterMap_append

theorem pausesOf_append (es es' : List Event) : pausesOf (es ++ es') = pausesOf es + pausesOf es' :=
  List.countP_append

theorem jobsOf_other {e : Event} (noJob : ∀ job, e ≠ .setJob job) : jobsOf [e] = [] := by
  cases e with
  | setJob job => exact absurd rfl (noJob job)
  | _ => rfl

/-- Job number `k` as a worker sees it. -/
def numbered (k : Nat) (job : MinerJob) : MinerJob := { job with seq := BitVec.ofNat 64 (k + 1) }

/-- `copy` is job number `k` of the run, whatever its pause epoch. -/
structure CopyOf (jobs : List MinerJob) (k : Nat) (job : MinerJob) (copy : ActiveJob) : Prop where
  set : jobs[k]? = some job
  publicJob : copy.publicJob = numbered k job
  midstate : copy.midstate = (activate job).midstate
  tailWords : copy.tailWords = (activate job).tailWords
  targetWords : copy.targetWords = (activate job).targetWords

theorem CopyOf.extend {jobs : List MinerJob} {k : Nat} {job : MinerJob} {copy : ActiveJob}
    (is : CopyOf jobs k job copy) (more : List MinerJob) : CopyOf (jobs ++ more) k job copy where
  set := by
    have inside : k < jobs.length := (List.getElem?_eq_some_iff.mp is.set).1
    rw [List.getElem?_append_left inside]
    exact is.set
  publicJob := is.publicJob
  midstate := is.midstate
  tailWords := is.tailWords
  targetWords := is.targetWords

/-- A worker holds `copy` and still has to report `pending`. -/
def Holds (s : System) (w : WorkerId) (copy : ActiveJob) (pending : List (Word × Vector Word 8)) :
    Prop :=
  ∃ count ok, (s.workers w).held = some (copy, count, pending, ok)

/-- Every job in use is one that was set, under its number; `fits` is what the scans
promise of the matches they report. -/
structure Traced (fits : MinerJob → Word × Vector Word 8 → Prop) (jobs : List MinerJob)
    (s : System) : Prop where
  none_yet : jobs = [] → s.miner.job.valid = false ∧ s.miner.job.publicJob.seq = 0
  current : jobs ≠ [] → ∃ job, CopyOf jobs (jobs.length - 1) job s.miner.job
  copies : ∀ w copy pending, Holds s w copy pending →
    ∃ k job, CopyOf jobs k job copy ∧ ∀ m ∈ pending, fits job m

/-- What the events' scans promise. -/
def Fitting (fits : MinerJob → Word × Vector Word 8 → Prop) (e : Event) : Prop :=
  ∀ w batch scan, e = .worker w batch scan → ∀ job start count,
    ∀ m ∈ (scan (activate job).midstate (activate job).tailWords (activate job).targetWords start
      count).1, fits job m

theorem held_update {workers : WorkerId → Phase} {w w' : WorkerId} {p : Phase}
    {held : ActiveJob × Word × List (Word × Vector Word 8) × Bool}
    (is : (Function.update workers w p w').held = some held) :
    (w' = w ∧ p.held = some held) ∨ (w' ≠ w ∧ (workers w').held = some held) := by
  by_cases same : w' = w
  · subst same
    rw [Function.update_self] at is
    exact .inl ⟨rfl, is⟩
  · rw [Function.update_of_ne same] at is
    exact .inr ⟨same, is⟩

theorem holds_self {miner : Miner} {workers : WorkerId → Phase} {w : WorkerId} {copy : ActiveJob}
    {count : Word} {pending : List (Word × Vector Word 8)} {ok : Bool} :
    Holds { miner := miner, workers := Function.update workers w (.scanning copy count pending ok) }
      w copy pending :=
  ⟨count, ok, by simp [Phase.held]⟩

/-- A worker that lets go of its copy, or keeps it with less to report. -/
theorem holds_update {s : System} {miner : Miner} {w w' : WorkerId} {p : Phase} {copy : ActiveJob}
    {pending : List (Word × Vector Word 8)}
    (less : ∀ copy count pending ok, p.held = some (copy, count, pending, ok) →
      ∃ more, Holds s w copy (more ++ pending))
    (is : Holds { miner := miner, workers := Function.update s.workers w p } w' copy pending) :
    ∃ more, Holds s w' copy (more ++ pending) := by
  obtain ⟨count, ok, held⟩ := is
  rcases held_update held with ⟨rfl, kept⟩ | ⟨-, kept⟩
  · exact less _ _ _ _ kept
  · exact ⟨[], count, ok, kept⟩

theorem holds_broadcast {s : System} {miner : Miner} {w : WorkerId} {copy : ActiveJob}
    {pending : List (Word × Vector Word 8)}
    (is : Holds { miner := miner, workers := broadcast s.workers } w copy pending) :
    Holds s w copy pending := by
  obtain ⟨count, ok, held⟩ := is
  rw [held_broadcast] at held
  exact ⟨count, ok, held⟩

/-- The facts of an event that hands worker `w` a range of the current job. -/
structure Handing (s : System) (e : Event) (s' : System) (os : List Output) (w : WorkerId)
    (copy : ActiveJob) (pending : List (Word × Vector Word 8)) (start count : Word) : Prop where
  event : ∃ batch scan, e = .worker w batch scan ∧
    pending = (scan copy.midstate copy.tailWords copy.targetWords start count).1
  output : os = [.handed w copy start count]
  valid : s.miner.job.valid = true
  copied : copy = { s.miner.job with pauseEpoch := s.miner.pauseEpoch }
  first : start.toNat = s.miner.nextNonce.toNat
  within : start.toNat + count.toNat ≤ 2 ^ 32
  next : s'.miner.nextNonce.toNat = start.toNat + count.toNat
  frame : s'.miner = { s.miner with nextNonce := s'.miner.nextNonce }

/-- Handing out a range is the only way a worker gets a copy. -/
theorem held_change {s s' : System} {e : Event} {os : List Output} (change : Change s e s' os)
    {w : WorkerId} {copy : ActiveJob} {pending : List (Word × Vector Word 8)}
    (held : Holds s' w copy pending) :
    (∃ more, Holds s w copy (more ++ pending)) ∨
      ∃ start count, Handing s e s' os w copy pending start count := by
  cases change with
  | move e w' p free =>
      refine .inl (holds_update ?_ held)
      intro _ _ _ _ some_
      rw [free] at some_
      cases some_
  | skip e => exact .inl ⟨[], held⟩
  | hand w' batch scan next start range running unpaused valid isStart positive within isNext =>
      obtain ⟨count, ok, held⟩ := held
      rcases held_update held with ⟨rfl, kept⟩ | ⟨-, kept⟩
      · cases kept
        exact .inr ⟨start, range, ⟨batch, scan, rfl, rfl⟩, rfl, valid, rfl, isStart, within, isNext,
          rfl⟩
      · exact .inl ⟨[], count, ok, kept⟩
  | raise w' batch scan =>
      refine .inl (holds_update ?_ held)
      intro _ _ _ _ some_
      cases some_
  | report w' batch scan job count nonce hashWords pending ok holding =>
      refine .inl (holds_update ?_ held)
      intro _ _ _ _ some_
      cases some_
      exact ⟨[(nonce, hashWords)], count, ok, by rw [holding]; rfl⟩
  | finish w' batch scan job count holding =>
      refine .inl (holds_update ?_ held)
      intro _ _ _ _ some_
      cases some_
  | setJob job => exact .inl ⟨[], holds_broadcast held⟩
  | setPaused paused => exact .inl ⟨[], holds_broadcast held⟩
  | stop => exact .inl ⟨[], holds_broadcast held⟩
  | take => exact .inl ⟨[], held⟩
  | pop => exact .inl ⟨[], held⟩

/-- What one event does to the miner's job. -/
theorem job_change {s s' : System} {e : Event} {os : List Output} (change : Change s e s' os) :
    (∃ job, e = .setJob job ∧ s'.miner = minerSetJob s.miner job) ∨
      (jobsOf [e] = [] ∧ s'.miner.job.publicJob = s.miner.job.publicJob ∧
        s'.miner.job.midstate = s.miner.job.midstate ∧
        s'.miner.job.tailWords = s.miner.job.tailWords ∧
        s'.miner.job.targetWords = s.miner.job.targetWords ∧
        (s.miner.job.valid = false → s'.miner.job.valid = false)) := by
  cases change with
  | move e w p free noJob => exact .inr ⟨jobsOf_other noJob, rfl, rfl, rfl, rfl, id⟩
  | skip e noJob => exact .inr ⟨jobsOf_other noJob, rfl, rfl, rfl, rfl, id⟩
  | raise w batch scan => exact .inr ⟨rfl, rfl, rfl, rfl, rfl, fun _ => rfl⟩
  | report w batch scan copy count nonce hashWords pending ok holding =>
      obtain ⟨shares, same⟩ := queueScanMatch_frame s.miner copy nonce hashWords
      rw [same]
      exact .inr ⟨rfl, rfl, rfl, rfl, rfl, id⟩
  | finish w batch scan copy count holding =>
      obtain ⟨_, _, _, _, same⟩ := countHashes_frame s.miner w copy count
      rw [same]
      exact .inr ⟨rfl, rfl, rfl, rfl, rfl, id⟩
  | setJob job => exact .inl ⟨job, rfl, rfl⟩
  | setPaused paused =>
      rw [minerSetPaused_eq]
      exact .inr ⟨rfl, rfl, rfl, rfl, rfl, id⟩
  | _ => exact .inr ⟨rfl, rfl, rfl, rfl, rfl, id⟩

section Preserved

variable {fits : MinerJob → Word × Vector Word 8 → Prop} {jobs : List MinerJob} {s : System}

/-- A miner's sequence number counts the jobs set. -/
theorem Traced.seq (inv : Traced fits jobs s) :
    s.miner.job.publicJob.seq = BitVec.ofNat 64 jobs.length := by
  by_cases empty : jobs = []
  · rw [(inv.none_yet empty).2, empty]
    rfl
  · obtain ⟨job, is⟩ := inv.current empty
    have positive := List.length_pos_of_ne_nil empty
    rw [is.publicJob, numbered]
    simp only [show jobs.length - 1 + 1 = jobs.length by omega]

/-- A valid job was set. -/
theorem Traced.current_of_valid (inv : Traced fits jobs s) (valid : s.miner.job.valid = true) :
    ∃ job, CopyOf jobs (jobs.length - 1) job s.miner.job := by
  apply inv.current
  intro empty
  rw [(inv.none_yet empty).1] at valid
  cases valid

theorem traced_change {s' : System} {e : Event} {os : List Output} (change : Change s e s' os)
    (fitting : Fitting fits e) (inv : Traced fits jobs s) :
    Traced fits (jobs ++ jobsOf [e]) s' := by
  have copies : ∀ w copy pending, Holds s' w copy pending →
      ∃ k job, CopyOf (jobs ++ jobsOf [e]) k job copy ∧ ∀ m ∈ pending, fits job m := by
    intro w copy pending held
    rcases held_change change held with ⟨more, held⟩ | ⟨start, count, handing⟩
    · obtain ⟨k, job, is, all⟩ := inv.copies w copy _ held
      exact ⟨k, job, is.extend _, fun m member => all m (List.mem_append_right more member)⟩
    · obtain ⟨job, is⟩ := inv.current_of_valid handing.valid
      obtain ⟨batch, scan, isEvent, isPending⟩ := handing.event
      have isCopy : CopyOf jobs (jobs.length - 1) job copy := by
        rw [handing.copied]
        exact ⟨is.set, is.publicJob, is.midstate, is.tailWords, is.targetWords⟩
      refine ⟨_, job, isCopy.extend _, ?_⟩
      rw [isPending, isCopy.midstate, isCopy.tailWords, isCopy.targetWords]
      exact fitting w batch scan isEvent job start count
  rcases job_change change with ⟨job, rfl, isSet⟩ |
    ⟨noJob, publicJob, midstate, tailWords, targetWords, invalid⟩
  · refine ⟨fun empty => absurd empty (by simp [jobsOf]), fun _ => ⟨job, ?_⟩, copies⟩
    have length : (jobs ++ jobsOf [Event.setJob job]).length - 1 = jobs.length := by simp [jobsOf]
    rw [length, isSet]
    refine ⟨by simp [jobsOf], ?_, rfl, rfl, rfl⟩
    simp only [minerSetJob, inv.seq, numbered, BitVec.ofNat_add]
    rfl
  · refine ⟨fun empty => ?_, fun some_ => ?_, copies⟩
    · rw [noJob, List.append_nil] at empty
      rw [publicJob]
      exact ⟨invalid (inv.none_yet empty).1, (inv.none_yet empty).2⟩
    · rw [noJob, List.append_nil] at some_ ⊢
      obtain ⟨job, is⟩ := inv.current some_
      exact ⟨job, is.set, publicJob.trans is.publicJob, midstate.trans is.midstate,
        tailWords.trans is.tailWords, targetWords.trans is.targetWords⟩

end Preserved

theorem traced_initial (fits : MinerJob → Word × Vector Word 8 → Prop) (threads opencl cuda : Nat) :
    Traced fits [] (initial threads opencl cuda) where
  none_yet := fun _ => ⟨rfl, rfl⟩
  current := fun some_ => absurd rfl some_
  copies := by
    rintro w copy pending ⟨count, ok, held⟩
    cases held

/-! ## The queue -/

/-- The shares popped, in order. -/
def poppedOf (os : List Output) : List MinerShare :=
  os.filterMap fun
    | .popped share => share
    | _ => none

theorem poppedOf_append (os os' : List Output) : poppedOf (os ++ os') = poppedOf os ++ poppedOf os' :=
  List.filterMap_append

/-- Only popping outputs a share. -/
theorem poppedOf_other {s s' : System} {e : Event} {os : List Output} (change : Change s e s' os)
    (other : e ≠ .popShare) : poppedOf os = [] := by
  cases change with
  | pop => exact absurd rfl other
  | _ => rfl

/-- The share a match becomes. -/
def shareOf (job : MinerJob) (m : Word × Vector Word 8) : MinerShare where
  seq := job.seq
  nonce := m.1
  difficulty := minerHashDifficulty (hashOfWords m.2)
  hash := hashOfWords m.2
  jobId := job.jobId
  extranonce2 := job.extranonce2
  ntime := job.ntime

theorem queueScanMatch_current {miner : Miner} {copy : ActiveJob}
    (current : scanResultStillCurrentLocked miner copy = true) (nonce : Word)
    (hashWords : Vector Word 8) :
    queueScanMatch miner copy nonce hashWords =
      { miner with shares := miner.shares.push (shareOf copy.publicJob (nonce, hashWords)) } := by
  simp only [queueScanMatch, current, if_true]
  rfl

/-- What one event does to the queue: a job change empties it, a match that is still
current may join it, and otherwise shares only leave it by being popped. -/
theorem queue_cases {s s' : System} {e : Event} {os : List Output} (change : Change s e s' os)
    (wf : s.miner.shares.WF) :
    s'.miner.shares.WF ∧
      ((s'.miner.shares.toList = [] ∧ poppedOf os = []) ∨
        (∃ w copy m pending, Holds s w copy (m :: pending) ∧
          Holds s' w copy pending ∧ s'.miner.job = s.miner.job ∧
          s'.miner.nextNonce = s.miner.nextNonce ∧
          scanResultStillCurrentLocked s.miner copy = true ∧
          s'.miner.shares.toList = s.miner.shares.toList ++ [shareOf copy.publicJob m] ∧
          poppedOf os = []) ∨
        (s'.miner.job.publicJob = s.miner.job.publicJob ∧
          poppedOf os ++ s'.miner.shares.toList = s.miner.shares.toList)) := by
  cases change with
  | report w batch scan copy count nonce hashWords pending ok holding =>
      cases current : scanResultStillCurrentLocked s.miner copy with
      | true =>
          rw [queueScanMatch_current current]
          refine ⟨RingBuffer.wf_push wf _, ?_⟩
          have pushed := RingBuffer.toList_push wf (shareOf copy.publicJob (nonce, hashWords))
          split at pushed
          · exact .inr (.inl ⟨w, copy, (nonce, hashWords), pending,
              ⟨count, ok, by rw [holding]; rfl⟩, holds_self, rfl, rfl, current, pushed, rfl⟩)
          · exact .inr (.inr ⟨rfl, pushed⟩)
      | false =>
          rw [queueScanMatch_late current]
          exact ⟨wf, .inr (.inr ⟨rfl, rfl⟩)⟩
  | finish w batch scan copy count holding =>
      obtain ⟨_, _, _, _, same⟩ := countHashes_frame s.miner w copy count
      rw [same]
      exact ⟨wf, .inr (.inr ⟨rfl, rfl⟩)⟩
  | setJob job =>
      exact ⟨RingBuffer.wf_clear (by decide), .inl ⟨RingBuffer.toList_clear _, rfl⟩⟩
  | setPaused paused =>
      rw [minerSetPaused_eq]
      exact ⟨wf, .inr (.inr ⟨rfl, rfl⟩)⟩
  | pop =>
      refine ⟨RingBuffer.wf_pop wf, .inr (.inr ⟨rfl, ?_⟩)⟩
      obtain ⟨head, tail⟩ := RingBuffer.toList_pop wf
      simp only [poppedOf, head, tail]
      cases s.miner.shares.toList <;> rfl
  | _ => exact ⟨wf, .inr (.inr ⟨rfl, rfl⟩)⟩

/-- A share of a job that was set, made from a match its scan promised. -/
def ShareFrom (fits : MinerJob → Word × Vector Word 8 → Prop) (jobs : List MinerJob)
    (share : MinerShare) : Prop :=
  ∃ k job m, jobs[k]? = some job ∧ fits job m ∧ share = shareOf (numbered k job) m

theorem ShareFrom.extend {fits : MinerJob → Word × Vector Word 8 → Prop} {jobs : List MinerJob}
    {share : MinerShare} (is : ShareFrom fits jobs share) (more : List MinerJob) :
    ShareFrom fits (jobs ++ more) share := by
  obtain ⟨k, job, m, set, isFit, rfl⟩ := is
  have inside : k < jobs.length := (List.getElem?_eq_some_iff.mp set).1
  exact ⟨k, job, m, by rw [List.getElem?_append_left inside]; exact set, isFit, rfl⟩

/-- Every share that was ever queued and is still there, or was popped. -/
structure Sourced (fits : MinerJob → Word × Vector Word 8 → Prop) (jobs : List MinerJob)
    (s : System) (os : List Output) : Prop where
  traced : Traced fits jobs s
  wf : s.miner.shares.WF
  shares : ∀ share ∈ poppedOf os ++ s.miner.shares.toList, ShareFrom fits jobs share

theorem sourced_run (fits : MinerJob → Word × Vector Word 8 → Prop) (threads opencl cuda : Nat)
    (es : List Event) (fitting : ∀ e ∈ es, Fitting fits e) :
    Sourced fits (jobsOf es) (run (initial threads opencl cuda) es).1
      (run (initial threads opencl cuda) es).2 := by
  refine run_invariant (initial threads opencl cuda)
    (fun es s os => (∀ e ∈ es, Fitting fits e) → Sourced fits (jobsOf es) s os) ?_ ?_ es fitting
  · intro _
    exact {
      traced := traced_initial fits threads opencl cuda
      wf := ⟨Nat.zero_lt_succ _, rfl, Nat.zero_le _⟩
      shares := by simp [poppedOf, initial, minerStarted, RingBuffer.toList] }
  · intro es e s s' os os' change ih fitting
    have inv := ih fun e' member => fitting e' (by simp [member])
    have fit := fitting e (by simp)
    obtain ⟨wf, cases_⟩ := queue_cases change inv.wf
    have old : ∀ share ∈ poppedOf os ++ s.miner.shares.toList,
        ShareFrom fits (jobsOf (es ++ [e])) share := by
      intro share member
      rw [jobsOf_append]
      exact (inv.shares share member).extend _
    refine ⟨by rw [jobsOf_append]; exact traced_change change fit inv.traced, wf, ?_⟩
    rw [poppedOf_append]
    rcases cases_ with ⟨empty, quiet⟩ | ⟨w, copy, m, pending, held, -, -, -, -, queued, quiet⟩ |
      ⟨-, same⟩
    · intro share member
      rw [empty, quiet, List.append_nil, List.append_nil] at member
      exact old share (List.mem_append_left _ member)
    · intro share member
      rw [queued, quiet, List.append_nil, ← List.append_assoc] at member
      rcases List.mem_append.mp member with member | member
      · exact old share member
      · obtain ⟨k, job, is, all⟩ := inv.traced.copies w copy _ held
        rw [List.mem_singleton.mp member, is.publicJob, jobsOf_append]
        exact ShareFrom.extend ⟨k, job, m, is.set, all m (by simp), rfl⟩ _
    · rw [List.append_assoc, same]
      exact old

/-! ## Late results -/

theorem scanResultStillCurrentLocked_iff {miner : Miner} {copy : ActiveJob} :
    scanResultStillCurrentLocked miner copy = true ↔
      miner.stop = false ∧ miner.paused = false ∧ miner.pauseEpoch = copy.pauseEpoch ∧
        miner.job.publicJob.seq = copy.publicJob.seq := by
  simp [scanResultStillCurrentLocked, and_assoc]

/-- While sequence numbers do not wrap, a copy with the current number is a copy of
the current job. -/
theorem Traced.copy_current {fits : MinerJob → Word × Vector Word 8 → Prop}
    {jobs : List MinerJob} {s : System} (inv : Traced fits jobs s) (few : jobs.length < 2 ^ 64)
    {w : WorkerId} {copy : ActiveJob} {pending : List (Word × Vector Word 8)}
    (held : Holds s w copy pending)
    (current : scanResultStillCurrentLocked s.miner copy = true) :
    copy.publicJob = s.miner.job.publicJob := by
  obtain ⟨k, job, is, -⟩ := inv.copies w copy pending held
  have inside : k < jobs.length := (List.getElem?_eq_some_iff.mp is.set).1
  obtain ⟨job', is'⟩ := inv.current (List.ne_nil_of_length_pos (by omega))
  have sameSeq := (scanResultStillCurrentLocked_iff.mp current).2.2.2
  rw [inv.seq, is.publicJob, numbered] at sameSeq
  have sameNumber := congrArg BitVec.toNat sameSeq
  simp only [BitVec.toNat_ofNat, Nat.mod_eq_of_lt few,
    Nat.mod_eq_of_lt (show k + 1 < 2 ^ 64 by omega)] at sameNumber
  have last : k = jobs.length - 1 := by omega
  have sameJob : job = job' := by
    have := is.set
    rw [last, is'.set] at this
    exact (Option.some.inj this).symm
  rw [is.publicJob, is'.publicJob, last, sameJob]

/-- A share carries a job's number and texts. -/
def OfJob (share : MinerShare) (job : MinerJob) : Prop :=
  share.seq = job.seq ∧ share.jobId = job.jobId ∧ share.extranonce2 = job.extranonce2 ∧
    share.ntime = job.ntime

/-- The queue holds shares of the current job only. -/
theorem queue_current_run (threads opencl cuda : Nat) (es : List Event)
    (few : (jobsOf es).length < 2 ^ 64) :
    ∀ share ∈ (run (initial threads opencl cuda) es).1.miner.shares.toList,
      OfJob share (run (initial threads opencl cuda) es).1.miner.job.publicJob := by
  refine (run_invariant (initial threads opencl cuda)
    (fun es s _ => (jobsOf es).length < 2 ^ 64 → Traced (fun _ _ => True) (jobsOf es) s ∧
      s.miner.shares.WF ∧ ∀ share ∈ s.miner.shares.toList, OfJob share s.miner.job.publicJob)
    ?_ ?_ es few).2.2
  · intro _
    refine ⟨traced_initial _ threads opencl cuda, ⟨Nat.zero_lt_succ _, rfl, Nat.zero_le _⟩, ?_⟩
    simp [initial, minerStarted, RingBuffer.toList]
  · intro es e s s' os os' change ih few
    rw [jobsOf_append, List.length_append] at few
    obtain ⟨traced, wf, queue⟩ := ih (by omega)
    obtain ⟨wf', cases_⟩ := queue_cases change wf
    refine ⟨?_, wf', ?_⟩
    · rw [jobsOf_append]
      exact traced_change change (fun _ _ _ _ _ _ _ _ _ => trivial) traced
    · rcases cases_ with ⟨empty, -⟩ | ⟨w, copy, m, pending, held, -, sameJob, -, current, queued, -⟩ |
        ⟨samePublic, popped⟩
      · simp [empty]
      · have same := traced.copy_current (by omega) held current
        rw [queued, sameJob]
        intro share member
        rcases List.mem_append.mp member with member | member
        · exact queue share member
        · rw [List.mem_singleton.mp member, same]
          exact ⟨rfl, rfl, rfl, rfl⟩
      · intro share member
        rw [samePublic]
        exact queue share (popped ▸ List.mem_append_right _ member)

theorem seq_change {s s' : System} {e : Event} {os : List Output} (change : Change s e s' os) :
    s'.miner.job.publicJob.seq =
      s.miner.job.publicJob.seq + BitVec.ofNat 64 (jobsOf [e]).length := by
  rcases job_change change with ⟨job, rfl, isSet⟩ | ⟨noJob, publicJob, -⟩
  · rw [isSet]
    rfl
  · rw [noJob, publicJob]
    exact (BitVec.add_zero _).symm

/-- The sequence number counts job calls, modulo `2^64`. -/
theorem seq_run (s : System) (es : List Event) :
    (run s es).1.miner.job.publicJob.seq =
      s.miner.job.publicJob.seq + BitVec.ofNat 64 (jobsOf es).length := by
  refine run_invariant s (fun es s' _ => s'.miner.job.publicJob.seq =
    s.miner.job.publicJob.seq + BitVec.ofNat 64 (jobsOf es).length) (BitVec.add_zero _).symm ?_ es
  intro es e s₁ s₂ os os' change ih
  rw [seq_change change, ih, jobsOf_append, List.length_append, BitVec.ofNat_add, BitVec.add_assoc]

theorem epoch_change {s s' : System} {e : Event} {os : List Output} (change : Change s e s' os) :
    ∃ n ≤ pausesOf [e], s'.miner.pauseEpoch = s.miner.pauseEpoch + BitVec.ofNat 64 n := by
  have unchanged (epoch : BitVec 64) : ∃ n ≤ pausesOf [e], epoch = epoch + BitVec.ofNat 64 n :=
    ⟨0, Nat.zero_le _, (BitVec.add_zero epoch).symm⟩
  cases change with
  | report w batch scan copy count nonce hashWords pending ok holding =>
      obtain ⟨shares, same⟩ := queueScanMatch_frame s.miner copy nonce hashWords
      rw [same]
      exact unchanged _
  | finish w batch scan copy count holding =>
      obtain ⟨_, _, _, _, same⟩ := countHashes_frame s.miner w copy count
      rw [same]
      exact unchanged _
  | setPaused paused =>
      rw [minerSetPaused_eq]
      cases paused with
      | true =>
          simp only [Bool.and_true]
          split
          · exact ⟨1, le_rfl, rfl⟩
          · exact unchanged _
      | false => simpa using unchanged s.miner.pauseEpoch
  | _ => exact unchanged _

/-- The pause epoch grows by at most the number of pause calls, modulo `2^64`. -/
theorem epoch_run (s : System) (es : List Event) :
    ∃ n ≤ pausesOf es, (run s es).1.miner.pauseEpoch = s.miner.pauseEpoch + BitVec.ofNat 64 n := by
  refine run_invariant s (fun es s' _ => ∃ n ≤ pausesOf es, s'.miner.pauseEpoch =
    s.miner.pauseEpoch + BitVec.ofNat 64 n) ⟨0, le_rfl, (BitVec.add_zero _).symm⟩ ?_ es
  rintro es e s₁ s₂ os os' change ⟨n, least, ih⟩
  obtain ⟨m, least', step_⟩ := epoch_change change
  refine ⟨n + m, by rw [pausesOf_append]; omega, ?_⟩
  rw [step_, ih, BitVec.ofNat_add, BitVec.add_assoc]

/-- A worker that is handed nothing else keeps the copy it has. -/
theorem copy_kept {s : System} {w : WorkerId} {copy : ActiveJob}
    (only : ∀ copy' pending, Holds s w copy' pending → copy' = copy) (es : List Event)
    (quiet : ∀ job start count, Output.handed w job start count ∉ (run s es).2) :
    ∀ copy' pending, Holds (run s es).1 w copy' pending → copy' = copy := by
  refine run_invariant s (fun _ s' os => (∀ job start count, Output.handed w job start count ∉ os) →
    ∀ copy' pending, Holds s' w copy' pending → copy' = copy) (fun _ => only) ?_ es quiet
  intro es e s₁ s₂ os os' change ih quiet copy' pending held
  rcases held_change change held with ⟨more, held⟩ | ⟨start, count, handing⟩
  · refine ih (fun job start count member => ?_) copy' _ held
    exact quiet job start count (List.mem_append_left _ member)
  · refine absurd ?_ (quiet copy' start count)
    rw [handing.output]
    simp

/-- A worker that reports or finishes late leaves the miner as it is. -/
theorem late_step {s : System} {w : WorkerId} {copy : ActiveJob}
    {pending : List (Word × Vector Word 8)} (held : Holds s w copy pending)
    (late : scanResultStillCurrentLocked s.miner copy = false) (batch : Word) (scan : Scanner) :
    (step s (.worker w batch scan)).1.miner = s.miner := by
  obtain ⟨count, ok, held⟩ := held
  cases phase : s.workers w with
  | scanning copy' count' pending' ok' =>
      rw [phase] at held
      cases held
      simp only [step, workerStep, phase]
      cases pending with
      | nil =>
          cases ok with
          | true => exact countHashes_late late w count
          | false => rfl
      | cons m pending => exact queueScanMatch_late late m.1 m.2
  | top => rw [phase] at held; cases held
  | ready => rw [phase] at held; cases held
  | waiting => rw [phase] at held; cases held
  | blocked => rw [phase] at held; cases held
  | exited => rw [phase] at held; cases held

/-- In the run `before ++ e :: after`, event `e` handed worker `w` a range and the
worker is still busy with it. -/
structure StillScanning (s₀ : System) (before : List Event) (e : Event) (after : List Event)
    (w : WorkerId) : Prop where
  handed : ∃ job start count, .handed w job start count ∈ (step (run s₀ before).1 e).2
  only : ∀ job start count, .handed w job start count ∉ (run (run s₀ (before ++ [e])).1 after).2
  scanning : ∃ copy pending, Holds (run s₀ (before ++ e :: after)).1 w copy pending

/-- After the range was handed out by `e` a job was set or mining went from running
to paused, or mining is now paused or stopped. -/
def Late (s₀ : System) (before : List Event) (e : Event) (after : List Event) : Prop :=
  (∃ job, .setJob job ∈ after) ∨
    (∃ between rest, after = between ++ .setPaused true :: rest ∧
      (run s₀ (before ++ e :: between)).1.miner.paused = false) ∨
    (run s₀ (before ++ e :: after)).1.miner.paused = true ∨
    (run s₀ (before ++ e :: after)).1.miner.stop = true

theorem run_cons (s₀ : System) (before : List Event) (e : Event) (after : List Event) :
    (run s₀ (before ++ e :: after)).1 = (run (run s₀ (before ++ [e])).1 after).1 := by
  rw [List.append_cons, run_append]

/-- A handed range comes with the numbers of the moment it is handed out. -/
theorem handed_change {s s' : System} {e : Event} {os : List Output} (change : Change s e s' os)
    {w : WorkerId} {job : ActiveJob} {start count : Word}
    (handed : Output.handed w job start count ∈ os) :
    (∀ copy pending, Holds s' w copy pending → copy = job) ∧
      job.pauseEpoch = s'.miner.pauseEpoch ∧
      job.publicJob.seq = s'.miner.job.publicJob.seq := by
  cases change with
  | hand w' batch scan next start' range =>
      cases List.mem_singleton.mp handed
      refine ⟨?_, rfl, rfl⟩
      rintro copy pending ⟨count, ok, held⟩
      rcases held_update held with ⟨-, kept⟩ | ⟨other, -⟩
      · cases kept
        rfl
      · exact absurd rfl other
  | raise w' batch scan => cases List.mem_singleton.mp handed
  | take => cases List.mem_singleton.mp handed
  | pop => cases List.mem_singleton.mp handed
  | _ => cases handed

/-- A 64-bit counter does not come back to a value in fewer than `2^64` steps. -/
theorem add_ofNat_ne (x : BitVec 64) {n : Nat} (some_ : 0 < n) (few : n < 2 ^ 64) :
    x + BitVec.ofNat 64 n ≠ x := by
  intro same
  have zero := congrArg BitVec.toNat (add_eq_left.mp same)
  simp only [BitVec.toNat_ofNat, Nat.mod_eq_of_lt few, BitVec.ofNat_eq_ofNat, Nat.zero_mod] at zero
  omega

/-- The result of a range that is `Late` is not current. -/
theorem not_current_of_late {s₀ : System} {before after : List Event} {e : Event} {w : WorkerId}
    (busy : StillScanning s₀ before e after w) (late : Late s₀ before e after)
    (fewJobs : (jobsOf after).length < 2 ^ 64) (fewPauses : pausesOf after < 2 ^ 64)
    {copy : ActiveJob} {pending : List (Word × Vector Word 8)}
    (held : Holds (run s₀ (before ++ e :: after)).1 w copy pending) :
    scanResultStillCurrentLocked (run s₀ (before ++ e :: after)).1.miner copy = false := by
  by_contra current
  obtain ⟨running, unpaused, sameEpoch, sameSeq⟩ :=
    scanResultStillCurrentLocked_iff.mp (Bool.not_eq_false _ ▸ current)
  -- the copy is the one `e` handed out, with the numbers of that moment
  have handedCopy : copy.pauseEpoch = (run s₀ (before ++ [e])).1.miner.pauseEpoch ∧
      copy.publicJob.seq = (run s₀ (before ++ [e])).1.miner.job.publicJob.seq := by
    obtain ⟨job, start, count, handed⟩ := busy.handed
    obtain ⟨only, epoch, seq⟩ := handed_change (step_change _ e) handed
    rw [← run_singleton, ← congrArg Prod.fst (run_append s₀ before [e])] at only epoch seq
    rw [run_cons] at held
    cases copy_kept only after busy.only copy pending held
    exact ⟨epoch, seq⟩
  rw [handedCopy.1] at sameEpoch
  rw [handedCopy.2] at sameSeq
  rcases late with ⟨job, member⟩ | ⟨between, rest, rfl, wasRunning⟩ | paused | stopped
  · have some_ : 0 < (jobsOf after).length :=
      List.length_pos_of_mem (List.mem_filterMap.mpr ⟨_, member, rfl⟩)
    rw [run_cons, seq_run] at sameSeq
    exact add_ofNat_ne _ some_ fewJobs sameSeq
  · obtain ⟨n, least, epoch⟩ := epoch_run (run s₀ (before ++ [e])).1 between
    obtain ⟨m, least', epoch'⟩ :=
      epoch_run (run (run s₀ (before ++ e :: between)).1 [.setPaused true]).1 rest
    have paused : (run (run s₀ (before ++ e :: between)).1 [.setPaused true]).1.miner.pauseEpoch =
        (run s₀ (before ++ e :: between)).1.miner.pauseEpoch + 1 := by
      rw [run_singleton]
      simp [step, minerSetPaused, wasRunning]
    have total : (run s₀ (before ++ e :: (between ++ .setPaused true :: rest))).1 =
        (run (run (run s₀ (before ++ e :: between)).1 [.setPaused true]).1 rest).1 := by
      rw [← List.cons_append, ← List.append_assoc, run_cons, run_append]
    rw [total, epoch', paused, run_cons, epoch] at sameEpoch
    have count : pausesOf (between ++ .setPaused true :: rest) = pausesOf between + 1 + pausesOf rest := by
      rw [List.append_cons, pausesOf_append, pausesOf_append]
      rfl
    refine add_ofNat_ne (run s₀ (before ++ [e])).1.miner.pauseEpoch
      (show 0 < n + 1 + m by omega) (by omega) ?_
    rw [BitVec.ofNat_add, BitVec.ofNat_add, ← BitVec.add_assoc, ← BitVec.add_assoc]
    exact sameEpoch
  · rw [paused] at unpaused
    cases unpaused
  · rw [stopped] at running
    cases running

/-- **Only current shares are queued, late results are dropped.**  In every run from
a started miner, with fewer than `2^64` jobs and pauses, every queued share carries
the number, id, extranonce2 and time of the current job; and when a worker is still
busy with a range that is late, its next lock section leaves the miner as it is:
nothing is queued and no hash is counted. -/
theorem queue_current_late_results_dropped (threads opencl cuda : Nat) (es : List Event)
    (fewJobs : (jobsOf es).length < 2 ^ 64) (fewPauses : pausesOf es < 2 ^ 64) :
    (∀ share ∈ (run (initial threads opencl cuda) es).1.miner.shares.toList,
      OfJob share (run (initial threads opencl cuda) es).1.miner.job.publicJob) ∧
    ∀ before e after w, es = before ++ e :: after →
      StillScanning (initial threads opencl cuda) before e after w →
      Late (initial threads opencl cuda) before e after →
      ∀ batch scan, (step (run (initial threads opencl cuda) es).1 (.worker w batch scan)).1.miner =
        (run (initial threads opencl cuda) es).1.miner := by
  refine ⟨queue_current_run threads opencl cuda es fewJobs, ?_⟩
  rintro before e after w rfl busy late batch scan
  obtain ⟨copy, pending, held⟩ := busy.scanning
  have jobs : jobsOf (before ++ e :: after) = jobsOf (before ++ [e]) ++ jobsOf after := by
    rw [List.append_cons, jobsOf_append]
  have pauses : pausesOf (before ++ e :: after) = pausesOf (before ++ [e]) + pausesOf after := by
    rw [List.append_cons, pausesOf_append]
  rw [jobs, List.length_append] at fewJobs
  refine late_step held (not_current_of_late busy late ?_ ?_ held) batch scan
  · omega
  · omega

/-- A device still has a match to report when the pool sends the next job. -/
theorem queue_current_late_results_dropped_example :
    let report : Scanner := fun _ _ _ start _ => ([(start, Vector.replicate 8 0)], true)
    let turn : Event := .worker .cuda 1 report
    let end_ := (run (initial 0 0 1) [.setJob zeroJob, turn, turn, .setJob zeroJob]).1
    (step end_ turn).1.miner = end_.miner := by
  intro report turn end_
  refine (queue_current_late_results_dropped 0 0 1 [.setJob zeroJob, turn, turn, .setJob zeroJob]
    (by decide) (by decide)).2 [.setJob zeroJob, turn] turn [.setJob zeroJob] .cuda rfl
    ⟨⟨_, _, _, .head _⟩, ?_, ⟨_, _, _, _, rfl⟩⟩ (.inl ⟨zeroJob, .head _⟩) 1 report
  intro job start count member
  cases member

end BtcRig.Mining.Shares
