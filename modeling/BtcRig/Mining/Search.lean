/-
# BtcRig.Mining.Search — no solution of a job is missed

A job is solved by the nonces with which its header meets its target.  A worker that is
handed a range reports the solutions in it one by one, and each is queued only while the
range is still current.  `Searching` follows the ranges of one job from the moment it is
set: what a worker still has to report is on its way, what a counted range had to report
has been emitted.

* `current_back`: a result that is current now was current all the time;
* `search_exact`: once the nonces of a job are used up and every range was counted, the
  shares emitted are the solutions of the job, each once.
-/
import BtcRig.Mining.Devices

namespace BtcRig.Mining.Search

open BtcRig.Theory
open BtcRig.Theory.Words
open BtcRig.Hash.Sha256d
open BtcRig.Mining.Job
open BtcRig.Mining.State
open BtcRig.Mining.Workers
open BtcRig.Mining.Shares
open BtcRig.Mining.PoolView
open BtcRig.Mining.Unique (emitted)
open BtcRig.Mining.Nonces (raisedCount allocated_run)
open BtcRig.Mining.Ledger
open BtcRig.Mining.Devices

set_option autoImplicit false

/-! ## Solutions -/

/-- The header with this nonce meets the target. -/
def Solves (job : MinerJob) (nonce : Word) : Prop :=
  leNat (sha256d80 (withNonce job.header
    #v[byteAt nonce 0, byteAt nonce 1, byteAt nonce 2, byteAt nonce 3])) ≤ leNat job.target.toList

/-- What the portable scan reports of a nonce that solves the job. -/
def matchOf (job : MinerJob) (nonce : Word) : Word × Vector Word 8 :=
  (nonce, sha256dTailWordsFunc .fastC (activate job).midstate
    ((activate job).tailWords.setQuad3 (bswap32 nonce)))

/-- The matches of a range. -/
def matchesIn (job : MinerJob) (start count : Word) : List (Word × Vector Word 8) :=
  sha256dScanNonceRangeGeneric .fastC (activate job).midstate (activate job).tailWords
    (activate job).targetWords start count

theorem solves_iff (job : MinerJob) (nonce : Word) :
    Solves job nonce ↔ hashWordsMeetTarget (matchOf job nonce).2 (activate job).targetWords = true := by
  rw [hashWordsMeetTarget_iff, Solves, sha256d80_withNonce .fastC]
  rfl

theorem matchOf_mem {job : MinerJob} {start count nonce : Word} (low : start.toNat ≤ nonce.toNat)
    (high : nonce.toNat < start.toNat + count.toNat) (solves : Solves job nonce) :
    matchOf job nonce ∈ matchesIn job start count := by
  have isNonce : start + BitVec.ofNat 32 (nonce.toNat - start.toNat) = nonce := by
    have small := nonce.isLt
    apply BitVec.eq_of_toNat_eq
    rw [BitVec.toNat_add, BitVec.toNat_ofNat]
    omega
  refine List.mem_filterMap.mpr ⟨nonce.toNat - start.toNat, List.mem_range.mpr (by omega), ?_⟩
  simp only [isNonce]
  exact if_pos ((solves_iff job nonce).mp solves)

/-- A successful scan reports every match of its range. -/
def Thorough (job : MinerJob) (e : Event) : Prop :=
  ∀ w batch scan, e = .worker w batch scan → ∀ start count,
    (scan (activate job).midstate (activate job).tailWords (activate job).targetWords start count).2 =
        true →
      ∀ m ∈ matchesIn job start count, m ∈ (scan (activate job).midstate (activate job).tailWords
        (activate job).targetWords start count).1

/-! ## A result that is current was always current -/

/-- The pauses so far, and those before each copy was taken. -/
def Epochs (s : System) (pauses : Nat) : Prop :=
  ∃ p ≤ pauses, s.miner.pauseEpoch = BitVec.ofNat 64 p ∧ ∀ w copy pending, Holds s w copy pending →
    ∃ q ≤ p, copy.pauseEpoch = BitVec.ofNat 64 q ∧ (s.miner.paused = true → q < p)

section Step

variable {s s' : System} {e : Event} {os' : List Output}

/-- What an event other than a pause call leaves. -/
theorem paused_change (change : Change s e s' os') :
    (∃ paused, e = .setPaused paused ∧ s'.miner = minerSetPaused s.miner paused) ∨
      (s'.miner.paused = s.miner.paused ∧ s'.miner.pauseEpoch = s.miner.pauseEpoch) := by
  cases change with
  | report w batch scan copy count nonce hashWords pending ok holding =>
      obtain ⟨shares, same⟩ := queueScanMatch_frame s.miner copy nonce hashWords
      rw [same]
      exact .inr ⟨rfl, rfl⟩
  | finish w batch scan copy count holding =>
      obtain ⟨_, _, _, _, same⟩ := countHashes_frame s.miner w copy count
      rw [same]
      exact .inr ⟨rfl, rfl⟩
  | setPaused paused => exact .inl ⟨paused, rfl, rfl⟩
  | _ => exact .inr ⟨rfl, rfl⟩

/-- Nothing is handed out while mining is paused. -/
theorem handing_unpaused (change : Change s e s' os') {w : WorkerId} {copy : ActiveJob}
    {pending : List (Word × Vector Word 8)} {start count : Word}
    (handing : Handing s e s' os' w copy pending start count) : s.miner.paused = false := by
  have output := handing.output
  cases change with
  | hand w' batch scan next start' range running unpaused => exact unpaused
  | raise => simp at output
  | take => simp at output
  | pop => simp at output
  | _ => cases output

theorem epochs_change (change : Change s e s' os') {pauses : Nat} (inv : Epochs s pauses) :
    Epochs s' (pauses + pausesOf [e]) := by
  obtain ⟨p, atMost, epoch, copies⟩ := inv
  -- a copy that is held afterwards has an epoch of before
  have old : ∀ w copy pending, Holds s' w copy pending →
      ∃ q ≤ p, copy.pauseEpoch = BitVec.ofNat 64 q ∧ (s.miner.paused = true → q < p) := by
    intro w copy pending held
    rcases held_change change held with ⟨more, held⟩ | ⟨start, count, handing⟩
    · exact copies w copy _ held
    · refine ⟨p, le_rfl, ?_, fun paused => ?_⟩
      · rw [handing.copied]
        exact epoch
      · rw [handing_unpaused change handing] at paused
        cases paused
  rcases paused_change change with ⟨paused, rfl, isMiner⟩ | ⟨samePaused, sameEpoch⟩
  · rw [minerSetPaused_eq] at isMiner
    by_cases starts : (!s.miner.paused && paused) = true
    · obtain ⟨running, rfl⟩ : s.miner.paused = false ∧ paused = true := by simpa using starts
      have one : pausesOf [Event.setPaused true] = 1 := rfl
      refine ⟨p + 1, by omega, ?_, fun w copy pending held => ?_⟩
      · rw [isMiner]
        simp only [starts, if_true, epoch, BitVec.ofNat_add]
        rfl
      · obtain ⟨q, least, isEpoch, -⟩ := old w copy pending held
        exact ⟨q, by omega, isEpoch, fun _ => by omega⟩
    · refine ⟨p, by omega, ?_, fun w copy pending held => ?_⟩
      · rw [isMiner]
        simp only [if_neg starts, epoch]
      · obtain ⟨q, least, isEpoch, less⟩ := old w copy pending held
        refine ⟨q, least, isEpoch, fun isPaused => less ?_⟩
        rw [isMiner] at isPaused
        have asked : paused = true := isPaused
        cases unpaused : s.miner.paused with
        | true => rfl
        | false => exact absurd (by rw [unpaused, asked]; rfl) starts
  · refine ⟨p, by omega, by rw [sameEpoch, epoch], fun w copy pending held => ?_⟩
    rw [samePaused]
    exact old w copy pending held

/-- A result of the running job that is current afterwards was current before. -/
theorem current_back (change : Change s e s' os') (noJob : ∀ job, e ≠ .setJob job) {pauses : Nat}
    (epochs : Epochs s pauses) (few : pauses < 2 ^ 64) {w : WorkerId} {copy : ActiveJob}
    {pending : List (Word × Vector Word 8)} (held : Holds s w copy pending)
    (current : scanResultStillCurrentLocked s'.miner copy = true) :
    scanResultStillCurrentLocked s.miner copy = true := by
  obtain ⟨p, atMost, epoch, copies⟩ := epochs
  obtain ⟨q, least, isEpoch, less⟩ := copies w copy pending held
  obtain ⟨running, unpaused, sameEpoch, sameSeq⟩ := scanResultStillCurrentLocked_iff.mp current
  rw [scanResultStillCurrentLocked_iff]
  have seq : s.miner.job.publicJob.seq = copy.publicJob.seq := by
    rcases job_change change with ⟨job, isSet, -⟩ | ⟨-, publicJob, -⟩
    · exact absurd isSet (noJob job)
    · rw [← sameSeq, publicJob]
  have notStopped : s.miner.stop = false := by
    cases change with
    | report w batch scan copy count nonce hashWords pending ok holding =>
        obtain ⟨shares, same⟩ := queueScanMatch_frame s.miner copy nonce hashWords
        rwa [same] at running
    | finish w batch scan copy count holding =>
        obtain ⟨_, _, _, _, same⟩ := countHashes_frame s.miner w copy count
        rwa [same] at running
    | setPaused paused => rwa [minerSetPaused_eq] at running
    | stop => cases running
    | _ => exact running
  rcases paused_change change with ⟨paused, rfl, isMiner⟩ | ⟨samePaused, sameEpoch'⟩
  · -- only the end of a pause leaves mining unpaused, and then the copy is older than the pause
    rw [minerSetPaused_eq] at isMiner
    have resumed : paused = false := by rw [isMiner] at unpaused; exact unpaused
    have kept : s.miner.pauseEpoch = copy.pauseEpoch := by
      rw [← sameEpoch, isMiner, resumed]
      simp
    refine ⟨notStopped, ?_, kept, seq⟩
    by_contra isPaused
    have earlier := less (by simpa using isPaused)
    rw [epoch, isEpoch] at kept
    have same := congrArg BitVec.toNat kept
    rw [BitVec.toNat_ofNat, BitVec.toNat_ofNat] at same
    omega
  · exact ⟨notStopped, by rw [← samePaused, unpaused], by rw [← sameEpoch', sameEpoch], seq⟩

end Step

theorem epochs_run (threads opencl cuda : Nat) (es : List Event) :
    Epochs (run (initial threads opencl cuda) es).1 (pausesOf es) := by
  refine run_invariant (initial threads opencl cuda) (fun es s _ => Epochs s (pausesOf es)) ?_ ?_ es
  · refine ⟨0, le_rfl, rfl, ?_⟩
    rintro w copy pending ⟨count, ok, held⟩
    cases held
  · intro es e s s' os os' change ih
    rw [pausesOf_append]
    exact epochs_change change ih

/-! ## The ranges of one job -/

/-- The job in force since the ledger was begun, under its number. -/
structure InForce (job running : MinerJob) (miner : Miner) : Prop where
  publicJob : miner.job.publicJob = running
  midstate : miner.job.midstate = (activate job).midstate
  tailWords : miner.job.tailWords = (activate job).tailWords
  targetWords : miner.job.targetWords = (activate job).targetWords

theorem InForce.same {job running : MinerJob} {miner miner' : Miner} (inForce : InForce job running miner)
    (same : miner'.job = miner.job) : InForce job running miner' where
  publicJob := by rw [same, inForce.publicJob]
  midstate := by rw [same, inForce.midstate]
  tailWords := by rw [same, inForce.tailWords]
  targetWords := by rw [same, inForce.targetWords]

structure Searching (job running : MinerJob) (s : System) (ledger : List Entry) (os : List Output) :
    Prop where
  wf : s.miner.shares.WF
  inForce : InForce job running s.miner
  /-- Only shares of this job have been emitted. -/
  own : ∀ share ∈ emitted s os, share.seq = running.seq
  counted : ∀ x ∈ ledger, x.fate = .counted →
    ∀ m ∈ matchesIn job x.start x.count, shareOf running m ∈ emitted s os
  /-- A match of a range that is scanned is still to be reported, or has been emitted. -/
  scanning : ∀ x ∈ ledger, x.fate = .scanning → ∃ copy pending ok,
    (s.workers x.worker).held = some (copy, x.count, pending, ok) ∧ copy.publicJob = running ∧
      (ok = true → scanResultStillCurrentLocked s.miner copy = true →
        ∀ m ∈ matchesIn job x.start x.count, m ∈ pending ∨ shareOf running m ∈ emitted s os)

section Search

variable {job running : MinerJob} {s : System} {ledger : List Entry} {os : List Output}

/-- An event that moves no range, emits nothing and makes no result current. -/
theorem Searching.quiet (inv : Searching job running s ledger os) {s' : System} {os' : List Output}
    (wf : s'.miner.shares.WF) (same : emitted s' (os ++ os') = emitted s os)
    (inForce : InForce job running s'.miner) (held : ∀ w, (s'.workers w).held = (s.workers w).held)
    (back : ∀ w copy pending, Holds s w copy pending →
      scanResultStillCurrentLocked s'.miner copy = true →
        scanResultStillCurrentLocked s.miner copy = true) :
    Searching job running s' (ledger ++ []) (os ++ os') := by
  rw [List.append_nil]
  refine ⟨wf, inForce, by rw [same]; exact inv.own, by rw [same]; exact inv.counted, ?_⟩
  intro x member isScanning
  obtain ⟨copy, pending, ok, holds, isJob, reported⟩ := inv.scanning x member isScanning
  rw [same, held]
  exact ⟨copy, pending, ok, holds, isJob, fun isOk current =>
    reported isOk (back x.worker copy pending ⟨x.count, ok, holds⟩ current)⟩

theorem held_move {workers : WorkerId → Phase} {w : WorkerId} {p : Phase}
    (same : p.held = (workers w).held) (w' : WorkerId) :
    (Function.update workers w p w').held = (workers w').held := by
  by_cases is : w' = w
  · subst is
    rw [Function.update_self, same]
  · rw [Function.update_of_ne is]

theorem held_updated_self {miner : Miner} {workers : WorkerId → Phase} {w w' : WorkerId} {p : Phase}
    (same : w' = w) :
    ((System.mk miner (Function.update workers w p)).workers w').held = p.held := by
  rw [same]
  exact congrArg Phase.held (Function.update_self ..)

theorem held_updated_ne {miner : Miner} {workers : WorkerId → Phase} {w w' : WorkerId} {p : Phase}
    (other : w' ≠ w) :
    ((System.mk miner (Function.update workers w p)).workers w').held = (workers w').held :=
  congrArg Phase.held (Function.update_of_ne other ..)

theorem Searching.unchanged (inv : Searching job running s ledger os) :
    Searching job running s (ledger ++ []) (os ++ []) := by
  rw [List.append_nil, List.append_nil]
  exact inv

/-- A worker that holds nothing goes on holding nothing. -/
theorem Searching.move (inv : Searching job running s ledger os) {w : WorkerId} {p : Phase}
    (free : (s.workers w).held = none) (free' : p.held = none) :
    Searching job running (s.move w p) (ledger ++ []) (os ++ []) :=
  inv.quiet inv.wf (by rw [List.append_nil]; rfl) inv.inForce (held_move (free'.trans free.symm))
    fun _ _ _ _ => id

/-- A match is reported while there is room in the queue. -/
theorem Searching.report (inv : Searching job running s ledger os) {w : WorkerId} {copy : ActiveJob}
    {count nonce : Word} {hashWords : Vector Word 8} {pending : List (Word × Vector Word 8)} {ok : Bool}
    (phase : s.workers w = .scanning copy count ((nonce, hashWords) :: pending) ok)
    (room : s.miner.shares.toList.length < shareQueueSize) :
    Searching job running
      { miner := queueScanMatch s.miner copy nonce hashWords,
        workers := Function.update s.workers w (.scanning copy count pending ok) }
      (ledger ++ []) (os ++ []) := by
  rw [List.append_nil, List.append_nil]
  cases current : scanResultStillCurrentLocked s.miner copy with
  | false =>
      rw [queueScanMatch_late current]
      refine ⟨inv.wf, inv.inForce, inv.own, inv.counted, fun x member isScanning => ?_⟩
      obtain ⟨copy', pending', ok', holds, isJob, reported⟩ := inv.scanning x member isScanning
      by_cases same : x.worker = w
      · rw [same, phase] at holds
        cases holds
        refine ⟨copy, pending, ok, held_updated_self same, isJob, fun _ isCurrent => ?_⟩
        rw [current] at isCurrent
        cases isCurrent
      · exact ⟨copy', pending', ok', (held_updated_ne same).trans holds, isJob, reported⟩
  | true =>
      rw [queueScanMatch_current current]
      have pushed := RingBuffer.toList_push inv.wf (shareOf copy.publicJob (nonce, hashWords))
      rw [if_pos room] at pushed
      -- one share joins at the end
      have joined (workers : WorkerId → Phase) : emitted ⟨{ s.miner with
            shares := s.miner.shares.push (shareOf copy.publicJob (nonce, hashWords)) }, workers⟩ os =
          emitted s os ++ [shareOf copy.publicJob (nonce, hashWords)] := by
        rw [emitted, emitted, List.append_assoc, ← pushed]
      have seq := (scanResultStillCurrentLocked_iff.mp current).2.2.2
      refine ⟨RingBuffer.wf_push inv.wf _, inv.inForce.same rfl, ?_, ?_, fun x member isScanning => ?_⟩
      · rw [joined]
        intro share member
        rcases List.mem_append.mp member with old | new
        · exact inv.own share old
        · rw [List.mem_singleton.mp new, ← inv.inForce.publicJob, seq]
          rfl
      · rw [joined]
        exact fun x member isCounted m isMatch =>
          List.mem_append_left _ (inv.counted x member isCounted m isMatch)
      · rw [joined]
        obtain ⟨copy', pending', ok', holds, isJob, reported⟩ := inv.scanning x member isScanning
        by_cases same : x.worker = w
        · rw [same, phase] at holds
          cases holds
          refine ⟨copy, pending, ok, held_updated_self same, isJob,
            fun isOk _ m isMatch => ?_⟩
          rcases reported isOk current m isMatch with waits | old
          · rcases List.mem_cons.mp waits with rfl | later
            · exact .inr (List.mem_append_right _ (by rw [isJob]; exact List.mem_singleton_self _))
            · exact .inl later
          · exact .inr (List.mem_append_left _ old)
        · refine ⟨copy', pending', ok', (held_updated_ne same).trans holds, isJob,
            fun isOk isCurrent m isMatch => ?_⟩
          exact (reported isOk isCurrent m isMatch).imp id (List.mem_append_left _)

/-- A worker that has reported everything settles its range. -/
theorem Searching.finish (inv : Searching job running s ledger os) {w : WorkerId} {copy : ActiveJob}
    {count : Word} {ok : Bool} (phase : s.workers w = .scanning copy count [] ok) {miner : Miner}
    (shares : miner.shares = s.miner.shares) (sameJob : miner.job = s.miner.job)
    (back : ∀ copy, scanResultStillCurrentLocked miner copy = scanResultStillCurrentLocked s.miner copy) :
    Searching job running { miner := miner, workers := Function.update s.workers w .top }
      (settle w (endOf s.miner copy ok) ledger ++ []) (os ++ []) := by
  rw [List.append_nil (settle w _ ledger)]
  have same : emitted { miner := miner, workers := Function.update s.workers w .top } (os ++ []) =
      emitted s os := by
    rw [List.append_nil, emitted, emitted, shares]
  refine ⟨by rw [shares]; exact inv.wf, inv.inForce.same sameJob, by rw [same]; exact inv.own, ?_, ?_⟩
  · rw [same]
    intro x member isCounted m isMatch
    obtain ⟨y, isEntry, rfl⟩ := List.mem_map.mp member
    split at isCounted
    · rename_i settled
      obtain ⟨isWorker, isScanning⟩ := settled
      obtain ⟨copy', pending', ok', holds, -, reported⟩ := inv.scanning y isEntry isScanning
      rw [isWorker, phase] at holds
      cases holds
      obtain ⟨isOk, isCurrent⟩ := endOf_counted.mp isCounted
      rw [if_pos ⟨isWorker, isScanning⟩] at isMatch
      exact (reported isOk isCurrent m isMatch).resolve_left List.not_mem_nil
    · rename_i other
      rw [if_neg other] at isMatch
      exact inv.counted y isEntry isCounted m isMatch
  · rw [same]
    intro x member isScanning
    obtain ⟨y, isEntry, rfl⟩ := List.mem_map.mp member
    split at isScanning
    · -- a range that ended is not scanned any more
      exact absurd isScanning (endOf_ne_scanning _ _ _)
    · rename_i other
      rw [if_neg other]
      obtain ⟨copy', pending', ok', holds, isJob, reported⟩ := inv.scanning y isEntry isScanning
      have elsewhere : y.worker ≠ w := fun is => other ⟨is, isScanning⟩
      refine ⟨copy', pending', ok', (held_updated_ne elsewhere).trans holds, isJob, ?_⟩
      rw [back]
      exact reported

/-- A free worker is handed a range. -/
theorem Searching.hand (inv : Searching job running s ledger os) {w : WorkerId} {batch : Word}
    {scan : Scanner} (thorough : Thorough job (.worker w batch scan)) (free : (s.workers w).held = none)
    (next : BitVec 64) (start range : Word) (copy : ActiveJob)
    (copied : copy = { s.miner.job with pauseEpoch := s.miner.pauseEpoch }) :
    Searching job running
      { miner := { s.miner with nextNonce := next },
        workers := Function.update s.workers w (.scanning copy range
          (scan copy.midstate copy.tailWords copy.targetWords start range).1
          (scan copy.midstate copy.tailWords copy.targetWords start range).2) }
      (ledger ++ [⟨w, start, range, .scanning⟩]) (os ++ [.handed w copy start range]) := by
  have same (workers : WorkerId → Phase) : emitted ⟨{ s.miner with nextNonce := next }, workers⟩
      (os ++ [.handed w copy start range]) = emitted s os := by
    rw [emitted, emitted, poppedOf_append]
    exact congrArg (· ++ s.miner.shares.toList) (List.append_nil _)
  have isJob : copy.publicJob = running := by rw [copied]; exact inv.inForce.publicJob
  have isMidstate : copy.midstate = (activate job).midstate := by rw [copied]; exact inv.inForce.midstate
  have isTail : copy.tailWords = (activate job).tailWords := by rw [copied]; exact inv.inForce.tailWords
  have isTarget : copy.targetWords = (activate job).targetWords := by
    rw [copied]
    exact inv.inForce.targetWords
  refine ⟨inv.wf, inv.inForce.same rfl, by rw [same]; exact inv.own, ?_, ?_⟩
  · rw [same]
    intro x member isCounted
    rcases List.mem_append.mp member with old | new
    · exact inv.counted x old isCounted
    · rw [List.mem_singleton.mp new] at isCounted
      cases isCounted
  · rw [same]
    intro x member isScanning
    rcases List.mem_append.mp member with old | new
    · obtain ⟨copy', pending', ok', holds, isJob', reported⟩ := inv.scanning x old isScanning
      have elsewhere : x.worker ≠ w := by
        intro is
        rw [is, free] at holds
        cases holds
      exact ⟨copy', pending', ok', (held_updated_ne elsewhere).trans holds, isJob', reported⟩
    · rw [List.mem_singleton.mp new]
      refine ⟨copy, _, _, held_updated_self rfl, isJob, fun isOk _ m isMatch => .inl ?_⟩
      rw [isMidstate, isTail, isTarget] at isOk ⊢
      exact thorough w batch scan rfl start range isOk m isMatch

theorem searching_worker (inv : Searching job running s ledger os) {w : WorkerId} {batch : Word}
    {scan : Scanner} (thorough : Thorough job (.worker w batch scan))
    (room : s.miner.shares.toList.length < shareQueueSize) :
    Searching job running (workerStep s w batch scan).1
      (settledBy s (.worker w batch scan) ledger ++ openedBy (workerStep s w batch scan).2)
      (os ++ (workerStep s w batch scan).2) := by
  cases phase : s.workers w with
  | top =>
      have free : (s.workers w).held = none := by rw [phase]; rfl
      simp only [workerStep, settledBy, phase]
      split
      · exact inv.move free rfl
      · split
        · exact inv.move free rfl
        · exact inv.move free rfl
  | ready =>
      have free : (s.workers w).held = none := by rw [phase]; rfl
      simp only [workerStep, settledBy, phase]
      rcases copyJobAndNonceRangeSized_cases s.miner (batchOf s.miner batch w) with
        idle | ⟨-, -, valid, -, exhausted⟩ | ⟨-, -, -, next, start, range, -, -, -, -, handed⟩
      · rw [idle]
        simp only [Bool.and_not_self, Bool.false_eq_true, if_false]
        exact inv.move free rfl
      · rw [exhausted]
        simp only [valid, Bool.not_false, Bool.and_self, if_true]
        refine inv.quiet inv.wf ?_ ⟨inv.inForce.publicJob, inv.inForce.midstate,
          inv.inForce.tailWords, inv.inForce.targetWords⟩ (held_move free.symm) fun _ _ _ _ => id
        rw [emitted, emitted, poppedOf_append]
        exact congrArg (· ++ s.miner.shares.toList) (List.append_nil _)
      · rw [handed]
        exact inv.hand thorough free next start range _ rfl
  | waiting =>
      have free : (s.workers w).held = none := by rw [phase]; rfl
      simp only [workerStep, settledBy, phase]
      split
      · exact inv.move free rfl
      · exact inv.move free rfl
  | blocked =>
      simp only [workerStep, settledBy, phase]
      exact inv.unchanged
  | scanning copy count pending ok =>
      cases pending with
      | cons m pending =>
          simp only [workerStep, settledBy, phase]
          exact inv.report phase room
      | nil =>
          cases ok with
          | true =>
              simp only [workerStep, settledBy, phase]
              obtain ⟨_, _, _, _, same⟩ := countHashes_frame s.miner w copy count
              rw [same]
              exact inv.finish phase rfl rfl fun _ => rfl
          | false =>
              simp only [workerStep, settledBy, phase]
              exact inv.finish phase rfl rfl fun _ => rfl
  | exited =>
      simp only [workerStep, settledBy, phase]
      exact inv.unchanged

/-- One event that is no job change, while there is room in the queue. -/
theorem searching_step (inv : Searching job running s ledger os) (e : Event)
    (noJob : ∀ job, e ≠ .setJob job) (thorough : Thorough job e)
    (room : s.miner.shares.toList.length < shareQueueSize) {pauses : Nat} (epochs : Epochs s pauses)
    (few : pauses < 2 ^ 64) :
    Searching job running (step s e).1 (settledBy s e ledger ++ openedBy (step s e).2)
      (os ++ (step s e).2) := by
  have back : ∀ w copy pending, Holds s w copy pending →
      scanResultStillCurrentLocked (step s e).1.miner copy = true →
        scanResultStillCurrentLocked s.miner copy = true := fun w copy pending held =>
    current_back (step_change s e) noJob epochs few held
  cases e with
  | worker w batch scan => exact searching_worker inv thorough room
  | spurious w =>
      simp only [step, settledBy]
      split
      · rename_i asleep
        have free : (s.workers w).held = none := by rw [asleep]; rfl
        exact inv.move free rfl
      · exact inv.unchanged
  | setJob job => exact absurd rfl (noJob job)
  | setPaused paused =>
      refine inv.quiet ?_ ?_ ?_ (held_broadcast s.workers) back
      · simp only [step, minerSetPaused_eq]
        exact inv.wf
      · simp only [step, minerSetPaused_eq, List.append_nil]
        rfl
      · simp only [step, minerSetPaused_eq]
        exact inv.inForce.same rfl
  | stop =>
      cases started : s.miner.started with
      | true =>
          have stopped : step s .stop =
              ({ miner := { s.miner with stop := true }, workers := broadcast s.workers }, []) := by
            simp [step, minerStop, started]
          rw [stopped] at back ⊢
          exact inv.quiet inv.wf (by rw [List.append_nil]; rfl) (inv.inForce.same rfl)
            (held_broadcast s.workers) back
      | false =>
          have ignored : step s .stop = (s, []) := by simp [step, minerStop, started]
          rw [ignored]
          exact inv.unchanged
  | takeNonceExhausted =>
      refine inv.quiet inv.wf ?_ (inv.inForce.same rfl) (fun _ => rfl) back
      simp only [step, emitted, poppedOf_append]
      exact congrArg (· ++ s.miner.shares.toList) (List.append_nil _)
  | popShare =>
      obtain ⟨oldest, rest⟩ := RingBuffer.toList_pop inv.wf
      refine inv.quiet (RingBuffer.wf_pop inv.wf) ?_ (inv.inForce.same rfl) (fun _ => rfl) back
      have moved : poppedOf [.popped s.miner.shares.pop.1] ++ s.miner.shares.pop.2.toList =
          s.miner.shares.toList := by
        rw [oldest, rest]
        cases s.miner.shares.toList <;> rfl
      simp only [step, minerPopShare, emitted, poppedOf_append, List.append_assoc]
      rw [moved]

end Search

/-! ## Whole runs -/

/-- A job that is set begins with an empty queue and no ranges. -/
theorem searching_setJob (s₀ : System) (job : MinerJob) :
    Searching job (step s₀ (.setJob job)).1.miner.job.publicJob (step s₀ (.setJob job)).1 [] [] where
  wf := RingBuffer.wf_clear (by decide)
  inForce := ⟨rfl, rfl, rfl, rfl⟩
  own := by simp [emitted, step, minerSetJob, poppedOf]
  counted := by simp
  scanning := by simp

/-- Up to the next job, while the queue never fills. -/
theorem searching_run {s₀ : System} {pauses : Nat} (epochs : Epochs s₀ pauses) (job : MinerJob)
    (es : List Event) (noJob : ∀ e ∈ es, ∀ job, e ≠ .setJob job)
    (thorough : ∀ e ∈ es, Thorough job e)
    (room : ∀ before, before <+: es →
      (run (step s₀ (.setJob job)).1 before).1.miner.shares.toList.length < shareQueueSize)
    (few : pauses + pausesOf es < 2 ^ 64) :
    Searching job (step s₀ (.setJob job)).1.miner.job.publicJob (run (step s₀ (.setJob job)).1 es).1
      (ledgerOf (step s₀ (.setJob job)).1 es) (run (step s₀ (.setJob job)).1 es).2 := by
  have start : Epochs (step s₀ (.setJob job)).1 pauses := epochs_change (step_change s₀ _) epochs
  generalize isStart : (step s₀ (.setJob job)).1 = s₁ at start room ⊢
  refine ((book_invariant s₁ (fun es s ledger os => s = (run s₁ es).1 ∧
    ((∀ e ∈ es, (∀ job, e ≠ .setJob job) ∧ Thorough job e) →
      (∀ before, before <+: es → (run s₁ before).1.miner.shares.toList.length < shareQueueSize) →
      pauses + pausesOf es < 2 ^ 64 →
      Epochs s (pauses + pausesOf es) ∧ Searching job s₁.miner.job.publicJob s ledger os))
    ⟨rfl, fun _ _ _ => ⟨start, ?_⟩⟩ ?_ es).2 (fun e member => ⟨noJob e member, thorough e member⟩) room
    few).2
  · rw [← isStart]
    exact searching_setJob s₀ job
  · rintro es e s ledger os ⟨rfl, ih⟩
    refine ⟨by rw [run_append, run_singleton], fun each room few => ?_⟩
    rw [pausesOf_append] at few
    obtain ⟨epochs, searching⟩ := ih (fun e' member => each e' (List.mem_append_left _ member))
      (fun before isPrefix => room before (isPrefix.trans (List.prefix_append es [e]))) (by omega)
    obtain ⟨noJob, thorough⟩ := each e (by simp)
    refine ⟨?_, searching_step searching e noJob thorough (room es (List.prefix_append es [e])) epochs
      (by omega)⟩
    rw [pausesOf_append, ← Nat.add_assoc]
    exact epochs_change (step_change _ e) epochs

/-! ## A fleet -/

theorem ledgerOf_guardedEvent (s : System) (es : List Event) : ledgerOf s (es.map guardedEvent) = ledgerOf s es := by
  have same (r : System × List Entry) (e : Event) : bookStep r (guardedEvent e) = bookStep r e := by
    have settled : settledBy r.1 (guardedEvent e) r.2 = settledBy r.1 e r.2 := by cases e <;> rfl
    rw [bookStep, bookStep, step_guardedEvent, settled]
  have runs : bookRun s (es.map guardedEvent) = bookRun s es := by
    induction es using List.reverseRecOn with
    | nil => rfl
    | append_singleton es e ih =>
        rw [bookRun] at ih
        rw [List.map_append, List.map_singleton, bookRun, bookRun, Machine.exec_snoc,
          Machine.exec_snoc, ih, Machine.extend, Machine.extend, same]
        rfl
  rw [ledgerOf, ledgerOf, runs]

theorem pausesOf_guardedEvent (es : List Event) : pausesOf (es.map guardedEvent) = pausesOf es := by
  rw [pausesOf, pausesOf, List.countP_map]
  refine List.countP_congr fun e _ => ?_
  cases e <;> rfl

/-- No range of a device has more matches than its buffer has room for. -/
structure Sparse (fleet : Fleet) (job : MinerJob) : Prop where
  opencl : ∀ id (start count : Word), start.toNat + count.toNat ≤ 2 ^ 32 →
    count.toNat ≤ (batchLimit (fleet.opencl id).miner.batchSize).toNat →
      (matchesIn job start count).length ≤ (fleet.opencl id).miner.maxResults.toNat
  cuda : ∀ start count : Word, start.toNat + count.toNat ≤ 2 ^ 32 →
    count.toNat ≤ (batchLimit fleet.cuda.miner.batchSize).toNat →
      (matchesIn job start count).length ≤ fleet.cuda.miner.maxResults.toNat

/-- A guarded scan only succeeds on ranges that can be handed out. -/
theorem guarded_inside {limit : Word} {scan : Scanner} {midstate : Sha256Midstate}
    {tailWords : Vector Word 4} {targetWords : Vector Word 8} {start count : Word}
    (success : (guarded limit scan midstate tailWords targetWords start count).2 = true) :
    start.toNat + count.toNat ≤ 2 ^ 32 ∧ count.toNat ≤ limit.toNat := by
  unfold guarded at success
  split at success
  · assumption
  · cases success

theorem thorough_fleet {fleet : Fleet} {job : MinerJob} (sparse : Sparse fleet job) {e : Event}
    (isFleet : FromFleet fleet e) : Thorough job (guardedEvent e) := by
  intro w batch scan isWorker start count success m isMatch
  have full : (job.header.toList.take 64).length = 64 := by simp
  obtain ⟨hash, scans⟩ := fleet_scans isFleet isWorker (activate job).midstate (activate job).tailWords
    (activate job).targetWords start count
  have plain := scans.portable _ full rfl
  have room : ∀ most ∈ fleet.room w, (matchesIn job start count).length ≤ most := by
    cases isFleet with
    | cpu id batch =>
        cases isWorker
        simp [Fleet.room]
    | opencl id driver =>
        cases isWorker
        obtain ⟨within, few⟩ := guarded_inside success
        intro most isMost
        rw [← Option.some.inj isMost]
        exact sparse.opencl id start count within few
    | cuda driver =>
        cases isWorker
        obtain ⟨within, few⟩ := guarded_inside success
        intro most isMost
        rw [← Option.some.inj isMost]
        exact sparse.cuda start count within few
    | other e noWorker =>
        cases e with
        | worker w' batch' scan' => exact absurd rfl (noWorker w' batch' scan')
        | _ => cases isWorker
  have perm := scans.reports.all success (by rw [plain]; exact room)
  rw [plain] at perm
  exact perm.symm.subset isMatch

section Exact

variable {fleet : Fleet} (threads opencl cuda : Nat) {es₀ es : List Event} {job : MinerJob}

theorem run_setJob (s₀ : System) (job : MinerJob) (es₀ es : List Event) :
    (run s₀ (es₀ ++ .setJob job :: es)).1 = (run (step (run s₀ es₀).1 (.setJob job)).1 es).1 ∧
      (run s₀ (es₀ ++ .setJob job :: es)).2 =
        (run s₀ es₀).2 ++ (run (step (run s₀ es₀).1 (.setJob job)).1 es).2 := by
  rw [List.append_cons, run_append, run_append, run_singleton]
  exact ⟨rfl, by simp [step]⟩

theorem jobsOf_setJob (es₀ : List Event) (job : MinerJob) (noJob : ∀ e ∈ es, ∀ job, e ≠ .setJob job) :
    jobsOf (es₀ ++ .setJob job :: es) = jobsOf es₀ ++ [job] := by
  have none_ : jobsOf es = [] := by
    apply List.filterMap_eq_nil_iff.mpr
    intro e member
    cases e with
    | setJob job' => exact absurd rfl (noJob _ member job')
    | _ => rfl
  rw [← List.singleton_append, jobsOf_append, jobsOf_append, none_]
  rfl

/-- A job change is no scan, so it may stand between the runs of a fleet. -/
theorem fromFleet_setJob (job : MinerJob) (isFleet : ∀ e ∈ es₀ ++ es, FromFleet fleet e) :
    ∀ e ∈ es₀ ++ .setJob job :: es, FromFleet fleet e := by
  intro e member
  rcases List.mem_append.mp member with before | after
  · exact isFleet e (List.mem_append_left _ before)
  · rcases List.mem_cons.mp after with rfl | later
    · exact .other _ fun w batch scan => by simp
    · exact isFleet e (List.mem_append_right _ later)

theorem noJob_guardedEvent (noJob : ∀ e ∈ es, ∀ job, e ≠ .setJob job) :
    ∀ e ∈ es.map guardedEvent, ∀ job, e ≠ .setJob job := by
  intro e member job
  obtain ⟨e, isEvent, rfl⟩ := List.mem_map.mp member
  have other := noJob e isEvent job
  cases e with
  | setJob job => exact other
  | _ => exact fun is => by cases is

/-- The run of a fleet since a job was set, with the ranges it was handed: the scans guarded
against ranges that are never handed out make the same run, and those are thorough. -/
theorem searching_fleet {s₀ : System} {pauses : Nat} (epochs : Epochs s₀ pauses)
    (isFleet : ∀ e ∈ es, FromFleet fleet e) (noJob : ∀ e ∈ es, ∀ job, e ≠ .setJob job)
    (sparse : Sparse fleet job) (few : pauses + pausesOf es < 2 ^ 64)
    (room : ∀ before, before <+: es →
      (run (step s₀ (.setJob job)).1 before).1.miner.shares.toList.length < shareQueueSize) :
    Searching job (step s₀ (.setJob job)).1.miner.job.publicJob (run (step s₀ (.setJob job)).1 es).1
      (ledgerOf (step s₀ (.setJob job)).1 es) (run (step s₀ (.setJob job)).1 es).2 := by
  rw [← run_guardedEvent, ← ledgerOf_guardedEvent]
  apply searching_run epochs job (es.map guardedEvent) (noJob_guardedEvent noJob)
  · intro e member
    obtain ⟨e, isEvent, rfl⟩ := List.mem_map.mp member
    exact thorough_fleet sparse (isFleet e isEvent)
  · intro before isPrefix
    obtain ⟨before, isPart, rfl⟩ := List.prefix_map_iff.mp isPrefix
    rw [run_guardedEvent]
    exact room before isPart
  · rwa [pausesOf_guardedEvent]

/-- The number of the job that is set after `es₀`. -/
theorem seq_setJob (es₀ : List Event) (job : MinerJob) :
    (step (run (initial threads opencl cuda) es₀).1 (.setJob job)).1.miner.job.publicJob.seq =
      BitVec.ofNat 64 ((jobsOf es₀).length + 1) := by
  have zero : (initial threads opencl cuda).miner.job.publicJob.seq = 0 := rfl
  have seq := seq_run (initial threads opencl cuda) (es₀ ++ [.setJob job])
  have one : (jobsOf (es₀ ++ [.setJob job])).length = (jobsOf es₀).length + 1 := by
    rw [jobsOf_append, List.length_append]
    rfl
  rw [one, zero, BitVec.ofNat_eq_ofNat, BitVec.zero_add] at seq
  rw [← seq, (run_setJob (initial threads opencl cuda) job es₀ []).1]
  rfl

/-- A share of the running job is a solution. -/
theorem solves_of_from {jobs : List MinerJob} {share : MinerShare} (isFrom : ShareFrom Found jobs share)
    {k : Nat} (set : jobs[k]? = some job) (few : jobs.length < 2 ^ 64)
    (seq : share.seq = BitVec.ofNat 64 (k + 1)) : Solves job share.nonce := by
  obtain ⟨k', job', m, set', ⟨⟨backend, isHash⟩, meets⟩, rfl⟩ := isFrom
  have inside : k < jobs.length := (List.getElem?_eq_some_iff.mp set).1
  have inside' : k' < jobs.length := (List.getElem?_eq_some_iff.mp set').1
  have same : k' = k := by
    have numbers := congrArg BitVec.toNat (show BitVec.ofNat 64 (k' + 1) = BitVec.ofNat 64 (k + 1) from seq)
    rw [BitVec.toNat_ofNat, BitVec.toNat_ofNat] at numbers
    omega
  subst same
  obtain rfl : job' = job := Option.some.inj (set'.symm.trans set)
  show Solves job' m.1
  rw [Solves, sha256d80_withNonce backend, ← isHash]
  exact (hashWordsMeetTarget_iff job' m.2).mp meets

/-- When the exhausted flag was raised every nonce lies in a range of the ledger. -/
theorem entry_of_raised {s₀ : System} (noJob : ∀ e ∈ es, ∀ job, e ≠ .setJob job)
    (raised : raisedCount (run (step s₀ (.setJob job)).1 es).2 = 1) (nonce : Word) :
    ∃ x ∈ ledgerOf (step s₀ (.setJob job)).1 es, nonce.toNat ∈ x.nonces := by
  have inv := allocated_run s₀ job es noJob
  have used : (run (step s₀ (.setJob job)).1 es).1.miner.nextNonce.toNat = 2 ^ 32 := by
    cases valid : (run (step s₀ (.setJob job)).1 es).1.miner.job.valid with
    | true =>
        have none_ := inv.open_ valid
        omega
    | false => exact (inv.used valid).2
  have chain := inv.chain
  rw [used] at chain
  obtain ⟨r, member, inside⟩ :=
    (Intervals.consecutive_cover chain nonce.toNat).mpr ⟨Nat.zero_le _, nonce.isLt⟩
  rw [← map_range_ledgerOf] at member
  obtain ⟨x, isEntry, rfl⟩ := List.mem_map.mp member
  exact ⟨x, isEntry, inside⟩

end Exact

/-- **A job is searched exactly.**  A fleet is given a job, after any run and up to the next
job: the shares it emits are solutions of the job, no nonce twice; every solution in a range
that was counted is among them; so when the nonces are used up and all ranges were counted,
they are the solutions of the job.  The queue must not fill, nor a device's buffer. -/
theorem search_exact (fleet : Fleet) (threads opencl cuda : Nat) (es₀ : List Event) (job : MinerJob)
    (es : List Event) (isFleet : ∀ e ∈ es₀ ++ es, FromFleet fleet e)
    (noJob : ∀ e ∈ es, ∀ job, e ≠ .setJob job) (sparse : Sparse fleet job)
    (fewJobs : (jobsOf es₀).length + 1 < 2 ^ 64) (fewPauses : pausesOf es₀ + pausesOf es < 2 ^ 64)
    (room : ∀ before, before <+: es →
      (run (step (run (initial threads opencl cuda) es₀).1 (.setJob job)).1
        before).1.miner.shares.toList.length < shareQueueSize) :
    let s := (step (run (initial threads opencl cuda) es₀).1 (.setJob job)).1
    let found := (emitted (run s es).1 (run s es).2).map MinerShare.nonce
    found.Nodup ∧ (∀ nonce ∈ found, Solves job nonce) ∧
      (∀ x ∈ ledgerOf s es, x.fate = .counted → ∀ nonce : Word, nonce.toNat ∈ x.nonces →
        Solves job nonce → nonce ∈ found) ∧
      (raisedCount (run s es).2 = 1 → (∀ x ∈ ledgerOf s es, x.fate = .counted) →
        ∀ nonce, nonce ∈ found ↔ Solves job nonce) := by
  intro s found
  have whole := fromFleet_setJob job isFleet
  have jobs := jobsOf_setJob es₀ job noJob
  have length : (jobsOf es₀ ++ [job]).length < 2 ^ 64 := by simpa using fewJobs
  obtain ⟨sameState, sameOutputs⟩ := run_setJob (initial threads opencl cuda) job es₀ es
  have sourced := sourced_fleet threads opencl cuda whole
  have distinct := distinct_fleet threads opencl cuda whole (by rw [jobs]; exact length)
  rw [jobs, sameState, sameOutputs] at sourced distinct
  have searching : Searching job s.miner.job.publicJob (run s es).1 (ledgerOf s es) (run s es).2 :=
    searching_fleet (epochs_run threads opencl cuda es₀)
      (fun e member => isFleet e (List.mem_append_right _ member)) noJob sparse fewPauses room
  have seq : s.miner.job.publicJob.seq = BitVec.ofNat 64 ((jobsOf es₀).length + 1) :=
    seq_setJob threads opencl cuda es₀ job
  have inside {share : MinerShare} (member : share ∈ emitted (run s es).1 (run s es).2) :
      share ∈ poppedOf ((run (initial threads opencl cuda) es₀).2 ++ (run s es).2) ++
        (run s es).1.miner.shares.toList := by
    rw [poppedOf_append, List.append_assoc]
    exact List.mem_append_right _ member
  have nodup : found.Nodup := by
    have keys := distinct.keys
    rw [emitted, poppedOf_append, List.append_assoc, List.map_append] at keys
    have later := keys.of_append_right
    have numbered : (emitted (run s es).1 (run s es).2).map Unique.keyOf =
        found.map fun nonce => (s.miner.job.publicJob.seq, nonce) := by
      rw [List.map_map]
      refine List.map_congr_left fun share member => ?_
      exact Prod.ext (searching.own share member) rfl
    exact (numbered ▸ later : (found.map _).Nodup).of_map
  have sound : ∀ nonce ∈ found, Solves job nonce := by
    intro nonce member
    obtain ⟨share, isShare, rfl⟩ := List.mem_map.mp member
    refine solves_of_from (sourced.shares share (inside isShare)) (k := (jobsOf es₀).length) ?_ length ?_
    · rw [List.getElem?_append_right le_rfl, Nat.sub_self]
      rfl
    · rw [searching.own share isShare, seq]
  have complete : ∀ x ∈ ledgerOf s es, x.fate = .counted → ∀ nonce : Word, nonce.toNat ∈ x.nonces →
      Solves job nonce → nonce ∈ found := by
    intro x member isCounted nonce isIn solves
    have isMatch := matchOf_mem isIn.1 isIn.2 solves
    exact List.mem_map.mpr ⟨_, searching.counted x member isCounted _ isMatch, rfl⟩
  refine ⟨nodup, sound, complete, fun raised all nonce => ⟨sound nonce, fun solves => ?_⟩⟩
  obtain ⟨x, member, isIn⟩ := entry_of_raised noJob raised nonce
  exact complete x member (all x member) nonce isIn solves

/-- A range that is no longer than the buffer cannot fill it. -/
theorem matchesIn_length (job : MinerJob) (start count : Word) :
    (matchesIn job start count).length ≤ count.toNat := by
  have := List.length_filterMap_le (fun i =>
    let nonce := start + BitVec.ofNat 32 i
    let tailWords := (activate job).tailWords.setQuad3 (bswap32 nonce)
    let hashWords := sha256dTailWordsFunc .fastC (activate job).midstate tailWords
    if hashWordsMeetTarget hashWords (activate job).targetWords then some (nonce, hashWords) else none)
    (List.range count.toNat)
  rwa [List.length_range] at this

/-- One event adds at most one share to the queue. -/
theorem queue_length_run (s : System) (wf : s.miner.shares.WF) (es : List Event) :
    (run s es).1.miner.shares.WF ∧
      (run s es).1.miner.shares.toList.length ≤ s.miner.shares.toList.length + es.length := by
  refine run_invariant s (fun es s' _ => s'.miner.shares.WF ∧
    s'.miner.shares.toList.length ≤ s.miner.shares.toList.length + es.length) ⟨wf, le_rfl⟩ ?_ es
  rintro es e s₁ s₂ os os' change ⟨wf, few⟩
  obtain ⟨wf', cases_⟩ := queue_cases change wf
  refine ⟨wf', ?_⟩
  rw [List.length_append, List.length_singleton]
  rcases cases_ with ⟨empty, -⟩ | ⟨_, _, _, _, -, -, -, -, -, queued, -⟩ | ⟨-, popped⟩
  · rw [empty]
    exact Nat.zero_le _
  · rw [queued, List.length_append, List.length_singleton]
    omega
  · have := congrArg List.length popped
    rw [List.length_append] at this
    omega

/-- Nine steps of each worker of the mixed fleet. -/
theorem search_exact_example :
    ∃ driver : Devices.CudaDriver mixedFleet.cuda.miner,
      (∀ job start count, (driver.calls job start count).Succeed) ∧
      let s := (step (run (initial 1 1 1) []).1 (.setJob zeroJob)).1
      let es := (List.replicate 9 (mixedTurn driver)).flatten
      ∀ x ∈ ledgerOf s es, x.fate = .counted → ∀ nonce : Word, nonce.toNat ∈ x.nonces →
        Solves zeroJob nonce → nonce ∈ (emitted (run s es).1 (run s es).2).map MinerShare.nonce := by
  obtain ⟨driver, succeed⟩ := exists_cudaDriver mixedFleet.cuda.miner
  refine ⟨driver, succeed, ?_⟩
  have turns := mixedTurns_fleet driver 9
  have small : ∀ {count : Word}, count.toNat ≤ (batchLimit (1024 : Word)).toNat → count.toNat ≤ 1024 := id
  refine (search_exact mixedFleet 1 1 1 [] zeroJob (List.replicate 9 (mixedTurn driver)).flatten turns ?_
    ⟨?_, ?_⟩ (by decide) ?_ ?_).2.2.1
  · intro e member job
    obtain ⟨w, batch, scan, rfl⟩ := mixedTurns_worker driver 9 e member
    simp
  · intro id start count _ few
    exact (matchesIn_length zeroJob start count).trans (small few)
  · intro start count _ few
    exact (matchesIn_length zeroJob start count).trans (small few)
  · have none_ : pausesOf (List.replicate 9 (mixedTurn driver)).flatten = 0 := by
      refine List.countP_eq_zero.mpr fun e member => ?_
      obtain ⟨w, batch, scan, rfl⟩ := mixedTurns_worker driver 9 e member
      simp
    rw [none_]
    decide
  · intro before isPrefix
    have length := isPrefix.length_le
    have queue := (queue_length_run (step (run (initial 1 1 1) []).1 (.setJob zeroJob)).1
      (RingBuffer.wf_clear (by decide)) before).2
    have empty : (step (run (initial 1 1 1) []).1 (.setJob zeroJob)).1.miner.shares.toList = [] := rfl
    have total : (List.replicate 9 (mixedTurn driver)).flatten.length = 27 := rfl
    rw [empty, List.length_nil] at queue
    rw [total] at length
    have size : shareQueueSize = 256 := rfl
    omega

end BtcRig.Mining.Search
