/-
# BtcRig.Gpu.Scan — a whole GPU scan, from the host's call to its callbacks

`cuda_miner_scan` and `opencl_miner_scan` clear a counter, launch a kernel, wait, and
hand the stored matches to `on_match`.  The pieces are elsewhere: what one call of a
device routine computes, which nonces the threads scan, and how the threads store what
they find.  Here they are put together.

* `cudaThread_alone`, `openclThread_alone`: what a thread is given to store is what its
  routines store;
* `cuda_scan_refines`, `opencl_scan_refines`: a scan that succeeds delivers the matches
  of the portable scan, a scan that fails delivers none.
-/
import BtcRig.Gpu.Collect
import BtcRig.Gpu.CudaLaunch
import BtcRig.Gpu.OpenClLaunch
import BtcRig.Hash.Scan

namespace BtcRig.Gpu.Scan

open BtcRig.Theory.Words
open BtcRig.Theory.Machine
open BtcRig.Theory.Tiling
open BtcRig.Hash.Sha256d
open BtcRig.Gpu.Macros (plainLogic)
open BtcRig.Gpu.Device
open BtcRig.Gpu.Launch
open BtcRig.Gpu.Collect

set_option autoImplicit false

/-! ## What a call of a routine finds -/

/-- The arguments that both hosts take from the job. -/
structure ScanJob where
  state : Sha256Midstate
  tailWords : Vector Word 4
  targetWords : Vector Word 8

def ScanJob.firstWords (job : ScanJob) (nonce : Word) : Vector Word 16 :=
  Device.firstWords job.tailWords.quad0 job.tailWords.quad1 job.tailWords.quad2 nonce

def foundIf (target : Vector Word 8) (nonce : Word) (h : Vector Word 8) : List Match :=
  if meetsTargetWords h target then [⟨nonce, h⟩] else []

/-- `store_match_words` of one match after the other. -/
def storeAll (maxResults : Word) (r : Results) (found : List Match) : Results :=
  found.foldl (fun r m => storeMatchWords m.nonce m.words maxResults r) r

def foundWith (compress : Vector Word 8 → Vector Word 16 → Vector Word 8) (job : ScanJob)
    (nonce : Word) : List Match :=
  let s := compress job.state.fastState (job.firstWords nonce)
  let h := compress initialWords (secondWords s)
  foundIf job.targetWords nonce h

def twoFoundWith
    (dual : Vector Word 8 → Vector Word 8 → Vector Word 16 → Vector Word 16 → Vector Word 8 × Vector Word 8)
    (job : ScanJob) (nonce0 nonce1 : Word) : List Match :=
  let fast := job.state.fastState
  let (s, q) := dual fast fast (job.firstWords nonce0) (job.firstWords nonce1)
  let (h, y) := dual initialWords initialWords (secondWords s) (secondWords q)
  foundIf job.targetWords nonce0 h ++ foundIf job.targetWords nonce1 y

def cudaFound (job : ScanJob) : CudaLaunch.ScanCall → List Match
  | .scanOneNonce nonce => foundWith (Cuda.sha256Compress plainLogic) job nonce
  | .scanOneNonceLop3 nonce => foundWith (Cuda.sha256Compress Cuda.lop3Logic) job nonce
  | .scanTwoNonces nonce0 nonce1 => twoFoundWith Cuda.sha256CompressDual job nonce0 nonce1

def openclFound (program : List OpenCl.Source) (job : ScanJob) : OpenClLaunch.ScanCall → List Match
  | .scanOneNonce nonce =>
      if .modernTailHelpers ∈ program then foundWith OpenCl.sha256CompressScalar job nonce
      else foundWith (OpenCl.compressOf program) job nonce
  | .scanTwoNoncesVec nonce0 secondValid =>
      let nonce : OpenCl.U32v := ⟨nonce0, nonce0 + 1⟩
      let s := OpenCl.compressVec2 (job.state.fastState.map OpenCl.U32v.splat)
        (OpenCl.firstWordsVec job.tailWords.quad0 job.tailWords.quad1 job.tailWords.quad2 nonce)
      let h := OpenCl.compressVec2 (initialWords.map OpenCl.U32v.splat) (OpenCl.secondWordsVec s)
      foundIf job.targetWords nonce0 (h.map OpenCl.U32v.s0) ++
        if secondValid then foundIf job.targetWords (nonce0 + 1) (h.map OpenCl.U32v.s1) else []

/-- The routine of a call, with the arguments of the kernel. -/
def cudaRun (job : ScanJob) (maxResults : Word) (r : Results) (call : CudaLaunch.ScanCall) : Results :=
  call.run
    (fun nonce => Cuda.scanOneNonce job.state.fastState job.targetWords job.tailWords.quad0
      job.tailWords.quad1 job.tailWords.quad2 nonce maxResults)
    (fun nonce => Cuda.scanOneNonceLop3 job.state.fastState job.targetWords job.tailWords.quad0
      job.tailWords.quad1 job.tailWords.quad2 nonce maxResults)
    (fun nonce0 nonce1 => Cuda.scanTwoNonces job.state.fastState job.targetWords job.tailWords.quad0
      job.tailWords.quad1 job.tailWords.quad2 nonce0 nonce1 maxResults) r

def openclRun (program : List OpenCl.Source) (job : ScanJob) (maxResults : Word) (r : Results)
    (call : OpenClLaunch.ScanCall) : Results :=
  call.run
    (fun nonce => OpenCl.scanOneNonceOf program job.state.fastState job.targetWords job.tailWords.quad0
      job.tailWords.quad1 job.tailWords.quad2 nonce maxResults)
    (fun nonce0 secondValid => OpenCl.scanTwoNoncesVec job.state.fastState job.targetWords
      job.tailWords.quad0 job.tailWords.quad1 job.tailWords.quad2 nonce0 secondValid maxResults) r

section Routines

variable (job : ScanJob) (maxResults : Word) (r : Results)

theorem storeAll_foundIf (target : Vector Word 8) (nonce : Word) (h : Vector Word 8) :
    storeAll maxResults r (foundIf target nonce h) = storeIfMet target nonce h maxResults r := by
  unfold foundIf storeIfMet
  split <;> rfl

theorem storeAll_nil : storeAll maxResults r [] = r := rfl

theorem storeAll_append (found found' : List Match) :
    storeAll maxResults r (found ++ found') = storeAll maxResults (storeAll maxResults r found) found' :=
  List.foldl_append

theorem foundWith_stored (compress : Vector Word 8 → Vector Word 16 → Vector Word 8) (nonce : Word) :
    scanOneNonceWith compress job.state.fastState job.targetWords job.tailWords.quad0
        job.tailWords.quad1 job.tailWords.quad2 nonce maxResults r =
      storeAll maxResults r (foundWith compress job nonce) := by
  rw [foundWith, storeAll_foundIf, scanOneNonceWith, ScanJob.firstWords]

theorem twoFoundWith_eq
    {dual : Vector Word 8 → Vector Word 8 → Vector Word 16 → Vector Word 16 → Vector Word 8 × Vector Word 8}
    {compress : Vector Word 8 → Vector Word 16 → Vector Word 8}
    (apart : ∀ s q w x, dual s q w x = (compress s w, compress q x)) (nonce0 nonce1 : Word) :
    twoFoundWith dual job nonce0 nonce1 =
      foundWith compress job nonce0 ++ foundWith compress job nonce1 := by
  simp only [twoFoundWith, apart, foundWith]

/-- The routines leave the result buffer as the matches of the call do. -/
theorem cudaRun_eq (call : CudaLaunch.ScanCall) :
    cudaRun job maxResults r call = storeAll maxResults r (cudaFound job call) := by
  cases call with
  | scanOneNonce nonce =>
      rw [cudaFound, cudaRun, CudaLaunch.ScanCall.run, Cuda.scanOneNonce, foundWith_stored]
  | scanOneNonceLop3 nonce =>
      rw [cudaFound, cudaRun, CudaLaunch.ScanCall.run, Cuda.scanOneNonceLop3, foundWith_stored]
  | scanTwoNonces nonce0 nonce1 =>
      rw [cudaFound, cudaRun, CudaLaunch.ScanCall.run, Cuda.scanTwoNonces_eq,
        twoFoundWith_eq job Cuda.sha256CompressDual_eq, storeAll_append, Cuda.scanOneNonce,
        foundWith_stored, foundWith_stored]

theorem openclRun_eq (program : List OpenCl.Source) (call : OpenClLaunch.ScanCall) :
    openclRun program job maxResults r call = storeAll maxResults r (openclFound program job call) := by
  cases call with
  | scanOneNonce nonce =>
      rw [openclFound, openclRun, OpenClLaunch.ScanCall.run, OpenCl.scanOneNonceOf]
      split
      · rw [foundWith_stored]
      · rw [foundWith_stored]
  | scanTwoNoncesVec nonce0 secondValid =>
      rw [openclFound, openclRun, OpenClLaunch.ScanCall.run, OpenCl.scanTwoNoncesVec]
      generalize OpenCl.compressVec2 (initialWords.map OpenCl.U32v.splat) (OpenCl.secondWordsVec
        (OpenCl.compressVec2 (job.state.fastState.map OpenCl.U32v.splat) (OpenCl.firstWordsVec
          job.tailWords.quad0 job.tailWords.quad1 job.tailWords.quad2 ⟨nonce0, nonce0 + 1⟩))) = h
      rw [storeAll_append, storeAll_foundIf, storeIfMet]
      cases secondValid with
      | false => rw [Bool.false_and, if_neg Bool.false_ne_true, if_neg Bool.false_ne_true, storeAll_nil]
      | true => rw [Bool.true_and, if_pos rfl, storeAll_foundIf, storeIfMet]

/-- A thread that moves alone stores its first match as `store_match_words` does. -/
theorem exec_first (found : Match) (rest : List Match) :
    ∃ schedule, (exec (gridStep maxResults) ⟨r, [⟨found :: rest, none⟩]⟩ schedule).1 =
      ⟨storeMatchWords found.nonce found.words maxResults r, [⟨rest, none⟩]⟩ := by
  by_cases inside : r.resultCount < maxResults
  · refine ⟨List.replicate 10 0, ?_⟩
    simp [exec, extend, gridStep, Thread.step, storeMatchWords, writeMatch, inside, List.replicate,
      word_succ]
  · refine ⟨[0], ?_⟩
    simp [exec, extend, gridStep, Thread.step, storeMatchWords, inside]

theorem exec_storeAll (found : List Match) :
    ∃ schedule, (exec (gridStep maxResults) ⟨r, [⟨found, none⟩]⟩ schedule).1 =
      ⟨storeAll maxResults r found, [⟨[], none⟩]⟩ := by
  induction found generalizing r with
  | nil => exact ⟨[], rfl⟩
  | cons found rest ih =>
      obtain ⟨first, storedFirst⟩ := exec_first maxResults r found rest
      obtain ⟨schedule, stored⟩ := ih (storeMatchWords found.nonce found.words maxResults r)
      refine ⟨first ++ schedule, ?_⟩
      rw [exec_append, storedFirst, stored]
      rfl

/-- **The moves of a thread are its routines**: alone, they leave what the calls leave one
after the other. -/
theorem cudaThread_alone (calls : List CudaLaunch.ScanCall) :
    ∃ schedule, (exec (gridStep maxResults) ⟨r, [⟨calls.flatMap (cudaFound job), none⟩]⟩ schedule).1 =
      ⟨calls.foldl (cudaRun job maxResults) r, [⟨[], none⟩]⟩ := by
  obtain ⟨schedule, stored⟩ := exec_storeAll maxResults r (calls.flatMap (cudaFound job))
  refine ⟨schedule, ?_⟩
  rw [stored, storeAll, List.foldl_flatMap]
  simp only [funext fun r => funext fun call => cudaRun_eq job maxResults r call, storeAll]

theorem openclThread_alone (program : List OpenCl.Source) (calls : List OpenClLaunch.ScanCall) :
    ∃ schedule,
      (exec (gridStep maxResults) ⟨r, [⟨calls.flatMap (openclFound program job), none⟩]⟩ schedule).1 =
        ⟨calls.foldl (openclRun program job maxResults) r, [⟨[], none⟩]⟩ := by
  obtain ⟨schedule, stored⟩ := exec_storeAll maxResults r (calls.flatMap (openclFound program job))
  refine ⟨schedule, ?_⟩
  rw [stored, storeAll, List.foldl_flatMap]
  simp only [funext fun r => funext fun call => openclRun_eq job maxResults r program call, storeAll]

end Routines

/-! ## What the threads find -/

def ScanJob.hash (job : ScanJob) (nonce : Word) : Vector Word 8 :=
  fastWords job.state job.tailWords.quad0 job.tailWords.quad1 job.tailWords.quad2 nonce

section Found

variable (job : ScanJob)

theorem foundWith_eq {compress : Vector Word 8 → Vector Word 16 → Vector Word 8}
    (compresses : Compresses compress) (nonce : Word) :
    foundWith compress job nonce = foundIf job.targetWords nonce (job.hash nonce) := by
  rw [foundWith, ScanJob.firstWords, two_compressions compresses, ScanJob.hash]

theorem cudaFound_eq (call : CudaLaunch.ScanCall) :
    cudaFound job call = call.nonces.flatMap fun nonce => foundIf job.targetWords nonce (job.hash nonce) := by
  have plain := Cuda.sha256Compress_compresses Macros.plainLogic_standard
  have lop3 := Cuda.sha256Compress_compresses Cuda.lop3Logic_standard
  cases call with
  | scanOneNonce nonce =>
      rw [cudaFound, CudaLaunch.ScanCall.nonces, foundWith_eq job plain, List.flatMap_singleton]
  | scanOneNonceLop3 nonce =>
      rw [cudaFound, CudaLaunch.ScanCall.nonces, foundWith_eq job lop3, List.flatMap_singleton]
  | scanTwoNonces nonce0 nonce1 =>
      rw [cudaFound, CudaLaunch.ScanCall.nonces, twoFoundWith_eq job Cuda.sha256CompressDual_eq,
        foundWith_eq job plain, foundWith_eq job plain, List.flatMap_cons, List.flatMap_singleton]

/-- One component of the vector hash. -/
theorem lane_hash (b : Bool) (nonce : OpenCl.U32v) :
    (OpenCl.compressVec2 (initialWords.map OpenCl.U32v.splat) (OpenCl.secondWordsVec
      (OpenCl.compressVec2 (job.state.fastState.map OpenCl.U32v.splat) (OpenCl.firstWordsVec
        job.tailWords.quad0 job.tailWords.quad1 job.tailWords.quad2 nonce)))).map (OpenCl.lane b) =
      job.hash (OpenCl.lane b nonce) := by
  rw [OpenCl.lane_compressVec2, OpenCl.lane_secondWordsVec, OpenCl.lane_compressVec2,
    OpenCl.lane_firstWordsVec, OpenCl.lane_splatWords, OpenCl.lane_splatWords,
    two_compressions OpenCl.compressCompact_compresses, ScanJob.hash]

theorem openclFound_eq (program : List OpenCl.Source) (call : OpenClLaunch.ScanCall) :
    openclFound program job call =
      call.nonces.flatMap fun nonce => foundIf job.targetWords nonce (job.hash nonce) := by
  cases call with
  | scanOneNonce nonce =>
      rw [openclFound, OpenClLaunch.ScanCall.nonces, List.flatMap_singleton]
      split
      · rw [foundWith_eq job OpenCl.sha256CompressScalar_compresses]
      · rw [foundWith_eq job (OpenCl.compressOf_compresses program)]
  | scanTwoNoncesVec nonce0 secondValid =>
      have first := lane_hash job false ⟨nonce0, nonce0 + 1⟩
      have second := lane_hash job true ⟨nonce0, nonce0 + 1⟩
      have s0 : OpenCl.lane false = OpenCl.U32v.s0 := rfl
      have s1 : OpenCl.lane true = OpenCl.U32v.s1 := rfl
      rw [s0] at first
      rw [s1] at second
      rw [openclFound, OpenClLaunch.ScanCall.nonces]
      simp only [first, second]
      cases secondValid with
      | false => simp
      | true => simp

end Found

/-! ## The portable scan -/

def genericMatches (job : ScanJob) (startNonce nonceCount : Word) : List Match :=
  (sha256dScanNonceRangeGeneric .fastC job.state job.tailWords job.targetWords startNonce nonceCount).map
    fun report => ⟨report.1, report.2⟩

section Portable

variable {job : ScanJob} {startNonce nonceCount : Word}

theorem setQuad3_eq (base : Vector Word 4) (x : Word) :
    base.setQuad3 x = #v[base.quad0, base.quad1, base.quad2, x] := by
  ext i bound
  interval_cases i <;> simp

theorem flatMap_foundIf (job : ScanJob) (nonces : List Word) :
    (nonces.flatMap fun nonce => foundIf job.targetWords nonce (job.hash nonce)) =
      (nonces.filter fun nonce => meetsTargetWords (job.hash nonce) job.targetWords).map
        fun nonce => ⟨nonce, job.hash nonce⟩ := by
  induction nonces with
  | nil => rfl
  | cons nonce nonces ih =>
      rw [List.flatMap_cons, ih, foundIf]
      cases met : meetsTargetWords (job.hash nonce) job.targetWords <;> simp [met]

theorem genericMatches_eq (job : ScanJob) (startNonce nonceCount : Word) :
    genericMatches job startNonce nonceCount =
      ((List.range nonceCount.toNat).map (nonceAt startNonce)).flatMap
        fun nonce => foundIf job.targetWords nonce (job.hash nonce) := by
  rw [genericMatches, sha256dScanNonceRangeGeneric, List.filterMap_eq_flatMap_toList, List.map_flatMap,
    List.flatMap_map]
  apply List.flatMap_congr
  intro i _
  have tail : sha256dTailWordsFunc .fastC job.state
      (job.tailWords.setQuad3 (bswap32 (startNonce + BitVec.ofNat 32 i))) =
        job.hash (nonceAt startNonce i) := by
    rw [setQuad3_eq]
    rfl
  simp only [tail, foundIf, meetsTargetWords_eq]
  split <;> rfl

/-- A range that is scanned exactly is the range in another order. -/
theorem perm_of_scansExactly {nonces : List Word} (fits : startNonce.toNat + nonceCount.toNat ≤ 2 ^ 32)
    (exactly : ScansExactly startNonce nonceCount.toNat nonces) :
    nonces.Perm ((List.range nonceCount.toNat).map (nonceAt startNonce)) := by
  rw [List.perm_iff_count]
  intro nonce
  rw [exactly nonce, scansExactly_range fits nonce]

end Portable

/-! ## A launch -/

/-- What each thread is given to store. -/
def foundBy {Call : Type} (found : Call → List Match) (threads : List (List Call)) : List (List Match) :=
  threads.map fun calls => calls.flatMap found

/-- The grid when the threads have moved. -/
def gridAfter (maxResults : Word) (cells : Word → Word) (found : List (List Match))
    (schedule : List Nat) : Grid :=
  (exec (gridStep maxResults) (launched cells found) schedule).1

theorem collects_of_perm {maxResults : Nat} {found found' delivered : List Match}
    (collects : Collects maxResults found delivered) (same : found.Perm found') :
    Collects maxResults found' delivered where
  calls := by rw [collects.calls, same.length_eq]
  once := collects.once.trans same.subperm
  all few := (collects.all (by rwa [same.length_eq])).trans same

section Launches

variable {Call : Type} {nonces : Call → List Word} {found : Call → List Match} {job : ScanJob}
  {startNonce nonceCount : Word} {threads : List (List Call)}

theorem flatten_flatMap {A B : Type} (f : A → List B) (lists : List (List A)) :
    (lists.map fun as => as.flatMap f).flatten = lists.flatten.flatMap f := by
  induction lists with
  | nil => rfl
  | cons as lists ih => rw [List.map_cons, List.flatten_cons, ih, List.flatten_cons, List.flatMap_append]

theorem foundBy_eq
    (each : ∀ call, found call =
      (nonces call).flatMap fun nonce => foundIf job.targetWords nonce (job.hash nonce)) :
    foundBy found threads =
      matchesOf job.hash job.targetWords (threads.map fun calls => calls.flatMap nonces) := by
  rw [foundBy, matchesOf, List.map_map]
  apply List.map_congr_left
  intro calls _
  rw [Function.comp_apply, ← flatMap_foundIf, List.flatMap_assoc]
  exact List.flatMap_congr fun call _ => each call

/-- **What the host reads back after an exact launch** is what the portable scan reports. -/
theorem launch_collects
    (each : ∀ call, found call =
      (nonces call).flatMap fun nonce => foundIf job.targetWords nonce (job.hash nonce))
    (fits : startNonce.toNat + nonceCount.toNat ≤ 2 ^ 32)
    (exactly : ScansExactly startNonce nonceCount.toNat (threads.flatten.flatMap nonces))
    {maxResults : Word} (room : maxResults.toNat * 9 < 2 ^ 32) (cells : Word → Word)
    (schedule : List Nat)
    (returned : Returned (gridAfter maxResults cells (foundBy found threads) schedule)) :
    Collects maxResults.toNat (genericMatches job startNonce nonceCount)
        (openclReadBack maxResults (gridAfter maxResults cells (foundBy found threads) schedule).results) := by
  have few : (foundBy found threads).flatten.length < 2 ^ 32 := by
    rw [foundBy_eq each]
    have exactly' := exactly
    rw [← flatten_flatMap] at exactly'
    exact matchesOf_few job.hash job.targetWords exactly'
  have same : (foundBy found threads).flatten.Perm (genericMatches job startNonce nonceCount) := by
    rw [foundBy, flatten_flatMap, genericMatches_eq, show found = _ from funext each,
      ← List.flatMap_assoc]
    exact (perm_of_scansExactly fits exactly).flatMap_right _
  obtain ⟨⟨order, inv⟩, -⟩ := inv_exec room cells (foundBy found threads) few schedule
  have read := openclReadBack_eq inv returned
  rw [gridAfter, read]
  exact collects_of_perm (collects_take (order_perm inv returned)) same

end Launches

/-! ## Threads that finish -/

/-- How many moves a thread still has at most. -/
def movesLeft (thread : Thread) : Nat :=
  11 * thread.todo.length + (thread.storing.map fun st => 10 - st.next).getD 0

theorem movesLeft_step (maxResults : Word) (thread : Thread) (r : Results)
    (busy : ¬(thread.todo = [] ∧ thread.storing = none)) (inside : ∀ st ∈ thread.storing, st.next < 9) :
    movesLeft (thread.step maxResults r).1 < movesLeft thread ∧
      ∀ st ∈ (thread.step maxResults r).1.storing, st.next < 9 := by
  obtain ⟨todo, storing⟩ := thread
  cases storing with
  | none =>
      cases todo with
      | nil => exact absurd ⟨rfl, rfl⟩ busy
      | cons found rest =>
          simp only [Thread.step, movesLeft, List.length_cons]
          split
          · simp
            omega
          · simp
  | some st =>
      have word : st.next < 9 := inside st rfl
      simp only [Thread.step, movesLeft]
      split
      · simp
        omega
      · simp
        omega

/-- Every launch can run to its end. -/
theorem exists_schedule (maxResults : Word) (s : Grid)
    (inside : ∀ thread ∈ s.threads, ∀ st ∈ thread.storing, st.next < 9) :
    ∃ schedule, Returned (exec (gridStep maxResults) s schedule).1 := by
  induction left_ : (s.threads.map movesLeft).sum using Nat.strong_induction_on generalizing s with
  | _ n ih =>
      by_cases done : Returned s
      · exact ⟨[], done⟩
      · -- some thread has not returned; it moves next
        obtain ⟨thread, member, busy⟩ : ∃ thread ∈ s.threads,
            ¬(thread.todo = [] ∧ thread.storing = none) := by
          by_contra none_
          exact done fun thread member => by_contra fun busy => none_ ⟨thread, member, busy⟩
        obtain ⟨t, isThread⟩ := List.mem_iff_getElem?.mp member
        obtain ⟨less, inside'⟩ := movesLeft_step maxResults thread s.results busy (inside thread member)
        obtain ⟨before, after, isThreads, isSet⟩ := threads_split isThread
        have moved : (gridStep maxResults s t).1.threads =
            before ++ (thread.step maxResults s.results).1 :: after := by
          simp only [gridStep, isThread]
          exact isSet _
        have fewer : ((gridStep maxResults s t).1.threads.map movesLeft).sum < n := by
          rw [← left_, moved, isThreads]
          simp only [List.map_append, List.map_cons, List.sum_append, List.sum_cons]
          omega
        obtain ⟨schedule, returned⟩ := ih _ fewer (gridStep maxResults s t).1 (by
          intro other otherMember st storing
          rw [moved] at otherMember
          rcases mem_replaced otherMember with rfl | old
          · exact inside' st storing
          · exact inside other (isThreads ▸ old) st storing) rfl
        refine ⟨t :: schedule, ?_⟩
        rw [← List.singleton_append, exec_append]
        exact returned

theorem exists_gridAfter (maxResults : Word) (cells : Word → Word) (found : List (List Match)) :
    ∃ schedule, Returned (gridAfter maxResults cells found schedule) := by
  refine exists_schedule maxResults (launched cells found) fun thread member st storing => ?_
  obtain ⟨todo, -, rfl⟩ := List.mem_map.mp member
  cases storing

/-! ## The hosts -/

/-- What the calls to the CUDA driver return, and what the device does meanwhile. -/
structure CudaCalls where
  contextSet : Bool
  counterCleared : Bool
  launched : Bool
  synchronized : Bool
  countCopied : Bool
  matchesCopied : Bool
  /-- The old contents of `matches_buf`. -/
  cells : Word → Word
  schedule : List Nat

def CudaCalls.Succeed (d : CudaCalls) : Prop :=
  d.contextSet ∧ d.counterCleared ∧ d.launched ∧ d.synchronized ∧ d.countCopied ∧ d.matchesCopied

/-- The calls of every thread. -/
def cudaThreads (miner : CudaLaunch.CudaMiner) (startNonce nonceCount : Word) :
    List (List CudaLaunch.ScanCall) :=
  (List.range (CudaLaunch.grid miner nonceCount)).flatMap fun ctaid =>
    (List.range miner.threadsPerBlock.toNat).map fun tid =>
      CudaLaunch.kernelFunction miner.kernelVariant startNonce nonceCount miner.noncesPerThread
        (BitVec.ofNat 32 ctaid * miner.threadsPerBlock + BitVec.ofNat 32 tid)

def cudaGrid (miner : CudaLaunch.CudaMiner) (job : ScanJob) (startNonce nonceCount : Word)
    (d : CudaCalls) : Grid :=
  gridAfter miner.maxResults d.cells
    (foundBy (cudaFound job) (cudaThreads miner startNonce nonceCount)) d.schedule

/-- The return code, and the callbacks. -/
def cudaMinerScan (miner : CudaLaunch.CudaMiner) (job : ScanJob) (startNonce nonceCount : Word)
    (d : CudaCalls) : Int × List Match :=
  let grid := CudaLaunch.grid miner nonceCount
  if nonceCount = 0 then (0, [])
  else if !d.contextSet then (-1, [])
  else if !d.counterCleared then (-1, [])
  else if grid = 0 ∨ grid > 2 ^ 32 - 1 then (-1, [])
  else if !d.launched then (-1, [])
  else if !d.synchronized then (-1, [])
  else
    let results := (cudaGrid miner job startNonce nonceCount d).results
    if !d.countCopied then (-1, [])
    else if results.resultCount = 0 then (0, [])
    else if !d.matchesCopied then (-1, [])
    else (0, cudaReadBack miner.maxResults results)

/-- The same for OpenCL.  The queue is in order, and the first read blocks. -/
structure OpenclCalls where
  counterCleared : Bool
  argumentsSet : Bool
  enqueued : Bool
  countRead : Bool
  matchesRead : Bool
  cells : Word → Word
  schedule : List Nat

def OpenclCalls.Succeed (d : OpenclCalls) : Prop :=
  d.counterCleared ∧ d.argumentsSet ∧ d.enqueued ∧ d.countRead ∧ d.matchesRead

def openclThreads (miner : OpenClLaunch.OpenclMiner) (startNonce nonceCount : Word) :
    List (List OpenClLaunch.ScanCall) :=
  (List.range (OpenClLaunch.globalSize miner nonceCount)).map fun globalId =>
    miner.kernelName.run startNonce nonceCount miner.noncesPerWorkItem (BitVec.ofNat 32 globalId)

def openclGrid (miner : OpenClLaunch.OpenclMiner) (job : ScanJob) (startNonce nonceCount : Word)
    (d : OpenclCalls) : Grid :=
  gridAfter miner.maxResults d.cells
    (foundBy (openclFound (OpenCl.buildProgram miner.backendVariant miner.kernelVariant) job)
      (openclThreads miner startNonce nonceCount)) d.schedule

def openclMinerScan (miner : OpenClLaunch.OpenclMiner) (job : ScanJob) (startNonce nonceCount : Word)
    (d : OpenclCalls) : Int × List Match :=
  if nonceCount = 0 then (0, [])
  else if !d.counterCleared then (-1, [])
  else if !d.argumentsSet then (-1, [])
  else if !d.enqueued then (-1, [])
  else if !d.countRead then (-1, [])
  else
    let results := (openclGrid miner job startNonce nonceCount d).results
    if results.resultCount = 0 then (0, [])
    else if !d.matchesRead then (-1, [])
    else (0, openclReadBack miner.maxResults results)

/-! ## The refinement -/

/-- A scan delivers the portable matches or, if it failed, nothing. -/
structure Refines (maxResults : Nat) (portable : List Match) (scan : Int × List Match) : Prop where
  code : scan.1 = 0 ∨ scan.1 = -1
  success : scan.1 = 0 → Collects maxResults portable scan.2
  failure : scan.1 = -1 → scan.2 = []

theorem refines_failed {maxResults : Nat} {portable : List Match} :
    Refines maxResults portable (-1, []) where
  code := .inr rfl
  success zero := by simp at zero
  failure _ := rfl

theorem refines_read {maxResults : Nat} {portable delivered : List Match}
    (collects : Collects maxResults portable delivered) : Refines maxResults portable (0, delivered) where
  code := .inl rfl
  success _ := collects
  failure minusOne := by simp at minusOne

/-- A counter that is still clear stands for an empty read-back. -/
theorem refines_zero {maxResults : Word} {portable : List Match} {r : Results}
    (collects : Collects maxResults.toNat portable (openclReadBack maxResults r))
    (zero : r.resultCount = 0) : Refines maxResults.toNat portable (0, []) := by
  rw [openclReadBack, if_pos zero] at collects
  exact refines_read collects

/-- No nonces, no matches. -/
theorem refines_nothing (job : ScanJob) (startNonce : Word) (maxResults : Nat) :
    Refines maxResults (genericMatches job startNonce 0) (0, []) :=
  refines_read ⟨rfl, List.Subperm.refl _, fun _ => List.Perm.refl _⟩

/-- A call that fails leaves the caller without a match. -/
theorem cudaMinerScan_failed {miner : CudaLaunch.CudaMiner} {job : ScanJob}
    {startNonce nonceCount : Word} {d : CudaCalls} (failed : ¬d.Succeed) :
    (cudaMinerScan miner job startNonce nonceCount d).2 = [] := by
  unfold cudaMinerScan
  simp only
  split_ifs with _ context cleared _ launched synchronized counted _ read
  any_goals rfl
  simp only [Bool.not_eq_true', Bool.not_eq_false] at context cleared launched synchronized counted read
  exact absurd ⟨context, cleared, launched, synchronized, counted, read⟩ failed

theorem openclMinerScan_failed {miner : OpenClLaunch.OpenclMiner} {job : ScanJob}
    {startNonce nonceCount : Word} {d : OpenclCalls} (failed : ¬d.Succeed) :
    (openclMinerScan miner job startNonce nonceCount d).2 = [] := by
  unfold openclMinerScan
  simp only
  split_ifs with _ cleared set enqueued counted _ read
  any_goals rfl
  simp only [Bool.not_eq_true', Bool.not_eq_false] at cleared set enqueued counted read
  exact absurd ⟨cleared, set, enqueued, counted, read⟩ failed

theorem cudaThreads_flatten {miner : CudaLaunch.CudaMiner} {startNonce nonceCount : Word}
    {calls : List CudaLaunch.ScanCall}
    (launched : CudaLaunch.cudaMinerScan miner startNonce nonceCount = some calls) :
    (cudaThreads miner startNonce nonceCount).flatten = calls := by
  unfold CudaLaunch.cudaMinerScan at launched
  split at launched
  · cases launched
  · rw [← Option.some.inj launched, cudaThreads, List.flatten_eq_flatMap, List.flatMap_assoc]
    refine List.flatMap_congr fun ctaid _ => ?_
    rw [List.flatMap_map]
    rfl

theorem openclThreads_flatten {miner : OpenClLaunch.OpenclMiner} {startNonce nonceCount : Word}
    (some_ : nonceCount ≠ 0) :
    (openclThreads miner startNonce nonceCount).flatten =
      OpenClLaunch.openclMinerScan miner startNonce nonceCount := by
  rw [OpenClLaunch.openclMinerScan, if_neg some_, openclThreads, List.flatten_eq_flatMap,
    List.flatMap_map]
  rfl

theorem one_le_of_ne_zero {count : Word} (some_ : count ≠ 0) : 1 ≤ count.toNat := by
  by_contra none_
  exact some_ (BitVec.eq_of_toNat_eq (by simpa using none_))

/-- Whole groups of `b` shares of `k` miss less than one group. -/
theorem groups_reach {k b n m : Nat} (positive : 0 < k * b) (le : n ≤ m) :
    n ≤ k * (b * (m / k / b)) + k * b := by
  have whole := Nat.div_add_mod m (k * b)
  have rest := Nat.mod_lt m positive
  rw [Nat.div_div_eq_div_mul, ← Nat.mul_assoc]
  omega

/-- Whole shares below a bound miss less than one share. -/
theorem shares_reach {k n : Nat} (positive : 0 < k) : n ≤ k * ((n - 1) / k) + k := by
  have whole := Nat.div_add_mod (n - 1) k
  have rest := Nat.mod_lt (n - 1) positive
  omega

section Exact

variable {startNonce nonceCount : Word} {job : ScanJob}

/-- A range that leaves room for one more block is scanned exactly. -/
theorem cuda_exactly {miner : CudaLaunch.CudaMiner} (usable : CudaLaunch.Usable miner)
    (some_ : 1 ≤ nonceCount.toNat) (fits : startNonce.toNat + nonceCount.toNat ≤ 2 ^ 32)
    (short : nonceCount.toNat + miner.noncesPerThread.toNat * miner.threadsPerBlock.toNat ≤ 2 ^ 32) :
    ScansExactly startNonce nonceCount.toNat
      ((cudaThreads miner startNonce nonceCount).flatten.flatMap CudaLaunch.ScanCall.nonces) := by
  have npt := usable.npt_pos
  have block := usable.block_pos
  have one : miner.noncesPerThread.toNat ≤ miner.noncesPerThread.toNat * miner.threadsPerBlock.toNat :=
    Nat.le_mul_of_pos_right _ block
  have scans : CudaLaunch.ScansRange miner startNonce nonceCount := by
    rw [CudaLaunch.scansRange_iff usable some_ fits]
    refine ⟨?_, fun _ => ?_⟩
    · have reach := groups_reach (n := 2 ^ 32) (m := 2 ^ 32 + miner.noncesPerThread.toNat - 1)
        (Nat.mul_pos npt block) (by omega)
      omega
    · have reach := shares_reach (n := 2 ^ 32) npt
      omega
  obtain ⟨calls, launched, exactly⟩ := scans
  rwa [cudaThreads_flatten launched]

/-- The same for work-items; without a local size a group is one of them. -/
theorem opencl_exactly {miner : OpenClLaunch.OpenclMiner} (usable : OpenClLaunch.Usable miner)
    (some_ : 1 ≤ nonceCount.toNat) (fits : startNonce.toNat + nonceCount.toNat ≤ 2 ^ 32)
    (short : nonceCount.toNat +
      miner.noncesPerWorkItem.toNat * max 1 miner.localWorkSize.toNat ≤ 2 ^ 32) :
    ScansExactly startNonce nonceCount.toNat
      ((openclThreads miner startNonce nonceCount).flatten.flatMap OpenClLaunch.ScanCall.nonces) := by
  have npi := usable.npi_pos
  have nonzero : nonceCount ≠ 0 := by
    rintro rfl
    exact absurd some_ (by decide)
  rw [openclThreads_flatten nonzero]
  by_cases general : miner.kernelName = .scanNonceRange
  · rw [OpenClLaunch.general_exact_iff usable general some_ fits]
    have reach := shares_reach (n := 2 ^ 32) npi
    have one : miner.noncesPerWorkItem.toNat ≤
        miner.noncesPerWorkItem.toNat * max 1 miner.localWorkSize.toNat :=
      Nat.le_mul_of_pos_right _ (by omega)
    omega
  · rw [OpenClLaunch.checked_exact_iff usable general some_ fits]
    rcases Nat.eq_zero_or_pos miner.localWorkSize.toNat with unset | set
    · exact .inl unset
    · right
      rw [Nat.max_eq_right set] at short
      have reach := groups_reach (n := 2 ^ 32) (Nat.mul_pos npi set) le_rfl
      omega

theorem cuda_refines {miner : CudaLaunch.CudaMiner} {d : CudaCalls} (usable : CudaLaunch.Usable miner)
    (fits : startNonce.toNat + nonceCount.toNat ≤ 2 ^ 32)
    (short : nonceCount.toNat + miner.noncesPerThread.toNat * miner.threadsPerBlock.toNat ≤ 2 ^ 32)
    (room : miner.maxResults.toNat * 9 < 2 ^ 32)
    (waits : d.synchronized = true → Returned (cudaGrid miner job startNonce nonceCount d)) :
    Refines miner.maxResults.toNat (genericMatches job startNonce nonceCount)
        (cudaMinerScan miner job startNonce nonceCount d) ∧
      (d.Succeed → (cudaMinerScan miner job startNonce nonceCount d).1 = 0) := by
  unfold cudaMinerScan CudaCalls.Succeed
  by_cases zero : nonceCount = 0
  · simp only [zero]
    exact ⟨refines_nothing job startNonce _, fun _ => rfl⟩
  · have some_ : 1 ≤ nonceCount.toNat := one_le_of_ne_zero zero
    obtain ⟨positive, few⟩ := CudaLaunch.grid_range usable some_
    have bounded := nonceCount.isLt
    have launchable : ¬(CudaLaunch.grid miner nonceCount = 0 ∨
        CudaLaunch.grid miner nonceCount > 2 ^ 32 - 1) := by omega
    simp only [if_neg zero, if_neg launchable]
    cases d.contextSet with
    | false => exact ⟨refines_failed, by simp⟩
    | true =>
    cases d.counterCleared with
    | false => exact ⟨refines_failed, by simp⟩
    | true =>
    cases d.launched with
    | false => exact ⟨refines_failed, by simp⟩
    | true =>
    cases synchronized : d.synchronized with
    | false => exact ⟨refines_failed, by simp⟩
    | true =>
    cases d.countCopied with
    | false => exact ⟨refines_failed, by simp⟩
    | true =>
      -- from here on all threads have returned
      have collects := launch_collects (cudaFound_eq job) fits
        (cuda_exactly usable some_ fits short) room d.cells d.schedule (waits synchronized)
      simp only [Bool.not_true, Bool.false_eq_true, if_false]
      split
      · rename_i clear
        exact ⟨refines_zero collects clear, fun _ => rfl⟩
      · cases d.matchesCopied with
        | false => exact ⟨refines_failed, by simp⟩
        | true =>
            rw [cudaReadBack_eq room]
            exact ⟨refines_read collects, fun _ => rfl⟩

theorem opencl_refines {miner : OpenClLaunch.OpenclMiner} {d : OpenclCalls}
    (usable : OpenClLaunch.Usable miner) (fits : startNonce.toNat + nonceCount.toNat ≤ 2 ^ 32)
    (short : nonceCount.toNat +
      miner.noncesPerWorkItem.toNat * max 1 miner.localWorkSize.toNat ≤ 2 ^ 32)
    (room : miner.maxResults.toNat * 9 < 2 ^ 32)
    (waits : d.countRead = true → Returned (openclGrid miner job startNonce nonceCount d)) :
    Refines miner.maxResults.toNat (genericMatches job startNonce nonceCount)
        (openclMinerScan miner job startNonce nonceCount d) ∧
      (d.Succeed → (openclMinerScan miner job startNonce nonceCount d).1 = 0) := by
  unfold openclMinerScan OpenclCalls.Succeed
  by_cases zero : nonceCount = 0
  · simp only [zero]
    exact ⟨refines_nothing job startNonce _, fun _ => rfl⟩
  · have some_ : 1 ≤ nonceCount.toNat := one_le_of_ne_zero zero
    simp only [if_neg zero]
    cases d.counterCleared with
    | false => exact ⟨refines_failed, by simp⟩
    | true =>
    cases d.argumentsSet with
    | false => exact ⟨refines_failed, by simp⟩
    | true =>
    cases d.enqueued with
    | false => exact ⟨refines_failed, by simp⟩
    | true =>
    cases read : d.countRead with
    | false => exact ⟨refines_failed, by simp⟩
    | true =>
      have collects := launch_collects
        (openclFound_eq job (OpenCl.buildProgram miner.backendVariant miner.kernelVariant)) fits
        (opencl_exactly usable some_ fits short) room d.cells d.schedule (waits read)
      simp only [Bool.not_true, Bool.false_eq_true, if_false]
      split
      · rename_i clear
        exact ⟨refines_zero collects clear, fun _ => rfl⟩
      · cases d.matchesRead with
        | false => exact ⟨refines_failed, by simp⟩
        | true => exact ⟨refines_read collects, fun _ => rfl⟩

end Exact

/-- **A CUDA scan is the portable scan**, of every range that leaves room for one more block
below `2 ^ 32`.  If every call to the driver succeeds, `on_match` gets the matches of the
portable scan, each once and with the same words, all of them if there are no more than
`max_results`; if one fails it gets none. -/
theorem cuda_scan_refines (config : CudaLaunch.MinerCudaConfig) (job : ScanJob)
    (startNonce nonceCount : Word) (d : CudaCalls)
    (fits : startNonce.toNat + nonceCount.toNat ≤ 2 ^ 32)
    (short : nonceCount.toNat + (CudaLaunch.cudaMinerCreate config).noncesPerThread.toNat *
      (CudaLaunch.cudaMinerCreate config).threadsPerBlock.toNat ≤ 2 ^ 32)
    (room : (CudaLaunch.cudaMinerCreate config).maxResults.toNat * 9 < 2 ^ 32)
    (waits : d.synchronized = true →
      Returned (cudaGrid (CudaLaunch.cudaMinerCreate config) job startNonce nonceCount d)) :
    let miner := CudaLaunch.cudaMinerCreate config
    let scan := cudaMinerScan miner job startNonce nonceCount d
    Refines miner.maxResults.toNat (genericMatches job startNonce nonceCount) scan ∧
      (d.Succeed → scan.1 = 0) ∧ (¬d.Succeed → scan.2 = []) := by
  intro miner scan
  obtain ⟨refines, returns⟩ :=
    cuda_refines (CudaLaunch.usable_cudaMinerCreate config) fits short room waits
  exact ⟨refines, returns, cudaMinerScan_failed⟩

/-- Sixteen nonces with the dual kernel, and a schedule with which all calls succeed. -/
theorem cuda_scan_refines_example :
    let config : CudaLaunch.MinerCudaConfig := ⟨0, 0, 2, 0, .dual⟩
    let job : ScanJob := ⟨sha256d80MidstatePrepare (List.replicate 64 0), .replicate 4 0, .replicate 8 1⟩
    ∃ d : CudaCalls, d.Succeed ∧
      Refines 256 (genericMatches job 7 16) (cudaMinerScan (CudaLaunch.cudaMinerCreate config) job 7 16 d) := by
  intro config job
  obtain ⟨schedule, returned⟩ := exists_gridAfter (CudaLaunch.cudaMinerCreate config).maxResults
    (fun _ => 0) (foundBy (cudaFound job) (cudaThreads (CudaLaunch.cudaMinerCreate config) 7 16))
  let d : CudaCalls := ⟨true, true, true, true, true, true, fun _ => 0, schedule⟩
  refine ⟨d, by simp [d, CudaCalls.Succeed], ?_⟩
  exact (cuda_scan_refines config job 7 16 d (by decide) (by decide) (by decide) fun _ => returned).1

/-- **An OpenCL scan is the portable scan**, whatever device, backend and kernel, of every
range that leaves room for one more work-group. -/
theorem opencl_scan_refines (config : OpenClLaunch.MinerOpenclConfig) (device : OpenClLaunch.Device)
    (miner : OpenClLaunch.OpenclMiner)
    (created : OpenClLaunch.openclMinerCreate config device = some miner) (job : ScanJob)
    (startNonce nonceCount : Word) (d : OpenclCalls)
    (fits : startNonce.toNat + nonceCount.toNat ≤ 2 ^ 32)
    (short : nonceCount.toNat +
      miner.noncesPerWorkItem.toNat * max 1 miner.localWorkSize.toNat ≤ 2 ^ 32)
    (room : miner.maxResults.toNat * 9 < 2 ^ 32)
    (waits : d.countRead = true → Returned (openclGrid miner job startNonce nonceCount d)) :
    let scan := openclMinerScan miner job startNonce nonceCount d
    Refines miner.maxResults.toNat (genericMatches job startNonce nonceCount) scan ∧
      (d.Succeed → scan.1 = 0) ∧ (¬d.Succeed → scan.2 = []) := by
  intro scan
  obtain ⟨refines, returns⟩ :=
    opencl_refines (OpenClLaunch.usable_openclMinerCreate created) fits short room waits
  exact ⟨refines, returns, openclMinerScan_failed⟩

/-- Sixteen nonces with the register-heavy kernel. -/
theorem opencl_scan_refines_example :
    let miner : OpenClLaunch.OpenclMiner := ⟨1048576, 256, 2, 256, .modern, .registerHeavy⟩
    let job : ScanJob := ⟨sha256d80MidstatePrepare (List.replicate 64 0), .replicate 4 0, .replicate 8 1⟩
    ∃ d : OpenclCalls, d.Succeed ∧
      Refines 256 (genericMatches job 7 16) (openclMinerScan miner job 7 16 d) := by
  intro miner job
  obtain ⟨schedule, returned⟩ := exists_gridAfter miner.maxResults (fun _ => 0)
    (foundBy (openclFound (OpenCl.buildProgram miner.backendVariant miner.kernelVariant) job)
      (openclThreads miner 7 16))
  let d : OpenclCalls := ⟨true, true, true, true, true, fun _ => 0, schedule⟩
  refine ⟨d, by simp [d, OpenclCalls.Succeed], ?_⟩
  exact (opencl_scan_refines ⟨0, 0, 0, 0, .auto, .registerHeavy⟩ OpenClLaunch.plainDevice miner (by rfl)
    job 7 16 d (by decide) (by decide) (by decide) fun _ => returned).1

end BtcRig.Gpu.Scan
