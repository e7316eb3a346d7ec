/-
# BtcRig.Mining.Unique — no share twice

A share is known by its job's number and its nonce.  `Distinct` follows the pairs
that can still become shares: those popped or queued are different, those a worker
has still to report are different from them and from each other's, and all of the
current job lie below `next_nonce`.  So a fresh range is fresh, and every pair is
popped at most once (`popped_keys_nodup`).
-/
import BtcRig.Mining.PoolView

namespace BtcRig.Mining.Unique

open BtcRig.Theory
open BtcRig.Theory.Words
open BtcRig.Mining.Job
open BtcRig.Mining.State
open BtcRig.Mining.Workers
open BtcRig.Mining.Shares
open BtcRig.Mining.PoolView
open BtcRig.Hash.Sha256d

set_option autoImplicit false

/-- A scan reports nonces of its range only, each at most once. -/
def ScansOnce (e : Event) : Prop :=
  ∀ w batch scan, e = .worker w batch scan → ∀ midstate tail target start count,
    start.toNat + count.toNat ≤ 2 ^ 32 →
    ((scan midstate tail target start count).1.map Prod.fst).Nodup ∧
      ∀ m ∈ (scan midstate tail target start count).1,
        start.toNat ≤ m.1.toNat ∧ m.1.toNat < start.toNat + count.toNat

theorem map_fst_filterMap {α β γ : Type} (p : α → Bool) (f : α → β) (g : α → γ) (xs : List α) :
    (xs.filterMap fun x => if p x then some (f x, g x) else none).map Prod.fst =
      (xs.filter p).map f := by
  induction xs with
  | nil => rfl
  | cons x xs ih => cases holds : p x <;> simp [holds, ih]

/-- The portable scan is such a scan. -/
theorem scansOnce_genericScanner (w : WorkerId) (batch : Word) (backend : PortableBackend) :
    ScansOnce (.worker w batch (genericScanner backend)) := by
  rintro _ _ _ ⟨⟩ midstate tail target start count within
  have nonce_toNat : ∀ i < count.toNat, (start + BitVec.ofNat 32 i).toNat = start.toNat + i := by
    intro i inside
    rw [BitVec.toNat_add, BitVec.toNat_ofNat]
    have := count.isLt
    omega
  constructor
  · simp only [genericScanner, sha256dScanNonceRangeGeneric, map_fst_filterMap]
    refine List.Nodup.map_on ?_ (List.nodup_range.filter _)
    intro i inside i' inside' same
    have inside := List.mem_range.mp (List.mem_of_mem_filter inside)
    have inside' := List.mem_range.mp (List.mem_of_mem_filter inside')
    have same := congrArg BitVec.toNat same
    rw [nonce_toNat i inside, nonce_toNat i' inside'] at same
    omega
  · intro m member
    simp only [genericScanner, sha256dScanNonceRangeGeneric, List.mem_filterMap, List.mem_range] at member
    obtain ⟨i, inside, reported⟩ := member
    split at reported
    · cases reported
      rw [nonce_toNat i inside]
      omega
    · cases reported

def keyOf (share : MinerShare) : BitVec 64 × Word := (share.seq, share.nonce)

/-- The shares that made it into the queue and were popped or are still there. -/
def emitted (s : System) (os : List Output) : List MinerShare := poppedOf os ++ s.miner.shares.toList

structure Distinct (jobs : List MinerJob) (s : System) (os : List Output) : Prop where
  traced : Traced (fun _ _ => True) jobs s
  wf : s.miner.shares.WF
  keys : ((emitted s os).map keyOf).Nodup
  numbered : ∀ share ∈ emitted s os, share.seq.toNat ≤ jobs.length
  below : ∀ share ∈ emitted s os, share.seq = s.miner.job.publicJob.seq →
    share.nonce.toNat < s.miner.nextNonce.toNat
  nodup : ∀ w copy pending, Holds s w copy pending → (pending.map Prod.fst).Nodup
  pending_below : ∀ w copy pending, Holds s w copy pending →
    copy.publicJob.seq = s.miner.job.publicJob.seq →
      ∀ m ∈ pending, m.1.toNat < s.miner.nextNonce.toNat
  unreported : ∀ w copy pending, Holds s w copy pending → ∀ m ∈ pending,
    (copy.publicJob.seq, m.1) ∉ (emitted s os).map keyOf
  apart : ∀ w w' copy copy' pending pending', w ≠ w' → Holds s w copy pending →
    Holds s w' copy' pending' → copy.publicJob.seq = copy'.publicJob.seq →
      ∀ m ∈ pending, ∀ m' ∈ pending', m.1 ≠ m'.1

theorem holds_unique {s : System} {w : WorkerId} {copy copy' : ActiveJob}
    {pending pending' : List (Word × Vector Word 8)} (held : Holds s w copy pending)
    (held' : Holds s w copy' pending') : copy = copy' ∧ pending = pending' := by
  obtain ⟨count, ok, held⟩ := held
  obtain ⟨count', ok', held'⟩ := held'
  cases held.symm.trans held'
  exact ⟨rfl, rfl⟩

theorem nextNonce_change {s s' : System} {e : Event} {os : List Output} (change : Change s e s' os)
    (noJob : jobsOf [e] = []) : s.miner.nextNonce.toNat ≤ s'.miner.nextNonce.toNat := by
  cases change with
  | hand w batch scan next start range running unpaused valid isStart positive within isNext =>
      simp only
      omega
  | report w batch scan copy count nonce hashWords pending ok holding =>
      obtain ⟨shares, same⟩ := queueScanMatch_frame s.miner copy nonce hashWords
      rw [same]
  | finish w batch scan copy count holding =>
      obtain ⟨_, _, _, _, same⟩ := countHashes_frame s.miner w copy count
      rw [same]
  | setJob job => cases noJob
  | setPaused paused => rw [minerSetPaused_eq]
  | _ => exact le_rfl

/-- Copies carry the number of a job that was set. -/
theorem copy_numbered {jobs : List MinerJob} {s : System} (few : jobs.length < 2 ^ 64)
    (traced : Traced (fun _ _ => True) jobs s) {w : WorkerId} {copy : ActiveJob}
    {pending : List (Word × Vector Word 8)} (held : Holds s w copy pending) :
    copy.publicJob.seq.toNat ≤ jobs.length := by
  obtain ⟨k, job, is, -⟩ := traced.copies w copy pending held
  have inside : k < jobs.length := (List.getElem?_eq_some_iff.mp is.set).1
  rw [is.publicJob]
  simp only [Shares.numbered, BitVec.toNat_ofNat]
  omega

/-! ## One event -/

section Step

variable {jobs : List MinerJob} {s s' : System} {e : Event} {os' : List Output} (os : List Output)

/-- Shares are lost by a job change, or one joins at the end. -/
theorem emitted_cases (change : Change s e s' os') (wf : s.miner.shares.WF) :
    s'.miner.shares.WF ∧ ((emitted s' (os ++ os')).Sublist (emitted s os) ∨
      ∃ w copy m pending, Holds s w copy (m :: pending) ∧ Holds s' w copy pending ∧
        s'.miner.job = s.miner.job ∧ s'.miner.nextNonce = s.miner.nextNonce ∧
        emitted s' (os ++ os') = emitted s os ++ [shareOf copy.publicJob m]) := by
  obtain ⟨wf', cases_⟩ := queue_cases change wf
  refine ⟨wf', ?_⟩
  simp only [emitted, poppedOf_append]
  rcases cases_ with ⟨empty, quiet⟩ |
    ⟨w, copy, m, pending, held, left, sameJob, sameNext, -, queued, quiet⟩ | ⟨-, same⟩
  · left
    rw [empty, quiet, List.append_nil, List.append_nil]
    exact List.sublist_append_left _ _
  · right
    refine ⟨w, copy, m, pending, held, left, sameJob, sameNext, ?_⟩
    rw [queued, quiet, List.append_nil, List.append_assoc]
  · left
    rw [List.append_assoc, same]

/-- A number already in use is current only if the job did not change. -/
theorem current_cases (change : Change s e s' os') (few : (jobs ++ jobsOf [e]).length < 2 ^ 64)
    (traced : Traced (fun _ _ => True) jobs s) {seq : BitVec 64} (old : seq.toNat ≤ jobs.length)
    (current : seq = s'.miner.job.publicJob.seq) :
    seq = s.miner.job.publicJob.seq ∧ s.miner.nextNonce.toNat ≤ s'.miner.nextNonce.toNat := by
  rcases job_change change with ⟨job, isSet, -⟩ | ⟨noJob, publicJob, -⟩
  · subst isSet
    have longer : (jobs ++ jobsOf [Event.setJob job]).length = jobs.length + 1 := by simp [jobsOf]
    have seq' := (traced_change change (fun _ _ _ _ _ _ _ _ _ => trivial) traced).seq
    rw [current, seq', longer, BitVec.toNat_ofNat, Nat.mod_eq_of_lt (longer ▸ few)] at old
    omega
  · rw [publicJob] at current
    exact ⟨current, nextNonce_change change noJob⟩

/-- A range just handed out: its nonces were not in use, and nothing else moved. -/
theorem handing_fresh (once : ScansOnce e) {w : WorkerId} {copy : ActiveJob}
    {pending : List (Word × Vector Word 8)} {start count : Word}
    (handing : Handing s e s' os' w copy pending start count) :
    (pending.map Prod.fst).Nodup ∧ copy.publicJob.seq = s.miner.job.publicJob.seq ∧
      (∀ m ∈ pending, s.miner.nextNonce.toNat ≤ m.1.toNat ∧
        m.1.toNat < s'.miner.nextNonce.toNat) ∧
      emitted s' (os ++ os') = emitted s os := by
  obtain ⟨batch, scan, isEvent, isPending⟩ := handing.event
  obtain ⟨nodup, range⟩ := once w batch scan isEvent copy.midstate copy.tailWords copy.targetWords
    start count handing.within
  refine ⟨isPending ▸ nodup, by rw [handing.copied], ?_, ?_⟩
  · intro m member
    rw [isPending] at member
    rw [handing.next, ← handing.first]
    exact range m member
  · rw [emitted, emitted, poppedOf_append, handing.output, handing.frame]
    exact congrArg (· ++ s.miner.shares.toList) (List.append_nil _)

theorem distinct_change (change : Change s e s' os') (once : ScansOnce e)
    (few : (jobs ++ jobsOf [e]).length < 2 ^ 64) (inv : Distinct jobs s os) :
    Distinct (jobs ++ jobsOf [e]) s' (os ++ os') := by
  have few₀ : jobs.length < 2 ^ 64 := by
    rw [List.length_append] at few
    omega
  have more : jobs.length ≤ (jobs ++ jobsOf [e]).length := by
    rw [List.length_append]
    omega
  obtain ⟨wf, shares⟩ := emitted_cases os change inv.wf
  -- what is in the emitted list afterwards
  have member : ∀ share ∈ emitted s' (os ++ os'), share ∈ emitted s os ∨
      ∃ w copy m pending, Holds s w copy (m :: pending) ∧ Holds s' w copy pending ∧
        s'.miner.nextNonce = s.miner.nextNonce ∧ share = shareOf copy.publicJob m := by
    intro share is
    rcases shares with sub | ⟨w, copy, m, pending, held, left, -, next, joined⟩
    · exact .inl (sub.subset is)
    · rw [joined] at is
      rcases List.mem_append.mp is with is | is
      · exact .inl is
      · exact .inr ⟨w, copy, m, pending, held, left, next, List.mem_singleton.mp is⟩
  have numbered : ∀ share ∈ emitted s' (os ++ os'), share.seq.toNat ≤ jobs.length := by
    intro share is
    rcases member share is with is | ⟨w, copy, m, pending, held, -, -, rfl⟩
    · exact inv.numbered share is
    · exact copy_numbered few₀ inv.traced held
  refine {
    traced := traced_change change (fun _ _ _ _ _ _ _ _ _ => trivial) inv.traced
    wf := wf
    keys := ?_
    numbered := fun share is => (numbered share is).trans more
    below := ?_
    nodup := ?_
    pending_below := ?_
    unreported := ?_
    apart := ?_ }
  · rcases shares with sub | ⟨w, copy, m, pending, held, -, -, -, joined⟩
    · exact inv.keys.sublist (sub.map keyOf)
    · rw [joined, List.map_append]
      refine List.Nodup.append inv.keys (List.nodup_singleton _) ?_
      rw [List.map_singleton, List.disjoint_singleton]
      exact inv.unreported w copy _ held m (by simp)
  · intro share is current
    obtain ⟨same, next⟩ := current_cases change few inv.traced (numbered share is) current
    rcases member share is with is | ⟨w, copy, m, pending, held, -, -, rfl⟩
    · exact (inv.below share is same).trans_le next
    · exact (inv.pending_below w copy _ held same m (by simp)).trans_le next
  · intro w copy pending held
    rcases held_change change held with ⟨more, held⟩ | ⟨start, count, handing⟩
    · have nodup := inv.nodup w copy _ held
      rw [List.map_append] at nodup
      exact nodup.of_append_right
    · exact (handing_fresh os once handing).1
  · intro w copy pending held current m is
    rcases held_change change held with ⟨more, held⟩ | ⟨start, count, handing⟩
    · obtain ⟨same, next⟩ :=
        current_cases change few inv.traced (copy_numbered few₀ inv.traced held) current
      exact (inv.pending_below w copy _ held same m (List.mem_append_right more is)).trans_le next
    · exact ((handing_fresh os once handing).2.2.1 m is).2
  · intro w copy pending held m is reported
    obtain ⟨share, isShare, key⟩ := List.mem_map.mp reported
    obtain ⟨sameSeq, sameNonce⟩ := Prod.mk.inj key
    rcases held_change change held with ⟨more, before⟩ | ⟨start, count, handing⟩
    · rcases member share isShare with isShare | ⟨w₀, copy₀, m₀, pending₀, held₀, left₀, -, rfl⟩
      · exact inv.unreported w copy _ before m (List.mem_append_right more is)
          (List.mem_map.mpr ⟨share, isShare, key⟩)
      · by_cases same : w = w₀
        · subst same
          obtain ⟨rfl, rfl⟩ := holds_unique held left₀
          have nodup := inv.nodup w copy _ held₀
          rw [List.map_cons, List.nodup_cons] at nodup
          exact nodup.1 (List.mem_map.mpr ⟨m, is, sameNonce.symm⟩)
        · exact inv.apart w w₀ copy copy₀ _ _ same before held₀ sameSeq.symm m
            (List.mem_append_right more is) m₀ (by simp) sameNonce.symm
    · obtain ⟨-, current, fresh, same⟩ := handing_fresh os once handing
      rw [same] at isShare
      have below := inv.below share isShare (sameSeq.trans current)
      rw [show share.nonce = m.1 from sameNonce] at below
      exact absurd (fresh m is).1 (by omega)
  · intro w w' copy copy' pending pending' other held held' sameSeq m is m' is' sameNonce
    -- a fresh range starts above everything an older copy of the same job can report
    have fresh_above : ∀ {v v' : WorkerId} {c c' : ActiveJob} {p p' more : List (Word × Vector Word 8)}
        {start count : Word}, Holds s v c (more ++ p) → Handing s e s' os' v' c' p' start count →
        c.publicJob.seq = c'.publicJob.seq → ∀ n ∈ p, ∀ n' ∈ p', n.1 ≠ n'.1 := by
      intro v v' c c' p p' more start count before handing sameSeq n isN n' isN' sameNonce
      obtain ⟨-, current, fresh, -⟩ := handing_fresh os once handing
      have below := inv.pending_below v c _ before (sameSeq.trans current) n
        (List.mem_append_right more isN)
      have above := (fresh n' isN').1
      rw [← sameNonce] at above
      omega
    rcases held_change change held with ⟨more, before⟩ | ⟨start, count, handing⟩ <;>
      rcases held_change change held' with ⟨more', before'⟩ | ⟨start', count', handing'⟩
    · exact inv.apart w w' copy copy' _ _ other before before' sameSeq m
        (List.mem_append_right more is) m' (List.mem_append_right more' is') sameNonce
    · exact fresh_above before handing' sameSeq m is m' is' sameNonce
    · exact fresh_above before' handing sameSeq.symm m' is' m is sameNonce.symm
    · have outputs := handing.output.symm.trans handing'.output
      simp only [List.cons.injEq, Output.handed.injEq] at outputs
      exact other outputs.1.1

/-! ## The ranges of one job -/

/-- The ranges handed out, each with the number of its job. -/
def handedOf (os : List Output) : List (BitVec 64 × Nat × Nat) :=
  os.filterMap fun
    | .handed _ job start count => some (job.publicJob.seq, start.toNat, count.toNat)
    | _ => none

theorem handedOf_append (os os' : List Output) : handedOf (os ++ os') = handedOf os ++ handedOf os' :=
  List.filterMap_append

/-- Two ranges of the same job have no nonce in common. -/
def RangesApart (r r' : BitVec 64 × Nat × Nat) : Prop :=
  r.1 = r'.1 → Disjoint (Set.Ico r.2.1 (r.2.1 + r.2.2)) (Set.Ico r'.2.1 (r'.2.1 + r'.2.2))

structure Ranged (jobs : List MinerJob) (s : System) (os : List Output) : Prop where
  traced : Traced (fun _ _ => True) jobs s
  numbered : ∀ r ∈ handedOf os, r.1.toNat ≤ jobs.length
  below : ∀ r ∈ handedOf os, r.1 = s.miner.job.publicJob.seq →
    r.2.1 + r.2.2 ≤ s.miner.nextNonce.toNat
  apart : (handedOf os).Pairwise RangesApart

/-- A range joins at the end, starting at `next_nonce`, or none does. -/
theorem handedOf_cases (change : Change s e s' os') :
    handedOf os' = [] ∨ ∃ start count, handedOf os' = [(s.miner.job.publicJob.seq, start, count)] ∧
      start = s.miner.nextNonce.toNat ∧ s'.miner.nextNonce.toNat = start + count := by
  cases change with
  | hand w batch scan next start range running unpaused valid isStart positive within isNext =>
      exact .inr ⟨start.toNat, range.toNat, rfl, isStart, isNext⟩
  | _ => exact .inl rfl

theorem ranged_change (change : Change s e s' os') (few : (jobs ++ jobsOf [e]).length < 2 ^ 64)
    (inv : Ranged jobs s os) : Ranged (jobs ++ jobsOf [e]) s' (os ++ os') := by
  have few₀ : jobs.length < 2 ^ 64 := by
    rw [List.length_append] at few
    omega
  have more : jobs.length ≤ (jobs ++ jobsOf [e]).length := by
    rw [List.length_append]
    omega
  have current : s.miner.job.publicJob.seq.toNat ≤ jobs.length := by
    rw [inv.traced.seq, BitVec.toNat_ofNat]
    exact Nat.mod_le _ _
  have old : ∀ r ∈ handedOf os, r.1 = s'.miner.job.publicJob.seq →
      r.2.1 + r.2.2 ≤ s'.miner.nextNonce.toNat := by
    intro r is same
    obtain ⟨same, next⟩ := current_cases change few inv.traced (inv.numbered r is) same
    exact (inv.below r is same).trans next
  have traced := traced_change change (fun _ _ _ _ _ _ _ _ _ => trivial) inv.traced
  rcases handedOf_cases change with none_ | ⟨start, count, joined, first, next⟩
  · have same : handedOf (os ++ os') = handedOf os := by rw [handedOf_append, none_, List.append_nil]
    exact {
      traced := traced
      numbered := by rw [same]; exact fun r is => (inv.numbered r is).trans more
      below := by rw [same]; exact old
      apart := by rw [same]; exact inv.apart }
  · have joined' : handedOf (os ++ os') = handedOf os ++ [(s.miner.job.publicJob.seq, start, count)] := by
      rw [handedOf_append, joined]
    refine ⟨traced, ?_, ?_, ?_⟩
    · intro r is
      rw [joined', List.mem_append, List.mem_singleton] at is
      rcases is with is | rfl
      · exact (inv.numbered r is).trans more
      · exact current.trans more
    · intro r is same
      rw [joined', List.mem_append, List.mem_singleton] at is
      rcases is with is | rfl
      · exact old r is same
      · exact next.ge
    · rw [joined', List.pairwise_append]
      refine ⟨inv.apart, List.pairwise_singleton _ _, ?_⟩
      intro r is r' is' same
      rw [List.mem_singleton.mp is'] at same ⊢
      have below := inv.below r is same
      apply Set.disjoint_left.mpr
      intro n inside inside'
      simp only [Set.mem_Ico] at inside inside'
      omega

end Step

/-! ## Whole runs -/

/-- **No pair is popped twice.** -/
theorem distinct_run (threads opencl cuda : Nat) (es : List Event) (once : ∀ e ∈ es, ScansOnce e)
    (few : (jobsOf es).length < 2 ^ 64) :
    Distinct (jobsOf es) (run (initial threads opencl cuda) es).1
      (run (initial threads opencl cuda) es).2 := by
  refine run_invariant (initial threads opencl cuda)
    (fun es s os => (∀ e ∈ es, ScansOnce e) → (jobsOf es).length < 2 ^ 64 → Distinct (jobsOf es) s os)
    ?_ ?_ es once few
  · intro _ _
    have nothing : emitted (initial threads opencl cuda) [] = [] := by
      simp [emitted, poppedOf, initial, minerStarted, RingBuffer.toList]
    have idle : ∀ w copy pending, ¬Holds (initial threads opencl cuda) w copy pending := by
      rintro w copy pending ⟨count, ok, held⟩
      cases held
    exact {
      traced := traced_initial _ threads opencl cuda
      wf := ⟨Nat.zero_lt_succ _, rfl, Nat.zero_le _⟩
      keys := by rw [nothing]; exact List.nodup_nil
      numbered := by simp [nothing]
      below := by simp [nothing]
      nodup := fun w copy pending held => absurd held (idle w copy pending)
      pending_below := fun w copy pending held => absurd held (idle w copy pending)
      unreported := fun w copy pending held => absurd held (idle w copy pending)
      apart := fun w _ copy _ pending _ _ held => absurd held (idle w copy pending) }
  · intro es e s s' os os' change ih once few
    rw [jobsOf_append] at few ⊢
    refine distinct_change os change (once e (by simp)) few
      (ih (fun e' member => once e' (by simp [member])) ?_)
    rw [List.length_append] at few
    omega

theorem ranged_run (threads opencl cuda : Nat) (es : List Event)
    (few : (jobsOf es).length < 2 ^ 64) :
    Ranged (jobsOf es) (run (initial threads opencl cuda) es).1
      (run (initial threads opencl cuda) es).2 := by
  refine run_invariant (initial threads opencl cuda)
    (fun es s os => (jobsOf es).length < 2 ^ 64 → Ranged (jobsOf es) s os) ?_ ?_ es few
  · intro _
    exact ⟨traced_initial _ threads opencl cuda, fun _ => nofun, fun _ => nofun, List.Pairwise.nil⟩
  · intro es e s s' os os' change ih few
    rw [jobsOf_append] at few ⊢
    refine ranged_change os change few (ih ?_)
    rw [List.length_append] at few
    omega

theorem popped_keys_nodup (threads opencl cuda : Nat) (es : List Event)
    (once : ∀ e ∈ es, ScansOnce e) (few : (jobsOf es).length < 2 ^ 64) :
    ((poppedOf (run (initial threads opencl cuda) es).2).map keyOf).Nodup := by
  have keys := (distinct_run threads opencl cuda es once few).keys
  rw [emitted, List.map_append] at keys
  exact keys.of_append_left

end BtcRig.Mining.Unique
