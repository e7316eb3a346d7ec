/-
# BtcRig.Mining.ShareQueue — the share ring is a queue of 256 shares

Found shares wait in a ring between the worker that found them and the caller that
submits them.  Three calls touch it: a worker queues, the caller pops, and a new job
drops what is waiting.

`queueCall` is the queue the ring is for, a list that holds at most 256 shares.
`related_call` is the step, and `share_ring_is_fifo` follows for every sequence of
calls by the simulation rule of `Theory.Machine`.
-/
import BtcRig.Mining.State
import BtcRig.Theory.Machine

namespace BtcRig.Mining.ShareQueue

open BtcRig.Theory
open BtcRig.Theory.Words
open BtcRig.Mining.Job
open BtcRig.Mining.State

set_option autoImplicit false

/-! ## The calls -/

inductive Call where
  | queueShareLocked (job : MinerJob) (nonce : Word) (hash : Vector Byte 32)
  | minerPopShare
  | minerSetJob (job : MinerJob)

/-- The output of a pop is the share, or nothing where it returns 0. -/
def call (miner : Miner) : Call → Miner × List (Option MinerShare)
  | .queueShareLocked job nonce hash => (queueShareLocked miner job nonce hash, [])
  | .minerPopShare => ((minerPopShare miner).2, [(minerPopShare miner).1])
  | .minerSetJob job => (minerSetJob miner job, [])

def run (threadCount : Int) (calls : List Call) : Miner × List (Option MinerShare) :=
  Machine.exec call (minerCreate threadCount) calls

/-! ## The queue -/

/-- The share of a found nonce. -/
def foundShare (job : MinerJob) (nonce : Word) (hash : Vector Byte 32) : MinerShare where
  seq := job.seq
  nonce := nonce
  difficulty := minerHashDifficulty hash
  hash := hash
  jobId := job.jobId
  extranonce2 := job.extranonce2
  ntime := job.ntime

/-- The same calls on a list of capacity 256, the oldest share first. -/
def queueCall (shares : List MinerShare) : Call → List MinerShare × List (Option MinerShare)
  | .queueShareLocked job nonce hash =>
      (if shares.length < 256 then shares ++ [foundShare job nonce hash] else shares, [])
  | .minerPopShare => (shares.tail, [shares.head?])
  | .minerSetJob _ => ([], [])

def queueRun (calls : List Call) : List MinerShare × List (Option MinerShare) :=
  Machine.exec queueCall [] calls

/-! ## The simulation -/

/-- The ring of `miner` stands for `shares`. -/
structure Related (miner : Miner) (shares : List MinerShare) : Prop where
  wf : miner.shares.WF
  contents : miner.shares.toList = shares

theorem related_create (threadCount : Int) : Related (minerCreate threadCount) [] where
  wf := ⟨show 0 < 256 by decide, rfl, Nat.zero_le _⟩
  contents := rfl

theorem related_call (miner : Miner) (shares : List MinerShare) (c : Call)
    (related : Related miner shares) :
    Related (call miner c).1 (queueCall shares c).1 ∧ (call miner c).2 = (queueCall shares c).2 := by
  obtain ⟨wf, rfl⟩ := related
  cases c with
  | queueShareLocked job nonce hash =>
      exact ⟨⟨RingBuffer.wf_push wf _, RingBuffer.toList_push wf _⟩, rfl⟩
  | minerPopShare =>
      obtain ⟨oldest, rest⟩ := RingBuffer.toList_pop wf
      refine ⟨⟨RingBuffer.wf_pop wf, rest⟩, ?_⟩
      exact congrArg (fun share => [share]) oldest
  | minerSetJob job =>
      exact ⟨⟨RingBuffer.wf_clear (by decide), RingBuffer.toList_clear _⟩, rfl⟩

/-- **The share ring is a queue of 256 shares**, whatever is called on a created miner:
every pop returns what the queue's pop returns, and the three indices stay consistent. -/
theorem share_ring_is_fifo (threadCount : Int) (calls : List Call) :
    let ring := (run threadCount calls).1.shares
    ring.tail = (ring.head + ring.count) % 256 ∧ ring.count ≤ 256 ∧
      (run threadCount calls).2 = (queueRun calls).2 ∧ ring.toList = (queueRun calls).1 := by
  intro ring
  obtain ⟨⟨wf, contents⟩, outputs⟩ :=
    Machine.exec_simulates call queueCall Related related_call (related_create threadCount) calls
  exact ⟨wf.tail_eq, wf.count_le, outputs, contents⟩

end BtcRig.Mining.ShareQueue
