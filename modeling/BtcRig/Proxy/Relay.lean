/-
# BtcRig.Proxy.Relay — the proxy's two-way byte relay

`proxy_loop` moves bytes between the client and the upstream through one buffer per
direction.  Reads and writes make partial progress, block, fail or find the end of
the stream; one step of the model is one call of the loop body with its result, so
every prefix of a run is a point of the real loop.

* `Relaying` ties a buffer to the bytes read and written so far: what was read is
  what was written followed by what the buffer still holds;
* `relay_faithful`: so nothing is lost, repeated or reordered, and at the end of a
  stream everything read from it has been passed on.
-/
import BtcRig.Theory.Machine
import BtcRig.Theory.Words

namespace BtcRig.Proxy.Relay

open BtcRig.Theory
open BtcRig.Theory.Words

set_option autoImplicit false

def bufferSize : Nat := 32768

structure Buffer where
  data : Vector Byte bufferSize
  off : Nat
  len : Nat

/-! ## Streams -/

/-- What `recv` or `SSL_read` finds. -/
inductive RawRead where
  /-- At least one byte is there; the call takes as many as fit. -/
  | bytes (first : Byte) (rest : List Byte)
  /-- `recv` returns 0, or the TLS peer closed the session. -/
  | closed
  /-- Nothing to read now, or the call was interrupted. -/
  | wouldBlock
  | failed

/-- What `send` or `SSL_write` finds. -/
inductive RawWrite where
  /-- There is room for `more + 1` bytes. -/
  | room (more : Nat)
  | wouldBlock
  | failed

/-- The result code, and the bytes put into the buffer. -/
def streamRead (size : Nat) : RawRead → Int × List Byte
  | .bytes first rest =>
      let bytes := (first :: rest).take size
      (bytes.length, bytes)
  | .closed => (0, [])
  | .wouldBlock => (-2, [])
  | .failed => (-1, [])

def streamWrite (size : Nat) : RawWrite → Int
  | .room more => min (more + 1) size
  | .wouldBlock => -2
  | .failed => -1

/-! ## The loop -/

def bufferEmpty (buffer : Buffer) : Bool := buffer.off ≥ buffer.len

def bufferReset (buffer : Buffer) : Buffer := { buffer with off := 0, len := 0 }

inductive Exit where
  | clientEnd
  | upstreamEnd
  | failed
deriving DecidableEq

/-- The point of the loop body that is reached. -/
inductive Stage where
  | writeUpstream
  | writeClient
  | readClient
  | readUpstream
  | select
  | exited (why : Exit)
deriving DecidableEq

structure Loop where
  c2u : Buffer
  u2c : Buffer
  clientOpen : Bool
  upstreamOpen : Bool
  progress : Bool
  stage : Stage

/-- What the next call finds; each stage uses its own part. -/
structure Answer where
  read : RawRead
  write : RawWrite
  selectFailed : Bool

inductive Moved where
  | fromClient (bytes : List Byte)
  | toUpstream (bytes : List Byte)
  | fromUpstream (bytes : List Byte)
  | toClient (bytes : List Byte)

/-- One write stage: the new buffer, the bytes that went out and whether the loop goes
on, with progress or without. -/
inductive Outcome where
  | progress
  | retry
  | ended
  | failed
deriving DecidableEq

def writeStage (buffer : Buffer) (answer : RawWrite) : Buffer × List Byte × Outcome :=
  let n := streamWrite (buffer.len - buffer.off) answer
  if n > 0 then
    let bytes := (buffer.data.toList.drop buffer.off).take n.toNat
    let buffer := { buffer with off := buffer.off + n.toNat }
    (if bufferEmpty buffer then bufferReset buffer else buffer, bytes, .progress)
  else if n < -1 then (buffer, [], .retry)
  else (buffer, [], .failed)

/-- The first bytes of the buffer are overwritten by those read. -/
def fill (data : Vector Byte bufferSize) (bytes : List Byte) : Vector Byte bufferSize :=
  ⟨((bytes ++ data.toList.drop bytes.length).take bufferSize).toArray, by simp; omega⟩

def readStage (buffer : Buffer) (answer : RawRead) : Buffer × List Byte × Outcome :=
  let (n, bytes) := streamRead bufferSize answer
  if n > 0 then ({ data := fill buffer.data bytes, off := 0, len := n.toNat }, bytes, .progress)
  else if n = 0 then (buffer, [], .ended)
  else if n < -1 then (buffer, [], .retry)
  else (buffer, [], .failed)

def relayStep (s : Loop) (answer : Answer) : Loop × List Moved :=
  match s.stage with
  | .writeUpstream =>
      if bufferEmpty s.c2u then ({ s with stage := .writeClient }, [])
      else
        match writeStage s.c2u answer.write with
        | (buffer, bytes, .progress) =>
            ({ s with c2u := buffer, progress := true, stage := .writeClient }, [.toUpstream bytes])
        | (buffer, _, .retry) => ({ s with c2u := buffer, stage := .writeClient }, [])
        | (buffer, _, _) => ({ s with c2u := buffer, stage := .exited .failed }, [])
  | .writeClient =>
      if bufferEmpty s.u2c then ({ s with stage := .readClient }, [])
      else
        match writeStage s.u2c answer.write with
        | (buffer, bytes, .progress) =>
            ({ s with u2c := buffer, progress := true, stage := .readClient }, [.toClient bytes])
        | (buffer, _, .retry) => ({ s with u2c := buffer, stage := .readClient }, [])
        | (buffer, _, _) => ({ s with u2c := buffer, stage := .exited .failed }, [])
  | .readClient =>
      if s.clientOpen && bufferEmpty s.c2u then
        match readStage s.c2u answer.read with
        | (buffer, bytes, .progress) =>
            ({ s with c2u := buffer, progress := true, stage := .readUpstream }, [.fromClient bytes])
        | (buffer, _, .retry) => ({ s with c2u := buffer, stage := .readUpstream }, [])
        | (buffer, _, .ended) =>
            ({ s with c2u := buffer, clientOpen := false, stage := .exited .clientEnd }, [])
        | (buffer, _, .failed) => ({ s with c2u := buffer, stage := .exited .failed }, [])
      else ({ s with stage := .readUpstream }, [])
  | .readUpstream =>
      if s.upstreamOpen && bufferEmpty s.u2c then
        match readStage s.u2c answer.read with
        | (buffer, bytes, .progress) =>
            ({ s with u2c := buffer, progress := true, stage := .select }, [.fromUpstream bytes])
        | (buffer, _, .retry) => ({ s with u2c := buffer, stage := .select }, [])
        | (buffer, _, .ended) =>
            ({ s with u2c := buffer, upstreamOpen := false, stage := .exited .upstreamEnd }, [])
        | (buffer, _, .failed) => ({ s with u2c := buffer, stage := .exited .failed }, [])
      else ({ s with stage := .select }, [])
  | .select =>
      if !s.progress && answer.selectFailed then ({ s with stage := .exited .failed }, [])
      else ({ s with progress := false, stage := .writeUpstream }, [])
  | .exited _ => (s, [])

/-- The buffers' contents are whatever was on the stack. -/
def relayInitial (c2u u2c : Vector Byte bufferSize) : Loop where
  c2u := ⟨c2u, 0, 0⟩
  u2c := ⟨u2c, 0, 0⟩
  clientOpen := true
  upstreamOpen := true
  progress := false
  stage := .writeUpstream

def relayRun (s : Loop) (answers : List Answer) : Loop × List Moved :=
  Machine.exec relayStep s answers

/-! ## The bytes that moved -/

def fromClientOf (ms : List Moved) : List Byte :=
  ms.flatMap fun
    | .fromClient bytes => bytes
    | _ => []

def toUpstreamOf (ms : List Moved) : List Byte :=
  ms.flatMap fun
    | .toUpstream bytes => bytes
    | _ => []

def fromUpstreamOf (ms : List Moved) : List Byte :=
  ms.flatMap fun
    | .fromUpstream bytes => bytes
    | _ => []

def toClientOf (ms : List Moved) : List Byte :=
  ms.flatMap fun
    | .toClient bytes => bytes
    | _ => []

/-- The bytes a buffer still holds. -/
def pendingOf (buffer : Buffer) : List Byte := (buffer.data.toList.take buffer.len).drop buffer.off

/-! ## One direction -/

/-- Everything read and not yet written is in the buffer, in order. -/
structure Relaying (buffer : Buffer) (read written : List Byte) : Prop where
  offset : buffer.off ≤ buffer.len
  length : buffer.len ≤ bufferSize
  bytes : read = written ++ pendingOf buffer

theorem pendingOf_empty {buffer : Buffer} (empty : bufferEmpty buffer = true) :
    pendingOf buffer = [] := by
  have past : buffer.len ≤ buffer.off := by simpa [bufferEmpty] using empty
  apply List.drop_eq_nil_of_le
  rw [List.length_take]
  omega

/-- A write takes bytes off the front of what the buffer holds. -/
theorem writeStage_spec {buffer : Buffer} {read written : List Byte}
    (inv : Relaying buffer read written) (some_ : bufferEmpty buffer = false) (answer : RawWrite) :
    (∃ buffer' bytes, writeStage buffer answer = (buffer', bytes, .progress) ∧
        Relaying buffer' read (written ++ bytes)) ∨
      writeStage buffer answer = (buffer, [], .retry) ∨
      writeStage buffer answer = (buffer, [], .failed) := by
  have less : buffer.off < buffer.len := by simpa [bufferEmpty] using some_
  have within := inv.length
  cases answer with
  | wouldBlock => exact .inr (.inl rfl)
  | failed => exact .inr (.inr rfl)
  | room more =>
      left
      obtain ⟨n, isN, positive, atMost⟩ : ∃ n : Nat,
          streamWrite (buffer.len - buffer.off) (.room more) = n ∧ 0 < n ∧
            n ≤ buffer.len - buffer.off := by
        refine ⟨min (more + 1) (buffer.len - buffer.off), ?_, by omega, by omega⟩
        simp [streamWrite]
      have isStage : writeStage buffer (.room more) =
          (if bufferEmpty { buffer with off := buffer.off + n } then
              bufferReset { buffer with off := buffer.off + n }
            else { buffer with off := buffer.off + n },
            (buffer.data.toList.drop buffer.off).take n, .progress) := by
        simp only [writeStage, isN, Int.toNat_natCast]
        rw [if_pos (by omega)]
      refine ⟨_, _, isStage, ?_⟩
      -- the bytes sent and what is left are the old contents
      have sent : (buffer.data.toList.drop buffer.off).take n = (pendingOf buffer).take n := by
        rw [pendingOf, List.drop_take, List.take_take, min_eq_left atMost]
      have left_ : pendingOf { buffer with off := buffer.off + n } = (pendingOf buffer).drop n := by
        simp only [pendingOf, List.drop_drop]
      have moved : read = written ++ (buffer.data.toList.drop buffer.off).take n ++
          pendingOf { buffer with off := buffer.off + n } := by
        rw [sent, left_, List.append_assoc, List.take_append_drop]
        exact inv.bytes
      split
      · rename_i empty
        refine ⟨le_rfl, Nat.zero_le _, ?_⟩
        rw [pendingOf_empty empty] at moved
        rw [moved]
        rfl
      · exact ⟨by simp only; omega, within, moved⟩

theorem pendingOf_fill (data : Vector Byte bufferSize) {bytes : List Byte}
    (fits : bytes.length ≤ bufferSize) : pendingOf ⟨fill data bytes, 0, bytes.length⟩ = bytes := by
  have isList : (fill data bytes).toList =
      (bytes ++ data.toList.drop bytes.length).take bufferSize := by simp [fill]
  rw [pendingOf, isList, List.drop_zero, List.take_take, min_eq_left fits]
  exact List.take_left

/-- A read fills the buffer, once it is empty. -/
theorem readStage_spec {buffer : Buffer} {read written : List Byte}
    (inv : Relaying buffer read written) (empty : bufferEmpty buffer = true) (answer : RawRead) :
    (∃ buffer' bytes, readStage buffer answer = (buffer', bytes, .progress) ∧
        Relaying buffer' (read ++ bytes) written) ∨
      readStage buffer answer = (buffer, [], .retry) ∨
      readStage buffer answer = (buffer, [], .ended) ∨
      readStage buffer answer = (buffer, [], .failed) := by
  cases answer with
  | closed => exact .inr (.inr (.inl rfl))
  | wouldBlock => exact .inr (.inl rfl)
  | failed => exact .inr (.inr (.inr rfl))
  | bytes first rest =>
      left
      generalize isBytes : (first :: rest).take bufferSize = bytes
      have fits : bytes.length ≤ bufferSize := by
        rw [← isBytes, List.length_take]
        omega
      have positive : 0 < bytes.length := by
        rw [← isBytes, List.length_take, List.length_cons]
        exact Nat.lt_min.mpr ⟨by decide, Nat.succ_pos _⟩
      have isStage : readStage buffer (.bytes first rest) =
          (⟨fill buffer.data bytes, 0, bytes.length⟩, bytes, .progress) := by
        simp only [readStage, streamRead, isBytes, Int.toNat_natCast]
        rw [if_pos (by omega)]
      refine ⟨_, _, isStage, Nat.zero_le _, fits, ?_⟩
      rw [pendingOf_fill buffer.data fits, inv.bytes, pendingOf_empty empty, List.append_nil]

/-! ## The whole loop -/

structure Faithful (s : Loop) (ms : List Moved) : Prop where
  up : Relaying s.c2u (fromClientOf ms) (toUpstreamOf ms)
  down : Relaying s.u2c (fromUpstreamOf ms) (toClientOf ms)
  clientEnd : s.stage = .exited .clientEnd → bufferEmpty s.c2u = true
  upstreamEnd : s.stage = .exited .upstreamEnd → bufferEmpty s.u2c = true

theorem faithful_step {s : Loop} {ms : List Moved} (inv : Faithful s ms) (answer : Answer) :
    Faithful (relayStep s answer).1 (ms ++ (relayStep s answer).2) := by
  have up := inv.up
  have down := inv.down
  unfold relayStep
  cases stage : s.stage with
  | writeUpstream =>
      simp only
      cases empty : bufferEmpty s.c2u with
      | true => exact ⟨by simpa using up, by simpa using down, nofun, nofun⟩
      | false =>
          rcases writeStage_spec up empty answer.write with
            ⟨buffer, bytes, is, wrote⟩ | is | is <;>
            simp only [is, Bool.false_eq_true, if_false]
          · refine ⟨?_, ?_, nofun, nofun⟩
            · simpa [fromClientOf, toUpstreamOf] using wrote
            · simpa [fromUpstreamOf, toClientOf] using down
          · exact ⟨by simpa using up, by simpa using down, nofun, nofun⟩
          · exact ⟨by simpa using up, by simpa using down, nofun, nofun⟩
  | writeClient =>
      simp only
      cases empty : bufferEmpty s.u2c with
      | true => exact ⟨by simpa using up, by simpa using down, nofun, nofun⟩
      | false =>
          rcases writeStage_spec down empty answer.write with
            ⟨buffer, bytes, is, wrote⟩ | is | is <;>
            simp only [is, Bool.false_eq_true, if_false]
          · refine ⟨?_, ?_, nofun, nofun⟩
            · simpa [fromClientOf, toUpstreamOf] using up
            · simpa [fromUpstreamOf, toClientOf] using wrote
          · exact ⟨by simpa using up, by simpa using down, nofun, nofun⟩
          · exact ⟨by simpa using up, by simpa using down, nofun, nofun⟩
  | readClient =>
      simp only
      cases ready : (s.clientOpen && bufferEmpty s.c2u) with
      | false => exact ⟨by simpa using up, by simpa using down, nofun, nofun⟩
      | true =>
          have empty : bufferEmpty s.c2u = true := (Bool.and_eq_true_iff.mp ready).2
          rcases readStage_spec up empty answer.read with
            ⟨buffer, bytes, is, got⟩ | is | is | is <;> simp only [is, if_true]
          · refine ⟨?_, ?_, nofun, nofun⟩
            · simpa [fromClientOf, toUpstreamOf] using got
            · simpa [fromUpstreamOf, toClientOf] using down
          · exact ⟨by simpa using up, by simpa using down, nofun, nofun⟩
          · exact ⟨by simpa using up, by simpa using down, fun _ => empty, nofun⟩
          · exact ⟨by simpa using up, by simpa using down, nofun, nofun⟩
  | readUpstream =>
      simp only
      cases ready : (s.upstreamOpen && bufferEmpty s.u2c) with
      | false => exact ⟨by simpa using up, by simpa using down, nofun, nofun⟩
      | true =>
          have empty : bufferEmpty s.u2c = true := (Bool.and_eq_true_iff.mp ready).2
          rcases readStage_spec down empty answer.read with
            ⟨buffer, bytes, is, got⟩ | is | is | is <;> simp only [is, if_true]
          · refine ⟨?_, ?_, nofun, nofun⟩
            · simpa [fromClientOf, toUpstreamOf] using up
            · simpa [fromUpstreamOf, toClientOf] using got
          · exact ⟨by simpa using up, by simpa using down, nofun, nofun⟩
          · exact ⟨by simpa using up, by simpa using down, nofun, fun _ => empty⟩
          · exact ⟨by simpa using up, by simpa using down, nofun, nofun⟩
  | select =>
      simp only
      split
      · exact ⟨by simpa using up, by simpa using down, nofun, nofun⟩
      · exact ⟨by simpa using up, by simpa using down, nofun, nofun⟩
  | exited why =>
      simp only [List.append_nil]
      exact ⟨up, down, inv.clientEnd, inv.upstreamEnd⟩

/-- **A faithful two-way relay.**  At every point of the loop, whatever the reads and
writes returned so far: what went to the upstream, followed by what is still buffered,
is what came from the client, and the same the other way; the offsets stay in bounds;
and once the loop has ended because one side closed, everything read from that side
has been written to the other. -/
theorem relay_faithful (c2u u2c : Vector Byte bufferSize) (answers : List Answer) :
    let s := (relayRun (relayInitial c2u u2c) answers).1
    let ms := (relayRun (relayInitial c2u u2c) answers).2
    toUpstreamOf ms <+: fromClientOf ms ∧ toClientOf ms <+: fromUpstreamOf ms ∧
      fromClientOf ms = toUpstreamOf ms ++ pendingOf s.c2u ∧
      fromUpstreamOf ms = toClientOf ms ++ pendingOf s.u2c ∧
      (s.c2u.off ≤ s.c2u.len ∧ s.c2u.len ≤ 32768) ∧ (s.u2c.off ≤ s.u2c.len ∧ s.u2c.len ≤ 32768) ∧
      (s.stage = .exited .clientEnd → toUpstreamOf ms = fromClientOf ms) ∧
      (s.stage = .exited .upstreamEnd → toClientOf ms = fromUpstreamOf ms) := by
  intro s ms
  have inv : Faithful s ms := by
    refine Machine.exec_invariant relayStep (relayInitial c2u u2c) (fun _ s ms => Faithful s ms) ?_
      (fun _ answer s ms inv => faithful_step inv answer) answers
    exact ⟨⟨le_rfl, Nat.zero_le _, by simp [relayInitial, pendingOf, fromClientOf, toUpstreamOf]⟩,
      ⟨le_rfl, Nat.zero_le _, by simp [relayInitial, pendingOf, fromUpstreamOf, toClientOf]⟩,
      nofun, nofun⟩
  refine ⟨⟨_, inv.up.bytes.symm⟩, ⟨_, inv.down.bytes.symm⟩, inv.up.bytes, inv.down.bytes,
    ⟨inv.up.offset, inv.up.length⟩, ⟨inv.down.offset, inv.down.length⟩, fun ended => ?_,
    fun ended => ?_⟩
  · have bytes := inv.up.bytes
    rw [pendingOf_empty (inv.clientEnd ended), List.append_nil] at bytes
    exact bytes.symm
  · have bytes := inv.down.bytes
    rw [pendingOf_empty (inv.upstreamEnd ended), List.append_nil] at bytes
    exact bytes.symm

/-- Three bytes go up in two writes before the client closes; of two bytes that come down one is
still in the buffer then. -/
example :
    let stack : Vector Byte bufferSize := Vector.replicate bufferSize 0
    let idle : Answer := ⟨.wouldBlock, .wouldBlock, false⟩
    let r := relayRun (relayInitial stack stack) [idle, idle,
      { idle with read := .bytes 1 [2, 3] }, { idle with read := .bytes 8 [9] }, idle,
      { idle with write := .room 0 }, { idle with write := .room 0 }, idle, idle, idle,
      { idle with write := .room 7 }, idle, { idle with read := .closed }]
    r.1.stage = .exited .clientEnd ∧ fromClientOf r.2 = [1, 2, 3] ∧ toUpstreamOf r.2 = [1, 2, 3] ∧
      fromUpstreamOf r.2 = [8, 9] ∧ toClientOf r.2 = [8] ∧ pendingOf r.1.u2c = [9] := by
  decide +kernel

end BtcRig.Proxy.Relay
