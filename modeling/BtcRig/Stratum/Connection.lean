/-
# BtcRig.Stratum.Connection — how a session of the client comes to its connection

`conn_open` tries an endpoint in up to three ways: as configured, without checking the
certificate if only the handshake failed, and in the clear.  `stratum_run_client` opens
the connection, then the miner and its statistics, runs the loop and closes everything.

* `connOpen_mode` says which of the three a connection is, for whatever the network
  does;
* `client_releases`: on every path everything that was opened is closed, once, and the
  loop runs with all of it open.
-/
import BtcRig.Net.Connect
import BtcRig.Stratum.PoolUrl

namespace BtcRig.Stratum.Connection

open BtcRig.Theory.Ownership
open BtcRig.Theory.Handles
open BtcRig.Net.Connect
open BtcRig.Stratum.PoolUrl

set_option autoImplicit false

/-- What is tried when there is no stream. -/
def otherwise (r : Opened) (next : Opened → Opened) : Opened := if r.stream.isSome then r else next r

def connOpen (t : Fds) (endpoint : PoolEndpoint) (first second third : Meets) : Opened :=
  otherwise (openClient t endpoint.useTls endpoint.verifyTls first) fun r =>
    otherwise (if endpoint.useTls && endpoint.verifyTls && r.handshakeFailed then
        openClient r.fds endpoint.useTls false second
      else r) fun r =>
        if endpoint.useTls then openClient r.fds false false third else r

/-! ## The client around its loop -/

/-- What the client meets before and in its loop. -/
structure Prelude where
  first : Meets
  second : Meets
  third : Meets
  minerMade : Bool
  minerStarted : Bool
  statsMade : Bool
  /-- What the loop returns. -/
  loopResult : Int

/-- What was open while the loop ran, and the connection it ran on. -/
structure Looped where
  fds : Fds
  conn : Stream
  /-- The miner and the buffer of its statistics, if the session mines. -/
  mining : List (Handle Kind)

structure ClientRun where
  fds : Fds
  result : Int
  looped : Option Looped

def stratumRunClient (url : List Char) (enableMining : Bool) (p : Prelude) : ClientRun :=
  match parsePoolUrl url with
  | none => ⟨.empty, 2, none⟩
  | some endpoint =>
      let r := connOpen .empty endpoint p.first p.second p.third
      match r.stream with
      | none => ⟨r.fds, 1, none⟩
      | some conn =>
          let t := r.fds
          if !enableMining then ⟨closeStream t conn, p.loopResult, some ⟨t, conn, []⟩⟩
          else if !p.minerMade then ⟨closeStream t conn, 1, none⟩
          else
            let miner := t.fresh .miner
            let t := t.opened .miner
            if !p.minerStarted then ⟨closeStream (t.close miner) conn, 1, none⟩
            else if !p.statsMade then ⟨closeStream (t.close miner) conn, 1, none⟩
            else
              let stats := t.fresh .buffer
              let t := t.opened .buffer
              ⟨closeStream ((t.close stats).close miner) conn, p.loopResult,
                some ⟨t, conn, [stats, miner]⟩⟩

/-! ## Which way was taken -/

/-- The first of the three ways that succeeds. -/
def ladder (endpoint : PoolEndpoint) (first second third : Meets) : Option Mode :=
  if !endpoint.useTls then if first.connects then some .plain else none
  else if first.shakes && first.handshake then some (.tls endpoint.verifyTls)
  else if endpoint.verifyTls && first.shakes && second.shakes && second.handshake then
    some (.tls false)
  else if third.connects then some .plain
  else none

theorem otherwise_mode (r : Opened) (next : Opened → Opened) :
    (otherwise r next).stream.map modeOf = (r.stream.map modeOf).or ((next r).stream.map modeOf) := by
  unfold otherwise
  cases found : r.stream <;> simp [found]

theorem connOpen_mode (t : Fds) (endpoint : PoolEndpoint) (first second third : Meets) :
    (connOpen t endpoint first second third).stream.map modeOf = ladder endpoint first second third := by
  obtain ⟨host, port, useTls, verifyTls⟩ := endpoint
  unfold connOpen ladder
  obtain ⟨mode, failed⟩ := openClient_mode t useTls verifyTls first
  simp only [otherwise_mode, mode, failed]
  cases useTls with
  | false =>
      cases reached : first.connects <;> simp [mode, reached]
  | true =>
      simp only [if_true, Bool.true_and, Bool.not_true, Bool.false_eq_true, if_false, openClient_mode]
      cases shakes : first.shakes with
      | false => simp [mode, shakes]
      | true =>
          cases shaken : first.handshake with
          | true => simp
          | false =>
              cases verifyTls with
              | false => simp [mode, shakes, shaken]
              | true =>
                  cases again : second.shakes && second.handshake <;>
                    simp [openClient_mode, again]

/-! ## What the session gives back -/

section Specs

variable {t : Fds} {live : Set (Handle Kind)}

theorem otherwise_spec {r : Opened} {next : Opened → Opened} (spec : OpenSpec t live r)
    (more : r.stream = none → OpenSpec t live (next r)) : OpenSpec t live (otherwise r next) := by
  unfold otherwise
  cases found : r.stream with
  | some conn => simpa [found] using spec
  | none => simpa [found] using more found

/-- A further try starts from what the first one has left. -/
theorem openClient_after {r : Opened} (spec : OpenSpec t live r) (none_ : r.stream = none)
    (useTls verify : Bool) (m : Meets) : OpenSpec t live (openClient r.fds useTls verify m) := by
  obtain ⟨later, none', some'⟩ := openClient_spec (spec.none_ none_) useTls verify m
  refine ⟨spec.later.trans later, none', fun s found => ?_⟩
  obtain ⟨holds, fresh⟩ := some' s found
  exact ⟨holds, fresh.nodup, fun h member => spec.later.trans (fresh.new h member)⟩

theorem connOpen_spec (holds : Holds t live) (endpoint : PoolEndpoint) (first second third : Meets) :
    OpenSpec t live (connOpen t endpoint first second third) := by
  unfold connOpen
  refine otherwise_spec (openClient_spec holds _ _ first) fun none₁ => ?_
  have spec₁ := openClient_spec holds endpoint.useTls endpoint.verifyTls first
  refine otherwise_spec ?_ fun none₂ => ?_
  · split
    · exact openClient_after spec₁ none₁ _ _ second
    · exact spec₁
  · split
    · refine openClient_after ?_ none₂ _ _ third
      split
      · exact openClient_after spec₁ none₁ _ _ second
      · exact spec₁
    · split
      · exact openClient_after spec₁ none₁ _ _ second
      · exact spec₁

/-- What the loop finds: the connection of the ladder and, if the session mines, the miner. -/
structure Loops (url : List Char) (enableMining : Bool) (p : Prelude) (looped : Looped) : Prop where
  opened : Holds looped.fds (held looped.conn ∪ {h | h ∈ looped.mining})
  mining : looped.mining.map (·.1) = if enableMining then [.buffer, .miner] else []
  reached : ∃ endpoint, parsePoolUrl url = some endpoint ∧
    ladder endpoint p.first p.second p.third = some (modeOf looped.conn)

/-- One way through the client: how it ends, and whether the loop was reached. -/
structure Goes (url : List Char) (enableMining : Bool) (p : Prelude) (run : ClientRun) : Prop where
  closed : Holds run.fds ∅
  loops : ∀ looped, run.looped = some looped →
    Loops url enableMining p looped ∧ run.result = p.loopResult
  ready : run.looped.isSome ↔
    (∃ endpoint, parsePoolUrl url = some endpoint ∧
      (ladder endpoint p.first p.second p.third).isSome) ∧
    (enableMining → p.minerMade ∧ p.minerStarted ∧ p.statsMade)

theorem stratumRunClient_goes (url : List Char) (enableMining : Bool) (p : Prelude) :
    Goes url enableMining p (stratumRunClient url enableMining p) := by
  unfold stratumRunClient
  rcases parsed : parsePoolUrl url with _ | endpoint
  · exact ⟨holds_empty, by simp, by simp [parsed]⟩
  · obtain ⟨-, none_, some_⟩ := connOpen_spec holds_empty endpoint p.first p.second p.third
    have mode := connOpen_mode .empty endpoint p.first p.second p.third
    simp only
    rcases found : (connOpen .empty endpoint p.first p.second p.third).stream with _ | conn
    · rw [found] at mode
      exact ⟨none_ found, by simp, by simp [parsed, ← mode]⟩
    · rw [found] at mode
      obtain ⟨holds, fresh⟩ := some_ conn found
      generalize (connOpen .empty endpoint p.first p.second p.third).fds = t at holds
      -- the connection is closed last, whatever was open besides
      have closed {t' : Fds} (isHeld : Holds t' (∅ ∪ held conn)) : Holds (closeStream t' conn) ∅ :=
        holds_closeStream_union isHeld fresh.nodup fun _ _ => Set.notMem_empty _
      have reached : ∃ endpoint, parsePoolUrl url = some endpoint ∧
          ladder endpoint p.first p.second p.third = some (modeOf conn) :=
        ⟨endpoint, parsed, mode.symm⟩
      have reachable : ∃ endpoint, parsePoolUrl url = some endpoint ∧
          (ladder endpoint p.first p.second p.third).isSome :=
        ⟨endpoint, parsed, by rw [← mode]; rfl⟩
      have withMiner := holds_open holds .miner
      have noMiner := holds.notMem_of_le (h := t.fresh .miner) le_rfl
      have withStats := holds_open withMiner .buffer
      have noStats := withMiner.notMem_of_le (h := (t.opened .miner).fresh .buffer) le_rfl
      cases enableMining with
      | false =>
          refine ⟨closed holds, fun looped isLooped => ?_, by simpa using reachable⟩
          rw [← Option.some.inj isLooped]
          exact ⟨⟨by simpa using holds, rfl, reached⟩, rfl⟩
      | true =>
          simp only [Bool.not_true, Bool.false_eq_true, if_false]
          split_ifs with made started stats
          · exact ⟨closed holds, by simp, by simp_all⟩
          · exact ⟨closed (holds_close_insert withMiner noMiner), by simp, by simp_all⟩
          · exact ⟨closed (holds_close_insert withMiner noMiner), by simp, by simp_all⟩
          · refine ⟨closed (holds_close_insert (holds_close_insert withStats noStats) noMiner),
              fun looped isLooped => ?_, by simp_all⟩
            rw [← Option.some.inj isLooped]
            refine ⟨⟨?_, rfl, reached⟩, rfl⟩
            convert withStats using 1
            ext h
            simp only [Set.empty_union, Set.mem_union, Set.mem_insert_iff, Set.mem_ofPred_eq,
              List.mem_cons, List.not_mem_nil, or_false]
            tauto

/-- Whatever happens, in the end everything is closed, each thing once; the loop is run
exactly when all is ready, on the connection that the ladder gives. -/
theorem client_releases (url : List Char) (enableMining : Bool) (p : Prelude) :
    let run := stratumRunClient url enableMining p
    (destroyedOf run.fds.log).Nodup ∧ (destroyedOf run.fds.log).Perm (madeOf run.fds.log) ∧
      (∀ looped, run.looped = some looped →
        Loops url enableMining p looped ∧ run.result = p.loopResult) ∧
      (run.looped.isSome ↔
        (∃ endpoint, parsePoolUrl url = some endpoint ∧
          (ladder endpoint p.first p.second p.third).isSome) ∧
        (enableMining → p.minerMade ∧ p.minerStarted ∧ p.statsMade)) := by
  obtain ⟨closed, loops, ready⟩ := stratumRunClient_goes url enableMining p
  exact ⟨closed.balanced.1, closed.balanced.2, loops, ready⟩

end Specs

end BtcRig.Stratum.Connection
