/-
# BtcRig.Proxy.Server — the proxy's accept loop and the threads it detaches

`main` opens the TLS context and the listener and accepts clients for ever; each one is
served by a detached thread that opens its streams, runs the relay and closes them.
A step of the model is a step of `main` or of one thread, in any order.  The threads
share the numbering of the handles and nothing else, so an opening is one step.

* `serves_step`: every handle that is open has one owner, and each thread's relay is
  faithful to its own client;
* `proxy_serves`: hence over every interleaving nothing is closed twice, nothing is left
  open, and no client's bytes reach another's upstream.
-/
import BtcRig.Net.Connect
import BtcRig.Proxy.Relay
import BtcRig.Proxy.Upstream

namespace BtcRig.Proxy.Server

open BtcRig.Theory
open BtcRig.Theory.Words
open BtcRig.Theory.Ownership
open BtcRig.Theory.Handles
open BtcRig.Net.Connect
open BtcRig.Proxy.Relay
open BtcRig.Proxy.Upstream

set_option autoImplicit false

inductive ListenMode where
  | auto
  | tls
  | tcp
deriving DecidableEq

/-- The part of `proxy_config_t` that is read once the proxy listens. -/
structure Config where
  listenMode : ListenMode
  upstream : Endpoint
  upstreamVerify : Bool

/-! ## A client's thread -/

/-- `recv` with `MSG_PEEK` finds the first byte, if the client sends one. -/
def clientUsesTls (listenMode : ListenMode) (firstByte : Option Byte) : Option Bool :=
  match listenMode with
  | .tls => some true
  | .tcp => some false
  | .auto => firstByte.map (· = 0x16)

/-- What the calls of a thread find; each step uses its own part. -/
structure Finds where
  firstByte : Option Byte
  sessionMade : Bool
  handshake : Bool
  upstream : Meets
  /-- What is on the stack where `proxy_loop` has its buffers. -/
  c2u : Vector Byte bufferSize
  u2c : Vector Byte bufferSize
  relay : Answer

/-- The session belongs to the stream, the context does not. -/
def streamOpenClient (t : Fds) (fd : Nat) (listenMode : ListenMode) (a : Finds) :
    Fds × Option Stream :=
  match clientUsesTls listenMode a.firstByte with
  | none => (closeStream t ⟨some fd, none, none, false, false⟩, none)
  | some false => (t, some ⟨some fd, none, none, false, false⟩)
  | some true =>
      if !a.sessionMade then (closeStream t ⟨some fd, none, none, true, false⟩, none)
      else
        let s : Stream := ⟨some fd, none, some t.next, true, false⟩
        let t := t.opened .session
        if !a.handshake then (closeStream t s, none) else (t, some s)

/-- The point that `client_thread` has reached. -/
inductive Phase where
  | accepted (fd : Nat)
  | connecting (client : Stream)
  | forwarding (client upstream : Stream) (loop : Loop)
  | leaving (client : Stream)
  | finished

def clientThread (config : Config) (t : Fds) (phase : Phase) (a : Finds) :
    Fds × Phase × List Moved :=
  match phase with
  | .accepted fd =>
      match streamOpenClient t fd config.listenMode a with
      | (t, none) => (t, .finished, [])
      | (t, some client) => (t, .connecting client, [])
  | .connecting client =>
      let r := openClient t config.upstream.useTls config.upstreamVerify a.upstream
      match r.stream with
      | none => (closeStream r.fds client, .finished, [])
      | some upstream => (r.fds, .forwarding client upstream (relayInitial a.c2u a.u2c), [])
  | .forwarding client upstream loop =>
      match loop.stage with
      | .exited _ => (closeStream t upstream, .leaving client, [])
      | _ =>
          let (loop, moved) := relayStep loop a.relay
          (t, .forwarding client upstream loop, moved)
  | .leaving client => (closeStream t client, .finished, [])
  | .finished => (t, .finished, [])

/-! ## The accept loop -/

/-- How far `main` is once it listens. -/
inductive Main where
  | accepting
  /-- The loop was left; the listener is closed next, then the context. -/
  | leaving
  | freeing
  | returned
deriving DecidableEq

structure Running where
  fds : Fds
  listenFd : Nat
  serverCtx : Option Nat
  main : Main
  threads : List Phase

/-- What one pass of the accept loop finds. -/
inductive Accepted where
  | noMemory
  | interrupted
  | failed
  | client (spawned : Bool)

def acceptStep (s : Running) (found : Accepted) : Running :=
  match s.main with
  | .accepting =>
      match found with
      | .noMemory => { s with main := .leaving }
      | .failed => { s with main := .leaving }
      | .interrupted => s
      | .client spawned =>
          let fd := s.fds.fresh .socket
          let t := s.fds.opened .socket
          if spawned then { s with fds := t, threads := s.threads ++ [.accepted fd.2] }
          else { s with fds := t.close fd }
  | .leaving => { s with fds := s.fds.close (.socket, s.listenFd), main := .freeing }
  | .freeing =>
      { s with fds := s.fds.closeAll (s.serverCtx.toList.map (.context, ·)), main := .returned }
  | .returned => s

inductive Event where
  | main (found : Accepted)
  | thread (i : Nat) (a : Finds)

/-- A move carries the number of the thread that makes it.  When `main` has returned the
process is over. -/
def serverStep (config : Config) (s : Running) (e : Event) : Running × List (Nat × Moved) :=
  match e with
  | .main found => (acceptStep s found, [])
  | .thread i a =>
      if s.main = .returned then (s, [])
      else
        match s.threads[i]? with
        | none => (s, [])
        | some phase =>
            let (t, phase, moved) := clientThread config s.fds phase a
            ({ s with fds := t, threads := s.threads.set i phase }, moved.map (i, ·))

/-! ## The start -/

structure Starts where
  contextMade : Bool
  /-- The certificate and the key. -/
  loaded : Bool
  listens : Meets

/-- `create_listener` tries the addresses as `connect_tcp` does, with `bind` and `listen`
in the place of `connect`. -/
def createListener (t : Fds) (m : Meets) : Fds × Option Nat := connectTcp t m

/-- The context of the listener, or failure. -/
def serverContext (t : Fds) (listenMode : ListenMode) (m : Starts) : Fds × Option (Option Nat) :=
  if listenMode = .tcp then (t, some none)
  else if !m.contextMade then (t, none)
  else
    let ctx := t.fresh .context
    let t := t.opened .context
    if !m.loaded then (t.close ctx, none) else (t, some (some ctx.2))

structure ProxyRun where
  fds : Fds
  /-- There is none if the proxy did not come to listen. -/
  server : Option Running
  moved : List (Nat × Moved)

def proxyMain (config : Config) (m : Starts) (events : List Event) : ProxyRun :=
  match serverContext .empty config.listenMode m with
  | (t, none) => ⟨t, none, []⟩
  | (t, some ctx) =>
      match createListener t m.listens with
      | (t, none) => ⟨t.closeAll (ctx.toList.map (.context, ·)), none, []⟩
      | (t, some fd) =>
          let (s, moved) := Machine.exec (serverStep config) ⟨t, fd, ctx, .accepting, []⟩ events
          ⟨s.fds, some s, moved⟩

/-! ## Who owns what -/

def Phase.handles : Phase → List (Handle Kind)
  | .accepted fd => [(.socket, fd)]
  | .connecting client => client.handles
  | .forwarding client upstream _ => upstream.handles ++ client.handles
  | .leaving client => client.handles
  | .finished => []

def Running.ctxHandles (s : Running) : List (Handle Kind) := s.serverCtx.toList.map (.context, ·)

def Running.mainHandles (s : Running) : List (Handle Kind) :=
  match s.main with
  | .accepting => (.socket, s.listenFd) :: s.ctxHandles
  | .leaving => (.socket, s.listenFd) :: s.ctxHandles
  | .freeing => s.ctxHandles
  | .returned => []

/-- The handles of `main` and of every thread. -/
def Running.handles (s : Running) : List (Handle Kind) :=
  s.mainHandles ++ s.threads.flatMap Phase.handles

def movedOf (i : Nat) (ms : List (Nat × Moved)) : List Moved :=
  (ms.filter (·.1 = i)).map (·.2)

section Owners

variable {t : Fds} {rest : List (Handle Kind)}

/-- A client stream is opened with all it needs, or its socket is closed. -/
theorem streamOpenClient_owned {fd : Nat} (owned : Owned t ((.socket, fd) :: rest))
    (listenMode : ListenMode) (a : Finds) :
    ((streamOpenClient t fd listenMode a).2 = none →
        Owned (streamOpenClient t fd listenMode a).1 rest) ∧
      ∀ s, (streamOpenClient t fd listenMode a).2 = some s →
        Owned (streamOpenClient t fd listenMode a).1 (s.handles ++ rest) := by
  have closed (useTls : Bool) : Owned (closeStream t ⟨some fd, none, none, useTls, false⟩) rest :=
    Owned.closeAll owned
  have session : Owned (t.opened .session)
      (Stream.handles ⟨some fd, none, some t.next, true, false⟩ ++ rest) := owned.open .session
  unfold streamOpenClient
  rcases clientUsesTls listenMode a.firstByte with _ | _ | _
  · exact ⟨fun _ => closed false, by simp⟩
  · refine ⟨by simp, fun s found => ?_⟩
    rw [← Option.some.inj found]
    exact owned
  · simp only
    split
    · exact ⟨fun _ => closed true, by simp⟩
    · split
      · exact ⟨fun _ => session.closeAll, by simp⟩
      · refine ⟨by simp, fun s found => ?_⟩
        rw [← Option.some.inj found]
        exact session

/-- A thread opens and closes for itself. -/
theorem clientThread_owned (config : Config) {phase : Phase} (owned : Owned t (phase.handles ++ rest))
    (a : Finds) :
    Owned (clientThread config t phase a).1 ((clientThread config t phase a).2.1.handles ++ rest) := by
  cases phase with
  | accepted fd =>
      have isOpen : Owned t ((.socket, fd) :: rest) := owned
      obtain ⟨none_, some_⟩ := streamOpenClient_owned isOpen config.listenMode a
      rcases opened : streamOpenClient t fd config.listenMode a with ⟨t', _ | client⟩
      · rw [opened] at none_
        simpa [clientThread, opened, Phase.handles] using none_
      · rw [opened] at some_
        simpa [clientThread, opened, Phase.handles] using some_
  | connecting client =>
      obtain ⟨none_, some_⟩ :=
        openClient_owned owned config.upstream.useTls config.upstreamVerify a.upstream
      simp only [clientThread]
      rcases opened : (openClient t config.upstream.useTls config.upstreamVerify a.upstream).stream
        with _ | upstream
      · exact (none_ opened).closeAll
      · simpa [Phase.handles] using some_ upstream opened
  | forwarding client upstream loop =>
      simp only [clientThread]
      split
      · rw [Phase.handles, List.append_assoc] at owned
        exact owned.closeAll
      · exact owned
  | leaving client => exact owned.closeAll
  | finished => exact owned

end Owners

/-! ## What each client is given -/

/-- The streams that a thread has, once it has them. -/
def Phase.client : Phase → Option Stream
  | .connecting client => some client
  | .forwarding client _ _ => some client
  | .leaving client => some client
  | _ => none

def Phase.upstream : Phase → Option Stream
  | .forwarding _ upstream _ => some upstream
  | _ => none

/-- Each side has been given a first part of what the other sent. -/
def PassedOn (ms : List Moved) : Prop :=
  toUpstreamOf ms <+: fromClientOf ms ∧ toClientOf ms <+: fromUpstreamOf ms

/-- Before, in and after the relay. -/
def Carries : Phase → List Moved → Prop
  | .accepted _, ms => ms = []
  | .connecting _, ms => ms = []
  | .forwarding _ _ loop, ms => Faithful loop ms
  | .leaving _, ms => PassedOn ms
  | .finished, ms => PassedOn ms

/-- The client talks as the listener demands, and the upstream as it is configured. -/
structure Serves (config : Config) (phase : Phase) (ms : List Moved) : Prop where
  carries : Carries phase ms
  client : ∀ s, phase.client = some s → s.useTls = s.ssl.isSome ∧
    (config.listenMode = .tls → s.useTls = true) ∧ (config.listenMode = .tcp → s.useTls = false)
  upstream : ∀ s, phase.upstream = some s →
    modeOf s = if config.upstream.useTls then .tls config.upstreamVerify else .plain

theorem passedOn_nil : PassedOn [] := ⟨List.prefix_rfl, List.prefix_rfl⟩

theorem Carries.passedOn {phase : Phase} {ms : List Moved} (carries : Carries phase ms) :
    PassedOn ms := by
  cases phase with
  | accepted fd => exact (show ms = [] from carries) ▸ passedOn_nil
  | connecting client => exact (show ms = [] from carries) ▸ passedOn_nil
  | forwarding client upstream loop => exact ⟨⟨_, carries.up.bytes.symm⟩, ⟨_, carries.down.bytes.symm⟩⟩
  | leaving client => exact carries
  | finished => exact carries

theorem faithful_initial (c2u u2c : Vector Byte bufferSize) : Faithful (relayInitial c2u u2c) [] :=
  ⟨⟨le_rfl, Nat.zero_le _, by simp [relayInitial, pendingOf, fromClientOf, toUpstreamOf]⟩,
    ⟨le_rfl, Nat.zero_le _, by simp [relayInitial, pendingOf, fromUpstreamOf, toClientOf]⟩,
    by simp [relayInitial], by simp [relayInitial]⟩

/-- The stream has TLS where the listener asks for it. -/
theorem streamOpenClient_mode {t t' : Fds} {fd : Nat} {listenMode : ListenMode} {a : Finds} {s : Stream}
    (opened : streamOpenClient t fd listenMode a = (t', some s)) :
    s.useTls = s.ssl.isSome ∧ (listenMode = .tls → s.useTls = true) ∧
      (listenMode = .tcp → s.useTls = false) := by
  unfold streamOpenClient at opened
  rcases uses : clientUsesTls listenMode a.firstByte with _ | _ | _
  · simp [uses] at opened
  · simp only [uses, Prod.mk.injEq, Option.some.injEq] at opened
    rw [← opened.2]
    refine ⟨rfl, fun tls => ?_, fun _ => rfl⟩
    simp [clientUsesTls, tls] at uses
  · simp only [uses] at opened
    split at opened
    · simp at opened
    · split at opened
      · simp at opened
      · simp only [Prod.mk.injEq, Option.some.injEq] at opened
        rw [← opened.2]
        refine ⟨rfl, fun _ => rfl, fun tcp => ?_⟩
        simp [clientUsesTls, tcp] at uses

/-- A step of a client thread relays its own two streams. -/
theorem clientThread_serves {config : Config} {t : Fds} {phase : Phase} {ms : List Moved}
    (serves : Serves config phase ms) (a : Finds) :
    Serves config (clientThread config t phase a).2.1 (ms ++ (clientThread config t phase a).2.2) := by
  obtain ⟨carries, client_, upstream_⟩ := serves
  cases phase with
  | accepted fd =>
      have nothing : ms = [] := carries
      rcases opened : streamOpenClient t fd config.listenMode a with ⟨t', _ | client⟩ <;>
        simp only [clientThread, opened]
      · exact ⟨by simpa [Carries, nothing] using passedOn_nil, by simp [Phase.client],
          by simp [Phase.upstream]⟩
      · refine ⟨by simpa [Carries] using nothing, fun s isClient => ?_, by simp [Phase.upstream]⟩
        rw [← Option.some.inj isClient]
        exact streamOpenClient_mode opened
  | connecting client =>
      have nothing : ms = [] := carries
      obtain ⟨mode, -⟩ := openClient_mode t config.upstream.useTls config.upstreamVerify a.upstream
      simp only [clientThread]
      rcases opened : (openClient t config.upstream.useTls config.upstreamVerify a.upstream).stream
        with _ | upstream
      · exact ⟨by simpa [Carries, nothing] using passedOn_nil, by simp [Phase.client],
          by simp [Phase.upstream]⟩
      · rw [opened] at mode
        refine ⟨?_, client_, fun s isUpstream => ?_⟩
        · simpa [Carries, nothing] using faithful_initial a.c2u a.u2c
        · rw [← Option.some.inj isUpstream]
          split at mode <;> split at mode <;> simp_all
  | forwarding client upstream loop =>
      have faithful : Faithful loop ms := carries
      simp only [clientThread]
      split
      · exact ⟨by simpa [Carries] using carries.passedOn, client_, by simp [Phase.upstream]⟩
      · exact ⟨faithful_step faithful a.relay, client_, upstream_⟩
  | leaving client =>
      exact ⟨by simpa [clientThread, Carries] using carries.passedOn, by simp [clientThread, Phase.client],
        by simp [clientThread, Phase.upstream]⟩
  | finished =>
      exact ⟨by simpa [clientThread] using carries, by simp [clientThread, Phase.client],
        by simp [clientThread, Phase.upstream]⟩

/-! ## All of them -/

structure Proxying (config : Config) (s : Running) (ms : List (Nat × Moved)) : Prop where
  owned : Owned s.fds s.handles
  serves : ∀ i phase, s.threads[i]? = some phase → Serves config phase (movedOf i ms)
  idle : ∀ i, s.threads.length ≤ i → movedOf i ms = []
  context : s.serverCtx.isSome ↔ config.listenMode ≠ .tcp

theorem movedOf_append (i : Nat) (ms ms' : List (Nat × Moved)) :
    movedOf i (ms ++ ms') = movedOf i ms ++ movedOf i ms' := by
  simp [movedOf]

theorem movedOf_tagged (i j : Nat) (moved : List Moved) :
    movedOf i (moved.map (j, ·)) = if j = i then moved else [] := by
  unfold movedOf
  split
  · rename_i same
    simp [List.filter_map, Function.comp_def, same]
  · rename_i other
    simp [List.filter_map, Function.comp_def, other]

section Steps

variable {config : Config} {s : Running} {ms : List (Nat × Moved)}

/-- The accepting loop hands each socket to one thread, or closes it. -/
theorem acceptStep_owned (owned : Owned s.fds s.handles) (found : Accepted) :
    Owned (acceptStep s found).fds (acceptStep s found).handles := by
  obtain ⟨t, listenFd, ctx, main, threads⟩ := s
  cases main with
  | accepting =>
      cases found with
      | noMemory => exact owned
      | failed => exact owned
      | interrupted => exact owned
      | client spawned =>
          cases spawned with
          | true =>
              -- the new thread is the last owner
              refine (owned.open .socket).perm ?_
              simp only [acceptStep, if_true, Running.handles, Running.mainHandles,
                Running.ctxHandles, List.flatMap_append, ← List.append_assoc]
              exact (List.perm_append_singleton _ _).symm
          | false => exact (owned.open .socket).close
  | leaving => exact owned.close
  | freeing => exact owned.closeAll
  | returned => exact owned

theorem acceptStep_threads (s : Running) (found : Accepted) :
    (acceptStep s found).threads = s.threads ∨
      ∃ fd, (acceptStep s found).threads = s.threads ++ [.accepted fd] := by
  obtain ⟨t, listenFd, ctx, main, threads⟩ := s
  cases main with
  | accepting =>
      cases found with
      | noMemory => exact .inl rfl
      | failed => exact .inl rfl
      | interrupted => exact .inl rfl
      | client spawned =>
          cases spawned with
          | true => exact .inr ⟨_, rfl⟩
          | false => exact .inl rfl
  | leaving => exact .inl rfl
  | freeing => exact .inl rfl
  | returned => exact .inl rfl

theorem acceptStep_serverCtx (s : Running) (found : Accepted) :
    (acceptStep s found).serverCtx = s.serverCtx := by
  obtain ⟨t, listenFd, ctx, main, threads⟩ := s
  cases main with
  | accepting =>
      cases found with
      | client spawned => cases spawned <;> rfl
      | _ => rfl
  | _ => rfl

theorem proxying_main (inv : Proxying config s ms) (found : Accepted) :
    Proxying config (acceptStep s found) ms := by
  refine ⟨acceptStep_owned inv.owned found, ?_, ?_, acceptStep_serverCtx s found ▸ inv.context⟩
  · intro i phase isPhase
    rcases acceptStep_threads s found with same | ⟨fd, more⟩
    · exact inv.serves i phase (same ▸ isPhase)
    · rw [more, List.getElem?_append] at isPhase
      split at isPhase
      · exact inv.serves i phase isPhase
      · rename_i notOld
        have nothing : movedOf i ms = [] := inv.idle i (Nat.not_lt.mp notOld)
        have isNew : phase = .accepted fd := by
          rw [List.getElem?_singleton] at isPhase
          split at isPhase
          · exact (Option.some.inj isPhase).symm
          · cases isPhase
        rw [isNew, nothing]
        exact ⟨rfl, by simp [Phase.client], by simp [Phase.upstream]⟩
  · intro i past
    refine inv.idle i (le_trans ?_ past)
    rcases acceptStep_threads s found with same | ⟨fd, more⟩
    · rw [same]
    · rw [more, List.length_append]
      exact Nat.le_add_right _ _

theorem proxying_thread (inv : Proxying config s ms) (i : Nat) (a : Finds) :
    Proxying config (serverStep config s (.thread i a)).1
      (ms ++ (serverStep config s (.thread i a)).2) := by
  simp only [serverStep]
  split
  · simpa using inv
  · rcases found : s.threads[i]? with _ | phase
    · simpa using inv
    · refine ⟨?_, fun j phase' isPhase => ?_, fun j past => ?_, inv.context⟩
      · -- the others' handles and those of `main` are the rest
        obtain ⟨before, after⟩ :=
          flatMap_perm_set Phase.handles found (clientThread config s.fds phase a).2.1
        have mine {hs : List (Handle Kind)} : (s.mainHandles ++ (hs ++ (s.threads.eraseIdx i).flatMap
            Phase.handles)).Perm (hs ++ (s.mainHandles ++ (s.threads.eraseIdx i).flatMap Phase.handles)) := by
          rw [← List.append_assoc, ← List.append_assoc]
          exact List.perm_append_comm.append_right _
        have step := clientThread_owned config (inv.owned.perm ((before.append_left _).trans mine)) a
        exact step.perm (((after.append_left _).trans mine).symm)
      · have moved := movedOf_tagged j i (clientThread config s.fds phase a).2.2
        simp only [List.getElem?_set] at isPhase
        rw [movedOf_append, moved]
        split at isPhase
        · rename_i same
          subst same
          split at isPhase
          · rw [if_pos rfl, ← Option.some.inj isPhase]
            exact clientThread_serves (inv.serves i phase found) a
          · cases isPhase
        · rename_i other
          rw [if_neg other, List.append_nil]
          exact inv.serves j phase' isPhase
      · simp only [List.length_set] at past
        have inRange := (List.getElem?_eq_some_iff.mp found).1
        rw [movedOf_append, movedOf_tagged, inv.idle j past, if_neg (by omega), List.append_nil]

end Steps

/-- Any step of any thread keeps the proxy in order. -/
theorem serverStep_proxying (config : Config) {s : Running} {ms : List (Nat × Moved)}
    (inv : Proxying config s ms) (e : Event) :
    Proxying config (serverStep config s e).1 (ms ++ (serverStep config s e).2) := by
  cases e with
  | main found => simpa [serverStep] using proxying_main inv found
  | thread i a => exact proxying_thread inv i a

theorem serverContext_owned {t : Fds} {rest : List (Handle Kind)} (owned : Owned t rest)
    (listenMode : ListenMode) (m : Starts) :
    ((serverContext t listenMode m).2 = none → Owned (serverContext t listenMode m).1 rest) ∧
      ∀ ctx, (serverContext t listenMode m).2 = some ctx →
        Owned (serverContext t listenMode m).1 (ctx.toList.map (Kind.context, ·) ++ rest) ∧
          (ctx.isSome ↔ listenMode ≠ .tcp) := by
  unfold serverContext
  by_cases tcp : listenMode = .tcp
  · rw [if_pos tcp]
    refine ⟨by simp, fun ctx found => ?_⟩
    rw [← Option.some.inj found]
    exact ⟨owned, by simp [tcp]⟩
  · rw [if_neg tcp]
    have opened := owned.open .context
    split
    · exact ⟨fun _ => owned, by simp⟩
    · simp only
      split
      · exact ⟨fun _ => opened.close, by simp⟩
      · refine ⟨by simp, fun ctx found => ?_⟩
        rw [← Option.some.inj found]
        exact ⟨opened, by simp [tcp]⟩

theorem proxying_start {config : Config} {t : Fds} {fd : Nat} {ctx : Option Nat}
    (owned : Owned t ((.socket, fd) :: (ctx.toList.map (Kind.context, ·) ++ [])))
    (context : ctx.isSome ↔ config.listenMode ≠ .tcp) :
    Proxying config ⟨t, fd, ctx, .accepting, []⟩ [] := by
  refine ⟨owned, fun i phase isPhase => ?_, fun i _ => rfl, context⟩
  simp at isPhase

/-- The proxy does not come to listen, and has closed what it opened, or it runs. -/
theorem proxyMain_spec (config : Config) (m : Starts) (events : List Event) :
    ((proxyMain config m events).server = none ∧ Owned (proxyMain config m events).fds []) ∨
      ∃ s, (proxyMain config m events).server = some s ∧ (proxyMain config m events).fds = s.fds ∧
        Proxying config s (proxyMain config m events).moved := by
  obtain ⟨none₁, some₁⟩ := serverContext_owned owned_empty config.listenMode m
  unfold proxyMain
  rcases context : serverContext .empty config.listenMode m with ⟨t, _ | ctx⟩
  · rw [context] at none₁
    exact .inl ⟨rfl, none₁ rfl⟩
  · rw [context] at some₁
    obtain ⟨owned, hasContext⟩ := some₁ ctx rfl
    obtain ⟨none₂, some₂⟩ := connectTcp_owned owned m.listens
    simp only [createListener]
    rcases listener : connectTcp t m.listens with ⟨t', _ | fd⟩
    · rw [listener] at none₂
      exact .inl ⟨rfl, (none₂ rfl).closeAll⟩
    · rw [listener] at some₂
      have inv := Machine.exec_invariant (serverStep config) ⟨t', fd, ctx, .accepting, []⟩
        (fun _ s ms => Proxying config s ms) (proxying_start (some₂ fd rfl) hasContext)
        (fun _ e _ _ inv => serverStep_proxying config inv e) events
      exact .inr ⟨_, rfl, rfl, inv⟩

/-- Nobody is left to own anything. -/
theorem handles_over {s : Running} (returned : s.main = .returned)
    (finished : ∀ phase ∈ s.threads, phase = .finished) : s.handles = [] := by
  have noThread : s.threads.flatMap Phase.handles = [] := by
    refine List.flatMap_eq_nil_iff.mpr fun phase member => ?_
    rw [finished phase member, Phase.handles]
  simp [Running.handles, Running.mainHandles, returned, noThread]

/-- **Any number of clients, in any order.**  At every point of the proxy's run each open
handle belongs to `main` or to one thread, and to no second one; nothing is closed twice
or before it was opened; what a client is given is a first part of what its own upstream
sent, and the other way; the streams are those that the configuration asks for.  Once all
threads have finished and `main` has returned, or if the proxy did not start, nothing is
open. -/
theorem proxy_serves (config : Config) (m : Starts) (events : List Event) :
    let r := proxyMain config m events
    ((destroyedOf r.fds.log).Nodup ∧ ∀ h ∈ destroyedOf r.fds.log, h ∈ madeOf r.fds.log) ∧
      (r.server = none → (destroyedOf r.fds.log).Perm (madeOf r.fds.log)) ∧
      ∀ s, r.server = some s →
        Owned r.fds s.handles ∧ (s.serverCtx.isSome ↔ config.listenMode ≠ .tcp) ∧
          (∀ i phase, s.threads[i]? = some phase →
            PassedOn (movedOf i r.moved) ∧ Serves config phase (movedOf i r.moved)) ∧
          (s.main = .returned → (∀ phase ∈ s.threads, phase = .finished) →
            (destroyedOf r.fds.log).Perm (madeOf r.fds.log)) := by
  intro r
  have nothing {t : Fds} (owned : Owned t []) : Holds t ∅ := by simpa using owned.holds
  rcases proxyMain_spec config m events with ⟨isNone, owned⟩ | ⟨s, isSome, same, inv⟩
  · have closed := nothing owned
    refine ⟨closed.closed_once, fun _ => closed.balanced.2, fun s isServer => ?_⟩
    rw [isNone] at isServer
    cases isServer
  · have owned : Owned r.fds s.handles := same ▸ inv.owned
    refine ⟨owned.holds.closed_once, fun isNone => ?_, fun s' isServer => ?_⟩
    · rw [isNone] at isSome
      cases isSome
    · obtain rfl : s = s' := Option.some.inj (isSome.symm.trans isServer)
      refine ⟨owned, inv.context, fun i phase isPhase => ?_, fun returned finished => ?_⟩
      · have serves := inv.serves i phase isPhase
        exact ⟨serves.carries.passedOn, serves⟩
      · rw [handles_over returned finished] at owned
        exact (nothing owned).balanced.2

end BtcRig.Proxy.Server
