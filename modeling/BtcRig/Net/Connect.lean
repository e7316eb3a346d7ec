/-
# BtcRig.Net.Connect — a connection, plain or under TLS, and what it holds

The miner's `stratum_conn_t` and the proxy's `stream_t` are one thing: a socket, and
under TLS a context and a session.  Both programs open them with the same calls in the
same order and close them with the same function.

* `openClient_spec`: a stream that was opened holds new handles, and one that was not
  has left nothing open;
* `holds_closeStream`: closing gives up exactly what the stream holds;
* `openClient_mode`: whether there is a stream, and of which kind.
-/
import BtcRig.Theory.Handles

namespace BtcRig.Net.Connect

open BtcRig.Theory.Handles

set_option autoImplicit false

/-- What the programs open and have to close. -/
inductive Kind where
  | socket
  | context
  | session
  | miner
  | buffer
deriving DecidableEq

abbrev Fds := Table Kind

/-- The numbers of the handles; a null pointer, or −1, is none. -/
structure Stream where
  fd : Option Nat
  ctx : Option Nat
  ssl : Option Nat
  useTls : Bool
  /-- The context demands the peer's certificate for the endpoint's name. -/
  verified : Bool
deriving DecidableEq

/-- In the order in which they are closed. -/
def Stream.handles (s : Stream) : List (Handle Kind) :=
  s.ssl.toList.map (Kind.session, ·) ++ s.ctx.toList.map (Kind.context, ·) ++
    s.fd.toList.map (Kind.socket, ·)

/-- `conn_close` and `stream_close`. -/
def closeStream (t : Fds) (s : Stream) : Fds := t.closeAll s.handles

/-! ## Opening -/

/-- One address of the list that the name resolves to. -/
inductive Dial where
  | noSocket
  | refused
  | connected
deriving DecidableEq

/-- What the calls of one opening find. -/
structure Meets where
  /-- The network is up and the name resolves. -/
  resolved : Bool
  dials : List Dial
  contextMade : Bool
  sessionMade : Bool
  handshake : Bool

/-- The loop of `connect_tcp`. -/
def dial (t : Fds) : List Dial → Fds × Option Nat
  | [] => (t, none)
  | .noSocket :: rest => dial t rest
  | .refused :: rest => dial ((t.opened .socket).close (t.fresh .socket)) rest
  | .connected :: _ => (t.opened .socket, some t.next)

def connectTcp (t : Fds) (m : Meets) : Fds × Option Nat :=
  if m.resolved then dial t m.dials else (t, none)

structure Opened where
  fds : Fds
  stream : Option Stream
  handshakeFailed : Bool

/-- The TLS part, on a connected socket. -/
def openTls (t : Fds) (fd : Nat) (verify : Bool) (m : Meets) : Opened :=
  let s : Stream := ⟨some fd, none, none, true, false⟩
  if !m.contextMade then ⟨closeStream t s, none, false⟩
  else
    let s := { s with ctx := some t.next, verified := verify }
    let t := t.opened .context
    if !m.sessionMade then ⟨closeStream t s, none, false⟩
    else
      let s := { s with ssl := some t.next }
      let t := t.opened .session
      if !m.handshake then ⟨closeStream t s, none, true⟩ else ⟨t, some s, false⟩

/-- `conn_open_once` and `stream_open_upstream`. -/
def openClient (t : Fds) (useTls verify : Bool) (m : Meets) : Opened :=
  match connectTcp t m with
  | (t, none) => ⟨t, none, false⟩
  | (t, some fd) =>
      if !useTls then ⟨t, some ⟨some fd, none, none, false, false⟩, false⟩ else openTls t fd verify m

/-! ## Which kind of stream -/

inductive Mode where
  | plain
  | tls (verified : Bool)
deriving DecidableEq

def modeOf (s : Stream) : Mode := if s.useTls then .tls s.verified else .plain

/-- Some address takes the connection. -/
def Meets.connects (m : Meets) : Bool := m.resolved && m.dials.contains .connected

/-- The handshake is reached. -/
def Meets.shakes (m : Meets) : Bool := m.connects && m.contextMade && m.sessionMade

theorem dial_connects (t : Fds) (dials : List Dial) :
    (dial t dials).2.isSome = dials.contains .connected := by
  induction dials generalizing t with
  | nil => rfl
  | cons first rest ih =>
      cases first with
      | noSocket => rw [dial, ih]; rfl
      | refused => rw [dial, ih]; rfl
      | connected => rfl

/-- A connection is made exactly if one of the addresses answers. -/
theorem connectTcp_connects (t : Fds) (m : Meets) : (connectTcp t m).2.isSome = m.connects := by
  unfold connectTcp Meets.connects
  cases m.resolved with
  | true => exact dial_connects t m.dials
  | false => rfl

/-- The stream has the mode that was asked for, or there is none. -/
theorem openClient_mode (t : Fds) (useTls verify : Bool) (m : Meets) :
    (openClient t useTls verify m).stream.map modeOf =
        (if useTls then if m.shakes && m.handshake then some (.tls verify) else none
          else if m.connects then some .plain else none) ∧
      (openClient t useTls verify m).handshakeFailed = (useTls && m.shakes && !m.handshake) := by
  have connects := connectTcp_connects t m
  unfold openClient Meets.shakes
  rcases tcp : connectTcp t m with ⟨t', _ | fd⟩
  · rw [tcp] at connects
    have unreached : m.connects = false := connects.symm
    simp [unreached]
  · rw [tcp] at connects
    have reached : m.connects = true := connects.symm
    cases useTls with
    | false => simp [reached, modeOf]
    | true =>
        simp only [openTls, reached]
        cases m.contextMade <;> cases m.sessionMade <;> cases m.handshake <;> simp [modeOf]

/-! ## What is held -/

def held (s : Stream) : Set (Handle Kind) := {h | h ∈ s.handles}

/-- The handles of a stream are different, and were not open before. -/
structure Fresh (from_ : Nat) (s : Stream) : Prop where
  nodup : s.handles.Nodup
  new : ∀ h ∈ s.handles, from_ ≤ h.2

/-- What is open after an opening that started at `t` with `live`. -/
structure OpenSpec (t : Fds) (live : Set (Handle Kind)) (r : Opened) : Prop where
  later : t.next ≤ r.fds.next
  none_ : r.stream = none → Holds r.fds live
  some_ : ∀ s, r.stream = some s → Holds r.fds (live ∪ held s) ∧ Fresh t.next s

section Specs

variable {t : Fds} {live : Set (Handle Kind)}

theorem holds_closeStream {s : Stream} (holds : Holds t live) (nodup : s.handles.Nodup)
    (isHeld : held s ⊆ live) : Holds (closeStream t s) (live \ held s) :=
  holds_closeAll s.handles holds nodup isHeld

/-- Close a stream that shares nothing with the rest. -/
theorem holds_closeStream_union {s : Stream} (holds : Holds t (live ∪ held s))
    (nodup : s.handles.Nodup) (apart : ∀ h ∈ s.handles, h ∉ live) :
    Holds (closeStream t s) live := by
  have closed := holds_closeStream holds nodup Set.subset_union_right
  have rest : (live ∪ held s) \ held s = live := by
    rw [Set.union_sdiff_right]
    exact sdiff_eq_left.mpr (Set.disjoint_left.mpr fun h isLive isHeld => apart h isHeld isLive)
  rwa [rest] at closed

theorem next_closeAll (t : Fds) (hs : List (Handle Kind)) : (t.closeAll hs).next = t.next := by
  unfold Table.closeAll
  induction hs generalizing t with
  | nil => rfl
  | cons h hs ih => exact ih (t.close h)

@[simp] theorem next_closeStream (t : Fds) (s : Stream) : (closeStream t s).next = t.next :=
  next_closeAll t s.handles

/-- The attempts leave one socket open, or nothing. -/
theorem dial_spec (dials : List Dial) {t : Fds} (holds : Holds t live) :
    t.next ≤ (dial t dials).1.next ∧
      ((dial t dials).2 = none → Holds (dial t dials).1 live) ∧
      ∀ fd, (dial t dials).2 = some fd →
        Holds (dial t dials).1 (insert (.socket, fd) live) ∧ t.next ≤ fd ∧ fd < (dial t dials).1.next := by
  induction dials generalizing t with
  | nil => exact ⟨le_rfl, fun _ => holds, fun _ found => by cases found⟩
  | cons first rest ih =>
      cases first with
      | noSocket => exact ih holds
      | refused =>
          -- the socket is closed again before the next address is tried
          have closed := holds_close_insert (holds_open holds .socket) (holds.notMem_of_le le_rfl)
          obtain ⟨later, none_, some_⟩ := ih closed
          have more : t.next < ((t.opened .socket).close (t.fresh .socket)).next := Nat.lt_succ_self _
          refine ⟨more.le.trans later, none_, fun fd found => ?_⟩
          obtain ⟨isHeld, above, below⟩ := some_ fd found
          exact ⟨isHeld, more.le.trans above, below⟩
      | connected =>
          refine ⟨Nat.le_succ _, fun none_ => ?_, fun fd found => ?_⟩
          · cases none_
          · rw [← Option.some.inj found]
            exact ⟨holds_open holds .socket, le_rfl, Nat.lt_succ_self _⟩

/-- So does the whole call. -/
theorem connectTcp_spec (holds : Holds t live) (m : Meets) :
    t.next ≤ (connectTcp t m).1.next ∧
      ((connectTcp t m).2 = none → Holds (connectTcp t m).1 live) ∧
      ∀ fd, (connectTcp t m).2 = some fd →
        Holds (connectTcp t m).1 (insert (.socket, fd) live) ∧ t.next ≤ fd ∧
          fd < (connectTcp t m).1.next := by
  unfold connectTcp
  split
  · exact dial_spec m.dials holds
  · exact ⟨le_rfl, fun _ => holds, fun _ found => by cases found⟩

theorem fresh_stream {from_ fd : Nat} {ctx ssl : Option Nat} (useTls verified : Bool)
    (above : from_ ≤ fd) (newCtx : ∀ n ∈ ctx, from_ ≤ n) (newSsl : ∀ n ∈ ssl, from_ ≤ n) :
    Fresh from_ ⟨some fd, ctx, ssl, useTls, verified⟩ := by
  refine ⟨?_, fun h member => ?_⟩
  · cases ssl <;> cases ctx <;> simp [Stream.handles]
  · simp only [Stream.handles, Option.toList_some, List.map_singleton, List.mem_append,
      List.mem_map, Option.mem_toList, List.mem_singleton] at member
    rcases member with (⟨n, isSsl, rfl⟩ | ⟨n, isCtx, rfl⟩) | rfl
    · exact newSsl n isSsl
    · exact newCtx n isCtx
    · exact above

/-- A failing TLS set-up frees what it has made. -/
theorem openTls_spec {fd : Nat} (verify : Bool) (m : Meets) {from_ : Nat}
    (holds : Holds t (insert (.socket, fd) live)) (old : ∀ h ∈ live, h.2 < from_) (above : from_ ≤ fd)
    (below : fd < t.next) :
    t.next ≤ (openTls t fd verify m).fds.next ∧
      ((openTls t fd verify m).stream = none → Holds (openTls t fd verify m).fds live) ∧
      ∀ s, (openTls t fd verify m).stream = some s →
        Holds (openTls t fd verify m).fds (live ∪ held s) ∧ Fresh from_ s := by
  have apart {h : Handle Kind} (new : from_ ≤ h.2) : h ∉ live := fun isLive =>
    absurd (old h isLive) (Nat.not_lt.mpr new)
  have later : from_ ≤ t.next := above.trans below.le
  -- the three streams on the way, with what is open when they are closed
  have plain : Holds t (live ∪ held ⟨some fd, none, none, true, false⟩) := by
    convert holds using 1
    ext h
    simp [held, Stream.handles, or_comm]
  have withContext : Holds (t.opened .context)
      (live ∪ held ⟨some fd, some t.next, none, true, verify⟩) := by
    convert holds_open holds .context using 1
    ext h
    simp only [held, Stream.handles, Table.fresh, Set.mem_union, Set.mem_insert_iff, Set.mem_ofPred_eq,
      Option.toList_none, Option.toList_some, List.map_nil, List.map_singleton, List.nil_append,
      List.mem_append, List.mem_singleton]
    tauto
  have withSession : Holds ((t.opened .context).opened .session)
      (live ∪ held ⟨some fd, some t.next, some (t.next + 1), true, verify⟩) := by
    convert holds_open (holds_open holds .context) .session using 1
    ext h
    simp only [held, Stream.handles, Table.fresh, Table.opened, Set.mem_union, Set.mem_insert_iff,
      Set.mem_ofPred_eq, Option.toList_some, List.map_singleton, List.mem_append, List.mem_singleton]
    tauto
  have closed {t' : Fds} {s : Stream} (isHeld : Holds t' (live ∪ held s)) (isFresh : Fresh from_ s) :
      Holds (closeStream t' s) live :=
    holds_closeStream_union isHeld isFresh.nodup fun h member => apart (isFresh.new h member)
  unfold openTls
  simp only
  split
  · refine ⟨by simp, fun _ => closed plain (fresh_stream _ _ above (by simp) (by simp)), by simp⟩
  · split
    · refine ⟨?_, fun _ => closed withContext (fresh_stream _ _ above ?_ (by simp)), by simp⟩
      · rw [next_closeStream]
        exact Nat.le_succ _
      · simpa using later
    · have both : Fresh from_ ⟨some fd, some t.next, some (t.next + 1), true, verify⟩ := by
        refine fresh_stream _ _ above (by simpa using later) ?_
        simpa using later.trans (Nat.le_succ _)
      split
      · refine ⟨?_, fun _ => closed withSession both, by simp⟩
        rw [next_closeStream]
        exact (Nat.le_succ _).trans (Nat.le_succ _)
      · refine ⟨by simp only [Table.opened]; omega, by simp, fun s found => ?_⟩
        rw [← Option.some.inj found]
        exact ⟨withSession, both⟩

/-- The whole opening leaves its stream open or nothing. -/
theorem openClient_spec (holds : Holds t live) (useTls verify : Bool) (m : Meets) :
    OpenSpec t live (openClient t useTls verify m) := by
  obtain ⟨later, none_, some_⟩ := connectTcp_spec holds m
  unfold openClient
  rcases tcp : connectTcp t m with ⟨t', _ | fd⟩
  · rw [tcp] at later none_
    exact ⟨later, fun _ => none_ rfl, fun s found => by cases found⟩
  · rw [tcp] at later some_
    obtain ⟨isHeld, above, below⟩ := some_ fd rfl
    simp only
    split
    · refine ⟨later, by simp, fun s found => ?_⟩
      rw [← Option.some.inj found]
      refine ⟨?_, ⟨by simp [Stream.handles], by simpa [Stream.handles] using above⟩⟩
      convert isHeld using 1
      ext h
      simp [held, Stream.handles, or_comm]
    · obtain ⟨later', none', some'⟩ :=
        openTls_spec verify m isHeld (fun h => holds.below) above below
      exact ⟨later.trans later', none', some'⟩

theorem connectTcp_owned {rest : List (Handle Kind)} (owned : Owned t rest) (m : Meets) :
    ((connectTcp t m).2 = none → Owned (connectTcp t m).1 rest) ∧
      ∀ fd, (connectTcp t m).2 = some fd → Owned (connectTcp t m).1 ((.socket, fd) :: rest) := by
  obtain ⟨-, none_, some_⟩ := connectTcp_spec owned.holds m
  refine ⟨fun isNone => ⟨none_ isNone, owned.nodup⟩, fun fd isSocket => ?_⟩
  obtain ⟨holds, new, -⟩ := some_ fd isSocket
  refine ⟨?_, List.nodup_cons.mpr ⟨owned.holds.notMem_of_le new, owned.nodup⟩⟩
  convert holds using 1
  ext h
  simp

/-- The stream's owner gets its handles, and nobody else has them. -/
theorem openClient_owned {rest : List (Handle Kind)} (owned : Owned t rest) (useTls verify : Bool)
    (m : Meets) :
    ((openClient t useTls verify m).stream = none → Owned (openClient t useTls verify m).fds rest) ∧
      ∀ s, (openClient t useTls verify m).stream = some s →
        Owned (openClient t useTls verify m).fds (s.handles ++ rest) := by
  obtain ⟨-, none_, some_⟩ := openClient_spec owned.holds useTls verify m
  refine ⟨fun isNone => ⟨none_ isNone, owned.nodup⟩, fun s isStream => ?_⟩
  obtain ⟨holds, fresh⟩ := some_ s isStream
  refine ⟨?_, List.nodup_append'.mpr ⟨fresh.nodup, owned.nodup, fun h new old => ?_⟩⟩
  · convert holds using 1
    ext h
    simp only [List.mem_append, Set.mem_ofPred_eq, Set.mem_union, held]
    exact or_comm
  · exact absurd (owned.holds.below old) (Nat.not_lt.mpr (fresh.new h new))

end Specs

end BtcRig.Net.Connect
