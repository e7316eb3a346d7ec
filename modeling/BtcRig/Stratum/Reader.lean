/-
# BtcRig.Stratum.Reader — pool lines, however their bytes arrive

`read_line` keeps a buffer of 65536 bytes, looks for a line end in it, and asks the
connection for more if there is none.  What the connection does is a script of
answers: a timeout, a read that would block, any number of bytes up to the free
space.  The rest of the stream is `incoming`; a read of nothing at its end is the
peer's close.

* `readLine_spec` is the contract of one call: it takes one segment off the unread
  bytes, or none;
* `line_framing` is about all the calls of a client: their results are those of the
  stream alone.
-/
import BtcRig.Theory.Framing
import BtcRig.Theory.Words

namespace BtcRig.Stratum.Reader

open BtcRig.Theory.Words
open BtcRig.Theory.Framing

set_option autoImplicit false

def bufferSize : Nat := 65536

/-- `char line[65536]` of the client. -/
def lineSize : Nat := 65536

def newline : Byte := 0x0a
def carriageReturn : Byte := 0x0d

/-- The bytes in use; there are never more than the buffer holds. -/
structure LineReader where
  buffer : List Byte
  fits : buffer.length ≤ bufferSize

def LineReader.empty : LineReader := ⟨[], Nat.zero_le _⟩

/-- What `select` and the read on the connection come back with, one attempt each. -/
inductive Answer where
  | timeout
  | interrupted
  | selectFailed
  | wouldBlock
  | readFailed
  /-- Up to `more + 1` bytes, as far as there are any and they fit. -/
  | arrive (more : Nat)

/-- `1`, `0`, `-1`, `-2` and `-3`. -/
inductive ReadResult where
  | line (out : List Byte)
  | closed
  | failed
  | tooLong
  | timeout
deriving DecidableEq

structure Call where
  result : ReadResult
  reader : LineReader
  incoming : List Byte
  script : List Answer

def findNewline (buffer : List Byte) : Option Nat := buffer.findIdx? (· == newline)

def lineLen (buffer : List Byte) (i : Nat) : Nat :=
  if 0 < i ∧ buffer.getD (i - 1) 0 = carriageReturn then i - 1 else i

/-- The bytes a read with `more` on the way puts behind the buffer. -/
def received (reader : LineReader) (incoming : List Byte) (more : Nat) : List Byte :=
  incoming.take (min (more + 1) (bufferSize - reader.buffer.length))

def LineReader.extend (reader : LineReader) (incoming : List Byte) (more : Nat) : LineReader where
  buffer := reader.buffer ++ received reader incoming more
  fits := by
    have := reader.fits
    rw [List.length_append, received, List.length_take]
    omega

def LineReader.consume (reader : LineReader) (consumed : Nat) : LineReader where
  buffer := reader.buffer.drop consumed
  fits := by
    have := reader.fits
    rw [List.length_drop]
    omega

/-- `none` is a call that still waits for an answer. -/
def readLine (outSize : Nat) (reader : LineReader) (incoming : List Byte) (script : List Answer) :
    Option Call :=
  match findNewline reader.buffer with
  | some i =>
      if lineLen reader.buffer i ≥ outSize then some ⟨.tooLong, reader, incoming, script⟩
      else some ⟨.line (reader.buffer.take (lineLen reader.buffer i)), reader.consume (i + 1),
        incoming, script⟩
  | none =>
      if reader.buffer.length = bufferSize then some ⟨.tooLong, reader, incoming, script⟩
      else match script with
        | [] => none
        | .timeout :: script => some ⟨.timeout, reader, incoming, script⟩
        | .interrupted :: script => readLine outSize reader incoming script
        | .selectFailed :: script => some ⟨.failed, reader, incoming, script⟩
        | .wouldBlock :: script => readLine outSize reader incoming script
        | .readFailed :: script => some ⟨.failed, reader, incoming, script⟩
        | .arrive more :: script =>
            if received reader incoming more = [] then some ⟨.closed, reader, incoming, script⟩
            else readLine outSize (reader.extend incoming more)
              (incoming.drop (received reader incoming more).length) script

/-- The calls of the client: it goes on after a line and after a timeout. -/
structure Reads where
  results : List ReadResult
  reader : LineReader
  incoming : List Byte

def clientReads : (calls : Nat) → LineReader → List Byte → List Answer → Reads
  | 0, reader, incoming, _ => ⟨[], reader, incoming⟩
  | calls + 1, reader, incoming, script =>
      match readLine lineSize reader incoming script with
      | none => ⟨[], reader, incoming⟩
      | some call =>
          match call.result with
          | .line _ | .timeout =>
              let rest := clientReads calls call.reader call.incoming call.script
              { rest with results := call.result :: rest.results }
          | _ => ⟨[call.result], call.reader, call.incoming⟩

/-! ## One call -/

/-- At most one carriage return at the end is dropped. -/
def chomp (segment : List Byte) : List Byte :=
  if segment.getLast? = some carriageReturn then segment.dropLast else segment

theorem findNewline_some {buffer : List Byte} {i : Nat} (found : findNewline buffer = some i) :
    buffer = buffer.take i ++ newline :: buffer.drop (i + 1) ∧ newline ∉ buffer.take i ∧
      i < buffer.length := by
  obtain ⟨inside, isNewline, before⟩ := List.findIdx?_eq_some_iff_getElem.mp found
  refine ⟨?_, ?_, inside⟩
  · have here : buffer[i] = newline := by simpa using isNewline
    rw [← here, ← List.drop_eq_getElem_cons inside, List.take_append_drop]
  · intro early
    obtain ⟨j, small, isEarly⟩ := List.mem_take_iff_getElem.mp early
    exact before j (by omega) (by simp [isEarly])

theorem findNewline_none {buffer : List Byte} (missing : findNewline buffer = none) :
    newline ∉ buffer := by
  intro is
  have := List.findIdx?_eq_none_iff.mp missing newline is
  simp at this

/-- The line is the segment without its carriage return. -/
theorem take_lineLen {buffer : List Byte} {i : Nat} (inside : i < buffer.length) :
    buffer.take (lineLen buffer i) = chomp (buffer.take i) := by
  rcases i with _ | i
  · rfl
  · have last : (buffer.take (i + 1)).getLast? = some (buffer.getD i 0) := by
      rw [List.getLast?_take, if_neg (by omega), Nat.add_sub_cancel,
        List.getElem?_eq_getElem (by omega), Option.some_or,
        List.getD_eq_getElem buffer 0 (by omega)]
    rw [chomp, lineLen, last, Nat.add_sub_cancel]
    by_cases isReturn : buffer.getD i 0 = carriageReturn
    · rw [if_pos ⟨by omega, isReturn⟩, if_pos (congrArg some isReturn), List.dropLast_take inside]
      rfl
    · rw [if_neg (fun both => isReturn both.2), if_neg (fun same => isReturn (Option.some.inj same))]

theorem lineLen_le (buffer : List Byte) (i : Nat) : lineLen buffer i ≤ i := by
  unfold lineLen
  split <;> omega

/-- A line in the buffer fits the client's own: the check never fails. -/
theorem lineLen_fits {reader : LineReader} {i : Nat} (found : findNewline reader.buffer = some i) :
    lineLen reader.buffer i < lineSize := by
  obtain ⟨-, -, inside⟩ := findNewline_some found
  calc lineLen reader.buffer i ≤ i := lineLen_le _ _
    _ < reader.buffer.length := inside
    _ ≤ lineSize := reader.fits

/-- What is not returned yet. -/
def Call.unread (call : Call) : List Byte := call.reader.buffer ++ call.incoming

/-- A call takes the first segment off the unread bytes, or leaves them. -/
inductive CallSpec (unread : List Byte) (call : Call) : Prop where
  | line (segment : List Byte) : call.result = .line (chomp segment) → newline ∉ segment →
      segment.length < bufferSize → unread = segment ++ newline :: call.unread → CallSpec unread call
  | closed : call.result = .closed → call.unread = unread → newline ∉ unread →
      unread.length < bufferSize → CallSpec unread call
  | tooLong : call.result = .tooLong → call.unread = unread → newline ∉ unread.take bufferSize →
      bufferSize ≤ unread.length → CallSpec unread call
  | failed : call.result = .failed → call.unread = unread → CallSpec unread call
  | timeout : call.result = .timeout → call.unread = unread → CallSpec unread call

section Call

variable {reader : LineReader} {incoming : List Byte} {script : List Answer} {call : Call}

theorem readLine_found {i : Nat} (found : findNewline reader.buffer = some i)
    (returned : readLine lineSize reader incoming script = some call) :
    CallSpec (reader.buffer ++ incoming) call := by
  obtain ⟨whole, clean, inside⟩ := findNewline_some found
  rw [readLine.eq_def, found] at returned
  simp only [ge_iff_le, not_le.mpr (lineLen_fits found), if_false, Option.some.injEq] at returned
  subst returned
  refine .line (reader.buffer.take i) ?_ clean ?_ ?_
  · exact congrArg ReadResult.line (take_lineLen inside)
  · have := reader.fits
    rw [List.length_take]
    omega
  · show reader.buffer ++ incoming =
      reader.buffer.take i ++ newline :: (reader.buffer.drop (i + 1) ++ incoming)
    conv_lhs => rw [whole]
    simp

theorem readLine_full (missing : findNewline reader.buffer = none)
    (full : reader.buffer.length = bufferSize)
    (returned : readLine lineSize reader incoming script = some call) :
    CallSpec (reader.buffer ++ incoming) call := by
  rw [readLine.eq_def, missing] at returned
  simp only [full, if_true, Option.some.injEq] at returned
  subst returned
  have whole : (reader.buffer ++ incoming).take bufferSize = reader.buffer := by
    rw [← full, List.take_left]
  refine .tooLong rfl rfl ?_ ?_
  · rw [whole]
    exact findNewline_none missing
  · rw [List.length_append]
    omega

/-- No line and room in the buffer: the connection is asked. -/
theorem readLine_asks (missing : findNewline reader.buffer = none)
    (room : reader.buffer.length ≠ bufferSize) (answer : Answer) :
    readLine lineSize reader incoming (answer :: script) = match answer with
      | .timeout => some ⟨.timeout, reader, incoming, script⟩
      | .interrupted => readLine lineSize reader incoming script
      | .selectFailed => some ⟨.failed, reader, incoming, script⟩
      | .wouldBlock => readLine lineSize reader incoming script
      | .readFailed => some ⟨.failed, reader, incoming, script⟩
      | .arrive more =>
          if received reader incoming more = [] then some ⟨.closed, reader, incoming, script⟩
          else readLine lineSize (reader.extend incoming more)
            (incoming.drop (received reader incoming more).length) script := by
  conv_lhs => rw [readLine.eq_def, missing]
  simp only [room, if_false]
  cases answer <;> rfl

theorem received_append (reader : LineReader) (incoming : List Byte) (more : Nat) :
    (reader.extend incoming more).buffer ++
      incoming.drop (received reader incoming more).length = reader.buffer ++ incoming := by
  have split : received reader incoming more ++
      incoming.drop (received reader incoming more).length = incoming := by
    rw [received, List.length_take]
    conv_rhs => rw [← List.take_append_drop (min (more + 1) (bufferSize - reader.buffer.length))
      incoming]
    congr 1
    by_cases short : min (more + 1) (bufferSize - reader.buffer.length) ≤ incoming.length
    · rw [Nat.min_eq_left short]
    · rw [Nat.min_eq_right (by omega), List.drop_length, List.drop_eq_nil_of_le (by omega)]
  rw [LineReader.extend, List.append_assoc, split]

/-- Reads come back empty at the end of the stream only. -/
theorem received_nil (room : reader.buffer.length ≠ bufferSize) {more : Nat} :
    received reader incoming more = [] ↔ incoming = [] := by
  have := reader.fits
  rw [received, List.take_eq_nil_iff]
  constructor
  · intro either
    exact either.resolve_left (by omega)
  · exact .inr

/-- **The contract of one call.** -/
theorem readLine_spec (returned : readLine lineSize reader incoming script = some call) :
    CallSpec (reader.buffer ++ incoming) call := by
  induction script generalizing reader incoming with
  | nil =>
      cases missing : findNewline reader.buffer with
      | some i => exact readLine_found missing returned
      | none =>
          by_cases full : reader.buffer.length = bufferSize
          · exact readLine_full missing full returned
          · rw [readLine.eq_def, missing] at returned
            simp only [full, if_false] at returned
            cases returned
  | cons answer script ih =>
      cases missing : findNewline reader.buffer with
      | some i => exact readLine_found missing returned
      | none =>
          by_cases full : reader.buffer.length = bufferSize
          · exact readLine_full missing full returned
          · rw [readLine_asks missing full] at returned
            cases answer with
            | timeout =>
                cases returned
                exact .timeout rfl rfl
            | interrupted => exact ih returned
            | selectFailed =>
                cases returned
                exact .failed rfl rfl
            | wouldBlock => exact ih returned
            | readFailed =>
                cases returned
                exact .failed rfl rfl
            | arrive more =>
                simp only at returned
                split at returned
                · rename_i over_
                  cases returned
                  have atEnd : incoming = [] := (received_nil full).mp over_
                  have := reader.fits
                  refine .closed rfl rfl ?_ ?_
                  · rw [atEnd, List.append_nil]
                    exact findNewline_none missing
                  · rw [atEnd, List.append_nil]
                    omega
                · have spec := ih returned
                  rwa [received_append] at spec

end Call

/-! ## A call with enough answers returns -/

def isArrival : Answer → Bool
  | .arrive _ => true
  | _ => false

/-- The connection does not fail, and is read often enough to take in what is left. -/
structure Enough (incoming : List Byte) (script : List Answer) : Prop where
  noFailure : ∀ answer ∈ script, answer ≠ .selectFailed ∧ answer ≠ .readFailed
  arrivals : incoming.length < script.countP isArrival

/-- The call ends the connection, or leaves less to do. -/
structure Advances (work : Nat) (call : Call) : Prop where
  ends : call.result = .closed ∨ call.result = .tooLong ∨
    (call.result ≠ .failed ∧ Enough call.incoming call.script ∧
      call.unread.length + call.script.length < work)

section Progress

variable {reader : LineReader} {incoming : List Byte} {script : List Answer}

theorem found_returns {i : Nat} (found : findNewline reader.buffer = some i)
    (enough : Enough incoming script) :
    ∃ call, readLine lineSize reader incoming script = some call ∧
      Advances ((reader.buffer ++ incoming).length + script.length) call := by
  obtain ⟨-, -, inside⟩ := findNewline_some found
  refine ⟨⟨.line (reader.buffer.take (lineLen reader.buffer i)), reader.consume (i + 1), incoming,
    script⟩, ?_, ?_⟩
  · rw [readLine.eq_def, found]
    simp only [ge_iff_le, not_le.mpr (lineLen_fits found), if_false]
  · refine ⟨.inr (.inr ⟨nofun, enough, ?_⟩)⟩
    simp only [Call.unread, LineReader.consume, List.length_append, List.length_drop]
    omega

theorem full_returns (missing : findNewline reader.buffer = none)
    (full : reader.buffer.length = bufferSize) (work : Nat) :
    ∃ call, readLine lineSize reader incoming script = some call ∧ Advances work call := by
  refine ⟨⟨.tooLong, reader, incoming, script⟩, ?_, ⟨.inr (.inl rfl)⟩⟩
  rw [readLine.eq_def, missing]
  simp only [full, if_true]

theorem Advances.more {work work' : Nat} {call : Call} (advances : Advances work call)
    (less : work ≤ work') : Advances work' call := by
  rcases advances.ends with closed | tooLong | ⟨ok, enough, smaller⟩
  · exact ⟨.inl closed⟩
  · exact ⟨.inr (.inl tooLong)⟩
  · exact ⟨.inr (.inr ⟨ok, enough, smaller.trans_le less⟩)⟩

/-- A call that does not end the connection leaves enough for the next one. -/
theorem Advances.goesOn {work : Nat} {call : Call} (advances : Advances work call)
    (notClosed : call.result ≠ .closed) (notTooLong : call.result ≠ .tooLong) :
    Enough call.incoming call.script ∧ call.unread.length + call.script.length < work :=
  ((advances.ends.resolve_left notClosed).resolve_left notTooLong).2

theorem readLine_returns (enough : Enough incoming script) :
    ∃ call, readLine lineSize reader incoming script = some call ∧
      Advances ((reader.buffer ++ incoming).length + script.length) call := by
  induction script generalizing reader incoming with
  | nil => exact absurd enough.arrivals (Nat.not_lt_zero _)
  | cons answer script ih =>
      cases missing : findNewline reader.buffer with
      | some i => exact found_returns missing enough
      | none =>
          by_cases full : reader.buffer.length = bufferSize
          · exact full_returns missing full _
          · rw [readLine_asks missing full]
            obtain ⟨ok, noFailure⟩ := List.forall_mem_cons.mp enough.noFailure
            have arrivals := enough.arrivals
            have again (rest : Enough incoming script) :
                ∃ call, readLine lineSize reader incoming script = some call ∧
                  Advances ((reader.buffer ++ incoming).length + (answer :: script).length)
                    call := by
              obtain ⟨call, returned, advances⟩ : ∃ call,
                  readLine lineSize reader incoming script = some call ∧
                    Advances ((reader.buffer ++ incoming).length + script.length) call := ih rest
              exact ⟨call, returned, advances.more (by simp)⟩
            cases answer with
            | timeout =>
                refine ⟨_, rfl, ⟨.inr (.inr ⟨nofun, ⟨noFailure, arrivals⟩, ?_⟩)⟩⟩
                simp [Call.unread]
            | interrupted => exact again ⟨noFailure, arrivals⟩
            | selectFailed => exact absurd rfl ok.1
            | wouldBlock => exact again ⟨noFailure, arrivals⟩
            | readFailed => exact absurd rfl ok.2
            | arrive more =>
                simp only
                split
                · exact ⟨_, rfl, ⟨.inl rfl⟩⟩
                · rename_i some_
                  have taken : (received reader incoming more).length ≠ 0 := by
                    rw [ne_eq, List.length_eq_zero_iff]
                    exact some_
                  have bounded : (received reader incoming more).length ≤ incoming.length := by
                    rw [received, List.length_take]
                    exact Nat.min_le_right _ _
                  have rest : Enough (incoming.drop (received reader incoming more).length)
                      script := by
                    refine ⟨noFailure, ?_⟩
                    rw [List.countP_cons_of_pos rfl] at arrivals
                    rw [List.length_drop]
                    omega
                  have later := @ih (reader.extend incoming more) _ rest
                  obtain ⟨call, returned, advances⟩ := later
                  rw [received_append] at advances
                  exact ⟨call, returned, advances.more (by simp)⟩

end Progress

/-! ## All the calls of a client -/

/-- What the stream alone says the calls return. -/
def expected (stream : List Byte) : List ReadResult :=
  (frames bufferSize newline stream).1.map (fun segment => .line (chomp segment)) ++
    [if bufferSize ≤ (frames bufferSize newline stream).2.length then .tooLong else .closed]

/-- The results other than timeouts and connection errors. -/
def delivered (results : List ReadResult) : List ReadResult :=
  results.filter fun r => decide (r ≠ .timeout ∧ r ≠ .failed)

/-- How many lines were returned. -/
def lineCount (results : List ReadResult) : Nat :=
  results.countP fun
    | .line _ => true
    | _ => false

theorem expected_segment {segment : List Byte} (clean : newline ∉ segment)
    (short : segment.length < bufferSize) (rest : List Byte) :
    expected (segment ++ newline :: rest) = .line (chomp segment) :: expected rest := by
  rw [expected, frames_segment clean short]
  rfl

theorem expected_uncut {stream : List Byte} (uncut : newline ∉ stream.take bufferSize) :
    expected stream = [if bufferSize ≤ stream.length then .tooLong else .closed] := by
  rw [expected, frames_uncut (by decide) uncut]
  rfl

theorem expected_closed {stream : List Byte} (clean : newline ∉ stream)
    (short : stream.length < bufferSize) : expected stream = [.closed] := by
  rw [expected_uncut (fun is => clean (List.mem_of_mem_take is)), if_neg (by omega)]

theorem expected_tooLong {stream : List Byte} (uncut : newline ∉ stream.take bufferSize)
    (long : bufferSize ≤ stream.length) : expected stream = [.tooLong] := by
  rw [expected_uncut uncut, if_pos long]

/-- A run delivers a beginning of what the stream says, and has kept the bytes behind
the lines it returned. -/
structure ReadsSpec (unread : List Byte) (run : Reads) : Prop where
  prefix_ : delivered run.results <+: expected unread
  rest : unread = ((frames bufferSize newline unread).1.take (lineCount run.results)).flatMap
    (· ++ [newline]) ++ (run.reader.buffer ++ run.incoming)

theorem clientReads_spec (calls : Nat) (reader : LineReader) (incoming : List Byte)
    (script : List Answer) :
    ReadsSpec (reader.buffer ++ incoming) (clientReads calls reader incoming script) := by
  induction calls generalizing reader incoming script with
  | zero => exact ⟨List.nil_prefix, rfl⟩
  | succ calls ih =>
      rw [clientReads]
      cases returned : readLine lineSize reader incoming script with
      | none => exact ⟨List.nil_prefix, rfl⟩
      | some call =>
          have rest := ih call.reader call.incoming call.script
          rcases readLine_spec returned with
            ⟨segment, is, clean, short, whole⟩ | ⟨is, same, clean, short⟩ |
            ⟨is, same, uncut, long⟩ | ⟨is, same⟩ | ⟨is, same⟩
          · simp only [is]
            refine ⟨?_, ?_⟩
            · rw [whole, expected_segment clean short]
              exact List.prefix_cons_inj _ |>.mpr rest.prefix_
            · have count : lineCount (.line (chomp segment) ::
                  (clientReads calls call.reader call.incoming call.script).results) =
                  lineCount (clientReads calls call.reader call.incoming call.script).results + 1 :=
                List.countP_cons_of_pos rfl
              have kept : call.unread = _ := rest.rest
              rw [count, whole, frames_segment clean short, List.take_succ_cons, List.flatMap_cons,
                List.append_assoc, List.append_assoc, List.append_cancel_left_eq]
              exact congrArg (newline :: ·) kept
          · simp only [is]
            refine ⟨?_, ?_⟩
            · rw [expected_closed clean short]
              exact List.prefix_rfl
            · exact same.symm
          · simp only [is]
            refine ⟨?_, ?_⟩
            · rw [expected_tooLong uncut long]
              exact List.prefix_rfl
            · exact same.symm
          · simp only [is]
            refine ⟨List.nil_prefix, ?_⟩
            exact same.symm
          · simp only [is]
            have same' : call.reader.buffer ++ call.incoming = reader.buffer ++ incoming := same
            rw [same'] at rest
            exact ⟨rest.prefix_, rest.rest⟩

theorem clientReads_all (calls : Nat) (reader : LineReader) (incoming : List Byte)
    (script : List Answer) (enough : Enough incoming script)
    (many : (reader.buffer ++ incoming).length + script.length < calls) :
    delivered (clientReads calls reader incoming script).results =
      expected (reader.buffer ++ incoming) := by
  induction calls generalizing reader incoming script with
  | zero => omega
  | succ calls ih =>
      obtain ⟨call, returned, advances⟩ : ∃ call,
          readLine lineSize reader incoming script = some call ∧
            Advances ((reader.buffer ++ incoming).length + script.length) call :=
        readLine_returns enough
      rw [clientReads, returned]
      rcases readLine_spec returned with
        ⟨segment, is, clean, short, whole⟩ | ⟨is, same, clean, short⟩ |
        ⟨is, same, uncut, long⟩ | ⟨is, same⟩ | ⟨is, same⟩
      · obtain ⟨enough', less⟩ := advances.goesOn (by rw [is]; nofun) (by rw [is]; nofun)
        have rest := ih call.reader call.incoming call.script enough'
          (less.trans_le (Nat.le_of_lt_succ many))
        simp only [is]
        rw [whole, expected_segment clean short]
        exact congrArg (ReadResult.line (chomp segment) :: ·) rest
      · simp only [is]
        rw [expected_closed clean short]
        rfl
      · simp only [is]
        rw [expected_tooLong uncut long]
        rfl
      · rcases advances.ends with closed | tooLong | ⟨ok, -⟩
        · rw [is] at closed
          cases closed
        · rw [is] at tooLong
          cases tooLong
        · exact absurd is ok
      · obtain ⟨enough', less⟩ := advances.goesOn (by rw [is]; nofun) (by rw [is]; nofun)
        have rest := ih call.reader call.incoming call.script enough'
          (less.trans_le (Nat.le_of_lt_succ many))
        have same' : call.reader.buffer ++ call.incoming = reader.buffer ++ incoming := same
        simp only [is]
        rw [same'] at rest
        exact rest

/-- A call that neither times out nor fails reports a line too long exactly when the
unread bytes fill the buffer without a line end. -/
theorem tooLong_iff {reader : LineReader} {incoming : List Byte} {script : List Answer} {call : Call}
    (returned : readLine lineSize reader incoming script = some call)
    (answered : call.result ≠ .timeout ∧ call.result ≠ .failed) :
    call.result = .tooLong ↔ bufferSize ≤ (reader.buffer ++ incoming).length ∧
      newline ∉ (reader.buffer ++ incoming).take bufferSize := by
  rcases readLine_spec returned with
    ⟨segment, is, clean, short, whole⟩ | ⟨is, same, clean, short⟩ |
    ⟨is, same, uncut, long⟩ | ⟨is, same⟩ | ⟨is, same⟩
  · rw [is]
    constructor
    · nofun
    · rintro ⟨-, uncut⟩
      rw [whole, List.take_append] at uncut
      refine absurd ?_ uncut
      obtain ⟨n, more⟩ : ∃ n, bufferSize - segment.length = n + 1 :=
        ⟨bufferSize - segment.length - 1, by omega⟩
      rw [more, List.take_succ_cons]
      exact List.mem_append_right _ List.mem_cons_self
  · rw [is]
    constructor
    · nofun
    · rintro ⟨long, -⟩
      omega
  · exact ⟨fun _ => ⟨long, uncut⟩, fun _ => is⟩
  · exact absurd is answered.2
  · exact absurd is answered.1

/-- **Line framing does not depend on how the bytes arrive.**  For every stream and
every script of the connection: the segments cut the stream at its line ends; the
calls deliver a beginning of their lines, and of what ends the connection; nothing
behind those lines is lost; with enough reads they deliver all of it; a line is too
long exactly when 65536 unread bytes have no line end; and a line in the buffer always
fits the client's own. -/
theorem line_framing (stream : List Byte) (script : List Answer) (calls : Nat) :
    let run := clientReads calls .empty stream script
    let segments := (frames bufferSize newline stream).1
    let tail := (frames bufferSize newline stream).2
    Framed bufferSize newline stream segments tail ∧
    delivered run.results <+: expected stream ∧
    stream = (segments.take (lineCount run.results)).flatMap (· ++ [newline]) ++
      (run.reader.buffer ++ run.incoming) ∧
    (Enough stream script → stream.length + script.length < calls →
      delivered run.results = expected stream) ∧
    (∀ reader incoming script call, readLine lineSize reader incoming script = some call →
      call.result ≠ .timeout ∧ call.result ≠ .failed →
        (call.result = .tooLong ↔ bufferSize ≤ (reader.buffer ++ incoming).length ∧
          newline ∉ (reader.buffer ++ incoming).take bufferSize)) ∧
    ∀ (reader : LineReader) i, findNewline reader.buffer = some i →
      lineLen reader.buffer i < lineSize := by
  have spec := clientReads_spec calls .empty stream script
  refine ⟨framed_frames (by decide) stream, spec.prefix_, spec.rest, ?_, ?_, ?_⟩
  · intro enough many
    exact clientReads_all calls .empty stream script enough many
  · intro reader incoming script call returned answered
    exact tooLong_iff returned answered
  · intro reader i found
    exact lineLen_fits found

/-- Two lines in three pieces, the first ended by two bytes that arrive apart. -/
example : (clientReads 4 .empty [0x61, 0x0d, 0x0a, 0x0a] [.arrive 1, .timeout, .arrive 0, .arrive 5,
    .arrive 0]).results = [.timeout, .line [0x61], .line [], .closed] := by decide +kernel

end BtcRig.Stratum.Reader
