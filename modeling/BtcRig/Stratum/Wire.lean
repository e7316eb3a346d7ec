/-
# BtcRig.Stratum.Wire — requests as bytes on the connection

`conn_write` repeats its call until the connection has taken all bytes or fails;
`send_request` writes the text of a request with it, and then the line end.  A script
says how each call ends; a write whose script runs out has not returned.

* `connWrite_succeeds`: a healthy connection takes all bytes;
* `send_spec` is the contract of one request: a whole line is on the wire, or a
  beginning of it;
* `Transmits` is that contract over many requests, and `Transmits.framed` what a peer
  makes of the bytes.

The JSON library is a parameter; all that is asked of it is that compact text has no
line end in it.
-/
import BtcRig.Stratum.Reader
import BtcRig.Stratum.State

namespace BtcRig.Stratum.Wire

open BtcRig.Theory
open BtcRig.Theory.Words
open BtcRig.Theory.Framing
open BtcRig.Mining.State
open BtcRig.Stratum.Reader

set_option autoImplicit false

/-! ## Writing bytes -/

/-- What one `send` or `SSL_write` comes back with. -/
inductive WriteAnswer where
  /-- Interrupted, or it would block. -/
  | again
  | failed
  /-- It took `more + 1` bytes, or all there were. -/
  | took (more : Nat)
deriving DecidableEq

structure Written where
  /-- Success; nothing while the call has not returned. -/
  ok : Option Bool
  /-- What went on the wire. -/
  bytes : List Byte
  script : List WriteAnswer

def connWrite : (data : List Byte) → (script : List WriteAnswer) → Written
  | data, [] => ⟨if data = [] then some true else none, [], []⟩
  | data, answer :: script =>
      if data = [] then ⟨some true, [], answer :: script⟩
      else match answer with
        | .again => connWrite data script
        | .failed => ⟨some false, [], script⟩
        | .took more =>
            let rest := connWrite (data.drop (more + 1)) script
            { rest with bytes := data.take (more + 1) ++ rest.bytes }

theorem connWrite_nil (data : List Byte) :
    connWrite data [] = ⟨if data = [] then some true else none, [], []⟩ := rfl

theorem connWrite_done (answer : WriteAnswer) (script : List WriteAnswer) :
    connWrite [] (answer :: script) = ⟨some true, [], answer :: script⟩ := rfl

section Unfinished

variable {data : List Byte} (some_ : data ≠ []) (script : List WriteAnswer)

include some_

theorem connWrite_again : connWrite data (.again :: script) = connWrite data script :=
  if_neg some_

theorem connWrite_failed : connWrite data (.failed :: script) = ⟨some false, [], script⟩ :=
  if_neg some_

theorem connWrite_took (more : Nat) :
    connWrite data (.took more :: script) =
      { connWrite (data.drop (more + 1)) script with
        bytes := data.take (more + 1) ++ (connWrite (data.drop (more + 1)) script).bytes } :=
  if_neg some_

end Unfinished

/-- The text, and if it went out the line end. -/
def writeLine (text : List Byte) (script : List WriteAnswer) : Written :=
  let first := connWrite text script
  if first.ok = some true then
    let second := connWrite [newline] first.script
    { second with bytes := first.bytes ++ second.bytes }
  else first

/-- A beginning of `data` is on the wire, all of it exactly if the call succeeded. -/
structure WriteSpec (data : List Byte) (w : Written) : Prop where
  beginning : w.bytes <+: data
  success : w.ok = some true ↔ w.bytes = data

theorem connWrite_spec (data : List Byte) (script : List WriteAnswer) :
    WriteSpec data (connWrite data script) := by
  induction script generalizing data with
  | nil =>
      rw [connWrite_nil]
      refine ⟨List.nil_prefix, ?_⟩
      by_cases empty : data = []
      · simp [empty]
      · simp [empty, Ne.symm empty]
  | cons answer script ih =>
      by_cases some_ : data ≠ []
      · cases answer with
        | again =>
            rw [connWrite_again some_]
            exact ih data
        | failed =>
            rw [connWrite_failed some_]
            exact ⟨List.nil_prefix, by simpa using Ne.symm some_⟩
        | took more =>
            rw [connWrite_took some_]
            have rest := ih (data.drop (more + 1))
            have whole := List.take_append_drop (more + 1) data
            refine ⟨?_, rest.success.trans ?_⟩
            · have beginning := (List.prefix_append_right_inj (data.take (more + 1))).mpr
                rest.beginning
              rwa [whole] at beginning
            · constructor
              · intro all
                exact (congrArg (data.take (more + 1) ++ ·) all).trans whole
              · intro all
                exact List.append_cancel_left (all.trans whole.symm)
      · rw [not_not.mp some_, connWrite_done]
        exact ⟨List.nil_prefix, by simp⟩

theorem writeLine_spec (text : List Byte) (script : List WriteAnswer) :
    WriteSpec (text ++ [newline]) (writeLine text script) := by
  have first := connWrite_spec text script
  unfold writeLine
  by_cases sent : (connWrite text script).ok = some true
  · have second := connWrite_spec [newline] (connWrite text script).script
    have all := first.success.mp sent
    simp only [sent, if_true, all]
    refine ⟨(List.prefix_append_right_inj text).mpr second.beginning, second.success.trans ?_⟩
    exact (List.append_right_inj text).symm
  · simp only [sent, if_false]
    refine ⟨first.beginning.trans (List.prefix_append _ _), fun is => absurd is sent, fun all => ?_⟩
    have longer := first.beginning.length_le
    rw [all, List.length_append, List.length_singleton] at longer
    omega

/-- A call on a connection that does not fail, and takes bytes often enough, succeeds. -/
theorem connWrite_succeeds (data : List Byte) (script : List WriteAnswer)
    (healthy : ∀ answer ∈ script, answer ≠ .failed)
    (enough : data.length ≤ script.countP fun answer => answer ≠ .again) :
    (connWrite data script).ok = some true := by
  induction script generalizing data with
  | nil =>
      have empty : data = [] := List.length_eq_zero_iff.mp (Nat.le_zero.mp enough)
      simp [connWrite_nil, empty]
  | cons answer script ih =>
      obtain ⟨alive, healthyRest⟩ := List.forall_mem_cons.mp healthy
      by_cases some_ : data ≠ []
      · cases answer with
        | again =>
            rw [connWrite_again some_]
            exact ih data healthyRest (by simpa using enough)
        | failed => exact absurd rfl alive
        | took more =>
            rw [connWrite_took some_]
            refine ih _ healthyRest ?_
            rw [List.countP_cons_of_pos (by simp)] at enough
            rw [List.length_drop]
            omega
      · rw [not_not.mp some_, connWrite_done]

/-! ## Requests -/

/-- What the client uses of the JSON library. -/
structure JsonText where
  /-- `json_loads`; nothing if the text does not parse. -/
  loads : List Byte → Option Json
  /-- `json_string`; nothing for a text that is not UTF-8. -/
  string : List Char → Option Json
  /-- `json_dumps` with `JSON_COMPACT`; nothing if it fails. -/
  dumps : Json → Option (List Byte)

/-- Compact text is one line. -/
def JsonText.OneLine (json : JsonText) : Prop :=
  ∀ value text, json.dumps value = some text → newline ∉ text

/-- What `stratum_run_client` is called with. -/
structure ClientConfig where
  /-- `BTCRIG_USER_AGENT`. -/
  userAgent : List Char
  user : List Char
  password : List Char
  suggestDifficulty : ℚ
  enableMining : Bool
  stopAt : ℚ
  sessionSeconds : ℚ

inductive Request where
  | subscribe
  | authorize
  | suggestDifficulty
  | submit (id : Int) (share : MinerShare)

def Request.id : Request → Int
  | .subscribe => 1
  | .authorize => 2
  | .suggestDifficulty => 3
  | .submit id _ => id

def Request.method : Request → String
  | .subscribe => "mining.subscribe"
  | .authorize => "mining.authorize"
  | .suggestDifficulty => "mining.suggest_difficulty"
  | .submit _ _ => "mining.submit"

/-- The share a request is about. -/
def Request.shares : Request → List MinerShare
  | .submit _ share => [share]
  | _ => []

def Request.isAuthorize : Request → Bool
  | .authorize => true
  | _ => false

def Request.isSuggest : Request → Bool
  | .suggestDifficulty => true
  | _ => false

section Sending

variable (json : JsonText) (config : ClientConfig)

/-- A text the library refuses is not appended. -/
def Request.params : Request → List Json
  | .subscribe => [config.userAgent].filterMap json.string
  | .authorize => [config.user, config.password].filterMap json.string
  | .suggestDifficulty => [.real config.suggestDifficulty]
  | .submit _ share =>
      [config.user, share.jobId.1, share.extranonce2.1, share.ntime.1,
        Hex.format 8 share.nonce.toNat].filterMap json.string

def Request.root (request : Request) : Json :=
  .object [("id", .int request.id), ("method", .string request.method.toList),
    ("params", .array (request.params json config))]

/-- `send_request`. -/
def send (request : Request) (script : List WriteAnswer) : Written :=
  match json.dumps (request.root json config) with
  | none => ⟨some false, [], script⟩
  | some text => writeLine text script

/-- The request's line, without its end. -/
def textOf (request : Request) : List Byte := (json.dumps (request.root json config)).getD []

def lineOf (request : Request) : List Byte := textOf json config request ++ [newline]

theorem send_spec (request : Request) (script : List WriteAnswer) :
    WriteSpec (lineOf json config request) (send json config request script) := by
  unfold send lineOf textOf
  cases json.dumps (request.root json config) with
  | none => exact ⟨List.nil_prefix, by simp⟩
  | some text => exact writeLine_spec text script

/-! ## The wire -/

/-- One request that was tried, with what came of it. -/
abbrev Attempt := Request × Option Bool × List Byte

/-- The requests whose line went out. -/
def sentOf (attempts : List Attempt) : List Request :=
  attempts.filterMap fun a => if a.2.1 = some true then some a.1 else none

/-- All bytes written. -/
def wireOf (attempts : List Attempt) : List Byte := attempts.flatMap fun a => a.2.2

/-- The lines of the requests `sent`, then a beginning `rest` of one more line. -/
structure Transmits (attempts : List Attempt) (sent : List Request) (rest : List Byte) : Prop where
  wire : wireOf attempts = sent.flatMap (lineOf json config) ++ rest
  /-- Nothing went wrong so far, or the last request is the one that did. -/
  last : (attempts.map Prod.fst = sent ∧ rest = []) ∨
    ∃ request, attempts.map Prod.fst = sent ++ [request] ∧ rest <+: lineOf json config request ∧
      rest ≠ lineOf json config request

variable {json config}

theorem sentOf_append (xs ys : List Attempt) : sentOf (xs ++ ys) = sentOf xs ++ sentOf ys :=
  List.filterMap_append

theorem wireOf_append (xs ys : List Attempt) : wireOf (xs ++ ys) = wireOf xs ++ wireOf ys :=
  List.flatMap_append

/-- One more request on a wire on which nothing went wrong. -/
theorem transmits_snoc {attempts : List Attempt} {sent : List Request}
    (before : Transmits json config attempts sent [])
    (whole : attempts.map Prod.fst = sent) (request : Request) (script : List WriteAnswer) :
    let w := send json config request script
    (w.ok = some true → Transmits json config (attempts ++ [(request, w.ok, w.bytes)])
      (sent ++ [request]) []) ∧
    (w.ok ≠ some true → Transmits json config (attempts ++ [(request, w.ok, w.bytes)])
      sent w.bytes) := by
  intro w
  have spec := send_spec json config request script
  have wire : wireOf (attempts ++ [(request, w.ok, w.bytes)]) =
      sent.flatMap (lineOf json config) ++ w.bytes := by
    rw [wireOf_append, before.wire, List.append_nil]
    simp [wireOf]
  refine ⟨fun ok => ⟨?_, .inl ⟨by simp [whole], rfl⟩⟩, fun unsent => ⟨wire, .inr ⟨request, ?_, ?_, ?_⟩⟩⟩
  · rw [wire, spec.success.mp ok, List.flatMap_append, List.append_nil]
    simp
  · simp [whole]
  · exact spec.beginning
  · exact fun all => unsent (spec.success.mpr all)

/-- **What a peer makes of it**: cutting the bytes at the line ends it has the texts of the
requests sent, and no line end in the rest. -/
theorem Transmits.framed {attempts : List Attempt} {sent : List Request} {rest : List Byte}
    (transmits : Transmits json config attempts sent rest) (oneLine : json.OneLine)
    {limit : Nat} (positive : 0 < limit)
    (short : ∀ request ∈ sent, (textOf json config request).length < limit) :
    frames limit newline (wireOf attempts) = (sent.map (textOf json config), rest) := by
  have clean (request : Request) : newline ∉ textOf json config request := by
    unfold textOf
    cases made : json.dumps (request.root json config) with
    | none => exact List.not_mem_nil
    | some text => exact oneLine _ text made
  apply Framed.unique positive
  refine ⟨?_, ?_, ?_, fun early => ?_⟩
  · rw [transmits.wire, List.flatMap_map]
    rfl
  · intro segment member
    obtain ⟨request, -, rfl⟩ := List.mem_map.mp member
    exact clean request
  · intro segment member
    obtain ⟨request, isSent, rfl⟩ := List.mem_map.mp member
    exact short request isSent
  · have member := List.mem_of_mem_take early
    rcases transmits.last with ⟨-, rfl⟩ | ⟨request, -, beginning, other⟩
    · exact List.not_mem_nil member
    · -- a proper beginning of a line is a beginning of its text
      have proper : rest <+: textOf json config request := by
        rcases List.prefix_concat_iff.mp beginning with all | part
        · exact absurd all other
        · exact part
      exact clean request (proper.subset member)

end Sending

/-! ## A library for plain requests -/

/-- No escape is needed. -/
def isPlain (c : Char) : Bool :=
  decide (0x20 ≤ c.toNat ∧ c.toNat < 0x7f ∧ c.toNat ≠ 0x22 ∧ c.toNat ≠ 0x5c)

def plainString (text : List Char) : Option Json :=
  if text.all isPlain then some (.string text) else none

def quoted (text : List Char) : List Char := "\"".toList ++ text ++ "\"".toList

/-- The text of a request whose parameters are plain; nothing for any other value. -/
def plainDumps : Json → Option (List Byte)
  | .object [(_, .int id), (_, .string method), (_, .array params)] => do
      let texts ← params.mapM fun param => (Json.stringValue (some param)).map quoted
      let text := "\x7b\"id\":".toList ++ Nat.toDigits 10 id.toNat ++ ",\"method\":".toList ++
        quoted method ++ ",\"params\":[".toList ++ (texts.intersperse ",".toList).flatten ++
        "]\x7d".toList
      let bytes := text.map fun c => BitVec.ofNat 8 c.toNat
      if newline ∈ bytes then none else some bytes
  | _ => none

/-- The text of one subscribe reply. -/
def plainReply : List Byte :=
  "\x7b\"id\":1,\"result\":[[],\"ab\",4]\x7d".toList.map fun c => BitVec.ofNat 8 c.toNat

/-- The text of one notification. -/
def plainNotify : List Byte :=
  ("\x7b\"id\":null,\"method\":\"mining.notify\",\"params\":[\"job\",\"".toList ++
    List.replicate 64 '0' ++ "\",\"01\",\"02\",[],\"20000000\",\"1d00ffff\",\"5f5e1000\",true]\x7d".toList).map
      fun c => BitVec.ofNat 8 c.toNat

/-- It reads these two texts and nothing else. -/
def plainLoads (text : List Byte) : Option Json :=
  if text = plainReply then
    some (.object [("id", .int 1), ("result", .array [.array [], .string "ab".toList, .int 4])])
  else if text = plainNotify then
    some (.object [("id", .null), ("method", .string "mining.notify".toList),
      ("params", .array [.string "job".toList, .string (List.replicate 64 '0'), .string "01".toList,
        .string "02".toList, .array [], .string "20000000".toList, .string "1d00ffff".toList,
        .string "5f5e1000".toList, .bool true])])
  else none

def plainJson : JsonText := ⟨plainLoads, plainString, plainDumps⟩

def plainConfig : ClientConfig where
  userAgent := "BTCRig/1".toList
  user := "user".toList
  password := "x".toList
  suggestDifficulty := 0
  enableMining := true
  stopAt := 0
  sessionSeconds := 0

end BtcRig.Stratum.Wire
