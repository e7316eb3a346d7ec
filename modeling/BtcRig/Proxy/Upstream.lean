/-
# BtcRig.Proxy.Upstream — the proxy's own reading of a pool URL

`parse_endpoint` is `parse_pool_url` once more, without the insecure schemes and with a
copy that truncates where the other one fails.  What the client accepts the proxy reads
alike (`parseEndpoint_of_parsePoolUrl`).  The converse fails for a host or a port that is
too long: the proxy accepts the URL and connects to what is left of it.

`endpoints_agree_iff` is the exact condition for a URL without an insecure scheme.  The
function `readEndpoint` is what `parse_endpoint` does with the text before the slash, and
`PartsFit` is the condition on that text.
-/
import BtcRig.Stratum.PoolUrl

namespace BtcRig.Proxy.Upstream

open BtcRig.Mining.Job
open BtcRig.Stratum.State
open BtcRig.Stratum.PoolUrl
open BtcRig.Theory.Delimiters

set_option autoImplicit false

structure Endpoint where
  host : CStr 256
  port : CStr 16
  useTls : Bool
deriving DecidableEq

theorem copied_fits {dstSize : Nat} (room : 0 < dstSize) (src : List Char) :
    (src.take (if src.length ≥ dstSize then dstSize - 1 else src.length)).length < dstSize := by
  rw [List.length_take]
  split <;> omega

def copyText {dstSize : Nat} (room : 0 < dstSize) (src : List Char) : CStr dstSize :=
  let len := src.length
  let len := if len ≥ dstSize then dstSize - 1 else len
  ⟨src.take len, copied_fits room src⟩

def proxySchemes : List (List Char × Bool) :=
  [("stratum+tcp://".toList, false),
    ("stratum+tls://".toList, true),
    ("stratum+ssl://".toList, true),
    ("tcp://".toList, false),
    ("tls://".toList, true),
    ("ssl://".toList, true)]

/-- The part of `parse_endpoint` after the slash is cut off. -/
def readEndpoint (hostport : List Char) (useTls : Bool) : Option Endpoint :=
  let (host, port) : CStr 256 × CStr 16 :=
    match splitLast ':' hostport with
    | none => (copyText room256 hostport, copyText room16 (defaultPort useTls))
    | some (before, after) => (copyText room256 before, copyText room16 after)
  if host.1 = [] || port.1 = [] then none else some ⟨host, port, useTls⟩

def parseEndpoint (url : List Char) : Option Endpoint :=
  let (useTls, p) := (strip proxySchemes url).getD (false, url)
  if p = [] then none
  else
    let hostport : CStr 320 := snprintf room320 p
    readEndpoint (upTo '/' hostport.1) useTls

/-! ## The schemes both know -/

def insecureSchemes : List (List Char) :=
  ["stratum+tls-insecure://".toList, "stratum+ssl-insecure://".toList,
    "tls-insecure://".toList, "ssl-insecure://".toList]

def Secure (url : List Char) : Prop := ∀ name ∈ insecureSchemes, ¬name <+: url

theorem proxySchemes_prefixFree : PrefixFree proxySchemes := by
  unfold PrefixFree
  decide

theorem mem_proxySchemes_of_mem : ∀ entry ∈ poolSchemes,
    entry.1 ∈ insecureSchemes ∨ (entry.1, entry.2.1) ∈ proxySchemes := by
  decide

theorem mem_poolSchemes_of_mem : ∀ entry ∈ proxySchemes,
    ∃ entry' ∈ poolSchemes, entry'.1 = entry.1 := by
  decide

/-- Both remove the same scheme and conclude the same from it. -/
theorem strip_proxySchemes {url rest : List Char} {useTls verifyTls : Bool} (secure : Secure url)
    (scheme : HasScheme url useTls verifyTls rest) :
    (strip proxySchemes url).getD (false, url) = (useTls, rest) := by
  rcases scheme with ⟨name, member, isUrl⟩ | ⟨plain, rfl, -, rfl⟩
  · rcases mem_proxySchemes_of_mem _ member with insecure | known
    · exact absurd (isUrl ▸ List.prefix_append name rest) (secure name insecure)
    · rw [(strip_eq_some proxySchemes_prefixFree).mpr ⟨name, known, isUrl⟩, Option.getD_some]
  · have unknown : strip proxySchemes rest = none := by
      refine strip_eq_none.mpr fun entry member => ?_
      obtain ⟨entry', member', same⟩ := mem_poolSchemes_of_mem entry member
      exact same ▸ plain entry' member'
    rw [unknown, Option.getD_none]

/-! ## The two copies -/

theorem copyText_of_fits {size : Nat} {room : 0 < size} {src : List Char} {dst : CStr size}
    (fits : copyChecked size src = some dst) : copyText room src = dst := by
  have isDst := copyChecked_eq_some.mp fits
  have short : ¬src.length ≥ size := by
    have := dst.2
    rw [isDst] at this
    omega
  apply Subtype.ext
  rw [isDst]
  simp [copyText, short]

/-- A truncated text is empty only if nothing was copied. -/
theorem copyText_eq_nil {size : Nat} (large : 1 < size) (room : 0 < size) (src : List Char) :
    (copyText room src).1 = [] ↔ src = [] := by
  simp only [copyText, List.take_eq_nil_iff]
  constructor
  · rintro (zero | empty)
    · split at zero
      · omega
      · exact List.length_eq_zero_iff.mp zero
    · exact empty
  · exact .inr

theorem copyChecked_eq_none {size : Nat} {src : List Char} :
    copyChecked size src = none ↔ size ≤ src.length := by
  rw [← Option.not_isSome_iff_eq_none, copyChecked_isSome, not_lt]

/-! ## When they agree -/

/-- What the proxy keeps of a pool's endpoint. -/
def upstream (endpoint : PoolEndpoint) : Endpoint :=
  ⟨endpoint.host, endpoint.port, endpoint.useTls⟩

/-- Both succeed or neither does, and then with the same host, port and TLS. -/
def Agree (url : List Char) : Prop :=
  ((parseEndpoint url).isSome ↔ (parsePoolUrl url).isSome) ∧
    ∀ ours theirs, parsePoolUrl url = some ours → parseEndpoint url = some theirs →
      theirs.host = ours.host ∧ theirs.port = ours.port ∧ theirs.useTls = ours.useTls

theorem agree_iff {url : List Char} :
    Agree url ↔ (parsePoolUrl url).map upstream = parseEndpoint url := by
  rw [Agree]
  rcases parsePoolUrl url with _ | ours <;> rcases parseEndpoint url with _ | theirs
  · simp
  · simp
  · simp
  · obtain ⟨host, port, tls⟩ := theirs
    simp [upstream, eq_comm]

/-- A host alone that fits its buffer, or a host and a port that fit theirs, unless one of
the two is missing and neither parser takes the text. -/
def PartsFit (text : List Char) : Prop :=
  (':' ∉ text → text.length ≤ 255) ∧
    ∀ host port, text = host ++ ':' :: port → ':' ∉ port →
      host = [] ∨ port = [] ∨ host.length ≤ 255 ∧ port.length ≤ 15

section Text

variable {text : List Char}

theorem partsFit_of_none (absent : splitLast ':' text = none) : PartsFit text ↔ text.length ≤ 255 := by
  have noColon := (splitLast_eq_none ':' text).mp absent
  refine ⟨fun fit => fit.1 noColon, fun short => ⟨fun _ => short, ?_⟩⟩
  rintro host port rfl -
  exact absurd (by simp) noColon

theorem partsFit_of_some {host port : List Char} (parts : splitLast ':' text = some (host, port)) :
    PartsFit text ↔ host = [] ∨ port = [] ∨ host.length ≤ 255 ∧ port.length ≤ 15 := by
  obtain ⟨isText, noColon⟩ := splitLast_eq_some.mp parts
  refine ⟨fun fit => fit.2 host port isText noColon, fun fits => ⟨fun without => ?_, ?_⟩⟩
  · exact absurd (by simp [isText]) without
  · intro host' port' isText' noColon'
    have same := splitLast_eq_some.mpr ⟨isText', noColon'⟩
    obtain ⟨rfl, rfl⟩ := Prod.mk.inj (Option.some.inj (same.symm.trans parts))
    exact fits

/-- A host and a port stored by the copy that truncates. -/
def truncatedStore (host port : List Char) (useTls : Bool) : Option Endpoint :=
  let host : CStr 256 := copyText room256 host
  let port : CStr 16 := copyText room16 port
  if host.1 = [] || port.1 = [] then none else some ⟨host, port, useTls⟩

theorem truncatedStore_eq_none {host port : List Char} {useTls : Bool} :
    truncatedStore host port useTls = none ↔ host = [] ∨ port = [] := by
  have hostShown : (copyText room256 host).1 = [] ↔ host = [] :=
    copyText_eq_nil (by decide) _ host
  have portShown : (copyText room16 port).1 = [] ↔ port = [] :=
    copyText_eq_nil (by decide) _ port
  simp [truncatedStore, hostShown, portShown, or_iff_not_imp_left]

theorem store_agree_iff (host port : List Char) (useTls verifyTls : Bool) :
    (checkedStore host port useTls verifyTls).map upstream = truncatedStore host port useTls ↔
      host = [] ∨ port = [] ∨ host.length ≤ 255 ∧ port.length ≤ 15 := by
  rcases isHost : copyChecked 256 host with _ | h
  · have long := copyChecked_eq_none.mp isHost
    have refused : checkedStore host port useTls verifyTls = none := by simp [checkedStore, isHost]
    rw [refused, Option.map_none, eq_comm, truncatedStore_eq_none]
    refine or_congr_right ⟨.inl, fun fits => fits.resolve_right fun both => ?_⟩
    omega
  rcases isPort : copyChecked 16 port with _ | q
  · have long := copyChecked_eq_none.mp isPort
    have refused : checkedStore host port useTls verifyTls = none := by
      simp [checkedStore, isHost, isPort]
    rw [refused, Option.map_none, eq_comm, truncatedStore_eq_none]
    refine or_congr_right ⟨.inl, fun fits => fits.resolve_right fun both => ?_⟩
    omega
  · have hostShort := h.2
    have portShort := q.2
    rw [copyChecked_eq_some.mp isHost] at hostShort
    rw [copyChecked_eq_some.mp isPort] at portShort
    refine iff_of_true ?_ (.inr (.inr ⟨by omega, by omega⟩))
    rw [checkedStore, truncatedStore, isHost, isPort, copyText_of_fits isHost, copyText_of_fits isPort]
    simp only [Option.bind_eq_bind, Option.bind_some]
    split <;> rfl

theorem read_agree_iff (text : List Char) (useTls verifyTls : Bool) :
    (readHostport text useTls verifyTls).map upstream = readEndpoint text useTls ↔ PartsFit text := by
  rcases parts : splitLast ':' text with _ | ⟨before, after⟩
  · have theirs : readEndpoint text useTls = truncatedStore text (defaultPort useTls) useTls := by
      simp only [readEndpoint, parts, truncatedStore]
    have size := length_defaultPort useTls
    rw [partsFit_of_none parts, readHostport_alone parts, theirs, store_agree_iff]
    constructor
    · rintro (rfl | missing | ⟨short, -⟩)
      · exact Nat.zero_le _
      · exact absurd missing (defaultPort_ne_nil useTls)
      · exact short
    · exact fun short => .inr (.inr ⟨short, by omega⟩)
  · have theirs : readEndpoint text useTls = truncatedStore before after useTls := by
      simp only [readEndpoint, parts, truncatedStore]
    rw [partsFit_of_some parts, readHostport_parts parts, theirs, store_agree_iff]

theorem partsFit_of_reads {useTls : Bool} {host port : List Char}
    (reads : Reads text useTls host port) : PartsFit text := by
  rcases reads with ⟨noColon, -, short, -⟩ | ⟨isText, noColon, -, hostShort, -, portShort⟩
  · exact (partsFit_of_none ((splitLast_eq_none ':' text).mpr noColon)).mpr short
  · exact (partsFit_of_some (splitLast_eq_some.mpr ⟨isText, noColon⟩)).mpr
      (.inr (.inr ⟨hostShort, portShort⟩))

end Text

/-! ## The two parsers -/

/-- What stands after the scheme, as much of it as both parsers look at. -/
def shown (url : List Char) : List Char := upTo '/' ((stripScheme url).2.take 319)

theorem parsers_read {url : List Char} (secure : Secure url) :
    ∃ useTls verifyTls, (shown url = [] ∧ parsePoolUrl url = none ∧ parseEndpoint url = none) ∨
      (parsePoolUrl url = readHostport (shown url) useTls verifyTls ∧
        parseEndpoint url = readEndpoint (shown url) useTls) := by
  rcases isScheme : stripScheme url with ⟨⟨useTls, verifyTls⟩, rest⟩
  refine ⟨useTls, verifyTls, ?_⟩
  rw [shown, parsePoolUrl, parseEndpoint, isScheme,
    strip_proxySchemes secure (stripScheme_iff.mp isScheme)]
  simp only [snprintf, Nat.reduceSub]
  by_cases empty : rest = []
  · exact .inl (by simp [empty, upTo])
  · exact .inr (by simp [empty])

/-- What the client accepts the proxy reads alike. -/
theorem parseEndpoint_of_parsePoolUrl {url : List Char} (secure : Secure url)
    {endpoint : PoolEndpoint} (accepted : parsePoolUrl url = some endpoint) :
    parseEndpoint url = some (upstream endpoint) := by
  obtain ⟨useTls, verifyTls, ⟨-, refused, -⟩ | ⟨ours, theirs⟩⟩ := parsers_read secure
  · rw [refused] at accepted
    cases accepted
  · rw [ours] at accepted
    have fit := partsFit_of_reads (readHostport_eq_some.mp accepted).2.2
    rw [theirs, ← (read_agree_iff _ useTls verifyTls).mpr fit, accepted, Option.map_some]

/-- **The client and the proxy read a URL the same way exactly when its host and its port
fit their buffers**, or when neither accepts it. -/
theorem endpoints_agree_iff (url : List Char) (secure : Secure url) :
    Agree url ↔ PartsFit (shown url) := by
  rw [agree_iff]
  obtain ⟨useTls, verifyTls, ⟨empty, ours, theirs⟩ | ⟨ours, theirs⟩⟩ := parsers_read secure
  · rw [ours, theirs, empty, partsFit_of_none rfl]
    simp
  · rw [ours, theirs, read_agree_iff]

theorem endpoints_agree_iff_example :
    let url := "tls://pool.example:4333/".toList
    Secure url ∧ (Agree url ↔ PartsFit (shown url)) := by
  have secure : Secure "tls://pool.example:4333/".toList := by
    unfold Secure
    decide
  exact ⟨secure, endpoints_agree_iff _ secure⟩

/-- A port of sixteen digits: the client refuses the URL, the proxy drops the last digit
and connects to another port. -/
theorem long_port_truncated :
    let url := "tcp://pool.example:0000000000003333".toList
    Secure url ∧ parsePoolUrl url = none ∧
      (parseEndpoint url).map (fun endpoint => endpoint.port.1) = some "000000000000333".toList ∧
      ¬Agree url := by
  have secure : Secure "tcp://pool.example:0000000000003333".toList := by
    unfold Secure
    decide
  have refused : parsePoolUrl "tcp://pool.example:0000000000003333".toList = none := by decide
  have accepted : (parseEndpoint "tcp://pool.example:0000000000003333".toList).map
      (fun endpoint => endpoint.port.1) = some "000000000000333".toList := by decide
  refine ⟨secure, refused, accepted, fun agree => ?_⟩
  rw [agree_iff, refused] at agree
  rw [← agree] at accepted
  cases accepted

end BtcRig.Proxy.Upstream
