/-
# BtcRig.Gpu.Backend — the OpenCL backend a device can run

`resolve_backend_variant` settles the backend by the version a device reports and, below
OpenCL 1.1, by an extension in its list.  The list is one string with spaces;
`extension_list_has` looks for the name with `strstr` and, when what it finds is only a
part of another name, goes on after the whole name.

* `searchPass_goesOn` — what a pass of that loop skips holds no token;
* `extension_list_has_exact` — the loop ends, and finds the name if it is in the list;
* `parseOpenclVersion_written` — a version is read back from its text;
* `resolved_backend` — a backend is resolved only for a device that supports it;
* `created_runs`, `created_modern_iff` — so a created miner runs on its device, and left to
  the program it is a modern one from OpenCL 1.2 on.

A pointer into a string is an offset.
-/
import BtcRig.Gpu.OpenClLaunch
import BtcRig.Theory.Machine
import BtcRig.Theory.Tokens

namespace BtcRig.Gpu.Backend

open BtcRig.Theory.Machine
open BtcRig.Theory.Tokens
open BtcRig.Gpu.OpenCl (BackendVariant buildProgram)
open BtcRig.Gpu.OpenClLaunch (MinerOpenclConfig OpenclMiner openclMinerCreate
  resolved_openclMinerCreate usable_openclMinerCreate kernelName_source_mem)

set_option autoImplicit false

/-! ## Searching the list -/

/-- The characters of a string in front of its terminator. -/
abbrev CText := { text : List Char // '\x00' ∉ text }

/-- `text[i]`, where the terminator stands at the end. -/
def CText.char (text : CText) (i : Nat) : Char := text.1.getD i '\x00'

/-- The first occurrence at `p` or later. -/
def strstr (extensions needle : CText) (p : Nat) : Option Nat := findFrom extensions.1 needle.1 p

/-- One pass of the search loop: the value it returns, or the next `p`. -/
def searchPass (extensions needle : CText) (p : Nat) : Int ⊕ Nat :=
  let needleLen := needle.1.length
  match strstr extensions needle p with
  | none => .inl 0
  | some p =>
      let leftOk : Bool := p = 0 || extensions.char (p - 1) = ' '
      let right := extensions.char (p + needleLen)
      let rightOk : Bool := right = '\x00' || right = ' '
      if leftOk && rightOk then .inl 1 else .inr (p + needleLen)

/-- Nothing if the loop needs more than so many passes; a `NULL` is `none`. -/
def extensionListHas (passes : Nat) (extensions needle : Option CText) : Option Int :=
  match extensions, needle with
  | some extensions, some needle =>
      if needle.char 0 = '\x00' then some 0 else loop (searchPass extensions needle) passes 0
  | _, _ => some 0

/-! ## The loop -/

theorem CText.char_eq_terminator {text : CText} {i : Nat} :
    text.char i = '\x00' ↔ text.1.length ≤ i := by
  constructor
  · intro ends
    by_contra short
    have inside : i < text.1.length := not_le.mp short
    have isChar : text.char i = text.1[i] := List.getD_eq_getElem _ _ inside
    have member : text.1[i] ∈ text.1 := List.getElem_mem inside
    rw [← isChar, ends] at member
    exact text.2 member
  · intro outside
    exact List.getD_eq_default _ _ outside

theorem CText.char_eq {text : CText} {i : Nat} {c : Char} (character : c ≠ '\x00') :
    text.char i = c ↔ text.1[i]? = some c := by
  rw [CText.char, List.getD_eq_getElem?_getD]
  rcases text.1[i]? with _ | c'
  · simp [character.symm]
  · simp

section Loop

variable {extensions needle : CText}

/-- The test of a pass is that of a token. -/
theorem accepted_iff (nonempty : needle.1 ≠ []) {p : Nat} (occurs : OccursAt extensions.1 needle.1 p) :
    ((decide (p = 0) || decide (extensions.char (p - 1) = ' ')) &&
      (decide (extensions.char (p + needle.1.length) = '\x00') ||
        decide (extensions.char (p + needle.1.length) = ' '))) = true ↔
      TokenAt ' ' extensions.1 needle.1 p := by
  have room := occurs.le nonempty
  have ends : extensions.1.length ≤ p + needle.1.length ↔
      p + needle.1.length = extensions.1.length := by omega
  simp only [Bool.and_eq_true, Bool.or_eq_true, decide_eq_true_eq, CText.char_eq_terminator,
    CText.char_eq (show ' ' ≠ '\x00' by decide), ends]
  exact ⟨fun ⟨left, right⟩ => ⟨occurs, left, right⟩, fun token => ⟨token.left, token.right⟩⟩

/-- What a pass returns. -/
theorem searchPass_returns (nonempty : needle.1 ≠ []) {p : Nat} {r : Int}
    (returned : searchPass extensions needle p = .inl r) :
    (r = 1 ∧ ∃ k, TokenAt ' ' extensions.1 needle.1 k) ∨
      (r = 0 ∧ ∀ k, p ≤ k → ¬TokenAt ' ' extensions.1 needle.1 k) := by
  simp only [searchPass, strstr] at returned
  rcases found : findFrom extensions.1 needle.1 p with _ | q
  · rw [found] at returned
    refine .inr ⟨(Sum.inl.inj returned).symm, fun k above token => ?_⟩
    exact findFrom_none found nonempty k above token.occurs
  · rw [found] at returned
    simp only at returned
    split at returned
    · rename_i accepted
      have token := (accepted_iff nonempty (findFrom_some found).2.1).mp accepted
      exact .inl ⟨(Sum.inl.inj returned).symm, q, token⟩
    · cases returned

/-- A pass that goes on skips the whole needle, and with it no token. -/
theorem searchPass_goesOn (nonempty : needle.1 ≠ []) (unspaced : ' ' ∉ needle.1) {p p' : Nat}
    (next : searchPass extensions needle p = .inr p') :
    p + needle.1.length ≤ p' ∧ p' ≤ extensions.1.length ∧
      ∀ k, p ≤ k → TokenAt ' ' extensions.1 needle.1 k → p' ≤ k := by
  simp only [searchPass, strstr] at next
  rcases found : findFrom extensions.1 needle.1 p with _ | q
  · rw [found] at next
    cases next
  · rw [found] at next
    simp only at next
    obtain ⟨above, occurs, _⟩ := findFrom_some found
    have room := occurs.le nonempty
    split at next
    · cases next
    · rename_i rejected
      rw [← Sum.inr.inj next]
      refine ⟨by omega, room, fun k from_ token => ?_⟩
      have notToken := (accepted_iff nonempty occurs).not.mp rejected
      exact tokenAt_skip found unspaced notToken from_ token

/-- The loop ends after as many passes as the needle fits into the list, and one. -/
theorem extensionListHas_eq (nonempty : needle.1 ≠ []) (unspaced : ' ' ∉ needle.1) {passes : Nat}
    (enough : extensions.1.length / needle.1.length < passes) :
    extensionListHas passes (some extensions) (some needle) =
      some (if needle.1 ∈ extensions.1.splitOn ' ' then 1 else 0) := by
  have positive := List.length_pos_iff.mpr nonempty
  have started : ¬needle.char 0 = '\x00' := by
    rw [CText.char_eq_terminator]
    omega
  have run := loop_rule (searchPass extensions needle)
    (fun p => p ≤ extensions.1.length ∧ ∀ k, TokenAt ' ' extensions.1 needle.1 k → p ≤ k)
    (fun r => r = if needle.1 ∈ extensions.1.splitOn ' ' then 1 else 0)
    (fun p => (extensions.1.length - p) / needle.1.length)
    (by
      rintro p r ⟨_, earlier⟩ returned
      rcases searchPass_returns nonempty returned with ⟨rfl, token⟩ | ⟨rfl, absent⟩
      · rw [if_pos ((mem_splitOn_iff unspaced).mpr token)]
      · rw [if_neg]
        intro listed
        obtain ⟨k, token⟩ := (mem_splitOn_iff unspaced).mp listed
        exact absent k (earlier k token) token)
    (by
      rintro p p' ⟨_, earlier⟩ next
      obtain ⟨advanced, inside, skipped⟩ := searchPass_goesOn nonempty unspaced next
      refine ⟨⟨inside, fun k token => skipped k (earlier k token) token⟩, ?_⟩
      have shrinks : extensions.1.length - p' + needle.1.length ≤ extensions.1.length - p := by omega
      calc (extensions.1.length - p') / needle.1.length
          < (extensions.1.length - p') / needle.1.length + 1 := Nat.lt_succ_self _
        _ = (extensions.1.length - p' + needle.1.length) / needle.1.length :=
            (Nat.add_div_right _ positive).symm
        _ ≤ (extensions.1.length - p) / needle.1.length := Nat.div_le_div_right shrinks)
    passes 0 ⟨Nat.zero_le _, fun k _ => Nat.zero_le k⟩ enough
  obtain ⟨r, isResult, rfl⟩ := run
  rw [extensionListHas, if_neg started, isResult]

/-- **`extension_list_has`** ends and finds exactly the tokens of the list; what a pass of
its loop skips holds no token of that name. -/
theorem extension_list_has_exact (extensions needle : CText) (nonempty : needle.1 ≠ [])
    (unspaced : ' ' ∉ needle.1) :
    (∀ passes, extensions.1.length / needle.1.length < passes →
      ∃ r, extensionListHas passes (some extensions) (some needle) = some r ∧
        (r = 1 ↔ needle.1 ∈ extensions.1.splitOn ' ') ∧
        (r = 0 ↔ needle.1 ∉ extensions.1.splitOn ' ')) ∧
      ∀ p p', searchPass extensions needle p = .inr p' →
        ∀ k, p ≤ k → k < p' → ¬TokenAt ' ' extensions.1 needle.1 k := by
  refine ⟨fun passes enough => ⟨_, extensionListHas_eq nonempty unspaced enough, ?_, ?_⟩, ?_⟩
  · by_cases listed : needle.1 ∈ extensions.1.splitOn ' ' <;> simp [listed]
  · by_cases listed : needle.1 ∈ extensions.1.splitOn ' ' <;> simp [listed]
  · intro p p' next k from_ below token
    have after := (searchPass_goesOn nonempty unspaced next).2.2 k from_ token
    omega

/-- The name overlaps itself and the name in front of it. -/
theorem extension_list_has_exact_example :
    ∃ r, extensionListHas 4 (some ⟨"aaa aa".toList, by decide⟩) (some ⟨"aa".toList, by decide⟩) =
        some r ∧ r = 1 := by
  obtain ⟨r, isResult, listed, _⟩ := (extension_list_has_exact ⟨"aaa aa".toList, by decide⟩
    ⟨"aa".toList, by decide⟩ (by decide) (by decide)).1 4 (by decide)
  exact ⟨r, isResult, listed.mpr (by decide)⟩

end Loop

/-! ## The version -/

/-- The characters that `scanf` skips. -/
def isSpace (c : Char) : Bool := c = ' ' || ('\t' ≤ c && c ≤ '\r')

/-- Is there a minus, and what follows the sign? -/
def scanSign : List Char → Bool × List Char
  | '-' :: rest => (true, rest)
  | '+' :: rest => (false, rest)
  | text => (false, text)

/-- `%d`, with what follows the number.  One that fits no `int` is undefined in the source
and stays as it is here. -/
def scanInt (text : List Char) : Option (Int × List Char) :=
  let (negative, text) := scanSign (text.dropWhile isSpace)
  let digits := text.takeWhile Char.isDigit
  if digits = [] then none
  else
    let number : Int := Nat.ofDigitChars 10 digits 0
    some (if negative then -number else number, text.dropWhile Char.isDigit)

/-- `sscanf(text, "OpenCL %d.%d", …)`, if it reads both numbers. -/
def parseOpenclVersion (text : Option CText) : Option (Int × Int) := do
  let text ← text
  let rest ← if "OpenCL".toList.isPrefixOf text.1 then some (text.1.drop 6) else none
  let (major, rest) ← scanInt (rest.dropWhile isSpace)
  match rest with
  | '.' :: rest => do
      let (minor, _) ← scanInt rest
      some (major, minor)
  | _ => none

def openclVersionAtLeast (text : Option CText) (major minor : Int) : Bool :=
  match parseOpenclVersion text with
  | none => false
  | some (parsedMajor, parsedMinor) =>
      parsedMajor > major || (parsedMajor = major && parsedMinor ≥ minor)

/-- Versions are compared in the order of their two numbers. -/
theorem openclVersionAtLeast_iff {text : Option CText} {major minor : Int} :
    openclVersionAtLeast text major minor = true ↔
      ∃ version, parseOpenclVersion text = some version ∧ toLex (major, minor) ≤ toLex version := by
  rw [openclVersionAtLeast]
  rcases parseOpenclVersion text with _ | ⟨parsedMajor, parsedMinor⟩
  · simp
  · simp only [Option.some.injEq, exists_eq_left', Prod.Lex.toLex_le_toLex, Bool.or_eq_true,
      Bool.and_eq_true, decide_eq_true_eq]
    exact or_congr Iff.rfl (and_congr_left' eq_comm)

theorem isSpace_digit {c : Char} (digit : c.isDigit = true) : isSpace c = false := by
  have low : '0' ≤ c := by
    simp only [Char.isDigit, Bool.and_eq_true, decide_eq_true_eq] at digit
    exact digit.1
  have notBlank : c ≠ ' ' := by
    rintro rfl
    exact absurd low (by decide)
  have above : ¬c ≤ '\r' := fun below => absurd (low.trans below) (by decide)
  simp [isSpace, notBlank, above]

theorem scanSign_digit {c : Char} (digit : c.isDigit = true) (rest : List Char) :
    scanSign (c :: rest) = (false, c :: rest) := by
  unfold scanSign
  split
  · rename_i isMinus
    cases isMinus
    exact absurd digit (by decide)
  · rename_i isPlus
    cases isPlus
    exact absurd digit (by decide)
  · rfl

theorem digits_cons (n : Nat) : ∃ c cs, Nat.toDigits 10 n = c :: cs ∧ c.isDigit = true := by
  obtain ⟨c, cs, isDigits⟩ := List.exists_cons_of_ne_nil (@Nat.toDigits_ne_nil n 10)
  have member : c ∈ Nat.toDigits 10 n := by
    rw [isDigits]
    exact List.mem_cons_self
  exact ⟨c, cs, isDigits, Nat.isDigit_of_mem_toDigits (by decide) (by decide) member⟩

theorem digits_unskipped (n : Nat) (rest : List Char) :
    (Nat.toDigits 10 n ++ rest).dropWhile isSpace = Nat.toDigits 10 n ++ rest := by
  obtain ⟨c, cs, isDigits, digit⟩ := digits_cons n
  simp [isDigits, isSpace_digit digit]

theorem digits_unsigned (n : Nat) (rest : List Char) :
    scanSign (Nat.toDigits 10 n ++ rest) = (false, Nat.toDigits 10 n ++ rest) := by
  obtain ⟨c, cs, isDigits, digit⟩ := digits_cons n
  rw [isDigits, List.cons_append, scanSign_digit digit]

/-- A number is read back from its digits. -/
theorem scanInt_written (n : Nat) {rest : List Char} (ends : ∀ c ∈ rest.head?, c.isDigit = false) :
    scanInt (Nat.toDigits 10 n ++ rest) = some ((n : Int), rest) := by
  have digits : ∀ c ∈ Nat.toDigits 10 n, c.isDigit = true := fun c member =>
    Nat.isDigit_of_mem_toDigits (by decide) (by decide) member
  have stops : rest.takeWhile Char.isDigit = [] ∧ rest.dropWhile Char.isDigit = rest := by
    rcases rest with _ | ⟨c, rest⟩
    · exact ⟨rfl, rfl⟩
    · have ended : c.isDigit = false := ends c rfl
      simp [ended]
  have isTaken : (Nat.toDigits 10 n ++ rest).takeWhile Char.isDigit = Nat.toDigits 10 n := by
    rw [List.takeWhile_append_of_pos digits, stops.1, List.append_nil]
  have isDropped : (Nat.toDigits 10 n ++ rest).dropWhile Char.isDigit = rest := by
    rw [List.dropWhile_append_of_pos digits, stops.2]
  have read : Nat.ofDigitChars 10 (Nat.toDigits 10 n) 0 = n :=
    Nat.ofDigitChars_toDigits (by decide) (by decide)
  rw [scanInt, digits_unskipped, digits_unsigned]
  simp only [isTaken, isDropped, if_neg Nat.toDigits_ne_nil, read, Bool.false_eq_true, if_false]

/-- **A version is read back** from the text that OpenCL prescribes for it. -/
theorem parseOpenclVersion_written {text : CText} (major minor : Nat) {vendor : List Char}
    (written : text.1 = "OpenCL".toList ++
      ' ' :: (Nat.toDigits 10 major ++ '.' :: (Nat.toDigits 10 minor ++ vendor)))
    (ends : ∀ c ∈ vendor.head?, c.isDigit = false) :
    parseOpenclVersion (some text) = some ((major : Int), (minor : Int)) := by
  have named : "OpenCL".toList.isPrefixOf text.1 = true :=
    List.isPrefixOf_iff_prefix.mpr ⟨_, written.symm⟩
  have isRest : text.1.drop 6 =
      ' ' :: (Nat.toDigits 10 major ++ '.' :: (Nat.toDigits 10 minor ++ vendor)) := by
    rw [written]
    rfl
  have unskipped : (text.1.drop 6).dropWhile isSpace =
      Nat.toDigits 10 major ++ '.' :: (Nat.toDigits 10 minor ++ vendor) := by
    rw [isRest, List.dropWhile_cons_of_pos (by decide), digits_unskipped]
  have readMajor := @scanInt_written major ('.' :: (Nat.toDigits 10 minor ++ vendor))
    (by simp)
  have readMinor := scanInt_written minor ends
  simp only [parseOpenclVersion, named, if_true, Option.bind_eq_bind, Option.bind_some, unskipped,
    readMajor, readMinor]

/-! ## The device -/

/-- What the runtime and the allocator answer about the extensions of a device. -/
structure Device where
  sizeSuccess : Bool
  size : Nat
  allocated : Bool
  extensionsSuccess : Bool
  extensions : CText

def deviceHasExtension (passes : Nat) (device : Device) (needle : CText) : Option Int :=
  if !device.sizeSuccess || device.size = 0 then some 0
  else if !device.allocated then some 0
  else if !device.extensionsSuccess then some 0
  else extensionListHas passes (some device.extensions) (some needle)

def int32BaseAtomics : CText := ⟨"cl_khr_global_int32_base_atomics".toList, by decide⟩

/-- `-1` is the error. -/
def validateCompat10Device (passes : Nat) (device : Device) (deviceVersion : Option CText) :
    Option (Except String Unit) :=
  if !openclVersionAtLeast deviceVersion 1 0 then
    some (.error "selected OpenCL device did not report a usable OpenCL 1.x version")
  else if openclVersionAtLeast deviceVersion 1 1 then some (.ok ())
  else do
    let found ← deviceHasExtension passes device int32BaseAtomics
    if found = 0 then
      some (.error "compat10 backend requires OpenCL 1.1+ or cl_khr_global_int32_base_atomics")
    else some (.ok ())

def validateModernDevice (deviceVersion : Option CText) : Except String Unit :=
  if !openclVersionAtLeast deviceVersion 1 2 then
    .error "modern backend requires OpenCL 1.2 or newer"
  else .ok ()

def resolveBackendVariant (passes : Nat) (device : Device) (deviceVersion : Option CText)
    (requested : BackendVariant) : Option (Except String BackendVariant) :=
  let requested :=
    if requested = .auto then
      if openclVersionAtLeast deviceVersion 1 2 then BackendVariant.modern else .compat10
    else requested
  if requested = .modern then
    some ((validateModernDevice deviceVersion).map fun _ => .modern)
  else
    (validateCompat10Device passes device deviceVersion).map fun validated =>
      validated.map fun _ => .compat10

/-! ## What a resolved backend needs -/

/-- The names the device lists, if they can be read. -/
def Device.listed (device : Device) : List (List Char) :=
  if device.sizeSuccess && device.size ≠ 0 && device.allocated && device.extensionsSuccess then
    device.extensions.1.splitOn ' '
  else []

theorem deviceHasExtension_eq {device : Device} {needle : CText} (nonempty : needle.1 ≠ [])
    (unspaced : ' ' ∉ needle.1) {passes : Nat}
    (enough : device.extensions.1.length / needle.1.length < passes) :
    deviceHasExtension passes device needle =
      some (if needle.1 ∈ device.listed then 1 else 0) := by
  rw [deviceHasExtension, extensionListHas_eq nonempty unspaced enough, Device.listed]
  rcases device with ⟨_ | _, _ | size, _ | _, _ | _, extensions⟩ <;> simp

/-- The backend runs on the device. -/
def Supports (device : Device) (deviceVersion : Option CText) : BackendVariant → Prop
  | .auto => False
  | .compat10 => openclVersionAtLeast deviceVersion 1 0 = true ∧
      (openclVersionAtLeast deviceVersion 1 1 = true ∨ int32BaseAtomics.1 ∈ device.listed)
  | .modern => openclVersionAtLeast deviceVersion 1 2 = true

theorem validateCompat10Device_ok {device : Device} {deviceVersion : Option CText} {passes : Nat}
    (enough : device.extensions.1.length / int32BaseAtomics.1.length < passes) :
    ∃ validated, validateCompat10Device passes device deviceVersion = some validated ∧
      (validated = .ok () ↔ Supports device deviceVersion .compat10) := by
  rw [validateCompat10Device, deviceHasExtension_eq (by decide) (by decide) enough, Supports]
  rcases openclVersionAtLeast deviceVersion 1 0 with _ | _
  · exact ⟨_, rfl, by simp⟩
  rcases openclVersionAtLeast deviceVersion 1 1 with _ | _
  · by_cases listed : int32BaseAtomics.1 ∈ device.listed
    · exact ⟨.ok (), by simp [listed], by simp [listed]⟩
    · exact ⟨_, by simp [listed]; rfl, by simp [listed]⟩
  · exact ⟨.ok (), rfl, by simp⟩

theorem validateModernDevice_ok {device : Device} {deviceVersion : Option CText} :
    validateModernDevice deviceVersion = .ok () ↔ Supports device deviceVersion .modern := by
  rw [validateModernDevice, Supports]
  rcases openclVersionAtLeast deviceVersion 1 2 with _ | _ <;> simp

theorem map_eq_ok {validated : Except String Unit} {backend backend' : BackendVariant} :
    (validated.map fun _ => backend') = .ok backend ↔ backend = backend' ∧ validated = .ok () := by
  rcases validated with message | _ <;> simp [Except.map, eq_comm]

/-- The backend that is tried. -/
def triedBackend (deviceVersion : Option CText) : BackendVariant → BackendVariant
  | .auto => if openclVersionAtLeast deviceVersion 1 2 then .modern else .compat10
  | requested => requested

theorem triedBackend_eq (deviceVersion : Option CText) (requested : BackendVariant) :
    (if requested = .auto then
      if openclVersionAtLeast deviceVersion 1 2 then BackendVariant.modern else .compat10
    else requested) = triedBackend deviceVersion requested := by
  cases requested <;> rfl

theorem triedBackend_settled (deviceVersion : Option CText) (requested : BackendVariant) :
    triedBackend deviceVersion requested ≠ .auto := by
  rcases requested with _ | _ | _
  · rw [triedBackend]
    split <;> simp
  · simp [triedBackend]
  · simp [triedBackend]

/-- **A resolved backend** is the requested one, or the one the version suggests, and the
device supports it. -/
theorem resolved_backend (device : Device) (deviceVersion : Option CText)
    (requested : BackendVariant) {passes : Nat}
    (enough : device.extensions.1.length / int32BaseAtomics.1.length < passes) :
    ∃ resolved, resolveBackendVariant passes device deviceVersion requested = some resolved ∧
      ∀ backend, resolved = .ok backend ↔
        backend = triedBackend deviceVersion requested ∧ Supports device deviceVersion backend := by
  have settled := triedBackend_settled deviceVersion requested
  simp only [resolveBackendVariant, triedBackend_eq]
  generalize triedBackend deviceVersion requested = variant at settled ⊢
  rcases variant with _ | _ | _
  · exact absurd rfl settled
  · obtain ⟨validated, isValidated, valid⟩ := @validateCompat10Device_ok device deviceVersion _ enough
    refine ⟨_, by rw [if_neg (by decide), isValidated]; rfl, fun backend => ?_⟩
    rw [map_eq_ok, valid]
    exact and_congr_right fun same => by rw [same]
  · refine ⟨_, if_pos rfl, fun backend => ?_⟩
    rw [map_eq_ok, @validateModernDevice_ok device]
    exact and_congr_right fun same => by rw [same]

/-! ## The miner that is created -/

/-- The device with its version and its list of extensions read, as the launch takes it. -/
def Device.reported (device : Device) (deviceVersion : Option CText) (other : OpenClLaunch.Device) :
    OpenClLaunch.Device :=
  { other with
    version := parseOpenclVersion deviceVersion
    globalInt32BaseAtomics := decide (int32BaseAtomics.1 ∈ device.listed) }

section Created

variable {device : Device} {deviceVersion : Option CText} {other : OpenClLaunch.Device}

theorem openclVersionAtLeast_reported :
    OpenClLaunch.openclVersionAtLeast (device.reported deviceVersion other) =
      openclVersionAtLeast deviceVersion :=
  rfl

theorem validateCompat10Device_reported :
    OpenClLaunch.validateCompat10Device (device.reported deviceVersion other) = true ↔
      Supports device deviceVersion .compat10 := by
  simp only [OpenClLaunch.validateCompat10Device, openclVersionAtLeast_reported, Bool.and_eq_true,
    Bool.or_eq_true, Supports]
  exact and_congr_right' (or_congr_right decide_eq_true_iff)

/-- The launch resolves the same backends. -/
theorem resolved_reported {requested backend : BackendVariant} :
    OpenClLaunch.resolveBackendVariant (device.reported deviceVersion other) requested = some backend ↔
      backend = triedBackend deviceVersion requested ∧ Supports device deviceVersion backend := by
  have settled := triedBackend_settled deviceVersion requested
  have unfolded : OpenClLaunch.resolveBackendVariant (device.reported deviceVersion other) requested =
      if triedBackend deviceVersion requested = .modern then
        if openclVersionAtLeast deviceVersion 1 2 then some .modern else none
      else if OpenClLaunch.validateCompat10Device (device.reported deviceVersion other) then
        some .compat10
      else none := by cases requested <;> rfl
  rw [unfolded]
  generalize triedBackend deviceVersion requested = variant at settled ⊢
  rcases variant with _ | _ | _
  · exact absurd rfl settled
  · rw [if_neg (by decide), Option.ite_none_right_eq_some, validateCompat10Device_reported, and_comm,
      Option.some_inj, eq_comm]
    exact and_congr_right fun same => by rw [same]
  · rw [if_pos rfl, Option.ite_none_right_eq_some, and_comm, Option.some_inj,
      eq_comm (a := BackendVariant.modern)]
    exact and_congr_right fun same => by rw [same, Supports]

/-- **One backend in both models.**  The launch has no message for a device that it refuses, and
does not search the list of extensions again. -/
theorem resolveBackendVariant_reported (requested : BackendVariant) {passes : Nat}
    (enough : device.extensions.1.length / int32BaseAtomics.1.length < passes) :
    (resolveBackendVariant passes device deviceVersion requested).map Except.toOption =
      some (OpenClLaunch.resolveBackendVariant (device.reported deviceVersion other) requested) := by
  obtain ⟨resolved, isResolved, exactly⟩ := resolved_backend device deviceVersion requested enough
  rw [isResolved, Option.map_some, Option.some_inj]
  ext backend
  rw [resolved_reported, ← exactly]
  cases resolved <;> simp [Except.toOption]

/-- **A created miner runs on its device**: its backend is the one that was tried, the device
supports it, and its kernel is in the program that was built. -/
theorem created_runs {config : MinerOpenclConfig} {miner : OpenclMiner}
    (created : openclMinerCreate config (device.reported deviceVersion other) = some miner) :
    miner.backendVariant = triedBackend deviceVersion config.backendVariant ∧
      Supports device deviceVersion miner.backendVariant ∧
      miner.kernelName.source ∈ buildProgram miner.backendVariant miner.kernelVariant := by
  have inProgram := kernelName_source_mem (usable_openclMinerCreate created)
  obtain ⟨tried, supported⟩ := resolved_reported.mp (resolved_openclMinerCreate created)
  exact ⟨tried, supported, inProgram⟩

/-- Left to the program, the backend is the modern one exactly from OpenCL 1.2 on. -/
theorem created_modern_iff {text : CText} {major minor : Nat} {vendor : List Char}
    (written : text.1 = "OpenCL".toList ++
      ' ' :: (Nat.toDigits 10 major ++ '.' :: (Nat.toDigits 10 minor ++ vendor)))
    (ends : ∀ c ∈ vendor.head?, c.isDigit = false) {config : MinerOpenclConfig}
    (auto : config.backendVariant = .auto) {miner : OpenclMiner}
    (created : openclMinerCreate config (device.reported (some text) other) = some miner) :
    miner.backendVariant = .modern ↔ toLex ((1 : Int), (2 : Int)) ≤ toLex ((major : Int), (minor : Int)) := by
  have read := parseOpenclVersion_written major minor written ends
  rw [(created_runs created).1, auto, triedBackend]
  calc (if openclVersionAtLeast (some text) 1 2 then BackendVariant.modern else .compat10) = .modern
      ↔ openclVersionAtLeast (some text) 1 2 = true := by split <;> simp [*]
    _ ↔ toLex ((1 : Int), (2 : Int)) ≤ toLex ((major : Int), (minor : Int)) := by
      rw [openclVersionAtLeast_iff, read]
      simp

end Created

end BtcRig.Gpu.Backend
