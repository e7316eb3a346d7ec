/-
# BtcRig.Hash.Dispatch — one of four backends behind one hash

`sha256d.c` keeps the backend in use in a global and hands out the function that goes
with it: the hash of one tail, and the scan of a range.  Which backends exist is a matter
of the build and of the machine.

* `selected_available`: whatever is asked for, the backend in use is one that there is;
* `configure_auto`: if nothing in particular is asked for, it is the best one;
* `tailWordsFunc_prepare`, `nonceRangeFunc_prepare`: on a prepared midstate the functions
  handed out do what the portable ones do.
-/
import BtcRig.Hash.ArmSha2
import BtcRig.Hash.ShaNi

namespace BtcRig.Hash.Dispatch

open BtcRig.Theory.Words
open BtcRig.Theory.Sha256
open BtcRig.Hash.Sha256d
open BtcRig.Hash.Scan

set_option autoImplicit false

inductive Sha256dBackend where
  | openssl
  | fastC
  | armSha2
  | x86ShaNi
deriving DecidableEq

/-- For the two vector files: whether the build has them, and then what their test of the
processor returns. -/
structure Build where
  armSha2 : Option Bool
  x86ShaNi : Option Bool

def sha256dBackendName : Sha256dBackend → List Char
  | .openssl => "openssl".toList
  | .fastC => "fast-c".toList
  | .armSha2 => "arm-sha2".toList
  | .x86ShaNi => "x86-sha-ni".toList

def sha256dBackendAvailable (build : Build) : Sha256dBackend → Bool
  | .openssl => true
  | .fastC => true
  | .armSha2 => build.armSha2.getD false
  | .x86ShaNi => build.x86ShaNi.getD false

def sha256dAutoBackend (build : Build) : Sha256dBackend :=
  if sha256dBackendAvailable build .x86ShaNi then .x86ShaNi
  else if sha256dBackendAvailable build .armSha2 then .armSha2
  else .openssl

/-- The new value of `g_backend`, and the return code. -/
def sha256dSetBackend (build : Build) (gBackend backend : Sha256dBackend) : Sha256dBackend × Int :=
  if !sha256dBackendAvailable build backend then (gBackend, -1) else (backend, 0)

def sha256dParseBackend (text : List Char) : Option Sha256dBackend :=
  if text = "openssl".toList ∨ text = "ossl".toList then some .openssl
  else if text = "fast-c".toList ∨ text = "fastc".toList ∨ text = "portable".toList ∨
      text = "c".toList then some .fastC
  else if text = "arm-sha2".toList ∨ text = "armv8-sha2".toList ∨ text = "sha2".toList ∨
      text = "neon".toList then some .armSha2
  else if text = "x86-sha-ni".toList ∨ text = "x86-shani".toList ∨ text = "sha-ni".toList ∨
      text = "shani".toList then some .x86ShaNi
  else none

/-- `text` is the environment variable `BTC_MINER_SHA_BACKEND`, if it is set. -/
def configureShaBackendFromEnv (build : Build) (gBackend : Sha256dBackend)
    (text : Option (List Char)) : Sha256dBackend × Int :=
  if text = none ∨ text = some [] ∨ text = some "auto".toList then
    sha256dSetBackend build gBackend (sha256dAutoBackend build)
  else
    match text.bind sha256dParseBackend with
    | none => (gBackend, -1)
    | some backend => sha256dSetBackend build gBackend backend

/-! ## The functions handed out -/

def sha256d80MidstateHashTailWordsX86ShaNi (state : Sha256Midstate) (tailWords : Vector Word 4) :
    Vector Word 8 :=
  ShaNi.sha256dHashTailWordsX86Raw state tailWords

/-- A backend that the build does not have hashes as OpenSSL does. -/
def sha256dTailWordsFunc (build : Build) :
    Sha256dBackend → Sha256Midstate → Vector Word 4 → Vector Word 8
  | .fastC => sha256d80MidstateHashFastC
  | .armSha2 =>
      if build.armSha2.isSome then ArmSha2.sha256d80MidstateHashTailWordsArmSha2
      else sha256d80MidstateHashOpenssl
  | .x86ShaNi =>
      if build.x86ShaNi.isSome then sha256d80MidstateHashTailWordsX86ShaNi
      else sha256d80MidstateHashOpenssl
  | .openssl => sha256d80MidstateHashOpenssl

/-- The generic scan asks for the function of the backend in use. -/
def sha256dScanNonceRangeGeneric (build : Build) (gBackend : Sha256dBackend) (state : Sha256Midstate)
    (baseTailWords : Vector Word 4) (targetWords : Vector Word 8) (startNonce nonceCount : Word) :
    List (Word × Vector Word 8) :=
  (List.range nonceCount.toNat).filterMap fun i =>
    let nonce := startNonce + BitVec.ofNat 32 i
    let tailWords := baseTailWords.setQuad3 (bswap32 nonce)
    let hashWords := sha256dTailWordsFunc build gBackend state tailWords
    if hashWordsMeetTarget hashWords targetWords then some (nonce, hashWords) else none

def sha256dNonceRangeFunc (build : Build) (gBackend : Sha256dBackend) :
    Sha256Midstate → Vector Word 4 → Vector Word 8 → Word → Word → List (Word × Vector Word 8) :=
  match gBackend with
  | .x86ShaNi =>
      if build.x86ShaNi.isSome then ShaNi.sha256dScanNonceRangeX86ShaNi
      else sha256dScanNonceRangeGeneric build gBackend
  | .armSha2 =>
      if build.armSha2.isSome then ArmSha2.sha256dScanNonceRangeArmSha2
      else sha256dScanNonceRangeGeneric build gBackend
  | .openssl => sha256dScanNonceRangeGeneric build gBackend
  | .fastC => sha256dScanNonceRangeGeneric build gBackend

def sha256d80MidstateHashWords (build : Build) (gBackend : Sha256dBackend) (state : Sha256Midstate)
    (headerTail16 : List Byte) : Vector Word 8 :=
  let tailWords := Vector.ofFn fun i : Fin 4 => loadBe32 (headerTail16.drop (i * 4))
  sha256dTailWordsFunc build gBackend state tailWords

def sha256d80MidstateHash (build : Build) (gBackend : Sha256dBackend) (state : Sha256Midstate)
    (headerTail16 : List Byte) : List Byte :=
  sha256dWordsToHash (sha256d80MidstateHashWords build gBackend state headerTail16)

/-! ## Choosing -/

/-- Every name is read back as its backend. -/
theorem sha256dParseBackend_name (backend : Sha256dBackend) :
    sha256dParseBackend (sha256dBackendName backend) = some backend := by
  cases backend <;> decide

theorem auto_available (build : Build) :
    sha256dBackendAvailable build (sha256dAutoBackend build) = true := by
  unfold sha256dAutoBackend
  split
  · assumption
  · split
    · assumption
    · rfl

/-- What is not available is refused, and then nothing changes. -/
theorem sha256dSetBackend_cases (build : Build) (gBackend backend : Sha256dBackend) :
    (sha256dBackendAvailable build backend = true ∧
        sha256dSetBackend build gBackend backend = (backend, 0)) ∨
      (sha256dBackendAvailable build backend = false ∧
        sha256dSetBackend build gBackend backend = (gBackend, -1)) := by
  unfold sha256dSetBackend
  cases sha256dBackendAvailable build backend with
  | true => exact .inl ⟨rfl, rfl⟩
  | false => exact .inr ⟨rfl, rfl⟩

/-- A machine that is asked for nothing in particular gets its best backend. -/
theorem configure_auto (build : Build) (gBackend : Sha256dBackend) {text : Option (List Char)}
    (auto : text = none ∨ text = some [] ∨ text = some "auto".toList) :
    configureShaBackendFromEnv build gBackend text = (sha256dAutoBackend build, 0) := by
  rw [configureShaBackendFromEnv, if_pos auto]
  rcases sha256dSetBackend_cases build gBackend (sha256dAutoBackend build) with ⟨-, set⟩ | ⟨missing, -⟩
  · exact set
  · rw [auto_available] at missing
    contradiction

theorem set_available {build : Build} {gBackend : Sha256dBackend}
    (available : sha256dBackendAvailable build gBackend = true) (backend : Sha256dBackend) :
    sha256dBackendAvailable build (sha256dSetBackend build gBackend backend).1 = true := by
  rcases sha256dSetBackend_cases build gBackend backend with ⟨is, set⟩ | ⟨-, refused⟩
  · rw [set]
    exact is
  · rw [refused]
    exact available

/-- Texts from the environment never select a backend that there is not. -/
theorem configure_available {build : Build} {gBackend : Sha256dBackend}
    (available : sha256dBackendAvailable build gBackend = true) (text : Option (List Char)) :
    sha256dBackendAvailable build (configureShaBackendFromEnv build gBackend text).1 = true := by
  unfold configureShaBackendFromEnv
  split
  · exact set_available available _
  · split
    · exact available
    · exact set_available available _

/-- One text from the environment, or one call from the program. -/
def select (build : Build) (gBackend : Sha256dBackend) :
    Option (List Char) ⊕ Sha256dBackend → Sha256dBackend
  | .inl text => (configureShaBackendFromEnv build gBackend text).1
  | .inr backend => (sha256dSetBackend build gBackend backend).1

/-- The backend in use; the program starts with OpenSSL. -/
def selected (build : Build) (asked : List (Option (List Char) ⊕ Sha256dBackend)) : Sha256dBackend :=
  asked.foldl (select build) .openssl

theorem selected_available (build : Build) (asked : List (Option (List Char) ⊕ Sha256dBackend)) :
    sha256dBackendAvailable build (selected build asked) = true := by
  induction asked using List.reverseRecOn with
  | nil => rfl
  | append_singleton asked ask ih =>
      rw [selected, List.foldl_append]
      cases ask with
      | inl text => exact configure_available ih text
      | inr backend => exact set_available ih backend

/-! ## The functions agree -/

section Prepared

variable (build : Build) (gBackend : Sha256dBackend) {first : List Byte} (full : first.length = 64)
include full

theorem tailWordsFunc_prepare (tail : Vector Word 4) :
    sha256dTailWordsFunc build gBackend (sha256d80MidstatePrepare first) tail =
      midstateHash (compress initialState (blockWords first)) tail := by
  have openssl := sha256dTailWordsFunc_prepare .openssl first full tail
  have fast := sha256d80MidstatePrepare_fastState first
  cases gBackend with
  | openssl => exact openssl
  | fastC => exact sha256dTailWordsFunc_prepare .fastC first full tail
  | armSha2 =>
      simp only [sha256dTailWordsFunc]
      split
      · rw [← fast]
        exact ArmSha2.sha256dHashTailWordsArmRaw_eq _ tail
      · exact openssl
  | x86ShaNi =>
      simp only [sha256dTailWordsFunc]
      split
      · rw [← fast]
        exact ShaNi.sha256dHashTailWordsX86Raw_eq _ tail
      · exact openssl

theorem scanGeneric_prepare (base : Vector Word 4) (target : Vector Word 8) (start count : Word) :
    sha256dScanNonceRangeGeneric build gBackend (sha256d80MidstatePrepare first) base target start
        count =
      Sha256d.sha256dScanNonceRangeGeneric .fastC (sha256d80MidstatePrepare first) base target start
        count := by
  simp only [sha256dScanNonceRangeGeneric, Sha256d.sha256dScanNonceRangeGeneric,
    tailWordsFunc_prepare build gBackend full, sha256dTailWordsFunc_prepare .fastC first full]

/-- Every scan handed out is the portable scan of the midstate. -/
theorem nonceRangeFunc_prepare (base : Vector Word 4) (target : Vector Word 8) (start count : Word) :
    sha256dNonceRangeFunc build gBackend (sha256d80MidstatePrepare first) base target start count =
      Sha256d.sha256dScanNonceRangeGeneric .fastC (sha256d80MidstatePrepare first) base target start
        count := by
  have generic := scanGeneric_prepare build gBackend full base target start count
  unfold sha256dNonceRangeFunc
  cases gBackend with
  | openssl => exact generic
  | fastC => exact generic
  | armSha2 =>
      simp only
      split
      · exact ArmSha2.sha256dScanNonceRangeArmSha2_eq _ base target start count
      · exact generic
  | x86ShaNi =>
      simp only
      split
      · exact ShaNi.sha256dScanNonceRangeX86ShaNi_eq _ base target start count
      · exact generic

end Prepared

/-- The split hash of any backend is the plain double hash. -/
theorem midstateHash_header (build : Build) (gBackend : Sha256dBackend) (header : Vector Byte 80) :
    sha256d80MidstateHash build gBackend (sha256d80MidstatePrepare (header.toList.take 64))
      (header.toList.drop 64) = sha256d80 header.toList := by
  have full : (header.toList.take 64).length = 64 := by simp
  have size : (header.toList.drop 64).length = 16 := by simp
  have whole := sha256d80_eq_midstateHash _ _ full size
  rw [List.take_append_drop] at whole
  rw [whole, sha256d80MidstateHash, sha256d80MidstateHashWords, tailWordsFunc_prepare build gBackend full]
  rfl

end BtcRig.Hash.Dispatch
