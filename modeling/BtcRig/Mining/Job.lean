/-
# BtcRig.Mining.Job — from a pool template to a header and a target

The pure half of `miner.c`: hexadecimal decoding, the extranonce2 text, the
target of a difficulty, and `minerBuildJob`, which assembles the 80-byte header.

A C string is the list of its characters, one for each byte; a text held in a
fixed buffer is a `CStr`, which carries the proof that it fits.  Difficulties are
exact rationals.

* `minerBuildJob_isSome` says on which arguments a job is built;
* `minerBuildJob_fields` says that the job keeps the texts it was built from;
* `hexU32ToLe_nonce` reads the submitted `%08x` text of a nonce back.
-/
import BtcRig.Hash.Sha256d
import BtcRig.Theory.Hex

namespace BtcRig.Mining.Job

open BtcRig.Theory
open BtcRig.Theory.Words
open BtcRig.Theory.Sha256
open BtcRig.Hash.Sha256d

set_option autoImplicit false

/-! ## Strings in fixed buffers -/

/-- A text held in a buffer of `size` bytes, terminator included. -/
abbrev CStr (size : Nat) := { text : List Char // text.length < size }

/-! Each declared size has room for the terminator. -/

theorem room9 : 0 < 9 := by decide
theorem room16 : 0 < 16 := by decide
theorem room32 : 0 < 32 := by decide
theorem room65 : 0 < 65 := by decide
theorem room128 : 0 < 128 := by decide
theorem room256 : 0 < 256 := by decide
theorem room320 : 0 < 320 := by decide

/-- A buffer filled with zeros. -/
def CStr.empty {size : Nat} (room : 0 < size) : CStr size := ⟨[], room⟩

def copyChecked (dstSize : Nat) (src : List Char) : Option (CStr dstSize) :=
  if fits : src.length < dstSize then some ⟨src, fits⟩ else none

theorem copyChecked_eq_some {size : Nat} {src : List Char} {dst : CStr size} :
    copyChecked size src = some dst ↔ dst.1 = src := by
  unfold copyChecked
  split
  · rename_i fits
    rw [Option.some.injEq, Subtype.ext_iff]
    exact eq_comm
  · rename_i long
    constructor
    · intro impossible
      cases impossible
    · rintro rfl
      exact absurd dst.2 long

theorem copyChecked_isSome {size : Nat} {src : List Char} :
    (copyChecked size src).isSome ↔ src.length < size := by
  unfold copyChecked
  split <;> simp_all

/-! ## Hexadecimal -/

/-- `-1` is `none`. -/
def hexValue (c : Char) : Option Nat :=
  if c ≥ '0' ∧ c ≤ '9' then some (c.toNat - '0'.toNat)
  else if c ≥ 'a' ∧ c ≤ 'f' then some (c.toNat - 'a'.toNat + 10)
  else if c ≥ 'A' ∧ c ≤ 'F' then some (c.toNat - 'A'.toNat + 10)
  else none

/-- The loop of `hexToBytes` up to, and not including, byte `n`. -/
def hexLoop (hex : List Char) : (n : Nat) → Option (Vector Byte n)
  | 0 => some #v[]
  | i + 1 => do
      let out ← hexLoop hex i
      let hi ← hexValue (hex.getD (i * 2) '\x00')
      let lo ← hexValue (hex.getD (i * 2 + 1) '\x00')
      some (out.push ((BitVec.ofNat 8 hi <<< 4) ||| BitVec.ofNat 8 lo))

def hexToBytes (hex : List Char) (outLen : Nat) : Option (Vector Byte outLen) :=
  if hex.length % 2 ≠ 0 ∨ hex.length / 2 ≠ outLen then none else hexLoop hex outLen

def hexToAlloc (hex : List Char) : Option (List Byte) :=
  if hex.length % 2 ≠ 0 then none
  else (hexToBytes hex (hex.length / 2)).map Vector.toList

def hexU32ToLe (hex : List Char) : Option (Vector Byte 4) := do
  let tmp ← hexToBytes hex 4
  some (.ofFour tmp.quad3 tmp.quad2 tmp.quad1 tmp.quad0)

/-- The loop of `prevhashToHeaderBytes` over its first `groups` chunks of eight
digits. -/
def prevhashLoop (hex : List Char) : (groups : Nat) → Option (Vector Byte (4 * groups))
  | 0 => some #v[]
  | g + 1 => do
      let out ← prevhashLoop hex g
      let chunk := (hex.drop (8 * g)).take 8
      let tmp ← hexToBytes chunk 4
      some (out ++ Vector.ofFour tmp.quad3 tmp.quad2 tmp.quad1 tmp.quad0)

def prevhashToHeaderBytes (hex : List Char) : Option (Vector Byte 32) :=
  if hex.length ≠ 64 then none else prevhashLoop hex 8

/-! ## Targets, difficulties and the extranonce2 text -/

/-- `while (mant >= 0x800000 && exp < 32)`, with `exp = 32 - room`. -/
def scaleDown : (room : Nat) → ℚ → ℚ × Nat
  | 0, mant => (mant, 32)
  | room + 1, mant =>
      if 0x800000 ≤ mant then scaleDown room (mant / 256) else (mant, 32 - (room + 1))

/-- `while (mant > 0.0 && mant < 0x8000 && exp > 3)`, with `exp = 3 + room`. -/
def scaleUp : (room : Nat) → ℚ → ℚ × Nat
  | 0, mant => (mant, 3)
  | room + 1, mant =>
      if 0 < mant ∧ mant < 0x8000 then scaleUp room (mant * 256) else (mant, 3 + (room + 1))

def minerTargetFromDifficulty (difficulty : ℚ) : Vector Byte 32 :=
  let difficulty := if difficulty ≤ 0 then 1 else difficulty
  let (mant, exp) := scaleDown 3 (65535 / difficulty)
  let (mant, exp) := scaleUp (exp - 3) mant
  let m : Word := BitVec.ofInt 32 ⌊mant⌋
  let idx : Int := 32 - exp
  if 0 ≤ idx ∧ idx + 2 < 32 then
    let beTarget : Vector Byte 32 := Vector.replicate 32 0
    let beTarget := beTarget.setIfInBounds idx.toNat ((m >>> 16).setWidth 8)
    let beTarget := beTarget.setIfInBounds (idx.toNat + 1) ((m >>> 8).setWidth 8)
    let beTarget := beTarget.setIfInBounds (idx.toNat + 2) (m.setWidth 8)
    beTarget.reverse
  else if idx < 0 then Vector.replicate 32 0xff
  else Vector.replicate 32 0

def minerHashMeetsTarget (hash target : Vector Byte 32) : Bool :=
  leFrom (fun i => (hash.toList.getD i 0).toNat) (fun i => (target.toList.getD i 0).toNat) 32

/-- `⊤` is `INFINITY`. -/
def minerHashDifficulty (hash : Vector Byte 32) : WithTop ℚ :=
  let diff1 : ℚ := 26959535291011309493156476344723991336010898738574164086137773096960
  let value : ℚ := hash.toList.reverse.foldl (fun value byte => value * 256 + byte.toNat) 0
  if value ≤ 0 then ⊤ else (diff1 / value : ℚ)

/-- Conversion to a C `int`. -/
def toInt (n : Int) : Int := n.bmod (2 ^ 32)

/-- `snprintf` keeps at most `outSize - 1` characters. -/
def minerFormatExtranonce2 (outSize : Nat) (extranonce2Size : Int) (value : BitVec 64) :
    List Char :=
  let chars := toInt (extranonce2Size * 2)
  if chars ≤ 0 ∨ chars.toNat + 1 > outSize then []
  else (Hex.format chars.toNat value.toNat).take (outSize - 1)

/-! ## Building a job -/

structure MinerJob where
  seq : BitVec 64
  jobId : CStr 128
  extranonce2 : CStr 32
  ntime : CStr 16
  header : Vector Byte 80
  target : Vector Byte 32
deriving DecidableEq

def sha256dData (data : List Byte) : Vector Byte 32 :=
  ⟨(sha256 (sha256 data)).toArray, by simp⟩

/-- One iteration of the merkle loop. -/
def merkleStep (merkleRoot : Vector Byte 32) (branchHex : List Char) : Option (Vector Byte 32) := do
  let branch ← hexToBytes branchHex 32
  some (sha256dData (merkleRoot.toList ++ branch.toList))

def minerBuildJob (jobId prevhash coinb1 coinb2 : List Char) (merkle : List (List Char))
    (version nbits ntime extranonce1 extranonce2 : List Char) (difficulty : ℚ) :
    Option MinerJob := do
  let outJobId ← copyChecked 128 jobId
  let outExtranonce2 ← copyChecked 32 extranonce2
  let outNtime ← copyChecked 16 ntime
  let coinbaseHex := coinb1 ++ extranonce1 ++ extranonce2 ++ coinb2
  let coinbase ← hexToAlloc coinbaseHex
  let merkleRoot ← merkle.foldlM merkleStep (sha256dData coinbase)
  let versionLe ← hexU32ToLe version
  let prevhashBytes ← prevhashToHeaderBytes prevhash
  let ntimeLe ← hexU32ToLe ntime
  let nbitsLe ← hexU32ToLe nbits
  some {
    seq := 0
    jobId := outJobId
    extranonce2 := outExtranonce2
    ntime := outNtime
    header := versionLe ++ prevhashBytes ++ merkleRoot ++ ntimeLe ++ nbitsLe ++
      (#v[0, 0, 0, 0] : Vector Byte 4)
    target := minerTargetFromDifficulty difficulty }

/-! ## What the decoders accept -/

theorem hexValue_eq_digit (c : Char) : hexValue c = Hex.digit c := rfl

theorem take_two_more {α : Type} (text : List α) (i : Nat) (default : α)
    (long : 2 * (i + 1) ≤ text.length) :
    text.take (2 * (i + 1)) =
      text.take (2 * i) ++ [text.getD (i * 2) default, text.getD (i * 2 + 1) default] := by
  have first : i * 2 < text.length := by omega
  have second : i * 2 + 1 < text.length := by omega
  rw [show 2 * (i + 1) = i * 2 + 1 + 1 by omega, List.take_succ_eq_append_getElem second,
    List.take_succ_eq_append_getElem first, List.append_assoc, Nat.mul_comm 2 i]
  simp [List.getD_eq_getElem?_getD, first, second]

theorem hexLoop_isSome {hex : List Char} (n : Nat) (long : 2 * n ≤ hex.length) :
    (hexLoop hex n).isSome ↔ Hex.IsHex (hex.take (2 * n)) := by
  induction n with
  | zero => simp [hexLoop, Hex.IsHex]
  | succ n ih =>
      rw [take_two_more hex n '\x00' long, Hex.isHex_append, ← ih (by omega), hexLoop]
      cases hexLoop hex n with
      | none => simp
      | some out =>
          generalize hex.getD (n * 2) '\x00' = hi
          generalize hex.getD (n * 2 + 1) '\x00' = lo
          simp only [hexValue_eq_digit, Hex.IsHex]
          cases hiDigit : Hex.digit hi <;> cases loDigit : Hex.digit lo <;> simp [hiDigit, loDigit]

/-- The decoded bytes are the text's number, most significant byte first. -/
theorem hexLoop_value {hex : List Char} (n : Nat) (long : 2 * n ≤ hex.length) {out : Vector Byte n}
    (decoded : hexLoop hex n = some out) :
    leNat out.toList.reverse = Hex.value (hex.take (2 * n)) := by
  induction n with
  | zero =>
      simp only [hexLoop, Option.some.injEq] at decoded
      subst decoded
      rfl
  | succ n ih =>
      simp only [hexLoop, Option.bind_eq_bind, Option.bind_eq_some_iff, hexValue_eq_digit,
        Option.some.injEq] at decoded
      obtain ⟨front, decoded, hi, isHi, lo, isLo, rfl⟩ := decoded
      have low := Hex.digit_lt isLo
      have high := Hex.digit_lt isHi
      have byte : ((BitVec.ofNat 8 hi <<< 4) ||| BitVec.ofNat 8 lo).toNat = 16 * hi + lo := by
        interval_cases hi <;> interval_cases lo <;> rfl
      rw [take_two_more hex n '\x00' long, Hex.value_append, ← ih (by omega) decoded]
      simp only [Vector.toList_push, List.reverse_append, List.reverse_cons, List.reverse_nil,
        List.nil_append, List.singleton_append]
      simp only [leNat, List.map_cons, Nat.ofDigits_cons, byte, Hex.value, List.foldl_cons,
        List.foldl_nil, isHi, isLo, Option.getD_some, List.length_cons, List.length_nil]
      omega

theorem hexToBytes_isSome {hex : List Char} {n : Nat} :
    (hexToBytes hex n).isSome ↔ hex.length = 2 * n ∧ Hex.IsHex hex := by
  unfold hexToBytes
  split
  · rename_i wrong
    constructor
    · intro impossible
      cases impossible
    · rintro ⟨size, -⟩
      omega
  · rename_i right
    have size : hex.length = 2 * n := by omega
    rw [hexLoop_isSome n size.ge, ← size, List.take_length]
    simp [size]

theorem hexToBytes_value {hex : List Char} {n : Nat} {out : Vector Byte n}
    (decoded : hexToBytes hex n = some out) : leNat out.toList.reverse = Hex.value hex := by
  have size := (hexToBytes_isSome.mp (by rw [decoded]; rfl)).1
  unfold hexToBytes at decoded
  split at decoded
  · cases decoded
  · have value := hexLoop_value n size.ge decoded
    rwa [← size, List.take_length] at value

theorem hexToAlloc_isSome {hex : List Char} :
    (hexToAlloc hex).isSome ↔ hex.length % 2 = 0 ∧ Hex.IsHex hex := by
  unfold hexToAlloc
  split
  · rename_i odd
    simp [odd]
  · rename_i even
    rw [Option.isSome_map, hexToBytes_isSome]
    constructor
    · rintro ⟨-, hex⟩
      exact ⟨by omega, hex⟩
    · rintro ⟨-, hex⟩
      exact ⟨by omega, hex⟩

theorem hexU32ToLe_isSome {hex : List Char} :
    (hexU32ToLe hex).isSome ↔ hex.length = 8 ∧ Hex.IsHex hex := by
  have bytes : (hexToBytes hex 4).isSome ↔ hex.length = 8 ∧ Hex.IsHex hex := hexToBytes_isSome
  rw [hexU32ToLe]
  cases decoded : hexToBytes hex 4 with
  | none => simpa [decoded] using bytes
  | some tmp => simpa [decoded] using bytes

theorem prevhashLoop_isSome {hex : List Char} (g : Nat) (long : 8 * g ≤ hex.length) :
    (prevhashLoop hex g).isSome ↔ Hex.IsHex (hex.take (8 * g)) := by
  induction g with
  | zero => simp [prevhashLoop, Hex.IsHex]
  | succ g ih =>
      have chunk : hex.take (8 * (g + 1)) = hex.take (8 * g) ++ (hex.drop (8 * g)).take 8 := by
        rw [Nat.mul_succ, List.take_add]
      have size : ((hex.drop (8 * g)).take 8).length = 8 := by simp; omega
      have bytes : (hexToBytes ((hex.drop (8 * g)).take 8) 4).isSome ↔
          Hex.IsHex ((hex.drop (8 * g)).take 8) := by
        rw [hexToBytes_isSome, size]
        simp
      rw [chunk, Hex.isHex_append, ← ih (by omega), prevhashLoop, ← bytes]
      cases prevhashLoop hex g with
      | none => simp
      | some out =>
          cases decoded : hexToBytes ((hex.drop (8 * g)).take 8) 4 <;> simp [decoded]

theorem prevhashToHeaderBytes_isSome {hex : List Char} :
    (prevhashToHeaderBytes hex).isSome ↔ hex.length = 64 ∧ Hex.IsHex hex := by
  unfold prevhashToHeaderBytes
  split
  · rename_i wrong
    simp [wrong]
  · rename_i right
    have size : hex.length = 64 := by omega
    rw [prevhashLoop_isSome 8 (by omega), List.take_of_length_le (by omega)]
    simp [size]

theorem merkle_isSome (merkle : List (List Char)) (root : Vector Byte 32) :
    (merkle.foldlM merkleStep root).isSome ↔
      ∀ branch ∈ merkle, branch.length = 64 ∧ Hex.IsHex branch := by
  induction merkle generalizing root with
  | nil => simp
  | cons branch rest ih =>
      have bytes : (hexToBytes branch 32).isSome ↔ branch.length = 64 ∧ Hex.IsHex branch :=
        hexToBytes_isSome
      rw [List.foldlM_cons, List.forall_mem_cons, ← bytes, merkleStep]
      cases hexToBytes branch 32 with
      | none => simp
      | some branch => simpa using ih _

/-- The arguments on which a job is built. -/
structure WellFormed (jobId prevhash coinb1 coinb2 : List Char) (merkle : List (List Char))
    (version nbits ntime extranonce1 extranonce2 : List Char) : Prop where
  jobId_fits : jobId.length < 128
  extranonce2_fits : extranonce2.length < 32
  coinbase_even : (coinb1 ++ extranonce1 ++ extranonce2 ++ coinb2).length % 2 = 0
  coinbase_hex : Hex.IsHex (coinb1 ++ extranonce1 ++ extranonce2 ++ coinb2)
  merkle_hex : ∀ branch ∈ merkle, branch.length = 64 ∧ Hex.IsHex branch
  version_hex : version.length = 8 ∧ Hex.IsHex version
  prevhash_hex : prevhash.length = 64 ∧ Hex.IsHex prevhash
  ntime_hex : ntime.length = 8 ∧ Hex.IsHex ntime
  nbits_hex : nbits.length = 8 ∧ Hex.IsHex nbits

section Build

variable {jobId prevhash coinb1 coinb2 : List Char} {merkle : List (List Char)}
  {version nbits ntime extranonce1 extranonce2 : List Char} {difficulty : ℚ} {job : MinerJob}

/-- What a successful build went through, in the order of its checks. -/
theorem minerBuildJob_cases
    (built : minerBuildJob jobId prevhash coinb1 coinb2 merkle version nbits ntime extranonce1
      extranonce2 difficulty = some job) :
    ∃ coinbase merkleRoot versionLe prevhashBytes ntimeLe nbitsLe,
      copyChecked 128 jobId = some job.jobId ∧ copyChecked 32 extranonce2 = some job.extranonce2 ∧
      copyChecked 16 ntime = some job.ntime ∧
      hexToAlloc (coinb1 ++ extranonce1 ++ extranonce2 ++ coinb2) = some coinbase ∧
      merkle.foldlM merkleStep (sha256dData coinbase) = some merkleRoot ∧
      hexU32ToLe version = some versionLe ∧ prevhashToHeaderBytes prevhash = some prevhashBytes ∧
      hexU32ToLe ntime = some ntimeLe ∧ hexU32ToLe nbits = some nbitsLe ∧
      job.seq = 0 ∧ job.target = minerTargetFromDifficulty difficulty ∧
      job.header = versionLe ++ prevhashBytes ++ merkleRoot ++ ntimeLe ++ nbitsLe ++
        (#v[0, 0, 0, 0] : Vector Byte 4) := by
  simp only [minerBuildJob, Option.bind_eq_bind, Option.bind_eq_some_iff, Option.some.injEq] at built
  obtain ⟨outJobId, copied₁, outExtranonce2, copied₂, outNtime, copied₃, coinbase, decoded,
    merkleRoot, folded, versionLe, isVersion, prevhashBytes, isPrevhash, ntimeLe, isNtime, nbitsLe,
    isNbits, rfl⟩ := built
  exact ⟨coinbase, merkleRoot, versionLe, prevhashBytes, ntimeLe, nbitsLe, copied₁, copied₂,
    copied₃, decoded, folded, isVersion, isPrevhash, isNtime, isNbits, rfl, rfl, rfl⟩

/-- The job keeps the texts it was built from. -/
theorem minerBuildJob_fields
    (built : minerBuildJob jobId prevhash coinb1 coinb2 merkle version nbits ntime extranonce1
      extranonce2 difficulty = some job) :
    job.seq = 0 ∧ job.jobId.1 = jobId ∧ job.extranonce2.1 = extranonce2 ∧ job.ntime.1 = ntime ∧
      job.target = minerTargetFromDifficulty difficulty := by
  obtain ⟨-, -, -, -, -, -, isJobId, isExtranonce2, isNtime, -, -, -, -, -, -, isSeq, isTarget, -⟩ :=
    minerBuildJob_cases built
  exact ⟨isSeq, copyChecked_eq_some.mp isJobId, copyChecked_eq_some.mp isExtranonce2,
    copyChecked_eq_some.mp isNtime, isTarget⟩

/-- A job is built on exactly the well-formed arguments, at any difficulty. -/
theorem minerBuildJob_isSome :
    (minerBuildJob jobId prevhash coinb1 coinb2 merkle version nbits ntime extranonce1 extranonce2
      difficulty).isSome ↔
      WellFormed jobId prevhash coinb1 coinb2 merkle version nbits ntime extranonce1
        extranonce2 := by
  constructor
  · intro succeeded
    obtain ⟨job, built⟩ := Option.isSome_iff_exists.mp succeeded
    obtain ⟨coinbase, merkleRoot, versionLe, prevhashBytes, ntimeLe, nbitsLe, isJobId,
      isExtranonce2, -, decoded, folded, isVersion, isPrevhash, isNtime, isNbits, -⟩ :=
      minerBuildJob_cases built
    have coinbaseText := hexToAlloc_isSome.mp (Option.isSome_of_eq_some decoded)
    exact {
      jobId_fits := copyChecked_isSome.mp (Option.isSome_of_eq_some isJobId)
      extranonce2_fits := copyChecked_isSome.mp (Option.isSome_of_eq_some isExtranonce2)
      coinbase_even := coinbaseText.1
      coinbase_hex := coinbaseText.2
      merkle_hex := (merkle_isSome merkle _).mp (Option.isSome_of_eq_some folded)
      version_hex := hexU32ToLe_isSome.mp (Option.isSome_of_eq_some isVersion)
      prevhash_hex := prevhashToHeaderBytes_isSome.mp (Option.isSome_of_eq_some isPrevhash)
      ntime_hex := hexU32ToLe_isSome.mp (Option.isSome_of_eq_some isNtime)
      nbits_hex := hexU32ToLe_isSome.mp (Option.isSome_of_eq_some isNbits) }
  · intro formed
    obtain ⟨outJobId, isJobId⟩ :=
      Option.isSome_iff_exists.mp (copyChecked_isSome.mpr formed.jobId_fits)
    obtain ⟨outExtranonce2, isExtranonce2⟩ :=
      Option.isSome_iff_exists.mp (copyChecked_isSome.mpr formed.extranonce2_fits)
    obtain ⟨outNtime, isNtimeText⟩ : ∃ out, copyChecked 16 ntime = some out :=
      Option.isSome_iff_exists.mp (copyChecked_isSome.mpr (by rw [formed.ntime_hex.1]; decide))
    obtain ⟨coinbase, decoded⟩ := Option.isSome_iff_exists.mp
      (hexToAlloc_isSome.mpr ⟨formed.coinbase_even, formed.coinbase_hex⟩)
    obtain ⟨merkleRoot, folded⟩ := Option.isSome_iff_exists.mp
      ((merkle_isSome merkle (sha256dData coinbase)).mpr formed.merkle_hex)
    obtain ⟨versionLe, isVersion⟩ :=
      Option.isSome_iff_exists.mp (hexU32ToLe_isSome.mpr formed.version_hex)
    obtain ⟨prevhashBytes, isPrevhash⟩ :=
      Option.isSome_iff_exists.mp (prevhashToHeaderBytes_isSome.mpr formed.prevhash_hex)
    obtain ⟨ntimeLe, isNtime⟩ :=
      Option.isSome_iff_exists.mp (hexU32ToLe_isSome.mpr formed.ntime_hex)
    obtain ⟨nbitsLe, isNbits⟩ :=
      Option.isSome_iff_exists.mp (hexU32ToLe_isSome.mpr formed.nbits_hex)
    simp only [minerBuildJob, isJobId, isExtranonce2, isNtimeText, decoded, folded, isVersion,
      isPrevhash, isNtime, isNbits, Option.bind_eq_bind, Option.bind_some, Option.isSome_some]

end Build

/-! ## The nonce text -/

/-- The `%08x` text of a nonce, read back with `hexU32ToLe`. -/
theorem hexU32ToLe_nonce (nonce : Word) :
    hexU32ToLe (Hex.format 8 nonce.toNat) =
      some #v[byteAt nonce 0, byteAt nonce 1, byteAt nonce 2, byteAt nonce 3] := by
  have size : (Hex.format 8 nonce.toNat).length = 8 :=
    Hex.length_format_of_lt (by decide) nonce.isLt
  obtain ⟨tmp, decoded⟩ := Option.isSome_iff_exists.mp
    (hexToBytes_isSome.mpr (⟨size, Hex.isHex_format 8 nonce.toNat⟩ :
      (Hex.format 8 nonce.toNat).length = 2 * 4 ∧ _))
  have value := hexToBytes_value decoded
  rw [Hex.value_format] at value
  have bytes : tmp.toList.reverse = toBe (byteSwap nonce) := by
    apply leNat_inj (by simp)
    rw [value, leNat_toBe, byteSwap_byteSwap]
  rw [toList_four, byteSwap, toBe_ofBe] at bytes
  simp only [List.reverse_cons, List.reverse_nil, List.nil_append, List.cons_append,
    List.cons.injEq, and_true] at bytes
  obtain ⟨third, second, first, zeroth⟩ := bytes
  simp only [hexU32ToLe, decoded, Option.bind_eq_bind, Option.bind_some, third, second, first,
    zeroth]

/-! ## The extranonce2 text -/

theorem toInt_of_small {n : Int} (low : -2 ^ 31 ≤ n) (high : n < 2 ^ 31) : toInt n = n :=
  Int.bmod_eq_of_le_mul_two (by omega) (by omega)

/-- A 64-bit counter padded to fewer than 32 digits is never cut by a buffer of 32. -/
theorem take_format (width : Nat) (value : BitVec 64) (short : width ≤ 31) :
    (Hex.format width value.toNat).take 31 = Hex.format width value.toNat := by
  have digits : (Nat.toDigits 16 value.toNat).length ≤ 16 :=
    (Nat.length_toDigits_le_iff (by decide) (by decide)).mpr value.isLt
  apply List.take_of_length_le
  rw [Hex.length_format]
  omega

/-- The text is empty, or the counter in hexadecimal, padded to some width. -/
theorem minerFormatExtranonce2_cases (size : Int) (value : BitVec 64) :
    minerFormatExtranonce2 32 size value = [] ∨
      ∃ width, minerFormatExtranonce2 32 size value = Hex.format width value.toNat := by
  unfold minerFormatExtranonce2
  simp only
  split
  · exact .inl rfl
  · rename_i usable
    exact .inr ⟨_, take_format _ value (by omega)⟩

theorem minerFormatExtranonce2_of_size {size : Int} (low : 1 ≤ size) (high : size ≤ 15)
    (value : BitVec 64) :
    minerFormatExtranonce2 32 size value = Hex.format (size * 2).toNat value.toNat := by
  unfold minerFormatExtranonce2
  simp only [toInt_of_small (show -2 ^ 31 ≤ size * 2 by omega) (show size * 2 < 2 ^ 31 by omega)]
  rw [if_neg (by omega)]
  exact take_format _ value (by omega)

end BtcRig.Mining.Job
