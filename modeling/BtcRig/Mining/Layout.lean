/-
# BtcRig.Mining.Layout — the header a job is built with, byte by byte

`minerBuildJob` decodes eleven texts of the pool with three decoders and copies
the pieces one after the other.  `headerOf` says what the eighty bytes are, with
no decoder of the source in it: the texts read as pairs of digits, the four-byte
groups turned around, and the merkle root as a fold of the double hash.

* `job_built_iff_laid_out`: a job is built on exactly the well-formed arguments,
  with that header and the target of the difficulty.
-/
import BtcRig.Mining.Job
import BtcRig.Theory.HexBytes

namespace BtcRig.Mining.Layout

open BtcRig.Theory
open BtcRig.Theory.Words
open BtcRig.Theory.HexBytes
open BtcRig.Theory.Sha256
open BtcRig.Hash.Sha256d
open BtcRig.Mining.Job

set_option autoImplicit false

/-! ## What a header consists of -/

def sha256d (data : List Byte) : List Byte := sha256 (sha256 data)

/-- The branches are hashed onto the coinbase from the left. -/
def merkleRootOf (coinbase : List Char) (merkle : List (List Char)) : List Byte :=
  merkle.foldl (fun root branch => sha256d (root ++ decode branch)) (sha256d (decode coinbase))

def headerOf (prevhash coinbase : List Char) (merkle : List (List Char))
    (version nbits ntime : List Char) : List Byte :=
  rev4 (decode version) ++ rev4 (decode prevhash) ++ merkleRootOf coinbase merkle ++
    rev4 (decode ntime) ++ rev4 (decode nbits) ++ [0, 0, 0, 0]

/-! ## The decoders of the source -/

theorem hexLoop_bytes {hex : List Char} (n : Nat) (long : 2 * n ≤ hex.length) {out : Vector Byte n}
    (decoded : hexLoop hex n = some out) : out.toList = decode (hex.take (2 * n)) := by
  induction n with
  | zero =>
      simp only [hexLoop, Option.some.injEq] at decoded
      subst decoded
      rfl
  | succ n ih =>
      simp only [hexLoop, Option.bind_eq_bind, Option.bind_eq_some_iff, hexValue_eq_digit,
        Option.some.injEq] at decoded
      obtain ⟨front, decoded, hi, isHi, lo, isLo, rfl⟩ := decoded
      have low := Hex.digit_lt isLo
      have high := Hex.digit_lt isHi
      have byte : (BitVec.ofNat 8 hi <<< 4) ||| BitVec.ofNat 8 lo =
          BitVec.ofNat 8 (16 * hi + lo) := by
        interval_cases hi <;> interval_cases lo <;> rfl
      have cut : (hex.take (2 * n)).length % 2 = 0 := by
        rw [List.length_take, Nat.min_eq_left (by omega)]
        omega
      rw [take_two_more hex n '\x00' long, decode_append _ _ cut, Vector.toList_push,
        ih (by omega) decoded, byte]
      simp only [decode, Hex.value, List.foldl_cons, List.foldl_nil, isHi, isLo, Option.getD_some,
        Nat.mul_zero, Nat.zero_add]

/-- A decoded text of fixed length is its bytes. -/
theorem hexToBytes_bytes {hex : List Char} {n : Nat} {out : Vector Byte n}
    (decoded : hexToBytes hex n = some out) : out.toList = decode hex := by
  have size := (hexToBytes_isSome.mp (Option.isSome_of_eq_some decoded)).1
  unfold hexToBytes at decoded
  split at decoded
  · cases decoded
  · have bytes := hexLoop_bytes n size.ge decoded
    rwa [← size, List.take_length] at bytes

theorem hexToAlloc_bytes {hex : List Char} {out : List Byte}
    (decoded : hexToAlloc hex = some out) : out = decode hex := by
  unfold hexToAlloc at decoded
  split at decoded
  · cases decoded
  · obtain ⟨bytes, isBytes, rfl⟩ := Option.map_eq_some_iff.mp decoded
    exact hexToBytes_bytes isBytes

/-- Four bytes are turned around. -/
theorem reversed_quad {hex : List Char} {tmp : Vector Byte 4}
    (decoded : hexToBytes hex 4 = some tmp) :
    (Vector.ofFour tmp.quad3 tmp.quad2 tmp.quad1 tmp.quad0).toList = rev4 (decode hex) := by
  rw [← hexToBytes_bytes decoded, toList_four tmp]
  rfl

/-- A field of the header is its bytes in reverse. -/
theorem hexU32ToLe_bytes {hex : List Char} {out : Vector Byte 4}
    (decoded : hexU32ToLe hex = some out) : out.toList = rev4 (decode hex) := by
  simp only [hexU32ToLe, Option.bind_eq_bind, Option.bind_eq_some_iff, Option.some.injEq] at decoded
  obtain ⟨tmp, decoded, rfl⟩ := decoded
  exact reversed_quad decoded

theorem prevhashLoop_bytes {hex : List Char} (g : Nat) (long : 8 * g ≤ hex.length)
    {out : Vector Byte (4 * g)} (decoded : prevhashLoop hex g = some out) :
    out.toList = rev4 (decode (hex.take (8 * g))) := by
  induction g with
  | zero =>
      simp only [prevhashLoop, Option.some.injEq] at decoded
      subst decoded
      rfl
  | succ g ih =>
      simp only [prevhashLoop, Option.bind_eq_bind, Option.bind_eq_some_iff,
        Option.some.injEq] at decoded
      obtain ⟨front, decoded, tmp, isChunk, rfl⟩ := decoded
      have size : (hex.take (8 * g)).length = 8 * g := by
        rw [List.length_take, Nat.min_eq_left (by omega)]
      have cut : (decode (hex.take (8 * g))).length % 4 = 0 := by
        rw [length_decode, size]
        omega
      rw [show 8 * (g + 1) = 8 * g + 8 by omega, List.take_add, decode_append _ _ (by omega),
        rev4_append _ _ cut, ← ih (by omega) decoded, ← reversed_quad isChunk]
      exact Vector.toList_append

/-- The previous hash is reversed word by word. -/
theorem prevhashToHeaderBytes_bytes {hex : List Char} {out : Vector Byte 32}
    (decoded : prevhashToHeaderBytes hex = some out) : out.toList = rev4 (decode hex) := by
  unfold prevhashToHeaderBytes at decoded
  split at decoded
  · cases decoded
  · rename_i right
    have size : hex.length = 64 := not_not.mp right
    have bytes := prevhashLoop_bytes 8 (by omega) decoded
    rwa [List.take_of_length_le (by omega)] at bytes

/-! ## The merkle fold -/

theorem toList_sha256dData (data : List Byte) : (sha256dData data).toList = sha256d data := by
  simp [sha256dData, sha256d, Vector.toList]

theorem merkleStep_bytes {root out : Vector Byte 32} {branch : List Char}
    (stepped : merkleStep root branch = some out) :
    out.toList = sha256d (root.toList ++ decode branch) := by
  simp only [merkleStep, Option.bind_eq_bind, Option.bind_eq_some_iff, Option.some.injEq] at stepped
  obtain ⟨bytes, decoded, rfl⟩ := stepped
  rw [toList_sha256dData, hexToBytes_bytes decoded]

/-- The fold over the branches is that of the specification. -/
theorem merkle_bytes (merkle : List (List Char)) (root : Vector Byte 32) {out : Vector Byte 32}
    (folded : merkle.foldlM merkleStep root = some out) :
    out.toList = merkle.foldl (fun root branch => sha256d (root ++ decode branch)) root.toList := by
  induction merkle generalizing root with
  | nil =>
      simp only [List.foldlM_nil, Option.pure_def, Option.some.injEq] at folded
      rw [folded]
      rfl
  | cons branch rest ih =>
      simp only [List.foldlM_cons, Option.bind_eq_bind, Option.bind_eq_some_iff] at folded
      obtain ⟨next, stepped, folded⟩ := folded
      rw [ih next folded, merkleStep_bytes stepped, List.foldl_cons]

/-! ## The job -/

/-- A built header has the layout of the specification. -/
theorem minerBuildJob_header {jobId prevhash coinb1 coinb2 : List Char}
    {merkle : List (List Char)} {version nbits ntime extranonce1 extranonce2 : List Char}
    {difficulty : ℚ} {job : MinerJob}
    (built : minerBuildJob jobId prevhash coinb1 coinb2 merkle version nbits ntime extranonce1
      extranonce2 difficulty = some job) :
    job.header.toList = headerOf prevhash (coinb1 ++ extranonce1 ++ extranonce2 ++ coinb2) merkle
      version nbits ntime := by
  obtain ⟨coinbase, merkleRoot, versionLe, prevhashBytes, ntimeLe, nbitsLe, -, -, -, decoded, folded,
    isVersion, isPrevhash, isNtime, isNbits, -, -, isHeader⟩ := minerBuildJob_cases built
  have root : merkleRoot.toList =
      merkleRootOf (coinb1 ++ extranonce1 ++ extranonce2 ++ coinb2) merkle := by
    rw [merkle_bytes merkle _ folded, toList_sha256dData, hexToAlloc_bytes decoded]
    rfl
  rw [isHeader]
  simp only [Vector.toList_append, hexU32ToLe_bytes isVersion,
    prevhashToHeaderBytes_bytes isPrevhash, root, hexU32ToLe_bytes isNtime, hexU32ToLe_bytes isNbits]
  rfl

/-- **A job is built exactly when every text is what the header needs, and then
the header is the layout of the decoded texts.** -/
theorem job_built_iff_laid_out (jobId prevhash coinb1 coinb2 : List Char)
    (merkle : List (List Char)) (version nbits ntime extranonce1 extranonce2 : List Char)
    (difficulty : ℚ) :
    ((minerBuildJob jobId prevhash coinb1 coinb2 merkle version nbits ntime extranonce1 extranonce2
        difficulty).isSome ↔
      WellFormed jobId prevhash coinb1 coinb2 merkle version nbits ntime extranonce1
        extranonce2) ∧
    ∀ job, minerBuildJob jobId prevhash coinb1 coinb2 merkle version nbits ntime extranonce1
        extranonce2 difficulty = some job →
      job.header.toList = headerOf prevhash (coinb1 ++ extranonce1 ++ extranonce2 ++ coinb2) merkle
        version nbits ntime ∧
      job.target = minerTargetFromDifficulty difficulty := by
  constructor
  · exact minerBuildJob_isSome
  · intro job built
    obtain ⟨-, -, -, -, isTarget⟩ := minerBuildJob_fields built
    exact ⟨minerBuildJob_header built, isTarget⟩

end BtcRig.Mining.Layout
