/-
# BtcRig.Bench.SelfCheck — the check that the benchmark starts with

Before it measures anything, `main.c` runs every backend there is over a header of its
own: the split hash for four nonces, then the range scan for five, against `sha256d_80`.

* `checkNonces_passes`, `rangeCheck_passes`: no backend can fail, with any header;
* `self_check_accepts`: so the check accepts every build on every machine, and what it
  promises of the sample holds of every header and range.
-/
import BtcRig.Hash.Dispatch
import BtcRig.Mining.PoolView

namespace BtcRig.Bench.SelfCheck

open BtcRig.Theory
open BtcRig.Theory.Words
open BtcRig.Theory.Sha256
open BtcRig.Hash
open BtcRig.Hash.Sha256d
open BtcRig.Hash.Scan
open BtcRig.Hash.Dispatch (Build Sha256dBackend sha256dBackendAvailable sha256dSetBackend selected)
open BtcRig.Mining.State (zeroJob activate hashOfWords)
open BtcRig.Mining.PoolView (tailWordsOf_withNonce sha256d80_withNonce)

set_option autoImplicit false

/-- `store_le32(&header[76], nonce)`. -/
def storeNonce (header : Vector Byte 80) (nonce : Word) : Vector Byte 80 :=
  (((header.setIfInBounds 76 (byteAt nonce 0)).setIfInBounds 77 (byteAt nonce 1)).setIfInBounds 78
    (byteAt nonce 2)).setIfInBounds 79 (byteAt nonce 3)

def makeTestHeader : Vector Byte 80 :=
  let header := Vector.replicate 80 0
  let header := header.setIfInBounds 0 0x01
  let header := header.setIfInBounds 68 0xff
  let header := header.setIfInBounds 69 0xff
  let header := header.setIfInBounds 70 0x00
  header.setIfInBounds 71 0x1d

structure RangeSelfCheck where
  header : Vector Byte 80
  expectedNonce : Word
  seen : Nat
  failed : Bool

def rangeSelfCheckMatch (ctx : RangeSelfCheck) (nonce : Word) (hashWords : Vector Word 8) :
    RangeSelfCheck :=
  if nonce ≠ ctx.expectedNonce + BitVec.ofNat 32 ctx.seen then { ctx with failed := true }
  else
    let ctx := { ctx with header := storeNonce ctx.header nonce }
    if sha256d80 ctx.header.toList ≠ sha256dWordsToHash hashWords then { ctx with failed := true }
    else { ctx with seen := ctx.seen + 1 }

/-- The loop over the sample; the header it leaves, or `none` where it returns. -/
def checkNonces (build : Build) (gBackend : Sha256dBackend) (midstate : Sha256Midstate) :
    Vector Byte 80 → List Word → Option (Vector Byte 80)
  | header, [] => some header
  | header, nonce :: nonces =>
      let header := storeNonce header nonce
      if sha256d80 header.toList ≠
          Dispatch.sha256d80MidstateHash build gBackend midstate (header.toList.drop 64) then none
      else checkNonces build gBackend midstate header nonces

def rangeCheck (build : Build) (gBackend : Sha256dBackend) (midstate : Sha256Midstate)
    (header : Vector Byte 80) (rangeCheckCount : Word) : RangeSelfCheck :=
  let tailWords := Vector.ofFn fun i : Fin 4 => loadBe32 (header.toList.drop (64 + i * 4))
  let targetWords := Vector.replicate 8 0xffffffff
  (Dispatch.sha256dNonceRangeFunc build gBackend midstate tailWords targetWords 0
    rangeCheckCount).foldl (fun ctx m => rangeSelfCheckMatch ctx m.1 m.2) ⟨header, 0, 0, false⟩

/-- The backend left in use, and the return code. -/
def sha256dSelfCheckBackend (build : Build) (gBackend backend : Sha256dBackend) :
    Sha256dBackend × Int :=
  let rangeCheckCount : Word := 5
  let nonces : List Word := [0, 1, 0x13579bdf, 0xffffffff]
  let set := sha256dSetBackend build gBackend backend
  if set.2 ≠ 0 then (set.1, -1)
  else
    let header := makeTestHeader
    let midstate := sha256d80MidstatePrepare (header.toList.take 64)
    match checkNonces build set.1 midstate header nonces with
    | none => (set.1, -1)
    | some header =>
        let check := rangeCheck build set.1 midstate header rangeCheckCount
        if check.failed ∨ check.seen ≠ rangeCheckCount.toNat then (set.1, -1) else (set.1, 0)

def sha256dSelfCheck (build : Build) (gBackend : Sha256dBackend) : Sha256dBackend × Int :=
  let checked := sha256dSelfCheckBackend build gBackend .openssl
  if checked.2 ≠ 0 then (checked.1, -1)
  else
    let checked := sha256dSelfCheckBackend build checked.1 .fastC
    if checked.2 ≠ 0 then (checked.1, -1)
    else
      let checkedArm :=
        if sha256dBackendAvailable build .armSha2 then sha256dSelfCheckBackend build checked.1 .armSha2
        else (checked.1, 0)
      if checkedArm.2 ≠ 0 then (checkedArm.1, -1)
      else
        let checkedX86 :=
          if sha256dBackendAvailable build .x86ShaNi then
            sha256dSelfCheckBackend build checkedArm.1 .x86ShaNi
          else (checkedArm.1, 0)
        if checkedX86.2 ≠ 0 then (checkedX86.1, -1) else (checkedX86.1, 0)

/-! ## The header with a nonce stored -/

theorem storeNonce_toList (header : Vector Byte 80) (nonce : Word) :
    (storeNonce header nonce).toList = header.toList.take 76 ++
      [byteAt nonce 0, byteAt nonce 1, byteAt nonce 2, byteAt nonce 3] := by
  have size : (header.toList.take 76).length = 76 := by simp
  apply List.ext_getElem (by simp)
  intro i inside _
  rw [Vector.length_toList] at inside
  by_cases before : i < 76
  · rw [List.getElem_append_left (by omega)]
    simp only [storeNonce, Vector.getElem_toList, List.getElem_take]
    repeat rw [Vector.getElem_setIfInBounds_ne (by omega) (by omega)]
  · rw [List.getElem_append_right (by omega)]
    obtain rfl | rfl | rfl | rfl : i = 76 ∨ i = 77 ∨ i = 78 ∨ i = 79 := by omega
    all_goals simp [storeNonce]

theorem storeNonce_take (header : Vector Byte 80) (nonce : Word) {n : Nat} (before : n ≤ 76) :
    (storeNonce header nonce).toList.take n = header.toList.take n := by
  rw [storeNonce_toList, List.take_append_of_le_length (by simpa using before), List.take_take,
    Nat.min_eq_left before]

/-- The loop that tries the sample never returns early. -/
theorem checkNonces_passes (build : Build) (gBackend : Sha256dBackend) (nonces : List Word) :
    ∀ header : Vector Byte 80, checkNonces build gBackend
      (sha256d80MidstatePrepare (header.toList.take 64)) header nonces =
        some (nonces.foldl storeNonce header) := by
  induction nonces with
  | nil => exact fun header => rfl
  | cons nonce nonces ih =>
      intro header
      have hash := Dispatch.midstateHash_header build gBackend (storeNonce header nonce)
      have rest := ih (storeNonce header nonce)
      rw [storeNonce_take header nonce (by omega)] at hash rest
      rw [checkNonces, hash, if_neg (by simp), rest, List.foldl_cons]

/-! ## The scan of the sample range -/

theorem leFrom_of_le {h t : Nat → Nat} (n : Nat) (below : ∀ i < n, h i ≤ t i) :
    leFrom h t n = true := by
  induction n with
  | zero => rfl
  | succ n ih =>
      rw [leFrom, if_neg (Nat.not_lt.mpr (below n (by omega)))]
      split
      · rfl
      · exact ih fun i less => below i (by omega)

/-- Nothing is above the highest target. -/
theorem meets_highest (hashWords : Vector Word 8) :
    hashWordsMeetTarget hashWords (Vector.replicate 8 0xffffffff) = true := by
  apply leFrom_of_le
  intro i inside
  have top : (Vector.replicate 8 (0xffffffff : Word)).toList.getD i 0 = 0xffffffff := by
    rw [Vector.toList_replicate]
    exact List.getD_replicate (0xffffffff : Word) inside
  have most : (0xffffffff : Word).toNat = 2 ^ 32 - 1 := rfl
  have word := (bswap32 (hashWords.toList.getD i 0)).isLt
  rw [top, most]
  omega

/-- What the scan calls back with. -/
def reports (header : Vector Byte 80) (i : Nat) : Word × Vector Word 8 :=
  (BitVec.ofNat 32 i, midstateHash (sha256d80MidstatePrepare (header.toList.take 64)).fastState
    (withNonce (Vector.ofFn fun i : Fin 4 => loadBe32 (header.toList.drop (64 + i * 4)))
      (BitVec.ofNat 32 i)))

theorem scan_reports (build : Build) (gBackend : Sha256dBackend) (header : Vector Byte 80)
    (count : Word) :
    Dispatch.sha256dNonceRangeFunc build gBackend (sha256d80MidstatePrepare (header.toList.take 64))
        (Vector.ofFn fun i : Fin 4 => loadBe32 (header.toList.drop (64 + i * 4)))
        (Vector.replicate 8 0xffffffff) 0 count =
      (List.range count.toNat).map (reports header) := by
  have full : (header.toList.take 64).length = 64 := by simp
  rw [Dispatch.nonceRangeFunc_prepare build gBackend full, sha256dScanNonceRangeGeneric_fastC,
    List.map_eq_flatMap]
  refine List.flatMap_congr fun i _ => ?_
  rw [reportAt, reportMatch, if_pos (meets_highest _), reports, BitVec.ofNat_eq_ofNat,
    BitVec.zero_add]

/-- A reported hash is the plain double hash of the header with its nonce. -/
theorem reports_hash (header : Vector Byte 80) (i : Nat) :
    sha256dWordsToHash (reports header i).2 =
      sha256d80 (storeNonce header (BitVec.ofNat 32 i)).toList := by
  have plain := sha256d80_withNonce .fastC { zeroJob with header := header } (BitVec.ofNat 32 i)
  rw [sha256dTailWordsFunc, sha256d80MidstateHashFastC_eq] at plain
  rw [storeNonce_toList]
  exact plain.symm

/-- After `n` callbacks none has failed, and all were counted. -/
theorem callbacks (header : Vector Byte 80) (n : Nat) :
    ∃ stored : Vector Byte 80, stored.toList.take 76 = header.toList.take 76 ∧
      ((List.range n).map (reports header)).foldl (fun ctx m => rangeSelfCheckMatch ctx m.1 m.2)
        ⟨header, 0, 0, false⟩ = ⟨stored, 0, n, false⟩ := by
  induction n with
  | zero => exact ⟨header, rfl, rfl⟩
  | succ n ih =>
      obtain ⟨stored, same, folded⟩ := ih
      have next : (storeNonce stored (BitVec.ofNat 32 n)).toList =
          (storeNonce header (BitVec.ofNat 32 n)).toList := by
        rw [storeNonce_toList, storeNonce_toList, same]
      refine ⟨storeNonce stored (BitVec.ofNat 32 n), ?_, ?_⟩
      · rw [storeNonce_take stored _ le_rfl, same]
      · have isNext : ¬((reports header n).1 ≠ 0 + BitVec.ofNat 32 n) := by
          rw [BitVec.ofNat_eq_ofNat, BitVec.zero_add]
          exact not_not.mpr rfl
        rw [List.range_succ, List.map_append, List.foldl_append, folded, List.map_singleton,
          List.foldl_cons, List.foldl_nil, rangeSelfCheckMatch, if_neg isNext]
        have isHash : ¬(sha256d80 (storeNonce stored (reports header n).1).toList ≠
            sha256dWordsToHash (reports header n).2) := by
          rw [reports_hash]
          exact not_not.mpr (congrArg sha256d80 next)
        simp only [if_neg isHash]
        rfl

theorem rangeCheck_passes (build : Build) (gBackend : Sha256dBackend) (header : Vector Byte 80)
    (count : Word) :
    let check := rangeCheck build gBackend (sha256d80MidstatePrepare (header.toList.take 64)) header
      count
    check.failed = false ∧ check.seen = count.toNat := by
  obtain ⟨stored, -, folded⟩ := callbacks header count.toNat
  intro check
  have whole : check = ⟨stored, 0, count.toNat, false⟩ := by
    rw [← folded, ← scan_reports build gBackend header count]
    rfl
  rw [whole]
  exact ⟨rfl, rfl⟩

/-! ## The check -/

theorem foldl_storeNonce_take (nonces : List Word) :
    ∀ header : Vector Byte 80, (nonces.foldl storeNonce header).toList.take 64 = header.toList.take 64 := by
  induction nonces with
  | nil => exact fun header => rfl
  | cons nonce nonces ih =>
      intro header
      rw [List.foldl_cons, ih, storeNonce_take header nonce (by omega)]

theorem sha256dSelfCheckBackend_ok {build : Build} {backend : Sha256dBackend}
    (available : sha256dBackendAvailable build backend = true) (gBackend : Sha256dBackend) :
    sha256dSelfCheckBackend build gBackend backend = (backend, 0) := by
  have set : sha256dSetBackend build gBackend backend = (backend, 0) := by
    rw [sha256dSetBackend, available]
    rfl
  unfold sha256dSelfCheckBackend
  generalize makeTestHeader = header
  simp only [set, checkNonces_passes, ne_eq, not_true_eq_false, if_false]
  rw [← foldl_storeNonce_take [0, 1, 0x13579bdf, 0xffffffff] header]
  obtain ⟨unfailed, seen⟩ := rangeCheck_passes build backend
    ([0, 1, 0x13579bdf, 0xffffffff].foldl storeNonce header) 5
  rw [if_neg]
  rw [unfailed, seen]
  simp

/-- A backend that there is not is left out. -/
theorem checkIfAvailable_ok (build : Build) (gBackend backend : Sha256dBackend) :
    (if sha256dBackendAvailable build backend then sha256dSelfCheckBackend build gBackend backend
      else (gBackend, 0)).2 = 0 := by
  split
  · rename_i available
    rw [sha256dSelfCheckBackend_ok available]
  · rfl

theorem sha256dSelfCheck_ok (build : Build) (gBackend : Sha256dBackend) :
    (sha256dSelfCheck build gBackend).2 = 0 := by
  have openssl : ∀ g, sha256dSelfCheckBackend build g .openssl = (.openssl, 0) :=
    sha256dSelfCheckBackend_ok rfl
  have fastC : ∀ g, sha256dSelfCheckBackend build g .fastC = (.fastC, 0) :=
    sha256dSelfCheckBackend_ok rfl
  simp only [sha256dSelfCheck, openssl, fastC, checkIfAvailable_ok, ne_eq, not_true_eq_false, if_false]

/-- **No backend differs.**  Whatever the build has, whatever the machine can do and whatever
was asked for, the backend in use is one that there is, its split hash is the plain double
hash of every header, and its range scan calls back with exactly the portable matches of every
range and target.  So the start-up check always accepts. -/
theorem self_check_accepts (build : Build) (asked : List (Option (List Char) ⊕ Sha256dBackend)) :
    let gBackend := selected build asked
    sha256dBackendAvailable build gBackend = true ∧
      (sha256dSelfCheck build gBackend).2 = 0 ∧
      ∀ header : Vector Byte 80,
        let midstate := sha256d80MidstatePrepare (header.toList.take 64)
        Dispatch.sha256d80MidstateHash build gBackend midstate (header.toList.drop 64) =
            sha256d80 header.toList ∧
          ∀ tailWords targetWords startNonce nonceCount,
            Dispatch.sha256dNonceRangeFunc build gBackend midstate tailWords targetWords startNonce
                nonceCount =
              sha256dScanNonceRangeGeneric .openssl midstate tailWords targetWords startNonce
                nonceCount := by
  intro gBackend
  refine ⟨Dispatch.selected_available build asked, sha256dSelfCheck_ok build gBackend, ?_⟩
  intro header midstate
  refine ⟨Dispatch.midstateHash_header build gBackend header, ?_⟩
  intro tailWords targetWords startNonce nonceCount
  have full : (header.toList.take 64).length = 64 := by simp
  have same : ∀ tail, sha256dTailWordsFunc .openssl midstate tail =
      sha256dTailWordsFunc .fastC midstate tail := fun tail => by
    rw [sha256dTailWordsFunc_prepare .openssl _ full, sha256dTailWordsFunc_prepare .fastC _ full]
  rw [Dispatch.nonceRangeFunc_prepare build gBackend full]
  simp only [sha256dScanNonceRangeGeneric, same]
  rfl

end BtcRig.Bench.SelfCheck
