/-
# BtcRig.Hash.Scan — a nonce range scanned two nonces at a time

Both vector scanners hash nonces in pairs, with one more single hash for an odd
count.  `pairedScan` is that loop with the two hashes as parameters;
`pairedScan_eq_generic` says that it reports what the generic scan reports, in the
same order, for every 32-bit count, as soon as both hashes are the midstate hash.
-/
import BtcRig.Hash.Sha256d

namespace BtcRig.Hash.Scan

open BtcRig.Theory.Words
open BtcRig.Theory.Sha256
open BtcRig.Hash.Sha256d

set_option autoImplicit false

/-- The tail words of one nonce. -/
def withNonce (base : Vector Word 4) (nonce : Word) : Vector Word 4 := base.setQuad3 (bswap32 nonce)

/-- The `on_match` call for one hashed nonce, if the target is met. -/
def reportMatch (targetWords : Vector Word 8) (nonce : Word) (hashWords : Vector Word 8) :
    List (Word × Vector Word 8) :=
  if hashWordsMeetTarget hashWords targetWords then [(nonce, hashWords)] else []

/-- Iteration `j` of the pair loop is index `i = 2 * j`. -/
def pairedScan (hashPair : Word → Word → Vector Word 8 × Vector Word 8) (hashOne : Word → Vector Word 8)
    (targetWords : Vector Word 8) (startNonce nonceCount : Word) : List (Word × Vector Word 8) :=
  let pairedCount := nonceCount &&& ~~~(1 : Word)
  let pairs := (List.range (pairedCount.toNat / 2)).flatMap fun j =>
    let nonceA := startNonce + BitVec.ofNat 32 (2 * j)
    let nonceB := nonceA + 1
    let (hashWordsA, hashWordsB) := hashPair nonceA nonceB
    reportMatch targetWords nonceA hashWordsA ++ reportMatch targetWords nonceB hashWordsB
  let last := if pairedCount < nonceCount then
      let nonce := startNonce + pairedCount
      reportMatch targetWords nonce (hashOne nonce)
    else []
  pairs ++ last

/-- A loop that takes two indices at a time visits what the plain loop visits. -/
theorem flatMap_pairs {α : Type} (f : Nat → List α) (m : Nat) :
    (List.range m).flatMap (fun j => f (2 * j) ++ f (2 * j + 1)) = (List.range (2 * m)).flatMap f := by
  induction m with
  | zero => rfl
  | succ m ih =>
      rw [List.range_succ, List.flatMap_append, ih, show 2 * (m + 1) = 2 * m + 1 + 1 by omega,
        List.range_succ, List.range_succ]
      simp

/-- What one index of the generic scan reports. -/
def reportAt (state : Sha256Midstate) (base : Vector Word 4) (target : Vector Word 8)
    (start : Word) (i : Nat) : List (Word × Vector Word 8) :=
  reportMatch target (start + BitVec.ofNat 32 i)
    (midstateHash state.fastState (withNonce base (start + BitVec.ofNat 32 i)))

theorem sha256dScanNonceRangeGeneric_fastC (state : Sha256Midstate) (base : Vector Word 4)
    (target : Vector Word 8) (start count : Word) :
    sha256dScanNonceRangeGeneric .fastC state base target start count =
      (List.range count.toNat).flatMap (reportAt state base target start) := by
  have one : ∀ (nonce : Word) (hash : Vector Word 8),
      (if hashWordsMeetTarget hash target then some (nonce, hash) else none).toList =
        reportMatch target nonce hash := by
    intro nonce hash
    unfold reportMatch
    split <;> rfl
  rw [sha256dScanNonceRangeGeneric, List.filterMap_eq_flatMap_toList]
  congr 1
  funext i
  simp only [sha256dTailWordsFunc, sha256d80MidstateHashFastC_eq, one]
  rfl

theorem pairedCount_toNat (count : Word) :
    (count &&& ~~~(1 : Word)).toNat = 2 * (count.toNat / 2) := by
  have bits : count &&& ~~~(1 : Word) = (count >>> 1) <<< 1 := by
    ext i hi
    simp only [BitVec.getElem_and, BitVec.getElem_not, BitVec.getElem_shiftLeft,
      BitVec.getElem_ushiftRight]
    grind
  have := count.isLt
  rw [bits, BitVec.toNat_shiftLeft, BitVec.toNat_ushiftRight, Nat.shiftRight_eq_div_pow,
    Nat.shiftLeft_eq]
  omega

theorem pairedScan_eq_generic (state : Sha256Midstate) (base : Vector Word 4) (target : Vector Word 8)
    (start count : Word) {hashPair : Word → Word → Vector Word 8 × Vector Word 8}
    {hashOne : Word → Vector Word 8}
    (isPair : ∀ a b, hashPair a b = (midstateHash state.fastState (withNonce base a),
      midstateHash state.fastState (withNonce base b)))
    (isOne : ∀ nonce, hashOne nonce = midstateHash state.fastState (withNonce base nonce)) :
    pairedScan hashPair hashOne target start count =
      sha256dScanNonceRangeGeneric .fastC state base target start count := by
  have paired := pairedCount_toNat count
  have asNat : count &&& ~~~(1 : Word) = BitVec.ofNat 32 (2 * (count.toNat / 2)) := by
    rw [← paired, BitVec.ofNat_toNat, BitVec.setWidth_eq]
  have next : ∀ j, start + BitVec.ofNat 32 (2 * j) + 1 = start + BitVec.ofNat 32 (2 * j + 1) := by
    intro j
    rw [BitVec.add_assoc, BitVec.ofNat_add]
    rfl
  have odd : count &&& ~~~(1 : Word) < count ↔ 2 * (count.toNat / 2) < count.toNat := by
    rw [BitVec.lt_def, paired]
  have body : pairedScan hashPair hashOne target start count =
      (List.range (count.toNat / 2)).flatMap (fun j =>
        reportAt state base target start (2 * j) ++ reportAt state base target start (2 * j + 1)) ++
      if 2 * (count.toNat / 2) < count.toNat then
        reportAt state base target start (2 * (count.toNat / 2)) else [] := by
    simp only [pairedScan, isPair, isOne, paired, odd, next,
      Nat.mul_div_cancel_left _ (show 0 < 2 by omega)]
    simp only [asNat, reportAt]
  rw [body, flatMap_pairs, sha256dScanNonceRangeGeneric_fastC]
  rcases Nat.mod_two_eq_zero_or_one count.toNat with even | isOdd
  · have whole : 2 * (count.toNat / 2) = count.toNat := by omega
    rw [whole, if_neg (Nat.lt_irrefl _), List.append_nil]
  · have split : count.toNat = 2 * (count.toNat / 2) + 1 := by omega
    rw [if_pos (by omega)]
    conv_rhs => rw [split, List.range_succ, List.flatMap_append]
    simp

/-- The tail words of a nonce, one by one. -/
theorem withNonce_getElem (base : Vector Word 4) (nonce : Word) :
    (withNonce base nonce).quad0 = base.quad0 ∧ (withNonce base nonce).quad1 = base.quad1 ∧
      (withNonce base nonce).quad2 = base.quad2 ∧ (withNonce base nonce).quad3 = bswap32 nonce := by
  simp [withNonce]

theorem length_firstMessage (tail : Vector Word 4) : (firstMessage tail.toList).length = 16 := by
  simp [firstMessage]

theorem length_secondMessage (words : Vector Word 8) :
    (secondMessage words.toList).length = 16 := by
  simp [secondMessage]

end BtcRig.Hash.Scan
