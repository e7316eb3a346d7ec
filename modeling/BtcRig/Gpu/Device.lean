/-
# BtcRig.Gpu.Device — hashing one nonce on a device and storing its match

What the CUDA and the OpenCL sources share besides the compression: the target test,
the result buffer, and the routine that hashes one nonce.  The routine is written once
over the compression it calls; the sources instantiate it with theirs.

The result buffer is a counter and an array of words.  A match takes the slot that the
atomic increment returns, and is written only if there is room for it.  `Stored` says
what a stored match is, and `Reports` that a routine stores one exactly when the hash
meets the target.
-/
import BtcRig.Gpu.Macros

namespace BtcRig.Gpu.Device

open BtcRig.Theory.Words
open BtcRig.Theory.Sha256
open BtcRig.Gpu.Macros
open BtcRig.Hash.Sha256d (Sha256Midstate hashWordsMeetTarget midstateHash firstMessage secondMessage
  sha256d80MidstateHashFastC sha256d80MidstateHashFastC_eq toList_four toList_eight)

set_option autoImplicit false

/-! ## The routines -/

def meetsTargetWords (h t : Vector Word 8) : Bool :=
  if bswap32 h.word7 < t.word7 then true else if bswap32 h.word7 > t.word7 then false else
  if bswap32 h.word6 < t.word6 then true else if bswap32 h.word6 > t.word6 then false else
  if bswap32 h.word5 < t.word5 then true else if bswap32 h.word5 > t.word5 then false else
  if bswap32 h.word4 < t.word4 then true else if bswap32 h.word4 > t.word4 then false else
  if bswap32 h.word3 < t.word3 then true else if bswap32 h.word3 > t.word3 then false else
  if bswap32 h.word2 < t.word2 then true else if bswap32 h.word2 > t.word2 then false else
  if bswap32 h.word1 < t.word1 then true else if bswap32 h.word1 > t.word1 then false else
  if bswap32 h.word0 < t.word0 then true else if bswap32 h.word0 > t.word0 then false else
  true

/-- `*result_count` and the array `matches`. -/
structure Results where
  resultCount : Word
  cells : Word → Word

/-- The nine words of a match, at `base`. -/
def writeMatch (cells : Word → Word) (base nonce : Word) (h : Vector Word 8) : Word → Word :=
  let cells := Function.update cells base nonce
  let cells := Function.update cells (base + 1) h.word0
  let cells := Function.update cells (base + 2) h.word1
  let cells := Function.update cells (base + 3) h.word2
  let cells := Function.update cells (base + 4) h.word3
  let cells := Function.update cells (base + 5) h.word4
  let cells := Function.update cells (base + 6) h.word5
  let cells := Function.update cells (base + 7) h.word6
  Function.update cells (base + 8) h.word7

def storeMatchWords (nonce : Word) (h : Vector Word 8) (maxResults : Word) (r : Results) : Results :=
  let idx := r.resultCount
  let r := { r with resultCount := idx + 1 }
  if idx < maxResults then { r with cells := writeMatch r.cells (idx * 9) nonce h } else r

def initialWords : Vector Word 8 :=
  .ofEight 0x6a09e667 0xbb67ae85 0x3c6ef372 0xa54ff53a 0x510e527f 0x9b05688c 0x1f83d9ab 0x5be0cd19

/-- `w0=tail0, w1=tail1, w2=tail2, w3=bswap32(nonce), …, w15=640U`. -/
def firstWords (tail0 tail1 tail2 nonce : Word) : Vector Word 16 :=
  #v[tail0, tail1, tail2, bswap32 nonce, 0x80000000, 0, 0, 0, 0, 0, 0, 0, 0, 0, 0, 640]

/-- `w0=s0; … w7=s7; w8=0x80000000U; … w15=256U`. -/
def secondWords (s : Vector Word 8) : Vector Word 16 :=
  #v[s.word0, s.word1, s.word2, s.word3, s.word4, s.word5, s.word6, s.word7, 0x80000000, 0, 0, 0, 0, 0, 0, 256]

/-- Test one hash and store it. -/
def storeIfMet (target : Vector Word 8) (nonce : Word) (h : Vector Word 8) (maxResults : Word)
    (r : Results) : Results :=
  if meetsTargetWords h target then storeMatchWords nonce h maxResults r else r

def scanOneNonceWith (compress : Vector Word 8 → Vector Word 16 → Vector Word 8)
    (fast target : Vector Word 8) (tail0 tail1 tail2 nonce maxResults : Word) (r : Results) : Results :=
  let s := compress fast (firstWords tail0 tail1 tail2 nonce)
  let h := compress initialWords (secondWords s)
  storeIfMet target nonce h maxResults r

/-! ## The target test -/

/-- The comparison of a kernel is that of the portable scan. -/
theorem meetsTargetWords_eq (h t : Vector Word 8) : meetsTargetWords h t = hashWordsMeetTarget h t := by
  have digit (v : Vector Word 8) (i : Nat) (small : i < 8) : v.toList.getD i 0 = v[i] := by
    simp [List.getD_eq_getElem?_getD, small]
  simp only [hashWordsMeetTarget, leFrom, digit _ 7 (by omega), digit _ 6 (by omega),
    digit _ 5 (by omega), digit _ 4 (by omega), digit _ 3 (by omega), digit _ 2 (by omega),
    digit _ 1 (by omega), digit _ 0 (by omega), ← BitVec.lt_def, ← bswap32_eq]
  rfl

/-! ## Stored matches -/

/-- `after` is `before` with one more match stored, if there was room for it. -/
structure Stored (nonce : Word) (words : Vector Word 8) (maxResults : Word) (before after : Results) :
    Prop where
  counted : after.resultCount = before.resultCount + 1
  nonce : before.resultCount < maxResults → after.cells (before.resultCount * 9) = nonce
  words : before.resultCount < maxResults → ∀ i (hi : i < 8),
    after.cells (before.resultCount * 9 + BitVec.ofNat 32 (i + 1)) = words[i]
  frame : ∀ cell, (∀ i < 9, cell ≠ before.resultCount * 9 + BitVec.ofNat 32 i) →
    after.cells cell = before.cells cell
  full : ¬before.resultCount < maxResults → after.cells = before.cells

/-- Only the nine cells of the match are written. -/
theorem writeMatch_frame (cells : Word → Word) (base nonce : Word) (h : Vector Word 8) (cell : Word)
    (other : ∀ i < 9, cell ≠ base + BitVec.ofNat 32 i) :
    writeMatch cells base nonce h cell = cells cell := by
  have zero : cell ≠ base := by simpa using other 0 (by omega)
  rw [writeMatch, Function.update_of_ne (show cell ≠ base + 8 from other 8 (by omega)),
    Function.update_of_ne (show cell ≠ base + 7 from other 7 (by omega)),
    Function.update_of_ne (show cell ≠ base + 6 from other 6 (by omega)),
    Function.update_of_ne (show cell ≠ base + 5 from other 5 (by omega)),
    Function.update_of_ne (show cell ≠ base + 4 from other 4 (by omega)),
    Function.update_of_ne (show cell ≠ base + 3 from other 3 (by omega)),
    Function.update_of_ne (show cell ≠ base + 2 from other 2 (by omega)),
    Function.update_of_ne (show cell ≠ base + 1 from other 1 (by omega)), Function.update_of_ne zero]

theorem writeMatch_nonce (cells : Word → Word) (base nonce : Word) (h : Vector Word 8) :
    writeMatch cells base nonce h base = nonce := by
  simp [writeMatch]

theorem writeMatch_words (cells : Word → Word) (base nonce : Word) (h : Vector Word 8) (i : Nat)
    (hi : i < 8) : writeMatch cells base nonce h (base + BitVec.ofNat 32 (i + 1)) = h[i] := by
  interval_cases i <;> simp [writeMatch]

/-- `store_match_words` stores the match where there is room, and counts it in any case. -/
theorem storeMatchWords_stored (nonce : Word) (h : Vector Word 8) (maxResults : Word) (r : Results) :
    Stored nonce h maxResults r (storeMatchWords nonce h maxResults r) := by
  unfold storeMatchWords
  dsimp only
  split
  · rename_i room
    exact ⟨rfl, fun _ => writeMatch_nonce _ _ _ _, fun _ => writeMatch_words _ _ _ _,
      writeMatch_frame _ _ _ _, fun full => absurd room full⟩
  · rename_i full
    exact ⟨rfl, fun room => absurd room full, fun room => absurd room full, fun _ _ => rfl,
      fun _ => rfl⟩

/-- The routine stores a match of `nonce` exactly when its hash words meet the target. -/
def Reports (target : Vector Word 8) (nonce : Word) (words : Vector Word 8) (maxResults : Word)
    (before after : Results) : Prop :=
  (Stored nonce words maxResults before after ↔ hashWordsMeetTarget words target = true) ∧
    (¬hashWordsMeetTarget words target = true → after = before)

/-- A hash is reported exactly if it meets the target. -/
theorem storeIfMet_reports (target : Vector Word 8) (nonce : Word) (words : Vector Word 8)
    (maxResults : Word) (r : Results) :
    Reports target nonce words maxResults r (storeIfMet target nonce words maxResults r) := by
  unfold storeIfMet
  rw [meetsTargetWords_eq]
  split
  · rename_i met
    exact ⟨⟨fun _ => met, fun _ => storeMatchWords_stored nonce words maxResults r⟩, absurd met⟩
  · rename_i unmet
    refine ⟨⟨fun stored => ?_, fun met => absurd met unmet⟩, fun _ => rfl⟩
    -- an unchanged counter is not a counted match
    have counted := stored.counted
    simp at counted

/-! ## One nonce -/

/-- A compression of sixteen words is the standard one. -/
def Compresses (routine : Vector Word 8 → Vector Word 16 → Vector Word 8) : Prop :=
  ∀ s w, routine s w = compress s w.toList

/-- The words the portable double hash computes for a nonce. -/
def fastWords (state : Sha256Midstate) (tail0 tail1 tail2 nonce : Word) : Vector Word 8 :=
  sha256d80MidstateHashFastC state #v[tail0, tail1, tail2, Hash.Sha256d.bswap32 nonce]

/-- Both compressions of a routine, one after the other, are the portable double hash. -/
theorem two_compressions {routine : Vector Word 8 → Vector Word 16 → Vector Word 8}
    (compresses : Compresses routine) (state : Sha256Midstate) (tail0 tail1 tail2 nonce : Word) :
    routine initialWords (secondWords (routine state.fastState (firstWords tail0 tail1 tail2 nonce))) =
      fastWords state tail0 tail1 tail2 nonce := by
  have first : (firstWords tail0 tail1 tail2 nonce).toList =
      firstMessage (#v[tail0, tail1, tail2, Hash.Sha256d.bswap32 nonce] : Vector Word 4).toList := by
    rw [← bswap32_eq]
    rfl
  have second (s : Vector Word 8) : (secondWords s).toList = secondMessage s.toList := by
    rw [toList_eight]
    rfl
  rw [compresses, compresses, first, second, fastWords, sha256d80MidstateHashFastC_eq]
  rfl

/-- Any correct compression makes a routine that reports its nonce as it should. -/
theorem scanOneNonceWith_reports {routine : Vector Word 8 → Vector Word 16 → Vector Word 8}
    (compresses : Compresses routine) (state : Sha256Midstate) (target : Vector Word 8)
    (tail0 tail1 tail2 nonce maxResults : Word) (r : Results) :
    Reports target nonce (fastWords state tail0 tail1 tail2 nonce) maxResults r
      (scanOneNonceWith routine state.fastState target tail0 tail1 tail2 nonce maxResults r) := by
  rw [scanOneNonceWith, two_compressions compresses state]
  exact storeIfMet_reports target nonce _ maxResults r

end BtcRig.Gpu.Device
