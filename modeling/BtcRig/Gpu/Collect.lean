/-
# BtcRig.Gpu.Collect — collecting the matches of all threads

A thread that finds a match increments `*result_count` atomically and then stores nine
words one after the other; the steps of different threads come in any order.  A
schedule is the list of the threads that move, so "for every order" is "for every
schedule".  A step also says which word it writes.

`Inv` holds after every step: the matches claimed so far, in the order of their
increments, own the slots, and each word of a slot is the owner's or still to be stored
by a thread.  `results_collected` is what the host then reads.
-/
import BtcRig.Gpu.Device
import BtcRig.Gpu.Launch
import BtcRig.Theory.Machine

namespace BtcRig.Gpu.Collect

open BtcRig.Theory.Words
open BtcRig.Theory.Machine
open BtcRig.Gpu.Device (Results storeMatchWords writeMatch meetsTargetWords)
open BtcRig.Gpu.Launch (ScansExactly)

set_option autoImplicit false

/-! ## Threads -/

structure Match where
  nonce : Word
  words : Vector Word 8
deriving DecidableEq

/-- The nine words of a record: the nonce, then the hash. -/
def Match.word (found : Match) (j : Nat) : Word := (found.nonce :: found.words.toList).getD j 0

/-- A `store_match_words` that has its slot; `next` is the word it stores next. -/
structure Storing where
  found : Match
  idx : Word
  next : Nat
deriving DecidableEq

/-- The matches a thread has not come to yet, and the one it is storing. -/
structure Thread where
  todo : List Match
  storing : Option Storing

/-- One access of a thread to the result buffer, with the addresses it writes. -/
def Thread.step (maxResults : Word) (thread : Thread) (r : Results) : Thread × Results × List Word :=
  match thread.storing, thread.todo with
  | none, [] => (thread, r, [])
  | none, found :: rest =>
      let idx := r.resultCount
      let storing := if idx < maxResults then some ⟨found, idx, 0⟩ else none
      (⟨rest, storing⟩, { r with resultCount := idx + 1 }, [])
  | some st, todo =>
      let address := st.idx * 9 + BitVec.ofNat 32 st.next
      let storing := if st.next < 8 then some { st with next := st.next + 1 } else none
      (⟨todo, storing⟩, { r with cells := Function.update r.cells address (st.found.word st.next) },
        [address])

structure Grid where
  results : Results
  threads : List Thread

def gridStep (maxResults : Word) (s : Grid) (t : Nat) : Grid × List Word :=
  match s.threads[t]? with
  | none => (s, [])
  | some thread =>
      let (thread, results, written) := thread.step maxResults s.results
      (⟨results, s.threads.set t thread⟩, written)

/-- Before the launch: the counter is cleared, the buffer holds anything. -/
def launched (cells : Word → Word) (found : List (List Match)) : Grid :=
  ⟨⟨0, cells⟩, found.map fun todo => ⟨todo, none⟩⟩

/-- Every thread has returned. -/
def Returned (s : Grid) : Prop := ∀ thread ∈ s.threads, thread.todo = [] ∧ thread.storing = none

instance (s : Grid) : Decidable (Returned s) :=
  inferInstanceAs (Decidable (∀ thread ∈ s.threads, thread.todo = [] ∧ thread.storing = none))

/-! ## The host -/

/-- The words that are copied back. -/
def copied (limited : Word) (r : Results) : List Word :=
  (List.range (limited.toNat * 9)).map fun n => r.cells (BitVec.ofNat 32 n)

/-- `on_match(opaque, item[0], &item[1])`. -/
def onMatch (matches_ : List Word) (item : Nat) : Match :=
  ⟨matches_.getD item 0, Vector.ofFn fun k : Fin 8 => matches_.getD (item + 1 + k) 0⟩

/-- The read-back of `cuda_miner_scan`. -/
def cudaReadBack (maxResults : Word) (r : Results) : List Match :=
  let count := r.resultCount
  if count = 0 then []
  else
    let limited := if count < maxResults then count else maxResults
    (List.range limited.toNat).map fun i => onMatch (copied limited r) (BitVec.ofNat 32 i * 9).toNat

/-- The read-back of `opencl_miner_scan`. -/
def openclReadBack (maxResults : Word) (r : Results) : List Match :=
  let count := r.resultCount
  if count = 0 then []
  else
    let stored := if count > maxResults then maxResults else count
    (List.range stored.toNat).map fun i => onMatch (copied stored r) (i * 9)

/-! ## One thread -/

@[simp] theorem word_zero (found : Match) : found.word 0 = found.nonce := rfl

theorem word_succ (found : Match) (j : Nat) (bound : j < 8) : found.word (j + 1) = found.words[j] := by
  simp [Match.word, bound]

/-! ## The invariant -/

/-- `order` is the matches with a slot, in the order of their increments. -/
structure Inv (maxResults : Word) (found : List Match) (s : Grid) (order : List Match) : Prop where
  counted : s.results.resultCount.toNat = order.length
  complete : (order ++ s.threads.flatMap Thread.todo).Perm found
  owner : ∀ thread ∈ s.threads, ∀ st, thread.storing = some st →
    ∃ i, st.idx = BitVec.ofNat 32 i ∧ i < maxResults.toNat ∧ order[i]? = some st.found ∧ st.next < 9
  stored : ∀ i owner, order[i]? = some owner → i < maxResults.toNat → ∀ j < 9,
    s.results.cells (BitVec.ofNat 32 (i * 9 + j)) = owner.word j ∨
      ∃ thread ∈ s.threads, ∃ st, thread.storing = some st ∧ st.idx = BitVec.ofNat 32 i ∧ st.next ≤ j

section Step

variable {maxResults : Word} {found : List Match} {s : Grid} {order : List Match}

theorem inv_launched (maxResults : Word) (cells : Word → Word) (found : List (List Match)) :
    Inv maxResults found.flatten (launched cells found) [] where
  counted := rfl
  complete := by
    rw [launched, List.nil_append, List.flatMap_map]
    exact List.Perm.of_eq List.flatMap_id'
  owner := by
    intro thread member st storing
    obtain ⟨todo, _, rfl⟩ := List.mem_map.mp member
    contradiction
  stored := by
    intro i owner has
    contradiction

theorem address_eq (i j : Nat) :
    BitVec.ofNat 32 i * 9 + BitVec.ofNat 32 j = BitVec.ofNat 32 (i * 9 + j) := by
  rw [BitVec.ofNat_add, BitVec.ofNat_mul]
  rfl

/-- Two words of the buffer with the same address are one word. -/
theorem address_inj (room : maxResults.toNat * 9 < 2 ^ 32) {i j i' j' : Nat}
    (inside : i < maxResults.toNat) (inside' : i' < maxResults.toNat) (word : j < 9) (word' : j' < 9)
    (same : BitVec.ofNat 32 (i * 9 + j) = BitVec.ofNat 32 (i' * 9 + j')) : i = i' ∧ j = j' := by
  have values := congrArg BitVec.toNat same
  rw [BitVec.toNat_ofNat, BitVec.toNat_ofNat, Nat.mod_eq_of_lt (by omega),
    Nat.mod_eq_of_lt (by omega)] at values
  omega

/-- A thread of the grid, between the others. -/
theorem threads_split {t : Nat} {thread : Thread} (isThread : s.threads[t]? = some thread) :
    ∃ before after, s.threads = before ++ thread :: after ∧
      ∀ thread', s.threads.set t thread' = before ++ thread' :: after := by
  obtain ⟨bound, isThread⟩ := List.getElem?_eq_some_iff.mp isThread
  refine ⟨s.threads.take t, s.threads.drop (t + 1), ?_, fun thread' => ?_⟩
  · rw [← isThread, List.getElem_cons_drop, List.take_append_drop]
  · exact List.set_eq_take_append_cons_drop.trans (if_pos bound)

/-- An element after a replacement is the new one or was there before. -/
theorem mem_replaced {α : Type} {before after : List α} {x y z : α} (member : z ∈ before ++ y :: after) :
    z = y ∨ z ∈ before ++ x :: after := by
  simp only [List.mem_append, List.mem_cons] at member ⊢
  tauto

/-- The increment gives the next slot to the match. -/
theorem inv_claim {before after : List Thread} {claimed : Match} {rest : List Match}
    {cells : Word → Word} {count : Word} (few : found.length < 2 ^ 32)
    (inv : Inv maxResults found ⟨⟨count, cells⟩, before ++ ⟨claimed :: rest, none⟩ :: after⟩ order) :
    Inv maxResults found
      ⟨⟨count + 1, cells⟩, before ++
        ⟨rest, if count < maxResults then some ⟨claimed, count, 0⟩ else none⟩ :: after⟩
      (order ++ [claimed]) := by
  obtain ⟨counted, complete, owner, stored⟩ := inv
  simp only at counted stored
  have size := complete.length_eq
  simp only [List.flatMap_append, List.flatMap_cons, List.length_append, List.length_cons] at size
  have slot : count = BitVec.ofNat 32 order.length := by
    rw [← counted, BitVec.ofNat_toNat, BitVec.setWidth_eq]
  refine ⟨?_, ?_, ?_, ?_⟩
  · show (count + 1).toNat = (order ++ [claimed]).length
    rw [BitVec.toNat_add, counted, List.length_append]
    exact Nat.mod_eq_of_lt (by show order.length + 1 < 2 ^ 32; omega)
  · refine List.Perm.trans ?_ complete
    simp only [List.flatMap_append, List.flatMap_cons, List.append_assoc]
    apply List.Perm.append_left
    rw [← List.append_assoc]
    exact (List.perm_append_comm.append_right _).trans (by simp)
  · intro thread member st storing
    rcases mem_replaced member with rfl | old
    · simp only at storing
      split at storing
      · rename_i inside
        obtain rfl := Option.some.inj storing
        refine ⟨order.length, slot, ?_, List.getElem?_concat_length, by simp⟩
        rw [← counted]
        exact BitVec.lt_def.mp inside
      · contradiction
    · obtain ⟨i, isIdx, inside, has, next⟩ := owner thread old st storing
      refine ⟨i, isIdx, inside, ?_, next⟩
      rw [List.getElem?_append_left (List.getElem?_eq_some_iff.mp has).1]
      exact has
  · intro i m has inside j word
    by_cases old : i < order.length
    · rw [List.getElem?_append_left old] at has
      refine (stored i m has inside j word).imp_right ?_
      rintro ⟨thread, member, st, storing, isIdx, next⟩
      rcases mem_replaced member with rfl | new
      · contradiction
      · exact ⟨thread, new, st, storing, isIdx, next⟩
    · right
      have isLast : i = order.length := by
        have := (List.getElem?_eq_some_iff.mp has).1
        rw [List.length_append, List.length_singleton] at this
        omega
      subst isLast
      obtain rfl : claimed = m := by simpa using has
      refine ⟨_, List.mem_append_right _ (List.mem_cons_self ..), ⟨claimed, count, 0⟩, ?_, slot,
        Nat.zero_le j⟩
      exact if_pos (BitVec.lt_def.mpr (counted ▸ inside))

/-- A store brings one word of the slot to its owner's. -/
theorem inv_store {before after : List Thread} {todo : List Match} {st : Storing}
    {cells : Word → Word} {count : Word} (room : maxResults.toNat * 9 < 2 ^ 32)
    (inv : Inv maxResults found ⟨⟨count, cells⟩, before ++ ⟨todo, some st⟩ :: after⟩ order) :
    Inv maxResults found
      ⟨⟨count, Function.update cells (st.idx * 9 + BitVec.ofNat 32 st.next) (st.found.word st.next)⟩,
        before ++ ⟨todo, if st.next < 8 then some { st with next := st.next + 1 } else none⟩ :: after⟩
      order := by
  obtain ⟨counted, complete, owner, stored⟩ := inv
  obtain ⟨slot, isSlot, slotInside, slotHas, nextWord⟩ :=
    owner _ (List.mem_append_right _ (List.mem_cons_self ..)) st rfl
  have address : st.idx * 9 + BitVec.ofNat 32 st.next = BitVec.ofNat 32 (slot * 9 + st.next) := by
    rw [isSlot, address_eq]
  refine ⟨counted, ?_, ?_, ?_⟩
  · simpa [List.flatMap_append, List.flatMap_cons] using complete
  · intro thread member st' storing
    rcases mem_replaced member with rfl | old
    · simp only at storing
      split at storing
      · obtain rfl := Option.some.inj storing
        exact ⟨slot, isSlot, slotInside, slotHas, by simp only; omega⟩
      · contradiction
    · exact owner thread old st' storing
  · intro i m has inside j word
    simp only
    rw [address]
    by_cases same : BitVec.ofNat 32 (i * 9 + j) = BitVec.ofNat 32 (slot * 9 + st.next)
    · obtain ⟨rfl, rfl⟩ := address_inj room inside slotInside word nextWord same
      left
      rw [Function.update_self]
      rw [slotHas] at has
      rw [Option.some.inj has]
    · rw [Function.update_of_ne same]
      refine (stored i m has inside j word).imp_right ?_
      rintro ⟨thread, member, st', storing, isIdx, next⟩
      rcases mem_replaced member with rfl | new
      · -- the thread itself goes on to a later word of its slot
        obtain rfl := Option.some.inj storing
        have isI : slot = i := by
          have values := congrArg BitVec.toNat (isSlot.symm.trans isIdx)
          rwa [BitVec.toNat_ofNat, BitVec.toNat_ofNat, Nat.mod_eq_of_lt (by omega),
            Nat.mod_eq_of_lt (by omega)] at values
        have later : st.next ≠ j := by
          rintro rfl
          exact same (by rw [isI])
        refine ⟨_, List.mem_append_right _ (List.mem_cons_self ..), { st with next := st.next + 1 },
          if_pos (by omega), isIdx, by simp only; omega⟩
      · exact ⟨thread, new, st', storing, isIdx, next⟩

/-- **One step**, of whatever thread: the order of the slots only grows, and a written
word is a word of the buffer. -/
theorem inv_gridStep (room : maxResults.toNat * 9 < 2 ^ 32) (few : found.length < 2 ^ 32) (t : Nat)
    (inv : Inv maxResults found s order) :
    (∃ order', Inv maxResults found (gridStep maxResults s t).1 order') ∧
      ∀ address ∈ (gridStep maxResults s t).2, address.toNat < maxResults.toNat * 9 := by
  unfold gridStep
  cases isThread : s.threads[t]? with
  | none => exact ⟨⟨order, inv⟩, nofun⟩
  | some thread =>
      obtain ⟨before, after, isThreads, isSet⟩ := threads_split isThread
      obtain ⟨⟨count, cells⟩, threads⟩ := s
      obtain ⟨todo, storing⟩ := thread
      simp only at isThreads isSet
      subst isThreads
      simp only [isSet]
      cases storing with
      | none =>
          cases todo with
          | nil => exact ⟨⟨order, inv⟩, nofun⟩
          | cons claimed rest => exact ⟨⟨_, inv_claim few inv⟩, nofun⟩
      | some st =>
          refine ⟨⟨order, inv_store room inv⟩, ?_⟩
          intro address member
          obtain ⟨slot, isSlot, slotInside, -, nextWord⟩ :=
            inv.owner _ (List.mem_append_right _ (List.mem_cons_self ..)) st rfl
          obtain rfl := List.mem_singleton.mp member
          rw [isSlot, address_eq, BitVec.toNat_ofNat, Nat.mod_eq_of_lt (by omega)]
          omega

end Step

/-! ## Whole launches -/

section Run

variable {maxResults : Word} {found : List Match} {s : Grid} {order : List Match}

theorem inv_exec (room : maxResults.toNat * 9 < 2 ^ 32) (cells : Word → Word)
    (found : List (List Match)) (few : found.flatten.length < 2 ^ 32) (schedule : List Nat) :
    (∃ order, Inv maxResults found.flatten
        (exec (gridStep maxResults) (launched cells found) schedule).1 order) ∧
      ∀ address ∈ (exec (gridStep maxResults) (launched cells found) schedule).2,
        address.toNat < maxResults.toNat * 9 := by
  apply exec_invariant (gridStep maxResults) (launched cells found) fun _ s written =>
    (∃ order, Inv maxResults found.flatten s order) ∧
      ∀ address ∈ written, address.toNat < maxResults.toNat * 9
  · exact ⟨⟨[], inv_launched maxResults cells found⟩, nofun⟩
  · rintro _ t s written ⟨⟨order, inv⟩, inside⟩
    obtain ⟨next, inside'⟩ := inv_gridStep room few t inv
    refine ⟨next, ?_⟩
    intro address member
    rcases List.mem_append.mp member with early | late
    · exact inside address early
    · exact inside' address late

/-- Once all threads have returned the slots are their owners'. -/
theorem stored_returned (inv : Inv maxResults found s order) (returned : Returned s) {i : Nat}
    {owner : Match} (has : order[i]? = some owner) (inside : i < maxResults.toNat) (j : Nat)
    (word : j < 9) : s.results.cells (BitVec.ofNat 32 (i * 9 + j)) = owner.word j := by
  rcases inv.stored i owner has inside j word with done | ⟨thread, member, st, storing, -⟩
  · exact done
  · rw [(returned thread member).2] at storing
    contradiction

theorem order_perm (inv : Inv maxResults found s order) (returned : Returned s) : order.Perm found := by
  have none_ : s.threads.flatMap Thread.todo = [] := by
    rw [List.flatMap_eq_nil_iff]
    intro thread member
    exact (returned thread member).1
  have complete := inv.complete
  rwa [none_, List.append_nil] at complete

theorem onMatch_copied {limited : Word} {owner : Match} {i : Nat} (inside : i < limited.toNat)
    (words : ∀ j < 9, s.results.cells (BitVec.ofNat 32 (i * 9 + j)) = owner.word j) :
    onMatch (copied limited s.results) (i * 9) = owner := by
  have at_ (j : Nat) (word : j < 9) : (copied limited s.results).getD (i * 9 + j) 0 = owner.word j := by
    rw [copied, List.getD_eq_getElem?_getD, List.getElem?_map, List.getElem?_range (by omega)]
    exact words j word
  rw [onMatch, show i * 9 = i * 9 + 0 from rfl, at_ 0 (by omega)]
  obtain ⟨nonce, hash⟩ := owner
  congr 1
  apply Vector.ext
  intro k bound
  rw [Vector.getElem_ofFn, show i * 9 + 0 + 1 + k = i * 9 + (k + 1) by omega, at_ (k + 1) (by omega)]
  exact word_succ _ k bound

/-- What the host reads from slot to slot is the order of the increments. -/
theorem onMatch_range {limited : Word} (inv : Inv maxResults found s order) (returned : Returned s)
    (few : limited.toNat ≤ order.length) (inside : limited.toNat ≤ maxResults.toNat) :
    ((List.range limited.toNat).map fun i => onMatch (copied limited s.results) (i * 9)) =
      order.take limited.toNat := by
  apply List.ext_getElem
  · simp [few]
  · intro i bound bound'
    rw [List.length_map, List.length_range] at bound
    rw [List.getElem_map, List.getElem_range, List.getElem_take]
    apply onMatch_copied bound
    intro j word
    exact stored_returned inv returned (List.getElem?_eq_getElem (by omega)) (by omega) j word

theorem openclReadBack_eq (inv : Inv maxResults found s order) (returned : Returned s) :
    openclReadBack maxResults s.results = order.take (min order.length maxResults.toNat) := by
  have counted := inv.counted
  unfold openclReadBack
  simp only
  split
  · rename_i zero
    rw [zero] at counted
    rw [← counted]
    rfl
  · have limit : (if s.results.resultCount > maxResults then maxResults
        else s.results.resultCount).toNat = min order.length maxResults.toNat := by
      split
      · rename_i more
        have := BitVec.lt_def.mp more
        omega
      · rename_i less
        have := BitVec.le_def.mp (BitVec.not_lt.mp less)
        omega
    rw [onMatch_range inv returned (by omega) (by omega), limit]

/-- The two hosts read the same. -/
theorem cudaReadBack_eq (room : maxResults.toNat * 9 < 2 ^ 32) (r : Results) :
    cudaReadBack maxResults r = openclReadBack maxResults r := by
  have same : (if r.resultCount < maxResults then r.resultCount else maxResults) =
      if r.resultCount > maxResults then maxResults else r.resultCount := by
    apply BitVec.eq_of_toNat_eq
    by_cases less : r.resultCount < maxResults
    · rw [if_pos less, if_neg (BitVec.not_lt.mpr (BitVec.le_of_lt less))]
    · have high := BitVec.le_def.mp (BitVec.not_lt.mp less)
      rw [if_neg less]
      split
      · rfl
      · rename_i low
        have := BitVec.le_def.mp (BitVec.not_lt.mp low)
        omega
  unfold cudaReadBack openclReadBack
  simp only [same]
  split
  · rfl
  · have limit : (if r.resultCount > maxResults then maxResults else r.resultCount).toNat ≤
        maxResults.toNat := by
      split
      · exact le_refl _
      · rename_i less
        exact BitVec.le_def.mp (BitVec.not_lt.mp less)
    apply List.map_congr_left
    intro i member
    rw [List.mem_range] at member
    congr 1
    rw [BitVec.toNat_mul, BitVec.toNat_ofNat, Nat.mod_eq_of_lt (show i < 2 ^ 32 by omega)]
    exact Nat.mod_eq_of_lt (by show i * 9 < _; omega)

end Run

/-- What the host should deliver: as many matches as there are, up to the room for them,
none of them twice, and all of them if there is room. -/
structure Collects (maxResults : Nat) (found delivered : List Match) : Prop where
  calls : delivered.length = min found.length maxResults
  once : delivered.Subperm found
  all : found.length ≤ maxResults → delivered.Perm found

theorem collects_take {maxResults : Nat} {found order : List Match} (perm : order.Perm found) :
    Collects maxResults found (order.take (min order.length maxResults)) where
  calls := by
    rw [List.length_take, perm.length_eq]
    omega
  once := (List.take_sublist _ _).subperm.trans perm.subperm
  all := by
    intro enough
    rw [List.take_of_length_le (by rw [perm.length_eq]; omega)]
    exact perm

/-- The matches of threads that scan shares of nonces. -/
def matchesOf (hash : Word → Vector Word 8) (target : Vector Word 8) (shares : List (List Word)) :
    List (List Match) :=
  shares.map fun nonces =>
    (nonces.filter fun nonce => meetsTargetWords (hash nonce) target).map fun nonce => ⟨nonce, hash nonce⟩

/-- A launch that scans its range exactly finds fewer matches than a counter can hold. -/
theorem matchesOf_few (hash : Word → Vector Word 8) (target : Vector Word 8)
    {shares : List (List Word)} {startNonce nonceCount : Word}
    (exactly : ScansExactly startNonce nonceCount.toNat shares.flatten) :
    (matchesOf hash target shares).flatten.length < 2 ^ 32 := by
  have distinct : (shares.flatten.map BitVec.toNat).Nodup := by
    apply List.Nodup.map (fun _ _ => BitVec.eq_of_toNat_eq)
    rw [List.nodup_iff_count_le_one]
    intro nonce
    rw [exactly]
    split <;> omega
  have inside : shares.flatten.map BitVec.toNat ⊆ List.range' startNonce.toNat nonceCount.toNat := by
    intro value member
    obtain ⟨nonce, isScanned, rfl⟩ := List.mem_map.mp member
    have scanned := List.count_pos_iff.mpr isScanned
    rw [exactly] at scanned
    rw [List.mem_range'_1]
    by_contra outside
    rw [if_neg outside] at scanned
    exact lt_irrefl 0 scanned
  have range := (List.subperm_of_subset distinct inside).length_le
  rw [List.length_map, List.length_range'] at range
  have filtered : (matchesOf hash target shares).flatten =
      (shares.flatten.filter fun nonce => meetsTargetWords (hash nonce) target).map
        fun nonce => ⟨nonce, hash nonce⟩ := by
    rw [List.filter_flatten, List.map_flatten, List.map_map]
    rfl
  rw [filtered, List.length_map]
  calc (shares.flatten.filter _).length ≤ shares.flatten.length := List.length_filter_le ..
    _ ≤ nonceCount.toNat := range
    _ < 2 ^ 32 := nonceCount.isLt

/-- **Result collection.**  In whatever order the threads move, the host delivers the
matches found, each with its own words and none twice, up to `max_results` of them, and
no word behind the buffer is written. -/
theorem results_collected (maxResults : Word) (room : maxResults.toNat * 9 < 2 ^ 32)
    (cells : Word → Word) (found : List (List Match)) (few : found.flatten.length < 2 ^ 32)
    (schedule : List Nat) :
    let run := exec (gridStep maxResults) (launched cells found) schedule
    (∀ address ∈ run.2, address.toNat < maxResults.toNat * 9) ∧
      (Returned run.1 →
        Collects maxResults.toNat found.flatten (cudaReadBack maxResults run.1.results) ∧
          Collects maxResults.toNat found.flatten (openclReadBack maxResults run.1.results)) := by
  obtain ⟨⟨order, inv⟩, inside⟩ := inv_exec room cells found few schedule
  refine ⟨inside, fun returned => ?_⟩
  have opencl : Collects maxResults.toNat found.flatten (openclReadBack maxResults
      (exec (gridStep maxResults) (launched cells found) schedule).1.results) := by
    rw [openclReadBack_eq inv returned]
    exact collects_take (order_perm inv returned)
  refine ⟨?_, opencl⟩
  rw [cudaReadBack_eq room]
  exact opencl

/-- Two threads store their matches word by word in turn. -/
theorem results_collected_example :
    let found : List (List Match) := [[⟨7, .replicate 8 1⟩], [⟨9, .replicate 8 2⟩]]
    let run := exec (gridStep 4) (launched (fun _ => 0xdeadbeef) found)
      (List.replicate 10 [0, 1]).flatten
    Collects 4 found.flatten (cudaReadBack 4 run.1.results) := by
  intro found run
  have returned : Returned run.1 := by decide +kernel
  exact ((results_collected 4 (by decide) (fun _ => 0xdeadbeef) found (by decide)
    (List.replicate 10 [0, 1]).flatten).2 returned).1

end BtcRig.Gpu.Collect
