/-
# BtcRig.Gpu.OpenCl — the OpenCL scan routines

The kernel strings of `opencl_miner.c`.  Four compressions: the compact loop over a
modular schedule, the unrolled function, the unrolled macro, and the compact loop on
two-component vectors.  `buildProgram` chooses the strings of a program, and with them the
`scan_one_nonce` that its kernels call.  The file's constant tables are those of
`sha256d.c` and are not repeated here.

* `compressCompact_compresses`: the loop is the standard compression;
* `lane_compressVec2`: each component of the vector loop is the scalar loop;
* `opencl_routines_report`: whichever program is built, a match is stored exactly when the
  portable hash meets the target, with the portable words.
-/
import BtcRig.Gpu.Device

namespace BtcRig.Gpu.OpenCl

open BtcRig.Theory.Words
open BtcRig.Theory.Sha256
open BtcRig.Theory.Unrolled
open BtcRig.Gpu.Macros
open BtcRig.Gpu.Device
open BtcRig.Hash.Sha256d (Sha256Midstate kSha256RoundConstants kSha256RoundConstants_getElem)

set_option autoImplicit false

/-! ## The scalar compressions -/

/-- Iteration `i` of the loop in the compact `compress`; `i & 15` is `i % 16`. -/
def compactStep (i : Nat) (bound : i < 64) (l : Work × Vector Word 16) : Work × Vector Word 16 :=
  let (v, w) := l
  let (wi, w) :=
    if first : i < 16 then (w[i], w)
    else
      let j := i % 16
      have inside : j < 16 := mod16_lt i
      let wi := w[j] + ss1 w[(j + 14) % 16] + w[(j + 9) % 16] + ss0 w[(j + 1) % 16]
      (wi, w.set j wi)
  let t1 := v.h + bs1 v.e + plainLogic.ch v.e v.f v.g + kSha256RoundConstants[i] + wi
  let t2 := bs0 v.a + plainLogic.maj v.a v.b v.c
  ({ h := v.g, g := v.f, f := v.e, e := v.d + t1, d := v.c, c := v.b, b := v.a, a := t1 + t2 }, w)

/-- The loop up to, and not including, iteration `n`. -/
def compactLoop (n : Nat) (bound : n ≤ 64) (l : Work × Vector Word 16) : Work × Vector Word 16 :=
  Nat.fold n (fun i hi l => compactStep i (lt64 hi bound) l) l

def compressCompact (st : Vector Word 8) (w : Vector Word 16) : Vector Word 8 :=
  let v : Work := ⟨st.word0, st.word1, st.word2, st.word3, st.word4, st.word5, st.word6, st.word7⟩
  let (v, _) := compactLoop 64 le64 (v, w)
  .ofEight (st.word0 + v.a) (st.word1 + v.b) (st.word2 + v.c) (st.word3 + v.d) (st.word4 + v.e)
    (st.word5 + v.f) (st.word6 + v.g) (st.word7 + v.h)

/-- `compress` of the unrolled program, whose rounds are split over two strings. -/
def compressUnrolled (st : Vector Word 8) (w : Vector Word 16) : Vector Word 8 :=
  unrolledCompress plainLogic st w

def sha256CompressScalar (s : Vector Word 8) (w : Vector Word 16) : Vector Word 8 :=
  unrolledCompress plainLogic s w

/-! ## The vector compression -/

/-- `uint2`: operators work on both components. -/
structure U32v where
  s0 : Word
  s1 : Word

def U32v.splat (x : Word) : U32v := ⟨x, x⟩

instance : Add U32v := ⟨fun x y => ⟨x.s0 + y.s0, x.s1 + y.s1⟩⟩
instance : AndOp U32v := ⟨fun x y => ⟨x.s0 &&& y.s0, x.s1 &&& y.s1⟩⟩
instance : OrOp U32v := ⟨fun x y => ⟨x.s0 ||| y.s0, x.s1 ||| y.s1⟩⟩
instance : XorOp U32v := ⟨fun x y => ⟨x.s0 ^^^ y.s0, x.s1 ^^^ y.s1⟩⟩
instance : Complement U32v := ⟨fun x => ⟨~~~x.s0, ~~~x.s1⟩⟩
instance : HShiftRight U32v Nat U32v := ⟨fun x n => ⟨x.s0 >>> n, x.s1 >>> n⟩⟩
instance : HShiftLeft U32v Nat U32v := ⟨fun x n => ⟨x.s0 <<< n, x.s1 <<< n⟩⟩

def rotr32v (x : U32v) (n : Nat) : U32v := (x >>> n) ||| (x <<< (32 - n))

def bswap32v (v : U32v) : U32v :=
  ((v &&& U32v.splat 0x000000ff) <<< 24) ||| ((v &&& U32v.splat 0x0000ff00) <<< 8) |||
    ((v &&& U32v.splat 0x00ff0000) >>> 8) ||| ((v &&& U32v.splat 0xff000000) >>> 24)

def ss0v (x : U32v) : U32v := rotr32v x 7 ^^^ rotr32v x 18 ^^^ (x >>> 3)

def ss1v (x : U32v) : U32v := rotr32v x 17 ^^^ rotr32v x 19 ^^^ (x >>> 10)

def bs0v (x : U32v) : U32v := rotr32v x 2 ^^^ rotr32v x 13 ^^^ rotr32v x 22

def bs1v (x : U32v) : U32v := rotr32v x 6 ^^^ rotr32v x 11 ^^^ rotr32v x 25

def chv (x y z : U32v) : U32v := (x &&& y) ^^^ (~~~x &&& z)

def majv (x y z : U32v) : U32v := (x &&& y) ^^^ (x &&& z) ^^^ (y &&& z)

structure WorkV where
  a : U32v
  b : U32v
  c : U32v
  d : U32v
  e : U32v
  f : U32v
  g : U32v
  h : U32v

/-- Iteration `i` of the loop in `compress_vec2`. -/
def vec2Step (i : Nat) (bound : i < 64) (l : WorkV × Vector U32v 16) : WorkV × Vector U32v 16 :=
  let (v, w) := l
  let (wi, w) :=
    if first : i < 16 then (w[i], w)
    else
      let j := i % 16
      have inside : j < 16 := mod16_lt i
      let wi := w[j] + ss1v w[(j + 14) % 16] + w[(j + 9) % 16] + ss0v w[(j + 1) % 16]
      (wi, w.set j wi)
  let t1 := v.h + bs1v v.e + chv v.e v.f v.g + U32v.splat kSha256RoundConstants[i] + wi
  let t2 := bs0v v.a + majv v.a v.b v.c
  ({ h := v.g, g := v.f, f := v.e, e := v.d + t1, d := v.c, c := v.b, b := v.a, a := t1 + t2 }, w)

def vec2Loop (n : Nat) (bound : n ≤ 64) (l : WorkV × Vector U32v 16) : WorkV × Vector U32v 16 :=
  Nat.fold n (fun i hi l => vec2Step i (lt64 hi bound) l) l

def compressVec2 (st : Vector U32v 8) (w : Vector U32v 16) : Vector U32v 8 :=
  let v : WorkV := ⟨st.word0, st.word1, st.word2, st.word3, st.word4, st.word5, st.word6, st.word7⟩
  let (v, _) := vec2Loop 64 le64 (v, w)
  .ofEight (st.word0 + v.a) (st.word1 + v.b) (st.word2 + v.c) (st.word3 + v.d) (st.word4 + v.e)
    (st.word5 + v.f) (st.word6 + v.g) (st.word7 + v.h)

def firstWordsVec (tail0 tail1 tail2 : Word) (nonce : U32v) : Vector U32v 16 :=
  #v[U32v.splat tail0, U32v.splat tail1, U32v.splat tail2, bswap32v nonce, U32v.splat 0x80000000,
    U32v.splat 0, U32v.splat 0, U32v.splat 0, U32v.splat 0, U32v.splat 0, U32v.splat 0, U32v.splat 0,
    U32v.splat 0, U32v.splat 0, U32v.splat 0, U32v.splat 640]

def secondWordsVec (s : Vector U32v 8) : Vector U32v 16 :=
  #v[s.word0, s.word1, s.word2, s.word3, s.word4, s.word5, s.word6, s.word7, U32v.splat 0x80000000,
    U32v.splat 0, U32v.splat 0, U32v.splat 0, U32v.splat 0, U32v.splat 0, U32v.splat 0, U32v.splat 256]

def scanTwoNoncesVec (fast target : Vector Word 8) (tail0 tail1 tail2 nonce0 : Word) (secondValid : Bool)
    (maxResults : Word) (r : Results) : Results :=
  let nonce : U32v := ⟨nonce0, nonce0 + 1⟩
  let s := compressVec2 (fast.map U32v.splat) (firstWordsVec tail0 tail1 tail2 nonce)
  let h := compressVec2 (initialWords.map U32v.splat) (secondWordsVec s)
  let h0 := h.map U32v.s0
  let r := if meetsTargetWords h0 target then storeMatchWords nonce0 h0 maxResults r else r
  let h1 := h.map U32v.s1
  if secondValid && meetsTargetWords h1 target then storeMatchWords (nonce0 + 1) h1 maxResults r else r

/-! ## Programs -/

inductive BackendVariant where
  | auto
  | compat10
  | modern
deriving DecidableEq

inductive KernelVariant where
  | auto
  | compact
  | unrolled
  | fixedNpi1
  | fixedNpi2
  | fixedNpi4
  | registerHeavy
deriving DecidableEq

/-- The kernel strings, by the names of their variables. -/
inductive Source where
  | kernelCompact
  | kernel
  | kernelRounds
  | modernScalarMacro
  | modernTailHelpers
  | tailHelpers
  | modernRegisterPrefix
  | modernRegisterScan
  | modernRegisterKernel
  | modernFixedKernels
  | tailKernels
deriving DecidableEq

def kernelVariantFixedNpi : KernelVariant → Nat
  | .fixedNpi1 => 1
  | .fixedNpi2 => 2
  | .fixedNpi4 => 4
  | _ => 0

/-- The sources `build_program` hands to the compiler. -/
def buildProgram (backendVariant : BackendVariant) (kernelVariant : KernelVariant) : List Source :=
  let useModernUnrolled : Bool := backendVariant = .modern ∧ kernelVariant = .unrolled
  let useModernFixed : Bool := backendVariant = .modern ∧ kernelVariantFixedNpi kernelVariant ≠ 0
  let useModernRegister : Bool := backendVariant = .modern ∧ kernelVariant = .registerHeavy
  let useModernScalar : Bool := useModernUnrolled || useModernFixed || useModernRegister
  let compression : List Source :=
    if kernelVariant = .compact then [.kernelCompact] else [.kernel, .kernelRounds]
  let helpers : List Source :=
    if useModernScalar then [.modernScalarMacro, .modernTailHelpers] else [.tailHelpers]
  let register : List Source :=
    if useModernRegister then [.modernRegisterPrefix, .modernRegisterScan] else []
  let kernels : Source :=
    if useModernRegister then .modernRegisterKernel
    else if useModernFixed then .modernFixedKernels else .tailKernels
  compression ++ helpers ++ register ++ [kernels]

/-- The `compress` that a program defines. -/
def compressOf (program : List Source) : Vector Word 8 → Vector Word 16 → Vector Word 8 :=
  if .kernelCompact ∈ program then compressCompact else compressUnrolled

/-- The `scan_one_nonce` that a program defines. -/
def scanOneNonceOf (program : List Source) :
    Vector Word 8 → Vector Word 8 → Word → Word → Word → Word → Word → Results → Results :=
  if .modernTailHelpers ∈ program then scanOneNonceWith sha256CompressScalar
  else scanOneNonceWith (compressOf program)

/-! ## The compact loop -/

/-- Before iteration `t`. -/
structure LoopAt (W : Nat → Word) (s : Work) (t : Nat) (l : Work × Vector Word 16) : Prop where
  work : l.1 = rounds W t s
  rolling : Rolling W (t - 16) l.2

/-- The shifting assignments are a round. -/
theorem shift_eq_round (v : Work) (i : Nat) (bound : i < 64) (wi : Word) :
    let t1 := v.h + bs1 v.e + plainLogic.ch v.e v.f v.g + kSha256RoundConstants[i] + wi
    let t2 := bs0 v.a + plainLogic.maj v.a v.b v.c
    ({ h := v.g, g := v.f, f := v.e, e := v.d + t1, d := v.c, c := v.b, b := v.a, a := t1 + t2 } : Work) =
      v.round (roundConstant i + wi) := by
  have constant : kSha256RoundConstants[i] = roundConstant i := kSha256RoundConstants_getElem i bound
  have sum : v.h + bs1 v.e + plainLogic.ch v.e v.f v.g + roundConstant i + wi =
      v.h + bigSigma1 v.e + ch v.e v.f v.g + (roundConstant i + wi) := BitVec.add_assoc _ _ _
  intro t1 t2
  simp only [t1, t2, constant, sum, Work.round]
  rfl

/-- A pass of the compact loop is a round, and the slots roll on. -/
theorem compactStep_at {W : Nat → Word} {s : Work} {i : Nat} (bound : i < 64)
    {l : Work × Vector Word 16} (inv : LoopAt W s i l)
    (recurrence : ∀ t,
      W (t + 16) = smallSigma1 (W (t + 14)) + W (t + 9) + smallSigma0 (W (t + 1)) + W t) :
    LoopAt W s (i + 1) (compactStep i bound l) := by
  obtain ⟨v, w⟩ := l
  obtain ⟨rfl, rolling⟩ := inv
  by_cases first : i < 16
  · have isWord : w[i] = W i := by
      have inSlot := rolling i (by omega) (by omega)
      simp only [Nat.mod_eq_of_lt first] at inSlot
      exact inSlot
    have step : compactStep i bound (rounds W i s, w) = (rounds W (i + 1) s, w) := by
      simp only [compactStep, dif_pos first, isWord, shift_eq_round]
      rfl
    rw [step]
    refine ⟨rfl, ?_⟩
    rw [show i + 1 - 16 = i - 16 by omega]
    exact rolling
  · obtain ⟨m, rfl⟩ : ∃ m, i = m + 16 := ⟨i - 16, by omega⟩
    rw [Nat.add_sub_cancel] at rolling
    have isNext : w[m % 16] + ss1 w[(m % 16 + 14) % 16] + w[(m % 16 + 9) % 16] +
        ss0 w[(m % 16 + 1) % 16] = W (m + 16) := by
      rw [← rolling.nextWord_eq recurrence]
      simp only [nextWord, ss0_eq, ss1_eq, Nat.mod_add_mod]
      ac_rfl
    have step : compactStep (m + 16) bound (rounds W (m + 16) s, w) =
        (rounds W (m + 16 + 1) s, w.set (m % 16) (W (m + 16)) (mod16_lt m)) := by
      simp only [compactStep, dif_neg first, Nat.add_mod_right, isNext, shift_eq_round]
      rfl
    rw [step]
    refine ⟨rfl, ?_⟩
    rw [show m + 16 + 1 - 16 = m + 1 by omega]
    exact rolling.step rfl

/-- So `n` passes are `n` rounds, by induction on `n`. -/
theorem compactLoop_at {W : Nat → Word} {s : Work} {l : Work × Vector Word 16} (inv : LoopAt W s 0 l)
    (recurrence : ∀ t,
      W (t + 16) = smallSigma1 (W (t + 14)) + W (t + 9) + smallSigma0 (W (t + 1)) + W t)
    (n : Nat) (bound : n ≤ 64) : LoopAt W s n (compactLoop n bound l) := by
  induction n with
  | zero => exact inv
  | succ n ih =>
      have step : compactLoop (n + 1) bound l = compactStep n bound (compactLoop n (by omega) l) := by
        simp [compactLoop, Nat.fold_succ]
      rw [step]
      exact compactStep_at bound (ih (by omega)) recurrence

/-- The compact compression is the standard one. -/
theorem compressCompact_compresses : Compresses compressCompact := by
  intro s w
  have start : LoopAt (schedule w.toList) (Work.ofState s) 0 (Work.ofState s, w) :=
    ⟨rfl, rolling_block w⟩
  have finish := (compactLoop_at start (schedule_rec (by simp)) 64 le_rfl).work
  rw [compress, ← finish, compressCompact, ← Work.ofState]
  generalize compactLoop 64 le64 (Work.ofState s, w) = l
  rfl

/-! ## Components of vectors -/

/-- Component `b` of a vector. -/
def lane (b : Bool) (x : U32v) : Word := if b then x.s1 else x.s0

def laneWork (b : Bool) (v : WorkV) : Work :=
  ⟨lane b v.a, lane b v.b, lane b v.c, lane b v.d, lane b v.e, lane b v.f, lane b v.g, lane b v.h⟩

@[simp] theorem lane_add (b : Bool) (x y : U32v) : lane b (x + y) = lane b x + lane b y := by
  cases b <;> rfl

@[simp] theorem lane_and (b : Bool) (x y : U32v) : lane b (x &&& y) = lane b x &&& lane b y := by
  cases b <;> rfl

@[simp] theorem lane_or (b : Bool) (x y : U32v) : lane b (x ||| y) = lane b x ||| lane b y := by
  cases b <;> rfl

@[simp] theorem lane_xor (b : Bool) (x y : U32v) : lane b (x ^^^ y) = lane b x ^^^ lane b y := by
  cases b <;> rfl

@[simp] theorem lane_not (b : Bool) (x : U32v) : lane b (~~~x) = ~~~lane b x := by
  cases b <;> rfl

@[simp] theorem lane_shiftRight (b : Bool) (x : U32v) (n : Nat) : lane b (x >>> n) = lane b x >>> n := by
  cases b <;> rfl

@[simp] theorem lane_shiftLeft (b : Bool) (x : U32v) (n : Nat) : lane b (x <<< n) = lane b x <<< n := by
  cases b <;> rfl

@[simp] theorem lane_splat (b : Bool) (x : Word) : lane b (U32v.splat x) = x := by
  cases b <;> rfl

@[simp] theorem lane_rotr32v (b : Bool) (x : U32v) (n : Nat) :
    lane b (rotr32v x n) = Hash.Sha256d.rotr32 (lane b x) n := by
  simp [rotr32v, Hash.Sha256d.rotr32]

/-- The vector macros work on each component alone. -/
theorem lane_bswap32v (b : Bool) (v : U32v) : lane b (bswap32v v) = bswap32 (lane b v) := by
  simp [bswap32v, bswap32]

@[simp] theorem lane_ss0v (b : Bool) (x : U32v) : lane b (ss0v x) = ss0 (lane b x) := by
  simp [ss0v, ss0]

@[simp] theorem lane_ss1v (b : Bool) (x : U32v) : lane b (ss1v x) = ss1 (lane b x) := by
  simp [ss1v, ss1]

@[simp] theorem lane_bs0v (b : Bool) (x : U32v) : lane b (bs0v x) = bs0 (lane b x) := by
  simp [bs0v, bs0]

@[simp] theorem lane_bs1v (b : Bool) (x : U32v) : lane b (bs1v x) = bs1 (lane b x) := by
  simp [bs1v, bs1]

@[simp] theorem lane_chv (b : Bool) (x y z : U32v) :
    lane b (chv x y z) = plainLogic.ch (lane b x) (lane b y) (lane b z) := by
  simp [chv, plainLogic]

@[simp] theorem lane_majv (b : Bool) (x y z : U32v) :
    lane b (majv x y z) = plainLogic.maj (lane b x) (lane b y) (lane b z) := by
  simp [majv, plainLogic]

/-- One component of the locals of the vector loop. -/
def laneOf (b : Bool) (l : WorkV × Vector U32v 16) : Work × Vector Word 16 :=
  (laneWork b l.1, l.2.map (lane b))

/-- A pass of the vector loop is a pass of the scalar loop in each component. -/
theorem laneOf_vec2Step (b : Bool) (i : Nat) (bound : i < 64) (l : WorkV × Vector U32v 16) :
    laneOf b (vec2Step i bound l) = compactStep i bound (laneOf b l) := by
  obtain ⟨v, w⟩ := l
  by_cases first : i < 16
  · simp [vec2Step, compactStep, laneOf, laneWork, first]
  · simp [vec2Step, compactStep, laneOf, laneWork, first, Vector.map_set]

/-- So is the whole vector loop. -/
theorem laneOf_vec2Loop (b : Bool) (n : Nat) (bound : n ≤ 64) (l : WorkV × Vector U32v 16) :
    laneOf b (vec2Loop n bound l) = compactLoop n bound (laneOf b l) := by
  induction n with
  | zero => rfl
  | succ n ih =>
      have vec2 : vec2Loop (n + 1) bound l = vec2Step n bound (vec2Loop n (by omega) l) := by
        simp [vec2Loop, Nat.fold_succ]
      have compact : compactLoop (n + 1) bound (laneOf b l) =
          compactStep n bound (compactLoop n (by omega) (laneOf b l)) := by
        simp [compactLoop, Nat.fold_succ]
      rw [vec2, compact, laneOf_vec2Step, ih]

/-- A component of the vector compression is the scalar compression of that component. -/
theorem lane_compressVec2 (b : Bool) (st : Vector U32v 8) (w : Vector U32v 16) :
    (compressVec2 st w).map (lane b) = compressCompact (st.map (lane b)) (w.map (lane b)) := by
  let v : WorkV := ⟨st.word0, st.word1, st.word2, st.word3, st.word4, st.word5, st.word6, st.word7⟩
  have loop := laneOf_vec2Loop b 64 le64 (v, w)
  have start : laneOf b (v, w) = (Work.ofState (st.map (lane b)), w.map (lane b)) := by
    simp [v, Work.ofState, laneOf, laneWork]
  rw [compressVec2, compressCompact, ← Work.ofState, ← start, ← loop]
  generalize vec2Loop 64 le64 _ = l
  ext i hi
  interval_cases i <;> simp [laneOf, laneWork]

/-! ## The routines -/

theorem lane_firstWordsVec (b : Bool) (tail0 tail1 tail2 : Word) (nonce : U32v) :
    (firstWordsVec tail0 tail1 tail2 nonce).map (lane b) = firstWords tail0 tail1 tail2 (lane b nonce) := by
  simp [firstWordsVec, firstWords, lane_bswap32v]

theorem lane_secondWordsVec (b : Bool) (s : Vector U32v 8) :
    (secondWordsVec s).map (lane b) = secondWords (s.map (lane b)) := by
  simp [secondWordsVec, secondWords]

theorem lane_splatWords (b : Bool) (s : Vector Word 8) : (s.map U32v.splat).map (lane b) = s := by
  ext i hi
  simp

/-- One component of the vector routine is the scalar routine of its own nonce. -/
theorem scanTwoNoncesVec_eq (fast target : Vector Word 8) (tail0 tail1 tail2 nonce0 : Word)
    (secondValid : Bool) (maxResults : Word) (r : Results) :
    scanTwoNoncesVec fast target tail0 tail1 tail2 nonce0 secondValid maxResults r =
      let r := scanOneNonceWith compressCompact fast target tail0 tail1 tail2 nonce0 maxResults r
      if secondValid then
        scanOneNonceWith compressCompact fast target tail0 tail1 tail2 (nonce0 + 1) maxResults r
      else r := by
  have hash (b : Bool) : (compressVec2 (initialWords.map U32v.splat) (secondWordsVec
      (compressVec2 (fast.map U32v.splat) (firstWordsVec tail0 tail1 tail2 ⟨nonce0, nonce0 + 1⟩)))).map
        (lane b) =
      compressCompact initialWords (secondWords (compressCompact fast
        (firstWords tail0 tail1 tail2 (lane b ⟨nonce0, nonce0 + 1⟩)))) := by
    rw [lane_compressVec2, lane_secondWordsVec, lane_compressVec2, lane_firstWordsVec, lane_splatWords,
      lane_splatWords]
  have first := hash false
  have second := hash true
  have s0 : lane false = U32v.s0 := rfl
  have s1 : lane true = U32v.s1 := rfl
  rw [s0] at first
  rw [s1] at second
  simp only [scanTwoNoncesVec, first, second, scanOneNonceWith, storeIfMet]
  cases secondValid with
  | false => simp only [Bool.false_and, Bool.false_eq_true, if_false]
  | true => simp only [Bool.true_and, if_true]

theorem compressUnrolled_compresses : Compresses compressUnrolled :=
  unrolledCompress_eq plainLogic_standard

theorem sha256CompressScalar_compresses : Compresses sha256CompressScalar :=
  unrolledCompress_eq plainLogic_standard

/-- Whatever a program is built from, its compression is the standard one. -/
theorem compressOf_compresses (program : List Source) : Compresses (compressOf program) := by
  unfold compressOf
  split
  · exact compressCompact_compresses
  · exact compressUnrolled_compresses

/-- **Every OpenCL routine stores exactly the matches of the portable hash**, in every
program that can be built and in both components of the vector routine. -/
theorem opencl_routines_report (state : Sha256Midstate) (target : Vector Word 8)
    (tail0 tail1 tail2 maxResults : Word) (r : Results) :
    (∀ backendVariant kernelVariant nonce,
      Reports target nonce (fastWords state tail0 tail1 tail2 nonce) maxResults r
        (scanOneNonceOf (buildProgram backendVariant kernelVariant) state.fastState target tail0 tail1 tail2
          nonce maxResults r)) ∧
    ∀ nonce0 secondValid, ∃ between,
      Reports target nonce0 (fastWords state tail0 tail1 tail2 nonce0) maxResults r between ∧
      (secondValid = true →
        Reports target (nonce0 + 1) (fastWords state tail0 tail1 tail2 (nonce0 + 1)) maxResults between
          (scanTwoNoncesVec state.fastState target tail0 tail1 tail2 nonce0 secondValid maxResults r)) ∧
      (secondValid = false →
        scanTwoNoncesVec state.fastState target tail0 tail1 tail2 nonce0 secondValid maxResults r =
          between) := by
  refine ⟨fun backendVariant kernelVariant nonce => ?_, fun nonce0 secondValid => ?_⟩
  · unfold scanOneNonceOf
    split
    · exact scanOneNonceWith_reports sha256CompressScalar_compresses state target tail0 tail1 tail2 nonce
        maxResults r
    · exact scanOneNonceWith_reports (compressOf_compresses _) state target tail0 tail1 tail2 nonce
        maxResults r
  · have one (nonce : Word) (r : Results) := scanOneNonceWith_reports compressCompact_compresses state
      target tail0 tail1 tail2 nonce maxResults r
    refine ⟨_, one nonce0 r, ?_, ?_⟩
    · rintro rfl
      simp only [scanTwoNoncesVec_eq, if_true]
      exact one (nonce0 + 1) _
    · rintro rfl
      simp only [scanTwoNoncesVec_eq, Bool.false_eq_true, if_false]

end BtcRig.Gpu.OpenCl
