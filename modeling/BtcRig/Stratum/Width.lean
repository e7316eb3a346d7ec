/-
# BtcRig.Stratum.Width — how long the extranonce2 text is

The pool asks for `2 * size` hexadecimal digits.  `miner_format_extranonce2` doubles
the size in an `int` and prints the counter with that as its least width; the counter
never goes back.  `extranonce2_text_iff` says on which sizes and counter values the
text has the length asked for, and that the jobs a session installs have it under
just the same condition, however long the session is.
-/
import BtcRig.Stratum.Template
import BtcRig.Stratum.Settings

namespace BtcRig.Stratum.Width

open BtcRig.Theory
open BtcRig.Mining.Job
open BtcRig.Stratum.State
open BtcRig.Stratum.Lines
open BtcRig.Stratum.Client
open BtcRig.Stratum.Template
open BtcRig.Stratum.Settings

set_option autoImplicit false

/-! ## One text -/

/-- What a pool that asks for `size` bytes expects of the text: nothing if the size
is unusable or too large for the buffer, and else two digits for each byte. -/
structure TextOfSize (size : Int) (text : List Char) : Prop where
  empty : text = [] ↔ size ≤ 0 ∨ 32 < 2 * size + 1
  full : text ≠ [] → text.length = 2 * size.toNat ∧ Hex.IsLower text

/-- The counter has no more digits than the pool asks for. -/
def CounterFits (size : Int) (value : BitVec 64) : Prop :=
  0 < size → value.toNat < 16 ^ (2 * size.toNat)

theorem counterFits_large {size : Int} (large : 8 ≤ size) (value : BitVec 64) :
    CounterFits size value := by
  intro _
  calc value.toNat < 2 ^ 64 := value.isLt
    _ = 16 ^ 16 := by norm_num
    _ ≤ 16 ^ (2 * size.toNat) := Nat.pow_le_pow_right (by decide) (by omega)

theorem format_empty {size : Int} (doubled : IsInt (size * 2)) (unusable : size ≤ 0 ∨ 15 < size)
    (value : BitVec 64) : minerFormatExtranonce2 32 size value = [] := by
  unfold minerFormatExtranonce2
  simp only [toInt_of_small doubled.1 doubled.2]
  rw [if_pos (by omega)]

/-- A text of a usable size is the counter, padded. -/
theorem length_format_usable {size : Int} (low : 1 ≤ size) (high : size ≤ 15) (value : BitVec 64) :
    (minerFormatExtranonce2 32 size value).length = 2 * size.toNat ↔ CounterFits size value := by
  rw [minerFormatExtranonce2_of_size low high, show (size * 2).toNat = 2 * size.toNat by omega,
    Hex.length_format_iff (by omega)]
  constructor
  · intro small _
    exact small
  · intro fits
    exact fits (by omega)

/-- Doubled or wrapped round, a size above 15 gives no text. -/
theorem format_large {size : Int} (large : 15 < size) (inRange : size < 2 ^ 31)
    (value : BitVec 64) : minerFormatExtranonce2 32 size value = [] := by
  by_cases small : size * 2 < 2 ^ 31
  · exact format_empty ⟨by omega, small⟩ (.inr large) value
  · have wrapped : toInt (size * 2) = size * 2 - 2 ^ 32 := by
      have round : (size * 2) % (2 ^ 32 : Int) = size * 2 := Int.emod_eq_of_lt (by omega) (by omega)
      simp only [toInt, Int.bmod]
      split <;> omega
    unfold minerFormatExtranonce2
    simp only [wrapped]
    rw [if_pos (by omega)]

theorem format_ne_nil {size : Int} (low : 1 ≤ size) (high : size ≤ 15) (value : BitVec 64) :
    minerFormatExtranonce2 32 size value ≠ [] := by
  rw [minerFormatExtranonce2_of_size low high]
  intro empty
  have length := congrArg List.length empty
  rw [Hex.length_format, List.length_nil] at length
  omega

theorem textOfSize_iff (size : Int) (value : BitVec 64) (doubled : IsInt (size * 2)) :
    TextOfSize size (minerFormatExtranonce2 32 size value) ↔ CounterFits size value := by
  by_cases usable : 1 ≤ size ∧ size ≤ 15
  · obtain ⟨low, high⟩ := usable
    have nonempty := format_ne_nil low high value
    constructor
    · intro text
      exact (length_format_usable low high value).mp (text.full nonempty).1
    · intro fits
      refine ⟨?_, ?_⟩
      · constructor
        · intro empty
          exact absurd empty nonempty
        · intro unusable
          omega
      · intro _
        refine ⟨(length_format_usable low high value).mpr fits, ?_⟩
        rw [minerFormatExtranonce2_of_size low high]
        exact Hex.isLower_format _ _
  · have empty := format_empty doubled (by omega) value
    have fits : CounterFits size value := by
      by_cases positive : 0 < size
      · exact counterFits_large (by omega) value
      · intro absurd_
        exact absurd absurd_ positive
    constructor
    · intro _
      exact fits
    · intro _
      refine ⟨?_, ?_⟩
      · constructor
        · intro _
          omega
        · intro _
          exact empty
      · intro nonempty
        exact absurd empty nonempty

/-! ## The sizes of a session -/

/-- The extranonce2 size the rebuild of a step works with. -/
def sizeInForce (s : Session) : SessionEvent → Int
  | .line root => sizeAfter s.state root
  | _ => s.state.extranonce2Size

theorem isInt_sizeInForce {s : Session} (inRange : IsInt s.state.extranonce2Size)
    (e : SessionEvent) : IsInt (sizeInForce s e) := by
  cases e with
  | line root =>
      simp only [sizeInForce, sizeAfter]
      split
      · split
        · exact isInt_toInt _
        · exact inRange
      · exact inRange
  | _ => exact inRange

/-- The text of an installed job is that of the size in force and of the counter. -/
theorem installed_text {s : Session} {e : SessionEvent} {job : MinerJob}
    (installed : job ∈ installedOf (sessionStep s e).2) :
    0 < sizeInForce s e ∧ job.extranonce2.1 ≠ [] ∧
      job.extranonce2.1 =
        minerFormatExtranonce2 32 (sizeInForce s e) s.state.extranonce2Counter := by
  have rebuilt {state : StratumState} (counter : state.extranonce2Counter = s.state.extranonce2Counter)
      (size : state.extranonce2Size = sizeInForce s e)
      (is : job ∈ (rebuildMinerJob state).2.toList) :
      0 < sizeInForce s e ∧ job.extranonce2.1 ≠ [] ∧
        job.extranonce2.1 =
          minerFormatExtranonce2 32 (sizeInForce s e) s.state.extranonce2Counter := by
    have installs : (rebuildMinerJob state).2 = some job := Option.mem_toList.mp is
    obtain ⟨can, built⟩ := rebuildMinerJob_installs installs
    obtain ⟨-, -, isText, -⟩ := minerBuildJob_fields built
    have nonempty : nextExtranonce2 state ≠ [] := by
      intro empty
      rw [rebuildMinerJob_of_can can] at installs
      simp only [empty, if_true] at installs
      cases installs
    rw [isText, ← size, ← counter]
    exact ⟨can.size, nonempty, rfl⟩
  have effect := sessionStep_effect s e
  generalize sessionStep s e = r at installed effect
  cases effect with
  | line root r isLine effect handled =>
      subst isLine
      rw [handled.installed] at installed
      cases effect with
      | quiet | subscribe | settings | rejected => cases installed
      | rebuild state' none_ valid resettled rebuilds size =>
          exact rebuilt resettled.counter size installed
      | accepted notify state' isNotify core =>
          exact rebuilt core.counter (core.size.trans (sizeAfter_notify isNotify).symm) installed
  | roll isRoll handled =>
      subst isRoll
      rw [handled.installed] at installed
      exact rebuilt rfl rfl installed
  | other noLine kept none_ =>
      rw [none_] at installed
      cases installed

/-- **The text has the length asked for exactly when doubling the size stays in an
`int` and the counter has not outgrown it**; and of the jobs a session installs, those
have the length asked for whose counter value has not. -/
theorem extranonce2_text_iff (size : Int) (value : BitVec 64) (threads opencl cuda : Nat)
    (es : List SessionEvent) (e : SessionEvent) (job : MinerJob) :
    (IsInt size →
      (IsInt (size * 2) ∧ TextOfSize size (minerFormatExtranonce2 32 size value) ↔
        (-2 ^ 30 ≤ size ∧ size < 2 ^ 30) ∧ CounterFits size value)) ∧
    (let s := (sessionRun (sessionInitial threads opencl cuda) es).1
     job ∈ installedOf (sessionStep s e).2 →
      Hex.IsLower job.extranonce2.1 ∧
        (job.extranonce2.1.length = 2 * (sizeInForce s e).toNat ↔
          CounterFits (sizeInForce s e) s.state.extranonce2Counter)) := by
  constructor
  · intro _
    have doubled : IsInt (size * 2) ↔ -2 ^ 30 ≤ size ∧ size < 2 ^ 30 := by
      unfold IsInt
      omega
    rw [← doubled]
    exact and_congr_right fun inRange => textOfSize_iff size value inRange
  · intro s installed
    obtain ⟨positive, nonempty, isText⟩ := installed_text installed
    have inRange := isInt_sizeInForce (isInt_run threads opencl cuda es) e
    have usable : sizeInForce s e ≤ 15 := by
      by_contra large
      exact nonempty (isText.trans (format_large (not_le.mp large) inRange.2 _))
    rw [isText]
    refine ⟨?_, length_format_usable (by omega) usable _⟩
    rw [minerFormatExtranonce2_of_size (by omega) usable]
    exact Hex.isLower_format _ _

/-! ## A counter that outgrows its size -/

/-- The pool asks for one byte. -/
def oneByteLine : Option Json := some <| .object [("id", .int 1),
  ("result", .array [.array [], .string "00".toList, .int 1]), ("error", .null)]

/-- A notification whose coinbase is no hexadecimal text: every rebuild fails, and uses
up a value of the counter all the same. -/
def unusableLine : Option Json := some <| .object [("id", .null),
  ("method", .string "mining.notify".toList),
  ("params", .array [.string "1".toList, .string (List.replicate 64 '0'), .string ['x'], .string [],
    .array [], .string "20000000".toList, .string "1d00ffff".toList, .string "5f5e1000".toList,
    .bool true])]

/-- After 255 rebuilds the next text for one byte has three digits; and doubling
`2 ^ 30` leaves the `int`. -/
theorem extranonce2_text_outgrown :
    (∃ es, (sessionRun (sessionInitial 1 0 0) es).1.state.extranonce2Size = 1 ∧
      (sessionRun (sessionInitial 1 0 0) es).1.state.extranonce2Counter = 256) ∧
    minerFormatExtranonce2 32 1 256 = "100".toList ∧
    ¬TextOfSize 1 (minerFormatExtranonce2 32 1 256) ∧ IsInt (2 ^ 30) ∧ ¬IsInt (2 ^ 30 * 2) := by
  have text : minerFormatExtranonce2 32 1 256 = "100".toList := by decide +kernel
  refine ⟨⟨.line oneByteLine :: List.replicate 255 (.line unusableLine), ?_, ?_⟩, text, ?_, by decide,
    by decide⟩
  · decide +kernel
  · decide +kernel
  · intro promised
    have length := (promised.full (by rw [text]; decide)).1
    rw [text] at length
    exact absurd length (by decide)

end BtcRig.Stratum.Width
