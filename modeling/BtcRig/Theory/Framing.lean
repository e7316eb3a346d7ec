/-
# BtcRig.Theory.Framing — a stream cut at its separators

`frames limit stop` reads a stream element by element and cuts it at every `stop`,
for as long as the segments stay shorter than `limit`.  `Framed` is the same without
a reading order; it has one solution for every stream (`framed_frames`,
`Framed.unique`), so a reader that only ever cuts off a first segment
(`frames_segment`) gets the same segments however the stream reached it.
-/
import Mathlib

namespace BtcRig.Theory.Framing

set_option autoImplicit false

variable {α : Type} [DecidableEq α] {limit : Nat} {stop : α}

/-- The segments behind what is `held` of the first one, and the uncut rest. -/
def framesFrom (limit : Nat) (stop : α) : List α → List α → List (List α) × List α
  | held, [] => ([], held)
  | held, b :: rest =>
      if b = stop then
        (held :: (framesFrom limit stop [] rest).1, (framesFrom limit stop [] rest).2)
      else if held.length + 1 < limit then framesFrom limit stop (held ++ [b]) rest
      else ([], held ++ b :: rest)

def frames (limit : Nat) (stop : α) (stream : List α) : List (List α) × List α :=
  framesFrom limit stop [] stream

/-- The segments and the rest make up the stream, and no other cut was to be made. -/
structure Framed (limit : Nat) (stop : α) (stream : List α) (segments : List (List α))
    (tail : List α) : Prop where
  exact : stream = segments.flatMap (· ++ [stop]) ++ tail
  clean : ∀ segment ∈ segments, stop ∉ segment
  short : ∀ segment ∈ segments, segment.length < limit
  ended : stop ∉ tail.take limit

/-! ## Cutting -/

theorem framesFrom_segment {segment : List α} (clean : stop ∉ segment) (held rest : List α)
    (short : held.length + segment.length < limit) :
    framesFrom limit stop held (segment ++ stop :: rest) =
      ((held ++ segment) :: (frames limit stop rest).1, (frames limit stop rest).2) := by
  induction segment generalizing held with
  | nil => simp [framesFrom, frames]
  | cons b segment ih =>
      rw [List.mem_cons, not_or] at clean
      obtain ⟨other, clean⟩ := clean
      rw [List.length_cons] at short
      rw [List.cons_append, framesFrom, if_neg (Ne.symm other), if_pos (by omega),
        ih clean (held ++ [b]) (by simp; omega)]
      simp

/-- A short first segment is cut off, whatever follows. -/
theorem frames_segment {segment : List α} (clean : stop ∉ segment) (short : segment.length < limit)
    (rest : List α) :
    frames limit stop (segment ++ stop :: rest) =
      (segment :: (frames limit stop rest).1, (frames limit stop rest).2) :=
  framesFrom_segment clean [] rest (by simpa using short)

theorem framesFrom_uncut (held stream : List α) (room : held.length < limit)
    (uncut : stop ∉ stream.take (limit - held.length)) :
    framesFrom limit stop held stream = ([], held ++ stream) := by
  induction stream generalizing held with
  | nil => simp [framesFrom]
  | cons b rest ih =>
      obtain ⟨n, size⟩ : ∃ n, limit - held.length = n + 1 := ⟨limit - held.length - 1, by omega⟩
      rw [size, List.take_succ_cons, List.mem_cons, not_or] at uncut
      obtain ⟨other, uncut⟩ := uncut
      rw [framesFrom, if_neg (Ne.symm other)]
      split
      · rename_i more
        have next : limit - (held ++ [b]).length = n := by simp; omega
        rw [ih (held ++ [b]) (by simpa using more) (by rwa [next])]
        simp
      · rfl

/-- Where no separator comes in time nothing is cut. -/
theorem frames_uncut {stream : List α} (positive : 0 < limit) (uncut : stop ∉ stream.take limit) :
    frames limit stop stream = ([], stream) :=
  framesFrom_uncut [] stream positive (by simpa using uncut)

/-! ## The one way to cut a stream -/

omit [DecidableEq α] in
/-- What follows the first separator is framed by itself. -/
theorem split_at_stop {stream : List α} (cut : stop ∈ stream.take limit) :
    ∃ segment rest, stream = segment ++ stop :: rest ∧ stop ∉ segment ∧ segment.length < limit := by
  obtain ⟨segment, rest, whole, clean⟩ := List.eq_append_cons_of_mem cut
  refine ⟨segment, rest ++ stream.drop limit, ?_, clean, ?_⟩
  · have whole_ := List.take_append_drop limit stream
    rw [whole, List.append_assoc, List.cons_append] at whole_
    exact whole_.symm
  · have size := congrArg List.length whole
    rw [List.length_take, List.length_append, List.length_cons] at size
    omega

theorem framed_frames (positive : 0 < limit) (stream : List α) :
    Framed limit stop stream (frames limit stop stream).1 (frames limit stop stream).2 := by
  induction size : stream.length using Nat.strongRecOn generalizing stream with
  | _ n ih =>
      by_cases cut : stop ∈ stream.take limit
      · obtain ⟨segment, rest, rfl, clean, short⟩ := split_at_stop cut
        rw [List.length_append, List.length_cons] at size
        have tail := ih rest.length (by omega) rest rfl
        rw [frames_segment clean short]
        refine ⟨?_, ?_, ?_, tail.ended⟩
        · have whole := tail.exact
          rw [List.flatMap_cons, List.append_assoc, List.append_assoc, ← whole]
          simp
        · exact List.forall_mem_cons.mpr ⟨clean, tail.clean⟩
        · exact List.forall_mem_cons.mpr ⟨short, tail.short⟩
      · rw [frames_uncut positive cut]
        exact ⟨rfl, fun _ => nofun, fun _ => nofun, cut⟩

theorem Framed.unique {stream tail : List α} {segments : List (List α)} (positive : 0 < limit)
    (framed : Framed limit stop stream segments tail) :
    frames limit stop stream = (segments, tail) := by
  induction segments generalizing stream with
  | nil =>
      have whole : stream = tail := framed.exact
      rw [whole]
      exact frames_uncut positive framed.ended
  | cons segment segments ih =>
      obtain ⟨clean, cleans⟩ := List.forall_mem_cons.mp framed.clean
      obtain ⟨short, shorts⟩ := List.forall_mem_cons.mp framed.short
      have framedRest : Framed limit stop (segments.flatMap (· ++ [stop]) ++ tail) segments tail :=
        ⟨rfl, cleans, shorts, framed.ended⟩
      have rest := ih framedRest
      rw [framed.exact, List.flatMap_cons, List.append_assoc, List.append_assoc,
        List.singleton_append, frames_segment clean short, rest]

end BtcRig.Theory.Framing
