/-
# BtcRig.Config.Variants — the spellings of kernel and backend variants

The three parsers of `stratum_main.c` that turn a string into a variant, and the names
under which variants are written.  Each parser compares without regard to ASCII case,
takes several spellings for one variant, and keeps its fallback for any other string.

* `openclKernel_named`, `openclBackend_named`, `cudaKernel_named`: a written name is read
  as the variant it stands for;
* `parseAll_eq_resolve_iff`: when reading several names in turn gives the value of the
  last one that has any.  A missing string is not passed over: it resets the value;
* `parseAll_eq_self_iff`: when further names leave a value as it is.
-/
import BtcRig.Theory.Aliases
import BtcRig.Gpu.OpenCl

namespace BtcRig.Config.Variants

open BtcRig.Theory.Aliases
open BtcRig.Gpu.OpenCl (BackendVariant KernelVariant)

set_option autoImplicit false

/-! ## Comparing -/

def asciiTolowerChar (ch : Char) : Char :=
  if ch ≥ 'A' ∧ ch ≤ 'Z' then Char.ofNat (ch.toNat - 'A'.toNat + 'a'.toNat) else ch

def stringEqualsCi : List Char → List Char → Bool
  | a :: as, b :: bs => asciiTolowerChar a == asciiTolowerChar b && stringEqualsCi as bs
  | as, bs => as.isEmpty && bs.isEmpty

/-! ## Parsing -/

/-- What distinguishes one parser from another: the variant that a missing or empty
string and its own name stand for, and the spellings of the others, in the order in
which they are compared. -/
structure Spellings (V : Type) where
  unset : V
  unsetName : String
  others : List (List String × V)

variable {V : Type}

def parseVariant (spellings : Spellings V) (value : Option (List Char)) (fallback : V) : V :=
  match value with
  | none => spellings.unset
  | some text =>
      if text.isEmpty || stringEqualsCi text spellings.unsetName.toList then spellings.unset
      else
        match spellings.others.find? fun o => o.1.any fun name => stringEqualsCi text name.toList with
        | some o => o.2
        | none => fallback

def openclKernelSpellings : Spellings KernelVariant where
  unset := .auto
  unsetName := "auto"
  others := [
    (["compact"], .compact),
    (["unrolled"], .unrolled),
    (["fixed-npi1", "fixed_npi1", "modern-fixed-npi1", "modern_fixed_npi1"], .fixedNpi1),
    (["fixed-npi2", "fixed_npi2", "modern-fixed-npi2", "modern_fixed_npi2"], .fixedNpi2),
    (["fixed-npi4", "fixed_npi4", "modern-fixed-npi4", "modern_fixed_npi4"], .fixedNpi4),
    (["register-heavy", "register_heavy", "modern-register-heavy", "modern_register_heavy"],
      .registerHeavy)]

def parseOpenclKernelVariant : Option (List Char) → KernelVariant → KernelVariant :=
  parseVariant openclKernelSpellings

def openclBackendSpellings : Spellings BackendVariant where
  unset := .auto
  unsetName := "auto"
  others := [(["compat10", "compat"], .compat10), (["modern"], .modern)]

def parseOpenclBackendVariant : Option (List Char) → BackendVariant → BackendVariant :=
  parseVariant openclBackendSpellings

inductive CudaKernelVariant where
  | standard
  | dual
  | fixedNpt1
  | fixedNpt2
  | fixedNpt4
  | lop3
  | fixedLop3Npt1
  | fixedLop3Npt2
  | fixedLop3Npt4
deriving DecidableEq

def cudaKernelSpellings : Spellings CudaKernelVariant where
  unset := .standard
  unsetName := "standard"
  others := [
    (["dual", "dual-nonce", "dual_nonce"], .dual),
    (["fixed-npt1", "fixed_npt1"], .fixedNpt1),
    (["fixed-npt2", "fixed_npt2"], .fixedNpt2),
    (["fixed-npt4", "fixed_npt4"], .fixedNpt4),
    (["lop3", "standard-lop3", "standard_lop3"], .lop3),
    (["fixed-lop3-npt1", "fixed_lop3_npt1", "lop3-npt1", "lop3_npt1"], .fixedLop3Npt1),
    (["fixed-lop3-npt2", "fixed_lop3_npt2", "lop3-npt2", "lop3_npt2"], .fixedLop3Npt2),
    (["fixed-lop3-npt4", "fixed_lop3_npt4", "lop3-npt4", "lop3_npt4"], .fixedLop3Npt4)]

def parseCudaKernelVariant : Option (List Char) → CudaKernelVariant → CudaKernelVariant :=
  parseVariant cudaKernelSpellings

/-! ## Naming -/

def openclKernelVariantName : KernelVariant → String
  | .compact => "compact"
  | .unrolled => "unrolled"
  | .fixedNpi1 => "fixed-npi1"
  | .fixedNpi2 => "fixed-npi2"
  | .fixedNpi4 => "fixed-npi4"
  | .registerHeavy => "register-heavy"
  | .auto => "auto"

def openclBackendVariantName : BackendVariant → String
  | .compat10 => "compat10"
  | .modern => "modern"
  | .auto => "auto"

def cudaKernelVariantName : CudaKernelVariant → String
  | .fixedNpt1 => "fixed-npt1"
  | .fixedNpt2 => "fixed-npt2"
  | .fixedNpt4 => "fixed-npt4"
  | .lop3 => "lop3"
  | .fixedLop3Npt1 => "fixed-lop3-npt1"
  | .fixedLop3Npt2 => "fixed-lop3-npt2"
  | .fixedLop3Npt4 => "fixed-lop3-npt4"
  | .dual => "dual"
  | .standard => "standard"

/-! ## Recognised strings -/

/-- The variant a value stands for, if it is a string that the parser knows. -/
def variantIn (spellings : Spellings V) (value : Option (List Char)) : Option V :=
  value.bind fun text =>
    if text.isEmpty || stringEqualsCi text spellings.unsetName.toList then some spellings.unset
    else
      (spellings.others.find? fun o => o.1.any fun name => stringEqualsCi text name.toList).map Prod.snd

theorem parseVariant_some (spellings : Spellings V) (text : List Char) (fallback : V) :
    parseVariant spellings (some text) fallback = (variantIn spellings (some text)).getD fallback := by
  simp only [parseVariant, variantIn, Option.bind_some]
  split
  · rfl
  · split <;> simp [*]

theorem openclKernel_named (variant : KernelVariant) :
    variantIn openclKernelSpellings (some (openclKernelVariantName variant).toList) = some variant := by
  cases variant <;> decide

theorem openclBackend_named (variant : BackendVariant) :
    variantIn openclBackendSpellings (some (openclBackendVariantName variant).toList) =
      some variant := by
  cases variant <;> decide

theorem cudaKernel_named (variant : CudaKernelVariant) :
    variantIn cudaKernelSpellings (some (cudaKernelVariantName variant).toList) = some variant := by
  cases variant <;> decide

/-! ## Several names -/

/-- A value that decides what the parser returns: a string it knows, or none at all. -/
def decides (spellings : Spellings V) (value : Option (List Char)) : Bool :=
  value.isNone || (variantIn spellings value).isSome

/-- If the last value that decides is a missing string, then what the names resolve to
is what a missing string is read as. -/
def Kept (spellings : Spellings V) (values : List (Option (List Char))) (previous : V) : Prop :=
  (values.filter (decides spellings)).getLast? = some none →
    resolve (values.map (variantIn spellings)) previous = spellings.unset

def parseAll (spellings : Spellings V) (values : List (Option (List Char))) (previous : V) : V :=
  values.foldl (fun current value => parseVariant spellings value current) previous

theorem parseAll_snoc (spellings : Spellings V) (values : List (Option (List Char)))
    (last : Option (List Char)) (previous : V) :
    parseAll spellings (values ++ [last]) previous =
      parseVariant spellings last (parseAll spellings values previous) := by
  simp [parseAll]

section Deciding

variable {spellings : Spellings V} {text : List Char}

theorem filter_missing : [none].filter (decides spellings) = [none] := rfl

theorem filter_unknown (unknown : variantIn spellings (some text) = none) :
    [some text].filter (decides spellings) = [] := by
  simp [decides, unknown]

theorem filter_known {variant : V} (known : variantIn spellings (some text) = some variant) :
    [some text].filter (decides spellings) = [some text] := by
  simp [decides, known]

end Deciding

/-- **When an alias is not lost.**  Induction on the names from the back: a missing
string sets the value, a known one sets it as it should, and any other changes neither
side. -/
theorem parseAll_eq_resolve_iff (spellings : Spellings V) (values : List (Option (List Char)))
    (previous : V) :
    parseAll spellings values previous = resolve (values.map (variantIn spellings)) previous ↔
      Kept spellings values previous := by
  induction values using List.reverseRecOn with
  | nil => simp [parseAll, Kept]
  | append_singleton values last ih =>
      rw [parseAll_snoc, Kept, List.map_append, List.map_singleton, resolve_snoc, List.filter_append]
      cases last with
      | none =>
          have unknown : variantIn spellings none = none := rfl
          rw [filter_missing, List.getLast?_append, List.getLast?_singleton, unknown, Option.getD_none]
          constructor
          · intro kept _
            exact kept.symm
          · intro kept
            exact (kept rfl).symm
      | some text =>
          rw [parseVariant_some]
          cases known : variantIn spellings (some text) with
          | none =>
              rw [filter_unknown known, List.append_nil]
              exact ih
          | some variant =>
              rw [filter_known known, List.getLast?_append, List.getLast?_singleton]
              simp

/-- What a value that decides is read as. -/
def readAs (spellings : Spellings V) (value : Option (List Char)) : V :=
  (variantIn spellings value).getD spellings.unset

/-- The names read in turn give what the last deciding one is read as. -/
theorem parseAll_eq (spellings : Spellings V) (values : List (Option (List Char))) (previous : V) :
    parseAll spellings values previous =
      ((values.filter (decides spellings)).getLast?.map (readAs spellings)).getD previous := by
  induction values using List.reverseRecOn with
  | nil => rfl
  | append_singleton values last ih =>
      rw [parseAll_snoc, List.filter_append]
      cases last with
      | none =>
          rw [filter_missing, List.getLast?_append, List.getLast?_singleton]
          rfl
      | some text =>
          rw [parseVariant_some]
          cases known : variantIn spellings (some text) with
          | none =>
              rw [filter_unknown known, List.append_nil]
              exact ih
          | some variant =>
              rw [filter_known known, List.getLast?_append, List.getLast?_singleton]
              simp [readAs, known]

/-- The last deciding value, if there is any, is read as this variant. -/
def VariantAgrees (spellings : Spellings V) (values : List (Option (List Char))) (variant : V) : Prop :=
  ∀ last, (values.filter (decides spellings)).getLast? = some last → readAs spellings last = variant

theorem parseAll_eq_self_iff (spellings : Spellings V) (values : List (Option (List Char)))
    (variant : V) :
    parseAll spellings values variant = variant ↔ VariantAgrees spellings values variant := by
  rw [parseAll_eq, VariantAgrees]
  cases (values.filter (decides spellings)).getLast? with
  | none => simp
  | some last => simp

/-- A written name, read before the others, is what they have to agree with. -/
theorem parseAll_named (spellings : Spellings V) {name : List Char} {variant : V}
    (isNamed : variantIn spellings (some name) = some variant)
    (values : List (Option (List Char))) (previous : V) :
    parseAll spellings (some name :: values) previous = parseAll spellings values variant := by
  rw [parseAll, List.foldl_cons, parseVariant_some, isNamed, Option.getD_some]
  rfl

end BtcRig.Config.Variants
