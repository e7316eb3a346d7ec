/-
# BtcRig.Theory.Json — JSON values through a C library's eyes

Accessors take an optional value, since a missing member or element is a null
pointer and every test of a null pointer fails.  Strings are lists of characters;
an object is its list of members, of which the first with a key counts.

* `get_set_self`, `get_set_of_ne`, `get_del_self`, `get_del_of_ne` — members after
  an update;
* `get_setAll_of_mem`, `get_setAll_of_notMem` — and after several.
-/
import Mathlib

namespace BtcRig.Theory

set_option autoImplicit false

inductive Json where
  | null
  | bool (b : Bool)
  | int (n : Int)
  | real (q : ℚ)
  | string (text : List Char)
  | array (elements : List Json)
  | object (members : List (String × Json))

namespace Json

/-! ## Reading -/

/-- The member of an object; nothing for any other value. -/
def get (value : Option Json) (key : String) : Option Json :=
  match value with
  | some (object members) => (members.find? fun m => m.1 == key).map Prod.snd
  | _ => none

def element (value : Option Json) (index : Nat) : Option Json :=
  match value with
  | some (array elements) => elements[index]?
  | _ => none

def isArray : Option Json → Bool
  | some (array _) => true
  | _ => false

def isObject : Option Json → Bool
  | some (object _) => true
  | _ => false

/-- `0` for anything but an array. -/
def arraySize : Option Json → Nat
  | some (array elements) => elements.length
  | _ => 0

def isNull : Option Json → Bool
  | some null => true
  | _ => false

def isTrue : Option Json → Bool
  | some (bool true) => true
  | _ => false

def stringValue : Option Json → Option (List Char)
  | some (string text) => some text
  | _ => none

def boolValue : Option Json → Option Bool
  | some (bool b) => some b
  | _ => none

def integerValue : Option Json → Option Int
  | some (int n) => some n
  | _ => none

/-- An integer or a real. -/
def numberValue : Option Json → Option ℚ
  | some (int n) => some n
  | some (real q) => some q
  | _ => none

/-! ## Writing -/

/-- Set a member, replacing the one it has; other values are left alone. -/
def set (value : Json) (key : String) (new : Json) : Json :=
  match value with
  | object members => object ((key, new) :: members.filter fun m => m.1 != key)
  | other => other

def del (value : Json) (key : String) : Json :=
  match value with
  | object members => object (members.filter fun m => m.1 != key)
  | other => other

/-- Set several members, in this order. -/
def setAll (value : Json) (members : List (String × Json)) : Json :=
  members.foldl (fun value m => value.set m.1 m.2) value

theorem find?_filter_ne (members : List (String × Json)) (key key' : String) (other : key' ≠ key) :
    ((members.filter fun m => m.1 != key).find? fun m => m.1 == key') =
      members.find? fun m => m.1 == key' := by
  rw [List.find?_filter]
  congr 1
  funext m
  by_cases found : m.1 = key'
  · simp [found, other]
  · simp [found]

theorem find?_filter_self (members : List (String × Json)) (key : String) :
    ((members.filter fun m => m.1 != key).find? fun m => m.1 == key) = none := by
  simp [List.find?_eq_none]

section Members

variable {value : Json} (key : String)

/-- A member that was set is read back. -/
theorem get_set_self (new : Json) (isObj : isObject (some value) = true) :
    get (some (value.set key new)) key = some new := by
  cases value with
  | object members => simp [set, get]
  | _ => cases isObj

/-- Setting a member keeps the others. -/
theorem get_set_of_ne (new : Json) {key' : String} (other : key' ≠ key) :
    get (some (value.set key new)) key' = get (some value) key' := by
  cases value with
  | object members =>
      have skip : (key == key') = false := by simpa using other.symm
      simp only [set, get, List.find?_cons, skip, find?_filter_ne members key key' other]
  | _ => rfl

/-- A deleted member is gone. -/
theorem get_del_self : get (some (value.del key)) key = none := by
  cases value with
  | object members => simp only [del, get, find?_filter_self, Option.map_none]
  | _ => rfl

/-- Deleting a member keeps the others. -/
theorem get_del_of_ne {key' : String} (other : key' ≠ key) :
    get (some (value.del key)) key' = get (some value) key' := by
  cases value with
  | object members => simp only [del, get, find?_filter_ne members key key' other]
  | _ => rfl

@[simp] theorem isObject_set (new : Json) :
    isObject (some (value.set key new)) = isObject (some value) := by
  cases value <;> rfl

@[simp] theorem isObject_del : isObject (some (value.del key)) = isObject (some value) := by
  cases value <;> rfl

@[simp] theorem isObject_setAll (members : List (String × Json)) :
    isObject (some (value.setAll members)) = isObject (some value) := by
  unfold setAll
  induction members generalizing value with
  | nil => rfl
  | cons m members ih => rw [List.foldl_cons, ih, isObject_set]

/-- Setting many members keeps those that are not among them. -/
theorem get_setAll_of_notMem {members : List (String × Json)} {key : String}
    (other : key ∉ members.map Prod.fst) :
    get (some (value.setAll members)) key = get (some value) key := by
  unfold setAll
  induction members generalizing value with
  | nil => rfl
  | cons m members ih =>
      rw [List.map_cons, List.mem_cons, not_or] at other
      rw [List.foldl_cons, ih other.2]
      exact get_set_of_ne m.1 m.2 other.1

/-- Members with different keys are all read back. -/
theorem get_setAll_of_mem {members : List (String × Json)} {m : String × Json}
    (isObj : isObject (some value) = true) (distinct : (members.map Prod.fst).Nodup)
    (member : m ∈ members) : get (some (value.setAll members)) m.1 = some m.2 := by
  induction members generalizing value with
  | nil => cases member
  | cons first members ih =>
      obtain ⟨absent, distinct⟩ := List.nodup_cons.mp distinct
      have rest : value.setAll (first :: members) = (value.set first.1 first.2).setAll members := rfl
      rw [rest]
      rcases List.mem_cons.mp member with rfl | later
      · rw [get_setAll_of_notMem absent, get_set_self m.1 m.2 isObj]
      · exact ih (by rw [isObject_set, isObj]) distinct later

end Members

end Json

end BtcRig.Theory
