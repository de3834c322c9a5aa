import Mathlib.Data.Rat.Defs
import Mathlib.Data.Rat.Floor

/-!
# JSON values as Python sees them

`orjson.loads` turns a client message into Python values of types the client
chose.  This file gives the operations the handlers apply to such values
without validating them: attribute access, comparison with integers, list
indexing and truth.  An operation the value's type does not support raises.
-/

/-- The exceptions raised by unvalidated values. -/
inductive PythonError where
  | attributeError
  | typeError
  | valueError
  | keyError
  | indexError
  deriving DecidableEq, Repr

/-- A decoded JSON document.  A finite float is the rational number it
denotes. -/
inductive Json where
  | null
  | bool (value : Bool)
  | int (value : Int)
  | float (value : ℚ)
  | str (value : String)
  | arr (items : List Json)
  | obj (fields : List (String × Json))

namespace Json

mutual

/-- How many lists and dictionaries of a value stand within one another. -/
def depth : Json → Nat
  | .arr items => itemsDepth items + 1
  | .obj fields => fieldsDepth fields + 1
  | _ => 0

def itemsDepth : List Json → Nat
  | [] => 0
  | item :: items => max item.depth (itemsDepth items)

def fieldsDepth : List (String × Json) → Nat
  | [] => 0
  | (_, value) :: fields => max value.depth (fieldsDepth fields)

end

/-- `value.get(key, default)`, an attribute only dictionaries have. -/
def get (value : Json) (key : String) (default : Json := .null) : Except PythonError Json :=
  match value with
  | .obj fields => .ok ((fields.lookup key).getD default)
  | _ => .error .attributeError

/-- The number a value stands for in a comparison with an integer. -/
def number? : Json → Option ℚ
  | .bool value => some (if value then 1 else 0)
  | .int value => some value
  | .float value => some value
  | _ => none

def inRange (value : Json) (bound : Nat) : Except PythonError Bool :=
  match value.number? with
  | some number => .ok (decide (0 ≤ number ∧ number < bound))
  | none => .error .typeError

/-- The integer a value stands for as a list index.  `bool` is a subclass of
`int`, whereas a float is not an index even when it is integral. -/
def index : Json → Except PythonError Int
  | .bool value => .ok (if value then 1 else 0)
  | .int value => .ok value
  | _ => .error .typeError

/-- The members `x` and `y` as list indices. -/
def position (data : Json) : Except PythonError (Int × Int) := do
  let x ← data.get "x"
  let y ← data.get "y"
  let row ← y.index
  let column ← x.index
  pure (column, row)

/-- Whether a value is an `int`. -/
def isInteger : Json → Bool
  | .bool _ | .int _ => true
  | _ => false

def isNone : Json → Bool
  | .null => true
  | _ => false

/-- The truth value of `if value:`. -/
def truthy : Json → Bool
  | .null => false
  | .bool value => value
  | .int value => value != 0
  | .float value => value != 0
  | .str value => value != ""
  | .arr items => !items.isEmpty
  | .obj fields => !fields.isEmpty

def isString (value : Json) (text : String) : Bool :=
  match value with
  | .str string => string == text
  | _ => false

theorem depth_arr_le {items : List Json} {limit : Nat} :
    (Json.arr items).depth ≤ limit + 1 ↔ ∀ item ∈ items, item.depth ≤ limit := by
  rw [depth, Nat.add_le_add_iff_right]
  induction items with
  | nil => simp [itemsDepth]
  | cons item items ih => simp [itemsDepth, ih]

theorem depth_obj_le {fields : List (String × Json)} {limit : Nat} :
    (Json.obj fields).depth ≤ limit + 1 ↔ ∀ field ∈ fields, field.2.depth ≤ limit := by
  rw [depth, Nat.add_le_add_iff_right]
  induction fields with
  | nil => simp [fieldsDepth]
  | cons field fields ih => simp [fieldsDepth, ih]

theorem depth_of_number? {value : Json} {number : ℚ} (stands : value.number? = some number) :
    value.depth = 0 := by
  cases value with
  | arr | obj => cases stands
  | _ => rfl

theorem depth_of_index {value : Json} {index : Int} (indexes : value.index = .ok index) :
    value.depth = 0 := by
  cases value with
  | arr | obj => cases indexes
  | _ => rfl

theorem eq_of_isString {value : Json} {text : String} (same : value.isString text = true) :
    value = .str text := by
  cases value with
  | str string => simpa [isString] using same
  | _ => cases same

theorem depth_of_isString {value : Json} {text : String} (same : value.isString text = true) :
    value.depth = 0 := by
  rw [eq_of_isString same]
  rfl

theorem inRange_of_number? {value : Json} {number : ℚ} (stands : value.number? = some number)
    (bound : Nat) : value.inRange bound = .ok (decide (0 ≤ number ∧ number < bound)) := by
  simp [inRange, stands]

theorem index_isOk_iff (value : Json) :
    (∃ position, value.index = .ok position) ↔ value.isInteger = true := by
  cases value <;> simp [index, isInteger]

theorem number?_of_isInteger {value : Json} (integer : value.isInteger = true) :
    ∃ number, value.number? = some number := by
  cases value with
  | bool | int => exact ⟨_, rfl⟩
  | _ => cases integer

theorem index_of_inRange {value : Json} {bound : Nat} {position : Int}
    (ranged : value.inRange bound = .ok true) (indexed : value.index = .ok position) :
    0 ≤ position ∧ position < bound := by
  cases value with
  | bool value =>
      cases indexed
      cases value <;> simp_all [inRange, number?]
  | int value =>
      cases indexed
      simp only [inRange, number?, Except.ok.injEq, decide_eq_true_eq] at ranged
      exact ⟨by exact_mod_cast ranged.1, by exact_mod_cast ranged.2⟩
  | _ => cases indexed

end Json
