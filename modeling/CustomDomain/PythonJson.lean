import Mathlib.Data.Rat.Defs
import Mathlib.Data.List.Basic
import Mathlib.Algebra.Order.Ring.Rat

/-!
# JSON values and Python's `==` on them

The values `json.loads` returns, with the equality Python gives them: numbers
compare by value across `bool`, `int` and `float`, `NaN` equals nothing, and
objects compare as mappings, whatever the order of their keys.

An object is a list of its items; where a key occurs twice, the first item
counts.
-/

namespace PythonJson

/-- A Python `float`: finite values are kept as the number they denote. -/
inductive PyFloat where
  | finite (value : Rat)
  | infinite (negative : Bool)
  | nan
  deriving DecidableEq, Repr

inductive Json where
  | null
  | bool (value : Bool)
  | int (value : Int)
  | float (value : PyFloat)
  | str (value : String)
  | arr (items : List Json)
  | obj (fields : List (String × Json))
  deriving Repr

namespace Json

/-- `mapping.get(key)`, without its default. -/
def lookup (key : String) : List (String × Json) → Option Json
  | [] => none
  | (name, value) :: rest => if name = key then some value else lookup key rest

/-- The number a scalar compares as. -/
def number : Json → Option PyFloat
  | .bool value => some (.finite (if value then 1 else 0))
  | .int value => some (.finite value)
  | .float value => some value
  | _ => none

def numberEq : PyFloat → PyFloat → Bool
  | .nan, _ => false
  | _, .nan => false
  | first, second => first == second

def pyEqNumber (first second : Json) : Bool :=
  match number first, number second with
  | some first, some second => numberEq first second
  | _, _ => false

mutual

/-- Python's `==` on JSON values. -/
def pyEq : Json → Json → Bool
  | .null, .null => true
  | .str first, .str second => first == second
  | .arr first, .arr second => pyEqItems first second
  | .obj first, .obj second =>
      pyEqFields first second && second.all fun field => (lookup field.1 first).isSome
  | .bool first, other => pyEqNumber (.bool first) other
  | .int first, other => pyEqNumber (.int first) other
  | .float first, other => pyEqNumber (.float first) other
  | _, _ => false

def pyEqItems : List Json → List Json → Bool
  | [], [] => true
  | first :: firsts, second :: seconds => pyEq first second && pyEqItems firsts seconds
  | _, _ => false

/-- Every item of the first mapping is in the second. -/
def pyEqFields : List (String × Json) → List (String × Json) → Bool
  | [], _ => true
  | (key, value) :: rest, others =>
      (match lookup key others with
        | some other => pyEq value other
        | none => false) && pyEqFields rest others

end

end Json

end PythonJson
