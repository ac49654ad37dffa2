import Phrasebook.Expr
import Phrasebook.Dict
import Phrasebook.Double.Text
import Phrasebook.Text.Classes

/-!
# Values

What expressions evaluate to.

* `Value.text` : a value as rendered text;
* `Value.truthy` : a value as a condition;
* `Value.WellFormed` : at no depth does a map have a key twice.  Every operation that builds a map
  keeps to this.
-/

namespace Phrasebook

/-- A value.  The entries of a map stand in the order in which their keys first came. -/
inductive Value where
  | null
  | bool (b : Bool)
  | number (n : Double)
  | string (s : String)
  | map (entries : List (String × Value))
deriving Repr, Inhabited

/-- The variables that a template may use. -/
abbrev Context := Dict Value

namespace Value

def ofLiteral : Literal → Value
  | .string s => .string s
  | .number n => .number n
  | .bool b => .bool b
  | .null => .null

/-- A value as rendered text. -/
def text : Value → String
  | .null | .bool false => ""
  | .bool true => "1"
  | .number n => n.label
  | .string s => s
  | .map _ => "Array"

/-- A value as a condition. -/
def truthy : Value → Bool
  | .null => false
  | .bool b => b
  | .number n => !n.equals .zero
  | .string s => !(s == "" || s == "0")
  | .map es => !es.isEmpty

def string? : Value → Option String
  | .string s => some s
  | _ => none

def entries? : Value → Option (List (String × Value))
  | .map es => some es
  | _ => none

/-- The number that a text spells, white space at its ends aside. -/
def numberOfText? (s : String) : Option Double := Double.ofChars? (Text.trim s.toList)

/-- The number that a scalar stands for in a comparison, if any. -/
def number? : Value → Option Double
  | .number n => some n
  | .string s => numberOfText? s
  | .null => some .zero
  | .bool _ | .map _ => none

mutual

/-- At no depth does a map have a key twice. -/
def WellFormed : Value → Prop
  | .map es => (Assoc.keys es).Nodup ∧ WellFormedEntries es
  | _ => True

def WellFormedEntries : List (String × Value) → Prop
  | [] => True
  | (_, v) :: es => WellFormed v ∧ WellFormedEntries es

end

end Value

end Phrasebook
