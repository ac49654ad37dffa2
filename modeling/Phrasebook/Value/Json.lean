import Phrasebook.Value
import Phrasebook.Json.Parser

/-!
# Values in JSON

* `Value.toJson` : a value as a tree: maps are objects, numbers always have a point or an exponent;
* `Value.parseJson` : the value of a JSON text without arrays.
-/

namespace Phrasebook

namespace Value

mutual

def toJson : Value → Json
  | .null => .null
  | .bool b => .bool b
  | .number n => .ofDouble n
  | .string s => .text s
  | .map es => .object (entriesToJson es)

def entriesToJson : List (String × Value) → List (Option String × Json)
  | [] => []
  | (k, v) :: es => (some k, toJson v) :: entriesToJson es

end

mutual

/-- The value of a tree; arrays have none. -/
def ofJson? : Json → Option Value
  | .null => some .null
  | .bool b => some (.bool b)
  | .number spelling => (Json.double? spelling).map .number
  | .string s => s.map .string
  | .array _ => none
  | .object members => (entriesOf? members).map fun es => .map (Assoc.ofList es)

def entriesOf? : List (Option String × Json) → Option (List (String × Value))
  | [] => some []
  | (k, j) :: js =>
    match k, ofJson? j, entriesOf? js with
    | some k, some v, some es => some ((k, v) :: es)
    | _, _, _ => none

end

/-- The value of a JSON text. -/
def parseJson (s : String) : Option Value :=
  match Json.parse s with
  | some j => if j.isSound Json.nesting then ofJson? j else none
  | none => none

end Value

end Phrasebook
