import Phrasebook.Expr
import Phrasebook.Json.Decode
import Phrasebook.Json.Parser

/-!
# Expressions in JSON

* `Expr.toJson` : an expression as a tree of tagged records;
* `Expr.ofJson?` : the expression that a tree stands for;
* `Expr.parseJson` : the expression that a JSON text stands for.
-/

namespace Phrasebook

open Json (ofMembers ofNat)

/-- A tagged record. -/
def Json.tagged (tag : String) (data : List (String × Json)) : Json :=
  ofMembers [("type", Json.text tag), ("data", ofMembers data)]

def Literal.kinds : List String := ["String", "Number", "Bool", "Null"]

def Literal.toJson : Literal → Json
  | .string s => ofMembers [("kind", Json.text "String"), ("value", Json.text s)]
  | .number n => ofMembers [("kind", Json.text "Number"), ("value", .ofDouble n)]
  | .bool b => ofMembers [("kind", Json.text "Bool"), ("value", .bool b)]
  | .null => ofMembers [("kind", Json.text "Null")]

def Literal.ofJson? (settled : Bool) : Nat → Json → Option Literal
  | 0, _ => none
  | room + 1, j => do
    let v ← j.variant? "kind" "value" kinds settled room
    match v.index, v.content with
    | 0, some c => c.text?.map .string
    | 1, some c => c.finite?.map .number
    | 2, some c => c.bool?.map .bool
    | 3, none | 3, some .null => some .null
    | _, _ => none

def BinOp.all : List BinOp := [.equal, .notEqual, .concat, .and, .or]

def BinOp.names : List String := ["Equal", "NotEqual", "Concat", "And", "Or"]

def BinOp.name : BinOp → String
  | .equal => "Equal"
  | .notEqual => "NotEqual"
  | .concat => "Concat"
  | .and => "And"
  | .or => "Or"

namespace Expr

def kinds : List String :=
  ["Constant", "Name", "Array", "Filter", "Conditional", "Binary", "Transchoice"]

/-! ### Writing -/

mutual

def toJson : Expr → Json
  | .const v l => .tagged "Constant" [("value", v.toJson), ("lineno", ofNat l)]
  | .name x l => .tagged "Name" [("name", Json.text x), ("lineno", ofNat l)]
  | .array es l => .tagged "Array" [("elements", .array (pairsToJson es)), ("lineno", ofNat l)]
  | .filter e x as l =>
    .tagged "Filter"
      [("node", toJson e), ("name", Json.text x), ("arguments", .array (listToJson as)),
        ("lineno", ofNat l)]
  | .cond t y n l =>
    .tagged "Conditional" [("test", toJson t), ("then", toJson y), ("otherwise", toJson n),
      ("lineno", ofNat l)]
  | .binary op a b l =>
    .tagged "Binary" [("operator", Json.text op.name), ("left", toJson a), ("right", toJson b),
      ("lineno", ofNat l)]
  | .choice es al l =>
    .tagged "Transchoice"
      [("arguments", ofMembers [("elements", .array (pairsToJson es)), ("lineno", ofNat al)]),
        ("lineno", ofNat l)]

def listToJson : List Expr → List Json
  | [] => []
  | e :: es => toJson e :: listToJson es

def pairsToJson : List (Expr × Expr) → List Json
  | [] => []
  | (k, v) :: es => ofMembers [("key", toJson k), ("value", toJson v)] :: pairsToJson es

end

/-! ### Reading  The first number of each function is how deep the tree may nest; reading a record,
a variant or an array takes one off. -/

mutual

/-- The expression that a tree stands for. -/
def ofJson? : Nat → Bool → Json → Option Expr
  | 0, _, _ => none
  | room + 1, settled, j => do
    let v ← j.variant? "type" "data" kinds settled room
    let content ← v.content
    contentOf? room v.settled v.index content

/-- The expression of the kind in place `index` whose record is `j`. -/
def contentOf? : Nat → Bool → Nat → Json → Option Expr
  | 0, _, _, _ => none
  | room + 1, settled, index, j =>
    match index with
    | 0 => do
      let [some value, some line] ← j.fields? ["value", "lineno"] | none
      return .const (← Literal.ofJson? settled room value) (← line.nat?)
    | 1 => do
      let [some id, some line] ← j.fields? ["name", "lineno"] | none
      return .name (← id.text?) (← line.nat?)
    | 2 => do
      let [some elements, some line] ← j.fields? ["elements", "lineno"] | none
      return .array (← pairsOf? room settled elements) (← line.nat?)
    | 3 => do
      let [some node, some id, some args, some line] ← j.fields? ["node", "name", "arguments",
          "lineno"] | none
      return .filter (← ofJson? room settled node) (← id.text?)
        (← listOf? room settled args) (← line.nat?)
    | 4 => do
      let [some test, some yes, some no, some line] ← j.fields? ["test", "then", "otherwise",
          "lineno"] | none
      return .cond (← ofJson? room settled test) (← ofJson? room settled yes)
        (← ofJson? room settled no)
        (← line.nat?)
    | 5 => do
      let [some op, some left, some right, some line] ← j.fields? ["operator", "left", "right",
          "lineno"] | none
      let place ← op.plainVariant? BinOp.names settled room
      return .binary (← BinOp.all[place]?) (← ofJson? room settled left)
        (← ofJson? room settled right)
        (← line.nat?)
    | 6 => do
      let [some args, some line] ← j.fields? ["arguments", "lineno"] | none
      let (es, argsLine) ← arrayOf? room settled args
      return .choice es argsLine (← line.nat?)
    | _ => none

/-- The entries and the line of an array that is a record by itself. -/
def arrayOf? : Nat → Bool → Json → Option (Elements × Nat)
  | 0, _, _ => none
  | room + 1, settled, j => do
    let [some elements, some line] ← j.fields? ["elements", "lineno"] | none
    return (← pairsOf? room settled elements, ← line.nat?)

def listOf? : Nat → Bool → Json → Option (List Expr)
  | 0, _, _ => none
  | room + 1, settled, j =>
    match j with
    | .array items => items.mapM (ofJson? room settled)
    | _ => none

def pairsOf? : Nat → Bool → Json → Option Elements
  | 0, _, _ => none
  | room + 1, settled, j =>
    match j with
    | .array items => items.mapM (pairOf? room settled)
    | _ => none

def pairOf? : Nat → Bool → Json → Option (Expr × Expr)
  | 0, _, _ => none
  | room + 1, settled, j => do
    let [some key, some value] ← j.fields? ["key", "value"] | none
    return (← ofJson? room settled key, ← ofJson? room settled value)

end

def parseJson (s : String) : Option Expr := do
  let j ← Json.parse s
  ofJson? Json.nesting false j

end Expr

end Phrasebook
