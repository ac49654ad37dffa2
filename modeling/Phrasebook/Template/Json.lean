import Phrasebook.Expr.Json
import Phrasebook.Template

/-!
# Templates in JSON

* `Template.toJson` : a template as a record of its name and its segments;
* `Template.ofJson?` : the template that a tree stands for;
* `Template.parseJson` : the template that a JSON text stands for.
-/

namespace Phrasebook

open Json (ofMembers ofNat)

/-! ### Segments -/

namespace Segment

def kinds : List String := ["Text", "Print"]

def toJson : Segment → Json
  | .text data line => .tagged "Text" [("data", Json.text data), ("lineno", ofNat line)]
  | .print e line => .tagged "Print" [("expr", e.toJson), ("lineno", ofNat line)]

/-- The segment of the kind in place `index` whose record is `j`. -/
def contentOf? : Nat → Bool → Nat → Json → Option Segment
  | 0, _, _, _ => none
  | room + 1, settled, index, j =>
    match index with
    | 0 => do
      let [some data, some line] ← j.fields? ["data", "lineno"] | none
      return .text (← data.text?) (← line.nat?)
    | 1 => do
      let [some e, some line] ← j.fields? ["expr", "lineno"] | none
      return .print (← Expr.ofJson? room settled e) (← line.nat?)
    | _ => none

def ofJson? : Nat → Bool → Json → Option Segment := Json.tagged? kinds contentOf?

end Segment

/-! ### Templates -/

namespace Template

def toJson (t : Template) : Json :=
  ofMembers [("name", Json.text t.name), ("body", .array (t.body.map Segment.toJson))]

def segmentsOf? : Nat → Json → Option (List Segment)
  | room + 1, .array items => items.mapM (Segment.ofJson? room false)
  | _, _ => none

def ofJson? : Nat → Json → Option Template
  | 0, _ => none
  | room + 1, j => do
    let [some name, some body] ← j.fields? ["name", "body"] | none
    return ⟨← name.text?, ← segmentsOf? room body⟩

def parseJson (s : String) : Option Template := do
  let j ← Json.parse s
  ofJson? Json.nesting j

end Template

end Phrasebook
