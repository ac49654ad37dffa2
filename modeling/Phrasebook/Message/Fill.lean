import Phrasebook.Dict
import Phrasebook.Expr.Token

/-!
# Filling in parameters

* `Parameters.fill` : every occurrence of a parameter name is replaced by the parameter's value, in
  one pass from left to right.  Where several names start, the longest is taken; values are not
  looked at again.
-/

namespace Phrasebook

abbrev Parameters := Dict String

/-- The parameter whose presence makes a message choose a plural form. -/
def countParameter : String := "%count%"

namespace Parameters

/-- The names that are not empty with their values, longest names first. -/
def longestFirst (entries : List (String × String)) : List (List Char × List Char) :=
  ((entries.map fun e => (e.1.toList, e.2.toList)).filter fun e => !e.1.isEmpty).mergeSort
    fun a b => byteLength b.1 ≤ byteLength a.1

/-- The text with every name replaced by its value, the first of the names that fit being taken;
`skip` counts the characters that still belong to a name already replaced. -/
def fillFrom (names : List (List Char × List Char)) : Nat → List Char → List Char
  | _, [] => []
  | skip + 1, _ :: cs => fillFrom names skip cs
  | 0, c :: cs =>
    match names.find? fun e => e.1.isPrefixOf (c :: cs) with
    | some (name, value) => value ++ fillFrom names (name.length - 1) cs
    | none => c :: fillFrom names 0 cs

/-- The text with every parameter name replaced by its value. -/
def fill (params : Parameters) (text : String) : String :=
  .ofList (fillFrom (longestFirst params.entries) 0 text.toList)

end Parameters

end Phrasebook
