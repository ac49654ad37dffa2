import Phrasebook.Json

/-!
# Records and variants in JSON

How records and tagged variants are read from a JSON tree.

* `Json.fields?` : the fields of a record, from an object or from an array in the order of the
  fields;
* `Json.variant?` : a variant from an object with a tag and a content, or from an array of the two;
* `Json.tagged?` : what a variant stands for whose content is a record.

Members of an object that mean nothing are passed over without a look inside.  A content that stands
before its tag is looked through whole before the tag is known; from there on it counts as
`settled`.
-/

namespace Phrasebook

namespace Json

def bool? : Json → Option Bool
  | .bool b => some b
  | _ => none

def text? : Json → Option String
  | .string s => s
  | _ => none

def finite? : Json → Option Double
  | .number spelling => double? spelling
  | _ => none

/-- A natural number below `2 ^ 64`, written as digits alone. -/
def nat? : Json → Option Nat
  | .number spelling =>
    let n := Nat.ofDigitChars 10 spelling 0
    if spelling.all Char.isDigit && n < UInt64.size then some n else none
  | _ => none

/-! ### Records -/

/-- The values of named fields among the members of an object.  A member with another name is passed
over; no field comes twice. -/
def namedFields? (names : List String) (members : List (Option String × Json)) :
    Option (List (Option Json)) :=
  let known := members.filter fun e => match e.1 with
    | some k => names.contains k
    | none => false
  if members.all (·.1.isSome) && decide (known.map Prod.fst).Nodup then
    some (names.map fun name => (known.find? fun e => e.1 == some name).map Prod.snd)
  else none

/-- The values of the fields of a record, as far as they are given. -/
def fields? (names : List String) : Json → Option (List (Option Json))
  | .object members => namedFields? names members
  | .array items =>
    if items.length ≤ names.length then
      some (items.map some ++ List.replicate (names.length - items.length) none)
    else none
  | _ => none

/-! ### Variants -/

/-- A variant: its place among the names, its content if given, and whether the content has been
looked through. -/
structure Variant where
  index : Nat
  content : Option Json
  settled : Bool
deriving Repr

/-- The place that a tag names.  In a settled content a tag may also be the place itself. -/
def tagIndex? (settled : Bool) (names : List String) (tag : Json) : Option Nat :=
  match tag with
  | .string (some s) => names.findIdx? (· == s)
  | tag =>
    if settled then
      match nat? tag with
      | some n => if n < names.length then some n else none
      | none => none
    else none

/-- Whether the tag stands before the content among the members of an object. -/
def tagFirst (tagName contentName : String) : List (Option String × Json) → Bool
  | [] => true
  | (k, _) :: es =>
    if k = some tagName then true else if k = some contentName then false
      else tagFirst tagName contentName es

/-- A variant from an object with a tag and a content, in any order, or from an array of the two.
`room` is how deep what is inside may nest. -/
def variant? (tagName contentName : String) (names : List String) (settled : Bool) (room : Nat) :
    Json → Option Variant
  | .array [tag, content] => do
    let index ← tagIndex? settled names tag
    return ⟨index, some content, settled⟩
  | .object members => do
    match ← namedFields? [tagName, contentName] members with
    | [some tag, content] =>
      let index ← tagIndex? settled names tag
      if tagFirst tagName contentName members then return ⟨index, content, settled⟩
      else if content.all (isSound room) then return ⟨index, content, true⟩
      else none
    | _ => none
  | _ => none

/-- What a record tagged with one of the names stands for, when `content` reads the record in each
place.  The first number is how deep the whole may nest; the tag takes one off, and `content` is
asked with the rest. -/
def tagged? {α : Type} (names : List String) (content : Nat → Bool → Nat → Json → Option α) :
    Nat → Bool → Json → Option α
  | 0, _, _ => none
  | room + 1, settled, j => do
    let v ← j.variant? "type" "data" names settled room
    let inner ← v.content
    content room v.settled v.index inner

/-- A variant without content, written as its name or as an object with its name and null. -/
def plainVariant? (names : List String) (settled : Bool) (room : Nat) : Json → Option Nat
  | .string (some s) => names.findIdx? (· == s)
  | .object [(some s, inner)] =>
    if room = 0 then none
    else match inner with
      | .null => names.findIdx? (· == s)
      | .object [] => if settled then names.findIdx? (· == s) else none
      | _ => none
  | _ => none

end Json

end Phrasebook
