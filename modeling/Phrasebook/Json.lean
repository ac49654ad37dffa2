import Phrasebook.Double.Text

/-!
# JSON

* `Json` : a JSON text as a tree that keeps the spelling of numbers, the order of members and
  members of equal names;
* `Json.chars` : a tree as compact text;
* `Json.isSound` : whether a tree nests no deeper than allowed, all its strings are text and all its
  numbers are finite.
-/

namespace Phrasebook

/-- A JSON tree.  A string is `none` if its escapes include a surrogate without its partner. -/
inductive Json where
  | null
  | bool (b : Bool)
  | number (spelling : List Char)
  | string (s : Option String)
  | array (items : List Json)
  | object (members : List (Option String × Json))
deriving Repr, Inhabited

namespace Json

/-! ### Building trees -/

def text (s : String) : Json := .string (some s)

def ofNat (n : Nat) : Json := .number (Nat.toDigits 10 n)

/-- A number; what is not finite becomes null. -/
def ofDouble : Double → Json
  | .nan => .null
  | .ranked negative r =>
    if r.val = Double.topRank then .null else .number (Double.pointedChars negative r)

def ofMembers (members : List (String × Json)) : Json :=
  .object (members.map fun e => (some e.1, e.2))

/-! ### Writing -/

def escapedChar (c : Char) : List Char :=
  if c = '\x22' ∨ c = '\x5c' then ['\x5c', c]
  else if c = '\x08' then ['\x5c', 'b']
  else if c = '\t' then ['\x5c', 't']
  else if c = '\n' then ['\x5c', 'n']
  else if c = '\x0c' then ['\x5c', 'f']
  else if c = '\r' then ['\x5c', 'r']
  else if c < ' ' then ['\x5c', 'u', '0', '0'] ++
    [Nat.digitChar (c.toNat / 16), Nat.digitChar (c.toNat % 16)]
  else [c]

def stringChars : Option String → List Char
  | some s => '\x22' :: s.toList.flatMap escapedChar ++ ['\x22']
  | none => "\x22\x5cud800\x22".toList

mutual

def chars : Json → List Char
  | .null => "null".toList
  | .bool true => "true".toList
  | .bool false => "false".toList
  | .number spelling => spelling
  | .string s => stringChars s
  | .array items => '[' :: itemsChars items ++ [']']
  | .object members => '\x7b' :: membersChars members ++ ['\x7d']

def itemsChars : List Json → List Char
  | [] => []
  | [j] => chars j
  | j :: js => chars j ++ ',' :: itemsChars js

def membersChars : List (Option String × Json) → List Char
  | [] => []
  | [(k, j)] => stringChars k ++ ':' :: chars j
  | (k, j) :: js => stringChars k ++ ':' :: chars j ++ ',' :: membersChars js

end

def compress (j : Json) : String := .ofList j.chars

/-! ### Sound trees -/

/-- How deep a text may nest. -/
abbrev nesting : Nat := 127

/-- The number that a spelling spells, if it is finite. -/
def double? (spelling : List Char) : Option Double :=
  match Double.ofChars? spelling with
  | some x => if x.isFinite then some x else none
  | none => none

mutual

/-- Whether a tree nests at most `room` deep, and holds only strings that are text and numbers that
are finite. -/
def isSound (room : Nat) : Json → Bool
  | .null | .bool _ => true
  | .number spelling => (double? spelling).isSome
  | .string s => s.isSome
  | .array items => decide (0 < room) && areSound (room - 1) items
  | .object members => decide (0 < room) && areSoundMembers (room - 1) members

def areSound (room : Nat) : List Json → Bool
  | [] => true
  | j :: js => isSound room j && areSound room js

/-- `isSound` of every member, and every name is text. -/
def areSoundMembers (room : Nat) : List (Option String × Json) → Bool
  | [] => true
  | (k, j) :: js => k.isSome && isSound room j && areSoundMembers room js

end

end Json

end Phrasebook
