import Phrasebook.Json

/-!
# Reading JSON

* `Json.parse` : the tree that a text spells, if it spells one and nothing else.

Strings may escape surrogates that have no partner; `Json.parse` accepts them and marks the string.
-/

namespace Phrasebook

namespace Json

/-- The characters that may stand between the parts of a text. -/
def isGap (c : Char) : Bool := c == ' ' || c == '\n' || c == '\t' || c == '\r'

def skipGap (cs : List Char) : List Char := cs.dropWhile isGap

/-! ### Numbers -/

/-- The digits before the point: no zero stands in front of others. -/
def wholeDigits? : List Char → Option (List Char × List Char)
  | [] => none
  | c :: cs =>
    if c = '0' then some ([c], cs)
    else if c.isDigit then some (c :: cs.takeWhile Char.isDigit, cs.dropWhile Char.isDigit)
    else none

/-- The point and the digits after it, if there is a point. -/
def fractionDigits? : List Char → Option (List Char × List Char)
  | '.' :: cs =>
    let digits := cs.takeWhile Char.isDigit
    if digits.isEmpty then none else some ('.' :: digits, cs.dropWhile Char.isDigit)
  | cs => some ([], cs)

/-- The mark, sign and digits of an exponent, if there is one. -/
def exponentDigits? : List Char → Option (List Char × List Char)
  | c :: cs =>
    if c = 'e' ∨ c = 'E' then
      let (sign, cs) := match cs with
        | '+' :: cs => (['+'], cs)
        | '-' :: cs => (['-'], cs)
        | cs => ([], cs)
      let digits := cs.takeWhile Char.isDigit
      if digits.isEmpty then none else some (c :: sign ++ digits, cs.dropWhile Char.isDigit)
    else some ([], c :: cs)
  | [] => some ([], [])

def minus : List Char → List Char × List Char
  | '-' :: cs => (['-'], cs)
  | cs => ([], cs)

def number? (cs : List Char) : Option (List Char × List Char) := do
  let (sign, cs) := minus cs
  let (whole, cs) ← wholeDigits? cs
  let (fraction, cs) ← fractionDigits? cs
  let (exponent, cs) ← exponentDigits? cs
  return (sign ++ whole ++ fraction ++ exponent, cs)

/-! ### Strings -/

def hexDigit? (c : Char) : Option Nat :=
  if c.isDigit then some (c.toNat - '0'.toNat)
  else if 'a' ≤ c ∧ c ≤ 'f' then some (c.toNat - 'a'.toNat + 10)
  else if 'A' ≤ c ∧ c ≤ 'F' then some (c.toNat - 'A'.toNat + 10)
  else none

def hexDigits? (a b c d : Char) : Option Nat := do
  let a ← hexDigit? a
  let b ← hexDigit? b
  let c ← hexDigit? c
  let d ← hexDigit? d
  return ((a * 16 + b) * 16 + c) * 16 + d

/-- What a character stands for after a backslash. -/
def unescape? (c : Char) : Option Char :=
  if c = '\x22' ∨ c = '\x5c' ∨ c = '/' then some c
  else if c = 'b' then some '\x08'
  else if c = 'f' then some '\x0c'
  else if c = 'n' then some '\n'
  else if c = 'r' then some '\r'
  else if c = 't' then some '\t'
  else none

/-- One more code in front. -/
def pushCode (code : Nat) : Option (List Nat × List Char) → Option (List Nat × List Char) :=
  Option.map fun p => (code :: p.1, p.2)

/-- The codes of a string up to its closing mark, and what follows; a surrogate counts as a code of
its own. -/
def codes? : List Char → Option (List Nat × List Char)
  | [] => none
  | '\x22' :: cs => some ([], cs)
  | ['\x5c'] => none
  | '\x5c' :: 'u' :: a :: b :: c :: d :: cs =>
    match hexDigits? a b c d with
    | some code => pushCode code (codes? cs)
    | none => none
  | '\x5c' :: c :: cs =>
    match unescape? c with
    | some e => pushCode e.toNat (codes? cs)
    | none => none
  | c :: cs => if c < ' ' then none else pushCode c.toNat (codes? cs)

def isHighSurrogate (code : Nat) : Bool := 0xD800 ≤ code && code < 0xDC00

def isLowSurrogate (code : Nat) : Bool := 0xDC00 ≤ code && code < 0xE000

/-- The text of codes, two surrogates making one character; none if a surrogate is without its
partner. -/
def pairUp? : List Nat → Option (List Char)
  | [] => some []
  | code :: codes =>
    if isHighSurrogate code then
      match codes with
      | low :: codes =>
        if isLowSurrogate low then
          (pairUp? codes).map (Char.ofNat (0x10000 + (code - 0xD800) * 0x400 + (low - 0xDC00)) :: ·)
        else none
      | [] => none
    else if isLowSurrogate code then none
    else (pairUp? codes).map (Char.ofNat code :: ·)

def string? (cs : List Char) : Option (Option String × List Char) :=
  (codes? cs).map fun p => ((pairUp? p.1).map String.ofList, p.2)

/-! ### Trees -/

mutual

/-- The tree at the start of a text, and what follows it.  The first argument bounds the depth of
calls. -/
def value? : Nat → List Char → Option (Json × List Char)
  | 0, _ => none
  | n + 1, cs =>
    match skipGap cs with
    | 'n' :: 'u' :: 'l' :: 'l' :: cs => some (.null, cs)
    | 't' :: 'r' :: 'u' :: 'e' :: cs => some (.bool true, cs)
    | 'f' :: 'a' :: 'l' :: 's' :: 'e' :: cs => some (.bool false, cs)
    | '\x22' :: cs => (string? cs).map fun p => (.string p.1, p.2)
    | '[' :: cs =>
      match skipGap cs with
      | ']' :: cs => some (.array [], cs)
      | cs => (items? n cs).map fun p => (.array p.1, p.2)
    | '\x7b' :: cs =>
      match skipGap cs with
      | '\x7d' :: cs => some (.object [], cs)
      | cs => (members? n cs).map fun p => (.object p.1, p.2)
    | cs => (number? cs).map fun p => (.number p.1, p.2)

/-- The items of an array, of which at least one is left. -/
def items? : Nat → List Char → Option (List Json × List Char)
  | 0, _ => none
  | n + 1, cs => do
    let (item, cs) ← value? n cs
    match skipGap cs with
    | ',' :: cs =>
      let (items, cs) ← items? n cs
      return (item :: items, cs)
    | ']' :: cs => return ([item], cs)
    | _ => none

/-- The members of an object, of which at least one is left. -/
def members? : Nat → List Char → Option (List (Option String × Json) × List Char)
  | 0, _ => none
  | n + 1, cs =>
    match skipGap cs with
    | '\x22' :: cs => do
      let (name, cs) ← string? cs
      match skipGap cs with
      | ':' :: cs =>
        let (value, cs) ← value? n cs
        match skipGap cs with
        | ',' :: cs =>
          let (members, cs) ← members? n cs
          return ((name, value) :: members, cs)
        | '\x7d' :: cs => return ([(name, value)], cs)
        | _ => none
      | _ => none
    | _ => none

end

/-- The tree that a text spells, if it spells one and nothing else. -/
def parse (s : String) : Option Json :=
  let cs := s.toList
  match value? (2 * cs.length + 2) cs with
  | some (j, rest) => if (skipGap rest).isEmpty then some j else none
  | none => none

end Json

end Phrasebook
