import Phrasebook.Expr
import Phrasebook.Double.Text

/-!
# The text of an expression

* `Expr.text` : an expression in the form it could be written in a tag.  Strings stand in single
  quotation marks, lists in brackets, hashes in braces with every key that is no constant in
  parentheses, and an operand that is itself a binary operator or a conditional in parentheses.
-/

namespace Phrasebook

def BinOp.text : BinOp → String
  | .equal => "=="
  | .notEqual => "!="
  | .concat => "~"
  | .and => "and"
  | .or => "or"

def escaped (c : Char) : List Char := if c = '\x5c' ∨ c = '\x27' then ['\x5c', c] else [c]

def singleQuoted (cs : List Char) : List Char := '\x27' :: cs.flatMap escaped ++ ['\x27']

def Literal.chars : Literal → List Char
  | .string s => singleQuoted s.toList
  | .number n => n.labelChars
  | .bool true => "true".toList
  | .bool false => "false".toList
  | .null => "null".toList

namespace Expr

def isConst : Expr → Bool
  | .const _ _ => true
  | _ => false

/-- Whether an expression is a binary operator or a conditional. -/
def isOpen : Expr → Bool
  | .binary _ _ _ _ | .cond _ _ _ _ => true
  | _ => false

def parenthesizedIf (wanted : Bool) (cs : List Char) : List Char :=
  if wanted then '(' :: cs ++ [')'] else cs

def commaSeparated (parts : List (List Char)) : List Char := [',', ' '].intercalate parts

mutual

def chars : Expr → List Char
  | .const v _ => v.chars
  | .name x _ => x.toList
  | .array es _ =>
    if Elements.isList es then '[' :: commaSeparated (charsOfValues es) ++ [']']
    else '\x7b' :: commaSeparated (charsOfEntries es) ++ ['\x7d']
  | .filter e x as _ =>
    parenthesizedIf e.isOpen e.chars ++ '|' :: x.toList ++
      if as.isEmpty then [] else '(' :: commaSeparated (charsOfList as) ++ [')']
  | .cond t y n _ =>
    parenthesizedIf t.isOpen t.chars ++ " ? ".toList ++ y.chars ++ " : ".toList ++ n.chars
  | .binary op l r _ =>
    parenthesizedIf l.isOpen l.chars ++ ' ' :: op.text.toList ++
      ' ' :: parenthesizedIf r.isOpen r.chars
  | .choice es _ _ =>
    "transchoice_with_default(".toList ++ commaSeparated (charsOfValues es) ++ [')']

def charsOfList : List Expr → List (List Char)
  | [] => []
  | e :: es => e.chars :: charsOfList es

def charsOfValues : List (Expr × Expr) → List (List Char)
  | [] => []
  | (_, v) :: es => v.chars :: charsOfValues es

def charsOfEntries : List (Expr × Expr) → List (List Char)
  | [] => []
  | (k, v) :: es =>
    (parenthesizedIf (!k.isConst) k.chars ++ ':' :: ' ' :: v.chars) :: charsOfEntries es

end

def text (e : Expr) : String := .ofList e.chars

end Expr

end Phrasebook
