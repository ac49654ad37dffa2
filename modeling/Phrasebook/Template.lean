import Phrasebook.Expr.Equality
import Phrasebook.Expr.Parser

/-!
# Templates

A template is literal text with expressions between it, in the order of its source.  A tag opens
with two left braces and closes with the first two right braces that stand outside quoted text.

* `Template` : a named template, with its segments;
* `Tag.splitOpen` : the text before the first opening of a tag, and what follows the opening;
* `Tag.splitClose` : the inside of a tag, and what follows its closing;
* `Template.parse` : the template that a source spells, or the first error in it.
-/

namespace Phrasebook

/-- A piece of a template: literal text, or an expression whose value is printed. -/
inductive Segment where
  | text (data : String) (line : Nat)
  | print (expr : Expr) (line : Nat)
deriving DecidableEq, Repr, Inhabited

structure Template where
  name : String
  body : List Segment
deriving DecidableEq, Repr, Inhabited

def Segment.expr? : Segment → Option Expr
  | .text _ _ => none
  | .print e _ => some e

def Template.expressions (t : Template) : List Expr := t.body.filterMap Segment.expr?

/-! ### Reading -/

namespace Tag

/-- Cuts at the first opening of a tag. -/
def splitOpen : List Char → Option (List Char × List Char)
  | [] => none
  | '\x7b' :: '\x7b' :: cs => some ([], cs)
  | c :: cs => (splitOpen cs).map fun (text, rest) => (c :: text, rest)

/-- Where in a tag a character stands: outside quoted text, inside text quoted by a mark, or there
after a backslash. -/
inductive Mode where
  | outside
  | inside (mark : Char)
  | escaped (mark : Char)
deriving DecidableEq, Repr

def Mode.next : Mode → Char → Mode
  | .outside, c => if isQuote c then .inside c else .outside
  | .inside q, c => if c = '\x5c' then .escaped q else if c = q then .outside else .inside q
  | .escaped q, _ => .inside q

/-- Cuts at the first closing of a tag outside quoted text. -/
def splitClose : Mode → List Char → Option (List Char × List Char)
  | _, [] => none
  | .outside, '\x7d' :: '\x7d' :: cs => some ([], cs)
  | mode, c :: cs => (splitClose (mode.next c) cs).map fun (inner, rest) => (c :: inner, rest)

theorem length_splitOpen_lt {cs text rest : List Char} :
    splitOpen cs = some (text, rest) → rest.length < cs.length := by
  fun_induction splitOpen cs generalizing text with
  | case1 => intro h; cases h
  | case2 => intro h; cases h; simp only [List.length_cons]; omega
  | case3 c cs _ ih =>
    intro h
    obtain ⟨p, hp, he⟩ := Option.map_eq_some_iff.1 h
    have := @ih p.1 (by rw [hp]; cases he; rfl)
    simp only [List.length_cons]
    omega

theorem length_splitClose_lt {mode : Mode} {cs inner rest : List Char} :
    splitClose mode cs = some (inner, rest) → rest.length < cs.length := by
  fun_induction splitClose mode cs generalizing inner with
  | case1 => intro h; cases h
  | case2 => intro h; cases h; simp only [List.length_cons]; omega
  | case3 mode c cs _ ih =>
    intro h
    obtain ⟨p, hp, he⟩ := Option.map_eq_some_iff.1 h
    have := @ih p.1 (by rw [hp]; cases he; rfl)
    simp only [List.length_cons]
    omega

end Tag

namespace Template

/-- Literal text as a segment; no text is no segment. -/
def textSegments (text : List Char) (line : Nat) : List Segment :=
  if text.isEmpty then [] else [.text (.ofList text) line]

/-- The segments of `cs`, whose first character stands on `line`. -/
def segments (line : Nat) (cs : List Char) : Except Error (List Segment) :=
  match _ho : Tag.splitOpen cs with
  | none => .ok (textSegments cs line)
  | some (text, rest) =>
    let tagLine := line + lineEnds text
    match _hc : Tag.splitClose .outside rest with
    | none => .error (.parse .unclosedTag "" tagLine)
    | some (inner, rest) => do
      let e ← Expr.parse (.ofList inner) tagLine
      let more ← segments (tagLine + lineEnds inner) rest
      return textSegments text line ++ .print e tagLine :: more
termination_by cs.length
decreasing_by
  exact Nat.lt_trans (Tag.length_splitClose_lt _hc) (Tag.length_splitOpen_lt _ho)

def parse (source name : String) : Except Error Template := do
  return ⟨name, ← segments 1 source.toList⟩

end Template

end Phrasebook
