import Phrasebook.Render.Filter
import Phrasebook.Template
import Phrasebook.Value.Comparison

/-!
# Rendering

* `Expr.eval` : the value of an expression, or the first error on the way to it.  Operands and
  arguments are evaluated from left to right; `and`, `or` and conditionals evaluate only what
  decides them;
* `Template.render` : the text of a template.
-/

namespace Phrasebook

/-- What an expression is evaluated in: the localizer, the locale for messages that name none, and
the variables. -/
structure Scope where
  localizer : Localizer
  locale : Option String
  context : Context

namespace Expr

/-- What a binary operator makes of its operands when both are evaluated. -/
def combine : BinOp → Value → Value → Value
  | .equal, a, b => .bool (a.looseEq b)
  | .notEqual, a, b => .bool (!a.looseEq b)
  | .concat, a, b => .string (a.text ++ b.text)
  | .and, _, b | .or, _, b => .bool b.truthy

/-- The value of a binary operator that its left operand decides. -/
def decided? : BinOp → Value → Option Value
  | .and, a => if a.truthy then none else some (.bool false)
  | .or, a => if a.truthy then some (.bool true) else none
  | _, _ => none

mutual

/-- The value of an expression. -/
def eval (s : Scope) : Expr → Except Error Value
  | .const v _ => .ok (.ofLiteral v)
  | .name x l =>
    match s.context.get? x with
    | some v => .ok v
    | none => .error (.undefinedVariable x l)
  | .array es _ => do
    let entries ← evalEntries s es
    return .map (Assoc.ofList entries)
  | .filter e x as l => do
    let operand ← eval s e
    let args ← evalList s as
    Filter.apply s.localizer s.locale x operand args l
  | .cond t y n _ => do
    let test ← eval s t
    if test.truthy then eval s y else eval s n
  | .binary op a b _ => do
    let left ← eval s a
    match decided? op left with
    | some v => return v
    | none =>
      let right ← eval s b
      return combine op left right
  | .choice es _ l => do
    let args ← evalValues s es
    Filter.choice s.localizer s.locale args l

def evalList (s : Scope) : List Expr → Except Error (List Value)
  | [] => .ok []
  | e :: es => do
    let v ← eval s e
    let vs ← evalList s es
    return v :: vs

def evalValues (s : Scope) : List (Expr × Expr) → Except Error (List Value)
  | [] => .ok []
  | (_, e) :: es => do
    let v ← eval s e
    let vs ← evalValues s es
    return v :: vs

/-- The keys, as text, and values of entries in order. -/
def evalEntries (s : Scope) : List (Expr × Expr) → Except Error (List (String × Value))
  | [] => .ok []
  | (k, e) :: es => do
    let key ← eval s k
    let v ← eval s e
    let vs ← evalEntries s es
    return (key.text, v) :: vs

end

end Expr

def Segment.render (s : Scope) : Segment → Except Error String
  | .text data _ => .ok data
  | .print e _ => do
    let v ← e.eval s
    return v.text

def Segment.renderAll (s : Scope) : List Segment → Except Error String
  | [] => .ok ""
  | seg :: segs => do
    let text ← seg.render s
    let more ← renderAll s segs
    return text ++ more

def Template.render (t : Template) (s : Scope) : Except Error String := Segment.renderAll s t.body

end Phrasebook
