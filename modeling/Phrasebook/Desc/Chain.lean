import Phrasebook.Error
import Phrasebook.Expr
import Phrasebook.Message.Fill

/-!
# Chains of a message and its default

`message|trans(…)|desc('Default')`, possibly with other filters between `trans` and `desc`, gives a
message a default.

* `Chain.ofFilter?` : the chain that a filter ends, an error if a `desc` filter ends none;
* `Chain.kind` : whether the message takes no arguments, takes some, or chooses a plural form.
-/

namespace Phrasebook

structure Application where
  operand : Expr
  name : String
  args : List Expr
  line : Nat
deriving Repr, Inhabited

def Application.toExpr (a : Application) : Expr := .filter a.operand a.name a.args a.line

def Expr.application? : Expr → Option Application
  | .filter e x as l => some ⟨e, x, as, l⟩
  | _ => none

/-- The filter that gives a default. -/
def descFilter : String := "desc"

/-- The filter that looks a message up. -/
def transFilter : String := "trans"

/-- The first `trans` filter on the way down through operands of filters. -/
def Expr.findTrans? : Expr → Option Application
  | .filter e x as l => if x = transFilter then some ⟨e, x, as, l⟩ else e.findTrans?
  | _ => none

inductive ChainKind where
  | plain
  | withArguments
  | pluralized
deriving DecidableEq, Repr

/-- A message with its default: the `desc` filter, the first `trans` filter below it, the filter
that `desc` is applied to directly, and the default. -/
structure Chain where
  desc : Application
  trans : Application
  wrapping : Application
  default : Expr
deriving Repr, Inhabited

namespace Chain

/-- Whether an argument is a hash with the constant key `%count%`. -/
def countsAmong : Expr → Bool
  | .array es _ => Elements.hasKey es countParameter
  | _ => false

/-- What the message takes, as far as the text of the chain shows. -/
def kind (c : Chain) : ChainKind :=
  if c.trans.args.any countsAmong then .pluralized
  else if c.wrapping.args.isEmpty then .plain
  else .withArguments

/-- The chain that a filter ends; filters other than `desc` end none. -/
def ofFilter? (f : Application) : Except Error (Option Chain) :=
  if f.name = descFilter then
    match f.operand.findTrans?, f.operand.application? with
    | some trans, some wrapping =>
      match f.args with
      | default :: _ => .ok (some ⟨f, trans, wrapping, default⟩)
      | [] => .error (.missingDefault f.line)
    | _, _ => .error (.missingTrans f.line)
  else .ok none

end Chain

end Phrasebook
