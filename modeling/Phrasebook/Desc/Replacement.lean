import Phrasebook.Desc.Chain

/-!
# Putting defaults in

The expression that stands in for a chain.

* `Chain.conditional` : the default where looking the message up gives back the message itself, else
  what was looked up;
* `Chain.choice` : the choice between the two left to the time of rendering, for messages with
  plural forms;
* `Chain.replacement` : the one of them that fits the kind of the chain.
-/

namespace Phrasebook

namespace Chain

def replaceFilter : String := "replace"

/-- Message, default, and the arguments of the filter that `desc` is applied to. -/
def choice (c : Chain) : Expr :=
  let w := c.wrapping
  let args := (w.operand :: c.default :: w.args).foldl (fun es v => Elements.add es v none) []
  .choice args w.line w.line

/-- The arguments of the test: the first one, which holds the parameters, is emptied. -/
def testArgs (c : Chain) : List Expr :=
  match c.kind, c.wrapping.args with
  | .withArguments, _ :: rest => .array [] c.wrapping.line :: rest
  | _, args => args

/-- The default with the parameters of the message put in. -/
def filledDefault (c : Chain) : Expr :=
  match c.kind, c.wrapping.args with
  | .withArguments, params :: _ => .filter c.default replaceFilter [params] c.wrapping.line
  | _, _ => c.default

/-- The default if the message looked up without parameters is the message itself, else the message
looked up. -/
def conditional (c : Chain) : Expr :=
  let w := c.wrapping
  let test := Expr.binary .equal (.filter w.operand w.name c.testArgs w.line) c.trans.operand w.line
  .cond test c.filledDefault w.toExpr w.line

/-- The expression that stands in for a chain. -/
def replacement (c : Chain) : Expr :=
  match c.kind with
  | .pluralized => c.choice
  | .plain | .withArguments => c.conditional

end Chain

end Phrasebook
