import Phrasebook.Pass.Recording

/-!
# Rules

A rule says which nodes a hook replaces and by what.  A hook made of rules applies the first rule
that fits a node and keeps a node that none fits.

* `Rule.replace?` : what a rule makes of a node, if it fits;
* `RulePass.toPass`, `RulePass.toRecordingPass` : the pass whose hooks are lists of rules.
-/

namespace Phrasebook

inductive Rule where
  /-- A name becomes another name. -/
  | renameName (old new : String)
  /-- A name becomes a filter over another name. -/
  | wrapName (old new filter : String)
  /-- A filter gets another name. -/
  | renameFilter (old new : String)
  /-- A filter is dropped from around its operand. -/
  | unwrapFilter (old : String)
  /-- A string constant becomes a name. -/
  | stringToName (old new : String)
  /-- A filter is refused. -/
  | refuseFilter (old complaint : String)
deriving DecidableEq, Repr

namespace Rule

def replace? : Rule → Expr → Option (Except Error Expr)
  | renameName old new, .name x l => if x = old then some (.ok (.name new l)) else none
  | wrapName old new filter, .name x l =>
    if x = old then some (.ok (.filter (.name new l) filter [] l)) else none
  | renameFilter old new, .filter e x as l =>
    if x = old then some (.ok (.filter e new as l)) else none
  | unwrapFilter old, .filter e x _ _ => if x = old then some (.ok e) else none
  | stringToName old new, .const (.string s) l => if s = old then some (.ok (.name new l)) else none
  | refuseFilter old complaint, .filter _ x _ l =>
    if x = old then some (.error (.argument (.custom complaint) l)) else none
  | _, _ => none

/-- What the first rule that fits makes of a node; a node that none fits is kept. -/
def applyFirst (rules : List Rule) (e : Expr) : Except Error Expr :=
  (rules.findSome? fun r => r.replace? e).getD (.ok e)

end Rule

/-- A pass whose hooks are lists of rules.  Without rules for leaving, leaving keeps every node. -/
structure RulePass where
  name : String
  priority : Int
  enter : List Rule
  leave : Option (List Rule)
deriving Repr

namespace RulePass

/-- The pass of a list of rules.  Every rule may put one more filter around a name, so the walk may
reach that much deeper than the expression. -/
def toPass (p : RulePass) : Pass (Except Error) where
  name := p.name
  priority := p.priority
  enter := Rule.applyFirst p.enter
  leave := Rule.applyFirst (p.leave.getD [])
  reach e := e.depth + p.enter.length + 1
  depth_le_reach e := by omega

/-- The pass of a list of rules, with a record of the hooks that have rules. -/
def toRecordingPass (p : RulePass) : Pass Recording := p.toPass.recorded p.leave.isSome

end RulePass

end Phrasebook
