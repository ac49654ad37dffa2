import Phrasebook.Pass
import Phrasebook.Expr.Printer

/-!
# Recording passes

* `Call` : one call of a hook of a pass, with the expression it was called on;
* `Recording` : computations that keep a record of calls, also when they fail;
* `Pass.recorded` : a pass that notes every call of its hooks before it makes it.
-/

namespace Phrasebook

inductive Hook where
  | enter
  | leave
deriving DecidableEq, Repr

def Hook.text : Hook → String
  | .enter => "enter"
  | .leave => "leave"

/-- A call of a hook. -/
structure Call where
  pass : String
  hook : Hook
  expr : Expr
deriving Repr

/-- A call in words: the pass, the hook, the line and the text of the expression. -/
def Call.text (c : Call) : String :=
  c.pass ++ ":" ++ c.hook.text ++ ":" ++ toString c.expr.line ++ ":" ++ c.expr.text

/-- Computations that keep a record of calls, also when they fail. -/
abbrev Recording := ExceptT Error (StateM (List Call))

namespace Recording

def note (c : Call) : Recording Unit := modify fun calls => calls ++ [c]

end Recording

namespace Pass

/-- The pass as part of a recorded run; a hook that is not asked for is not noted. -/
def recorded (p : Pass (Except Error)) (withLeave : Bool) : Pass Recording where
  name := p.name
  priority := p.priority
  enter e := do
    Recording.note ⟨p.name, .enter, e⟩
    ofOutcome (p.enter e)
  leave e := do
    if withLeave then Recording.note ⟨p.name, .leave, e⟩
    ofOutcome (p.leave e)
  reach := p.reach
  depth_le_reach := p.depth_le_reach

end Pass

end Phrasebook
