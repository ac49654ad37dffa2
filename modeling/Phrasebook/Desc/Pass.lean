import Phrasebook.Desc.Replacement
import Phrasebook.Pass

/-!
# The default-message pass

Puts defaults in for chains of a message and its default, from the outermost chain inwards.

* `DefaultPass.enter` : the replacement of a chain; other nodes are kept, as are all nodes while the
  pass is switched off;
* `DefaultPass.toPass` : the pass.
-/

namespace Phrasebook

structure DefaultPass where
  enabled : Bool := true
deriving DecidableEq, Repr, Inhabited

namespace DefaultPass

def name : String := "default_applying"

/-- The pass runs before those of the usual priority. -/
def priority : Int := -2

/-- Puts the default in if a node ends a chain. -/
def enter (p : DefaultPass) (e : Expr) : Except Error Expr :=
  if p.enabled then
    match e.application? with
    | some f => do
      match ← Chain.ofFilter? f with
      | some c => return c.replacement
      | none => return e
    | none => .ok e
  else .ok e

/-- Nodes are kept after their children. -/
def leave (_ : DefaultPass) (e : Expr) : Except Error Expr := .ok e

/-- The pass in computations that may fail.  A replacement is at most one node deeper than the chain
it stands for, and it takes one `desc` filter away, so twice the depth is always enough. -/
def toPass {m : Type → Type} [Monad m] [MonadExceptOf Error m] (p : DefaultPass) : Pass m where
  name := name
  priority := priority
  enter e := Pass.ofOutcome (p.enter e)
  leave e := Pass.ofOutcome (p.leave e)
  reach e := 2 * e.depth
  depth_le_reach e := by omega

end DefaultPass

end Phrasebook
