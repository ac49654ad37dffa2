import Phrasebook.Error
import Phrasebook.Expr

/-!
# Passes

A pass walks an expression with two hooks.  `enter` is called on a node before its children and
`leave` after them; either may put another node in its place.  The children of the node that `enter`
puts in are walked, but that node is not entered again.

* `Pass.walk` : the walk, with a bound on its depth;
* `Pass.run` : the walk within the depth that the pass itself allows, `Pass.reach`.
-/

namespace Phrasebook

/-- A pass.  `reach` bounds the depth of its walk from a node: at least the whole of an expression,
and more where the hooks put deeper nodes in. -/
structure Pass (m : Type → Type) where
  name : String
  priority : Int
  enter : Expr → m Expr
  leave : Expr → m Expr
  reach : Expr → Nat
  depth_le_reach : ∀ e, e.depth ≤ reach e

namespace Pass

variable {m : Type → Type} [Monad m] [MonadExceptOf Error m]

def ofOutcome {α : Type} : Except Error α → m α
  | .ok a => pure a
  | .error err => throw err

/-- Walks an expression down to the given depth; what is deeper is refused. -/
def walk (p : Pass m) : Nat → Expr → m Expr
  | 0, e => throw (.runaway e.line)
  | n + 1, e => do
    let entered ← p.enter e
    let rebuilt ← entered.mapChildrenM (p.walk n)
    p.leave rebuilt

def run (p : Pass m) (e : Expr) : m Expr := p.walk (p.reach e) e

end Pass

end Phrasebook
