import Phrasebook.Pass
import Phrasebook.Template
import Phrasebook.Text.Quoted

/-!
# Pipelines

The passes that run over every expression of a template, each over the whole tree, lower priorities
first.  Passes of equal priority run in the order in which they were added.

* `Pipeline.add` : one more pass;
* `Pipeline.run` : all passes over an expression;
* `Pipeline.runTemplate` : all passes over every printed expression of a template.
-/

namespace Phrasebook

structure Pipeline (m : Type → Type) where
  passes : List (Pass m) := []

namespace Pipeline

variable {m : Type → Type}

def empty : Pipeline m := ⟨[]⟩

/-- Adds a pass behind those of lower or equal priority. -/
def add (l : Pipeline m) (p : Pass m) : Pipeline m :=
  ⟨(l.passes ++ [p]).mergeSort fun a b => a.priority ≤ b.priority⟩

/-- The pipeline of passes added one after another. -/
def ofList (passes : List (Pass m)) : Pipeline m := passes.foldl add empty

/-- The names of the passes in the order in which they run. -/
def names (l : Pipeline m) : List String := l.passes.map Pass.name

def isEmpty (l : Pipeline m) : Bool := l.passes.isEmpty

def summary (l : Pipeline m) : String :=
  "NodeTraverser \x7b visitors: [" ++ ", ".intercalate (l.names.map Text.quoted) ++ "] \x7d"

variable [Monad m] [MonadExceptOf Error m]

/-- Runs all passes over an expression, one after another. -/
def run (l : Pipeline m) (e : Expr) : m Expr := l.passes.foldlM (fun e p => p.run e) e

def runSegment (l : Pipeline m) : Segment → m Segment
  | .text data line => return .text data line
  | .print e line => return .print (← l.run e) line

/-- Runs all passes over every printed expression of a template. -/
def runTemplate (l : Pipeline m) (t : Template) : m Template :=
  return ⟨t.name, ← t.body.mapM l.runSegment⟩

end Pipeline

end Phrasebook
