import Phrasebook.Double

/-!
# Expressions

The expressions that stand in the tags of a template.  Every node carries the line it stands on.

* `Expr` : constants, names, lists and hashes, filters, conditionals, binary operators, and the
  choice between a plural message and its default that the default-message pass puts in;
* `Elements` : the `key: value` entries of a list or hash, where an entry without a key takes the
  next free index;
* `Expr.mapChildrenM` : the same node with every direct child replaced, in the order of the text.
-/

namespace Phrasebook

inductive Literal where
  | string (value : String)
  | number (value : Double)
  | bool (value : Bool)
  | null
deriving DecidableEq, Repr, Inhabited

inductive BinOp where
  | equal
  | notEqual
  | concat
  | and
  | or
deriving DecidableEq, Repr, Inhabited

/-- An expression.  Lists and hashes share the node `array`; the entries of a list have the keys
`0`, `1`, `2`, and so on.  The node `choice` holds its arguments as an array of its own, which has a
line of its own. -/
inductive Expr where
  | const (value : Literal) (line : Nat)
  | name (id : String) (line : Nat)
  | array (elements : List (Expr × Expr)) (line : Nat)
  | filter (operand : Expr) (name : String) (args : List Expr) (line : Nat)
  | cond (test yes no : Expr) (line : Nat)
  | binary (op : BinOp) (left right : Expr) (line : Nat)
  | choice (args : List (Expr × Expr)) (argsLine : Nat) (line : Nat)
deriving Repr, Inhabited

/-- The `key: value` entries of a list or hash. -/
abbrev Elements := List (Expr × Expr)

namespace Expr

/-- The line an expression stands on. -/
def line : Expr → Nat
  | .const _ l
  | .name _ l | .array _ l | .filter _ _ _ l | .cond _ _ _ l | .binary _ _ _ l | .choice _ _ l => l

abbrev string (value : String) (line : Nat) : Expr := .const (.string value) line

abbrev number (value : Double) (line : Nat) : Expr := .const (.number value) line

/-! ### Size -/

mutual

/-- The number of nodes on the longest way down. -/
@[simp] def depth : Expr → Nat
  | .const _ _ | .name _ _ => 1
  | .array es _ => 1 + depthPairs es
  | .filter e _ as _ => 1 + max e.depth (depthList as)
  | .cond t y n _ => 1 + max t.depth (max y.depth n.depth)
  | .binary _ l r _ => 1 + max l.depth r.depth
  | .choice es _ _ => 1 + depthPairs es

@[simp] def depthList : List Expr → Nat
  | [] => 0
  | e :: es => max e.depth (depthList es)

@[simp] def depthPairs : List (Expr × Expr) → Nat
  | [] => 0
  | (k, v) :: es => max (max k.depth v.depth) (depthPairs es)

end

/-! ### Children -/

def children : Expr → List Expr
  | .const _ _ | .name _ _ => []
  | .array es _ | .choice es _ _ => es.flatMap fun e => [e.1, e.2]
  | .filter e _ as _ => e :: as
  | .cond t y n _ => [t, y, n]
  | .binary _ l r _ => [l, r]

/-- Replaces the key and the value of an entry, the key first. -/
def mapPairM {m : Type → Type} [Monad m] (f : Expr → m Expr) (e : Expr × Expr) :
    m (Expr × Expr) := do
  let key ← f e.1
  let value ← f e.2
  return (key, value)

/-- The same node with every direct child passed through `f`, in the order of the text. -/
def mapChildrenM {m : Type → Type} [Monad m] (f : Expr → m Expr) : Expr → m Expr
  | .const v l => return .const v l
  | .name x l => return .name x l
  | .array es l => return .array (← es.mapM (mapPairM f)) l
  | .filter e x as l => do
    let operand ← f e
    let args ← as.mapM f
    return .filter operand x args l
  | .cond t y n l => do
    let test ← f t
    let yes ← f y
    let no ← f n
    return .cond test yes no l
  | .binary op a b l => do
    let left ← f a
    let right ← f b
    return .binary op left right l
  | .choice es al l => return .choice (← es.mapM (mapPairM f)) al l

end Expr

/-! ### Entries of lists and hashes -/

namespace Elements

/-- The largest index that an entry can take. -/
abbrev topIndex : Nat := UInt64.size - 1

/-- The index after a key, if the key is a whole number from zero up.  Keys are counted up to
`topIndex`; what follows that one is given as it is counted, though it fits in no word. -/
def indexAfter? : Expr → Option Nat
  | .const (.number n) _ =>
    if Double.zero.atMost n && n.isWhole then some (min n.wholePart topIndex + 1) else none
  | _ => none

/-- The first index above all whole-number keys. -/
def nextIndex (es : Elements) : Nat :=
  (es.filterMap fun e => indexAfter? e.1).foldl max 0

/-- Appends an entry; without a key it takes the next free index, on the line of its value. -/
def add (es : Elements) (value : Expr) (key : Option Expr) : Elements :=
  es ++ [(key.getD (.number (.ofNat es.nextIndex) value.line), value)]

def hasKey (es : Elements) (key : String) : Bool :=
  es.any fun e => match e.1 with
    | .const (.string s) _ => s == key
    | _ => false

/-- Whether the keys are the indices from `i` up, in order. -/
def countsFrom : Nat → Elements → Bool
  | _, [] => true
  | i, (.const (.number n) _, _) :: es => n.equals (.ofNat i) && countsFrom (i + 1) es
  | _, _ :: _ => false

/-- Whether the keys are `0`, `1`, `2`, and so on, as in a plain list. -/
def isList (es : Elements) : Bool := countsFrom 0 es

def values (es : Elements) : List Expr := es.map Prod.snd

end Elements

end Phrasebook
