import Phrasebook.Expr.Token
import Phrasebook.Expr
import Phrasebook.Error

/-!
# Reading expressions

Operators bind in this order, loosest first: `? :`, `or`, `and`, `==` and `!=`, `~`, filters.
Chains of binary operators and of filters lean left.

* `Expr.parse` : the expression that a text spells, or the first thing that keeps it from being one.

The functions below read tokens from the left and hand on the rest.  Each carries a bound on the
depth of its calls; `Parse.bound` allows more calls than any list of tokens needs.
-/

namespace Phrasebook

/-- The level a binary operator binds at, the loosest being `0`. -/
def BinOp.level : BinOp → Nat
  | .or => 0
  | .and => 1
  | .equal | .notEqual => 2
  | .concat => 3

namespace Parse

/-- The level of filters, which bind tighter than all binary operators. -/
abbrev filterLevel : Nat := 4

def binOp? : Lexeme → Option BinOp
  | .keyword .or => some .or
  | .keyword .and => some .and
  | .operator .equal => some .equal
  | .operator .notEqual => some .notEqual
  | .operator .tilde => some .concat
  | _ => none

def keywordLiteral? : Keyword → Option Literal
  | .true => some (.bool true)
  | .false => some (.bool false)
  | .null | .none => some .null
  | .and | .or => none

/-- A refusal: its cause, and the line it is reported on. -/
structure Refusal where
  cause : ParseCause
  line : Nat
deriving DecidableEq, Repr

/-- The line of the next token, or `endLine` if there is none. -/
def lineAt (endLine : Nat) : List Token → Nat
  | [] => endLine
  | t :: _ => t.line

/-- Something else stands where `wanted` should. -/
def refuse (endLine : Nat) (wanted : Wanted) (ts : List Token) : Refusal :=
  ⟨.missing wanted (ts.head?.map (·.lexeme.text)), lineAt endLine ts⟩

/-- Takes the punctuation mark `c` if it comes next. -/
def punct? (c : Char) : List Token → Option (List Token)
  | t :: ts => if t.lexeme = .punct c then some ts else none
  | [] => none

/-- Takes the punctuation mark `c`, which must come next. -/
def expect (endLine : Nat) (c : Char) (ts : List Token) : Except Refusal (List Token) :=
  match punct? c ts with
  | some rest => .ok rest
  | none => .error (refuse endLine (.punct c) ts)

variable (endLine : Nat)

mutual

/-- A conditional, or what binds tighter. -/
def expr : Nat → List Token → Except Refusal (Expr × List Token)
  | 0, ts => .error ⟨.tooDeep, lineAt endLine ts⟩
  | n + 1, ts => do
    let (test, rest) ← chain n 0 ts
    match rest with
    | ⟨.operator .question, _, _, _⟩ :: rest => do
      let (yes, rest) ← expr n rest
      let rest ← expect endLine ':' rest
      let (no, rest) ← expr n rest
      return (.cond test yes no (lineAt endLine ts), rest)
    | _ => return (test, rest)

/-- A chain of binary operators of one level, or what binds tighter. -/
def chain : Nat → Nat → List Token → Except Refusal (Expr × List Token)
  | 0, _, ts => .error ⟨.tooDeep, lineAt endLine ts⟩
  | n + 1, level, ts => do
    if level < filterLevel then
      let (left, rest) ← chain n (level + 1) ts
      operators n level left rest
    else
      let (operand, rest) ← primary n ts
      filters n operand rest

/-- The rest of a chain of binary operators of one level after its first operands. -/
def operators : Nat → Nat → Expr → List Token → Except Refusal (Expr × List Token)
  | 0, _, _, ts => .error ⟨.tooDeep, lineAt endLine ts⟩
  | _ + 1, _, left, [] => .ok (left, [])
  | n + 1, level, left, t :: ts =>
    match binOp? t.lexeme with
    | none => .ok (left, t :: ts)
    | some op =>
      if op.level = level then do
        let (right, rest) ← chain n (level + 1) ts
        operators n level (.binary op left right t.line) rest
      else .ok (left, t :: ts)

/-- The filters applied to an operand. -/
def filters : Nat → Expr → List Token → Except Refusal (Expr × List Token)
  | 0, _, ts => .error ⟨.tooDeep, lineAt endLine ts⟩
  | n + 1, operand, ts =>
    match ts with
    | ⟨.operator .bar, _, _, line⟩ :: ⟨.ident x, _, _, _⟩ :: ts => do
      let (args, rest) ← match punct? '(' ts with
        | some rest => args n rest
        | none => .ok ([], ts)
      filters n (.filter operand x args line) rest
    | ⟨.operator .bar, _, _, _⟩ :: ts => .error (refuse endLine .identifier ts)
    | ts => .ok (operand, ts)

/-- The arguments of a filter after the opening parenthesis. -/
def args : Nat → List Token → Except Refusal (List Expr × List Token)
  | 0, ts => .error ⟨.tooDeep, lineAt endLine ts⟩
  | n + 1, ts =>
    match punct? ')' ts with
    | some rest => .ok ([], rest)
    | none => argsFrom n ts

/-- The arguments of a filter, of which at least one is left. -/
def argsFrom : Nat → List Token → Except Refusal (List Expr × List Token)
  | 0, ts => .error ⟨.tooDeep, lineAt endLine ts⟩
  | n + 1, ts => do
    let (arg, rest) ← expr n ts
    match punct? ',' rest with
    | some rest => do
      let (args, rest) ← argsFrom n rest
      return (arg :: args, rest)
    | none => do
      let rest ← expect endLine ')' rest
      return ([arg], rest)

/-- A literal, a name, a list, a hash, or an expression in parentheses. -/
def primary : Nat → List Token → Except Refusal (Expr × List Token)
  | 0, ts => .error ⟨.tooDeep, lineAt endLine ts⟩
  | _ + 1, [] => .error (refuse endLine .expression [])
  | n + 1, t :: ts =>
    match t.lexeme with
    | .string s => .ok (.string s t.line, ts)
    | .number _ x => .ok (.number x t.line, ts)
    | .ident x => .ok (.name x t.line, ts)
    | .keyword k =>
      match keywordLiteral? k with
      | some v => .ok (.const v t.line, ts)
      | none => .error ⟨.keyword k, t.line⟩
    | .punct '(' => do
      let (inner, rest) ← expr n ts
      let rest ← expect endLine ')' rest
      return (inner, rest)
    | .punct '[' =>
      match punct? ']' ts with
      | some rest => .ok (.array [] t.line, rest)
      | none => do
        let (es, rest) ← listFrom n [] ts
        return (.array es t.line, rest)
    | .punct '\x7b' =>
      match punct? '\x7d' ts with
      | some rest => .ok (.array [] t.line, rest)
      | none => do
        let (es, rest) ← hashFrom n [] ts
        return (.array es t.line, rest)
    | other => .error ⟨.token other.text, t.line⟩

/-- The rest of a list, of which at least one value is left, after the entries `es`. -/
def listFrom : Nat → Elements → List Token → Except Refusal (Elements × List Token)
  | 0, _, ts => .error ⟨.tooDeep, lineAt endLine ts⟩
  | n + 1, es, ts => do
    let (value, rest) ← expr n ts
    let es := es.add value none
    match punct? ']' rest with
    | some rest => return (es, rest)
    | none =>
      let rest ← expect endLine ',' rest
      match punct? ']' rest with
      | some rest => return (es, rest)
      | none => listFrom n es rest

/-- The rest of a hash, of which at least one entry is left, after the entries `es`. -/
def hashFrom : Nat → Elements → List Token → Except Refusal (Elements × List Token)
  | 0, _, ts => .error ⟨.tooDeep, lineAt endLine ts⟩
  | n + 1, es, ts => do
    let (key, rest) ← key n ts
    let rest ← expect endLine ':' rest
    let (value, rest) ← expr n rest
    let es := es.add value (some key)
    match punct? '\x7d' rest with
    | some rest => return (es, rest)
    | none =>
      let rest ← expect endLine ',' rest
      match punct? '\x7d' rest with
      | some rest => return (es, rest)
      | none => hashFrom n es rest

/-- The key of an entry: a bare word is a string. -/
def key : Nat → List Token → Except Refusal (Expr × List Token)
  | 0, ts => .error ⟨.tooDeep, lineAt endLine ts⟩
  | _ + 1, [] => .error (refuse endLine .key [])
  | n + 1, t :: ts =>
    match t.lexeme with
    | .string s => .ok (.string s t.line, ts)
    | .number _ x => .ok (.number x t.line, ts)
    | .ident x => .ok (.string x t.line, ts)
    | .keyword k => .ok (.string k.text t.line, ts)
    | .punct '(' => do
      let (key, rest) ← expr n ts
      let rest ← expect endLine ')' rest
      return (key, rest)
    | _ => .error (refuse endLine .keyForm (t :: ts))

end

/-- A bound on the depth of calls that no list of tokens of the given length reaches. -/
def bound (size : Nat) : Nat := 10 * (size + 1)

/-- The expression that tokens spell; `line` is the line that the text starts on. -/
def ofTokens (ts : List Token) (line : Nat) : Except Refusal Expr :=
  match ts.find? (·.lexeme.isFault) with
  | some ⟨.fault f, start, _, line⟩ => .error ⟨.lexical f start, line⟩
  | _ =>
    if ts.isEmpty then .error ⟨.blank, line⟩
    else do
      let endLine := (ts.getLast?.map (·.line)).getD line
      let (e, rest) ← expr endLine (bound ts.length) ts
      match rest with
      | [] => return e
      | t :: _ => .error ⟨.trailing t.lexeme.text t.start, t.line⟩

end Parse

/-- The expression that a text spells; its first character stands on `line`. -/
def Expr.parse (input : String) (line : Nat) : Except Error Expr :=
  match Parse.ofTokens (Token.ofText input line) line with
  | .ok e => .ok e
  | .error r => .error (.parse r.cause input r.line)

end Phrasebook
