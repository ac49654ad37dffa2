import Mathlib.Algebra.Group.Nat.Defs
import Phrasebook.Expr.Parser

/-!
# The grammar of expressions

The grammar over tokens that expressions are read by, as derivations: a derivation of a symbol is a
tree of productions with tokens at its leaves.

* `Grammar.Sign`, `Grammar.atom?`, `Grammar.keyAtom?` : what single tokens stand for;
* `Grammar.Symbol`, `Grammar.Derivation` : the symbols and their productions;
* `Derivation.yield` : the tokens of a derivation, from left to right;
* `Derivation.meaning` : what a derivation stands for, with the line of every node;
* `Derivation.tree` : the expression that a derivation of `expr` stands for.
-/

namespace Phrasebook

namespace Grammar

/-- The signs of the binary operators, each with the level that it binds at, from the loosest to the
tightest. -/
inductive Sign : Nat → Lexeme → BinOp → Prop
  | or : Sign 0 (.keyword .or) .or
  | and : Sign 1 (.keyword .and) .and
  | equal : Sign 2 (.operator .equal) .equal
  | notEqual : Sign 2 (.operator .notEqual) .notEqual
  | concat : Sign 3 (.operator .tilde) .concat

/-- The level of operands with their filters, which come tighter than any binary operator. -/
abbrev operandLevel : Nat := 4

/-- The parser takes the same signs for operators, at the same levels. -/
theorem sign_iff {level : Nat} {x : Lexeme} {op : BinOp} :
    Sign level x op ↔ Parse.binOp? x = some op ∧ op.level = level := by
  constructor
  · rintro (_ | _ | _ | _ | _) <;> exact ⟨rfl, rfl⟩
  · rintro ⟨h, rfl⟩
    unfold Parse.binOp? at h
    split at h <;> cases h <;> constructor

/-- A sign stands for one operator, at one level. -/
theorem Sign.unique {k k' : Nat} {x : Lexeme} {op op' : BinOp} (h : Sign k x op)
    (h' : Sign k' x op') : op = op' ∧ k = k' := by
  cases h <;> cases h' <;> exact ⟨rfl, rfl⟩

theorem Sign.level_lt {level : Nat} {x : Lexeme} {op : BinOp} (h : Sign level x op) :
    level < operandLevel := by
  cases h <;> decide

/-- The symbols of the grammar.  The chains are those of `or`, `and`, of the two equality signs, of
`~` and of filters, from level `0` up to `operandLevel`. -/
inductive Symbol where
  | expr
  | chain (level : Nat)
  | operators (level : Nat)
  | filters
  | arguments
  | expressions
  | primary
  | items
  | entries
  | key
deriving DecidableEq

/-- A token with the given lexeme. -/
abbrev Terminal (x : Lexeme) : Type := { t : Token // t.lexeme = x }

/-- The expression that a token stands for by itself. -/
def atom? (t : Token) : Option Expr :=
  match t.lexeme with
  | .string s => some (.string s t.line)
  | .number _ x => some (.number x t.line)
  | .ident x => some (.name x t.line)
  | .keyword .true => some (.const (.bool true) t.line)
  | .keyword .false => some (.const (.bool false) t.line)
  | .keyword .null | .keyword .none => some (.const .null t.line)
  | _ => none

/-- The parser takes the same reserved words for literals. -/
theorem atom?_keyword {t : Token} {k : Keyword} (h : t.lexeme = .keyword k) :
    atom? t = (Parse.keywordLiteral? k).map fun v => .const v t.line := by
  unfold atom?
  rw [h]
  cases k <;> rfl

/-- The key that a token stands for by itself: bare words are strings. -/
def keyAtom? (t : Token) : Option Expr :=
  match t.lexeme with
  | .string s => some (.string s t.line)
  | .number _ x => some (.number x t.line)
  | .ident x => some (.string x t.line)
  | .keyword k => some (.string k.text t.line)
  | _ => none

/-- By themselves tokens stand for literals and names, on their own line. -/
theorem atom?_eq_some {t : Token} {e : Expr} (h : atom? t = some e) :
    (∃ v, e = .const v t.line) ∨ ∃ x, t.lexeme = .ident x ∧ e = .name x t.line := by
  unfold atom? at h
  split at h <;> cases h
  case h_3 x hx => exact .inr ⟨x, hx, rfl⟩
  all_goals exact .inl ⟨_, rfl⟩

theorem keyAtom?_eq_some {t : Token} {e : Expr} (h : keyAtom? t = some e) :
    ∃ v, e = .const v t.line := by
  unfold keyAtom? at h
  split at h <;> cases h <;> exact ⟨_, rfl⟩

/-- The derivations of each symbol, one constructor for each production. -/
inductive Derivation : Symbol → Type
  -- `expr := or`
  | plain (chain : Derivation (.chain 0)) : Derivation .expr
  -- `expr := or '?' expr ':' expr`
  | conditional (test : Derivation (.chain 0)) (question : Terminal (.operator .question))
      (yes : Derivation .expr)
      (colon : Terminal (.punct ':')) (no : Derivation .expr) : Derivation .expr
  -- `chain k := chain (k + 1) operators k`, for the levels of binary operators
  | binary {level : Nat} (h : level < operandLevel) (first : Derivation (.chain (level + 1)))
      (rest : Derivation (.operators level)) : Derivation (.chain level)
  -- `chain k := primary filters`, for the level of filters
  | post {level : Nat} (h : ¬level < operandLevel) (operand : Derivation .primary)
      (rest : Derivation .filters) :
      Derivation (.chain level)
  -- `operators k := ε`
  | noOperator {level : Nat} : Derivation (.operators level)
  -- `operators k := op (chain (k + 1)) (operators k)`, where `op` is of the level
  | operator {level : Nat} (op : BinOp) (sign : Token) (h : Sign level sign.lexeme op)
      (right : Derivation (.chain (level + 1))) (rest : Derivation (.operators level)) :
        Derivation (.operators level)
  -- `filters := ε`
  | noFilter : Derivation .filters
  -- `filters := '|' identifier arguments filters`
  | filter (bar : Terminal (.operator .bar)) (x : String) (name : Terminal (.ident x))
      (args : Derivation .arguments)
      (rest : Derivation .filters) : Derivation .filters
  -- `arguments := ε`
  | bare : Derivation .arguments
  -- `arguments := '(' ')'`
  | noArgument (opening : Terminal (.punct '(')) (closing : Terminal (.punct ')')) :
      Derivation .arguments
  -- `arguments := '(' expressions ')'`
  | someArguments (opening : Terminal (.punct '(')) (args : Derivation .expressions)
      (closing : Terminal (.punct ')')) :
      Derivation .arguments
  -- `expressions := expr`
  | lastExpression (e : Derivation .expr) : Derivation .expressions
  -- `expressions := expr ',' expressions`
  | expression (e : Derivation .expr) (comma : Terminal (.punct ','))
      (rest : Derivation .expressions) :
      Derivation .expressions
  -- `primary := string | number | identifier | 'true' | 'false' | 'null' | 'none'`
  | atom (t : Token) (e : Expr) (h : atom? t = some e) : Derivation .primary
  -- `primary := '(' expr ')'`
  | parenthesized (opening : Terminal (.punct '(')) (e : Derivation .expr)
      (closing : Terminal (.punct ')')) :
      Derivation .primary
  -- `primary := '[' items ']'`
  | list (opening : Terminal (.punct '[')) (items : Derivation .items)
      (closing : Terminal (.punct ']')) :
      Derivation .primary
  -- `primary`: entries in braces
  | hash (opening : Terminal (.punct '\x7b')) (entries : Derivation .entries)
      (closing : Terminal (.punct '\x7d')) :
      Derivation .primary
  -- `items := ε`
  | noItem : Derivation .items
  -- `items := expr`
  | lastItem (e : Derivation .expr) : Derivation .items
  -- `items := expr ',' items`
  | item (e : Derivation .expr) (comma : Terminal (.punct ',')) (rest : Derivation .items) :
      Derivation .items
  -- `entries := ε`
  | noEntry : Derivation .entries
  -- `entries := key ':' expr`
  | lastEntry (key : Derivation .key) (colon : Terminal (.punct ':')) (e : Derivation .expr) :
      Derivation .entries
  -- `entries := key ':' expr ',' entries`
  | entry (key : Derivation .key) (colon : Terminal (.punct ':')) (e : Derivation .expr)
      (comma : Terminal (.punct ','))
      (rest : Derivation .entries) : Derivation .entries
  -- `key := string | number | identifier | keyword`
  | word (t : Token) (e : Expr) (h : keyAtom? t = some e) : Derivation .key
  -- `key := '(' expr ')'`
  | computed (opening : Terminal (.punct '(')) (e : Derivation .expr)
      (closing : Terminal (.punct ')')) : Derivation .key

/-- What the derivations of a symbol stand for.  What follows an operand makes an expression of the
expression before it; the items of a list are numbered from a given index. -/
def Symbol.Meaning : Symbol → Type
  | .expr | .chain _ | .primary | .key => Expr
  | .operators _ | .filters => Expr → Expr
  | .arguments | .expressions => List Expr
  | .items => Nat → Elements
  | .entries => Elements

/-- The key of the item at an index of a list: the index.  From `2 ^ 53` on the next whole number is
no key of its own, and the keys stay where they are. -/
def indexKey (i : Nat) : Double := .ofNat (min i (2 ^ 53))

namespace Derivation

/-- The tokens of a derivation from left to right. -/
@[simp] def yield {s : Symbol} : Derivation s → List Token
  | .plain c => c.yield
  | .conditional t q y c n => t.yield ++ q.1 :: (y.yield ++ c.1 :: n.yield)
  | .binary _ e rest => e.yield ++ rest.yield
  | .post _ e rest => e.yield ++ rest.yield
  | .noOperator => []
  | .operator _ sign _ e rest => sign :: (e.yield ++ rest.yield)
  | .noFilter => []
  | .filter bar _ x args rest => bar.1 :: x.1 :: (args.yield ++ rest.yield)
  | .bare => []
  | .noArgument o c => [o.1, c.1]
  | .someArguments o args c => o.1 :: (args.yield ++ [c.1])
  | .lastExpression e => e.yield
  | .expression e comma rest => e.yield ++ comma.1 :: rest.yield
  | .atom t _ _ => [t]
  | .parenthesized o e c => o.1 :: (e.yield ++ [c.1])
  | .list o items c => o.1 :: (items.yield ++ [c.1])
  | .hash o entries c => o.1 :: (entries.yield ++ [c.1])
  | .noItem => []
  | .lastItem e => e.yield
  | .item e comma rest => e.yield ++ comma.1 :: rest.yield
  | .noEntry => []
  | .lastEntry k colon e => k.yield ++ colon.1 :: e.yield
  | .entry k colon e comma rest => k.yield ++ colon.1 :: (e.yield ++ comma.1 :: rest.yield)
  | .word t _ _ => [t]
  | .computed o e c => o.1 :: (e.yield ++ [c.1])

/-- The line of the first token. -/
def line {s : Symbol} (d : Derivation s) : Nat :=
  match d.yield with
  | [] => 0
  | t :: _ => t.line

/-- What a derivation stands for.  Operators and filters lean left and stand on the line of their
sign, conditionals on the line of their first token. -/
def meaning {s : Symbol} : Derivation s → s.Meaning
  | .plain c => c.meaning
  | .conditional t _ y _ n => Expr.cond t.meaning y.meaning n.meaning t.line
  | .binary _ e rest => rest.meaning e.meaning
  | .post _ e rest => rest.meaning e.meaning
  | .noOperator => id
  | .operator op sign _ e rest => fun left => rest.meaning (.binary op left e.meaning sign.line)
  | .noFilter => id
  | .filter bar x _ args rest =>
    fun operand => rest.meaning (.filter operand x args.meaning bar.1.line)
  | .bare => ([] : List Expr)
  | .noArgument _ _ => ([] : List Expr)
  | .someArguments _ args _ => args.meaning
  | .lastExpression e => [e.meaning]
  | .expression e _ rest => e.meaning :: rest.meaning
  | .atom _ e _ => e
  | .parenthesized _ e _ => e.meaning
  | .list o items _ => Expr.array (items.meaning 0) o.1.line
  | .hash o entries _ => Expr.array entries.meaning o.1.line
  | .noItem => fun _ => ([] : Elements)
  | .lastItem e => fun i => [(.number (indexKey i) (Expr.line e.meaning), e.meaning)]
  | .item e _ rest =>
    fun i => (.number (indexKey i) (Expr.line e.meaning), e.meaning) :: rest.meaning (i + 1)
  | .noEntry => ([] : Elements)
  | .lastEntry k _ e => [(k.meaning, e.meaning)]
  | .entry k _ e _ rest => (k.meaning, e.meaning) :: rest.meaning
  | .word _ e _ => e
  | .computed _ e _ => e.meaning

/-- The expression that a derivation stands for. -/
def tree (d : Derivation .expr) : Expr := d.meaning

def elements (d : Derivation .entries) : Elements := d.meaning

end Derivation

/-! ### Tokens that are always there -/

/-- The symbols that no empty list of tokens is derived from. -/
def Symbol.isProper : Symbol → Bool
  | .expr | .chain _ | .expressions | .primary | .key => true
  | .operators _ | .filters | .arguments | .items | .entries => false

namespace Derivation

theorem yield_ne_nil {s : Symbol} (d : Derivation s) (h : s.isProper = true) : d.yield ≠ [] := by
  induction d with
  | plain c ih => exact ih rfl
  | conditional t q y c n => simp
  | binary _ e rest ih => simp [ih rfl]
  | post _ e rest ih => simp [ih rfl]
  | lastExpression e ih => exact ih rfl
  | expression e comma rest => simp
  | atom t e h => simp
  | parenthesized o e c => simp
  | list o items c => simp
  | hash o entries c => simp
  | word t e h => simp
  | computed o e c => simp
  | _ => cases h

theorem length_yield_pos {s : Symbol} (d : Derivation s) (h : s.isProper = true) :
    0 < d.yield.length :=
  List.length_pos_iff.2 (d.yield_ne_nil h)

/-- The line of the first token is that of whatever list the tokens begin. -/
theorem lineAt_yield {s : Symbol} (d : Derivation s) (h : s.isProper = true) (endLine : Nat)
    (rest : List Token) : Parse.lineAt endLine (d.yield ++ rest) = d.line := by
  unfold line
  cases hy : d.yield with
  | nil => exact absurd hy (d.yield_ne_nil h)
  | cons t ts => rfl

end Derivation

/-! ### Faults -/

theorem Terminal.not_isFault {x : Lexeme} (t : Terminal x) (hx : ¬x.isFault) :
    ¬t.1.lexeme.isFault := by
  rw [t.2]
  exact hx

theorem not_isFault_of_atom? {t : Token} {e : Expr} (h : atom? t = some e) : ¬t.lexeme.isFault := by
  unfold atom? at h
  split at h
  all_goals first
    | next hx => rw [hx]; exact Bool.false_ne_true
    | cases h

theorem not_isFault_of_keyAtom? {t : Token} {e : Expr} (h : keyAtom? t = some e) :
    ¬t.lexeme.isFault := by
  unfold keyAtom? at h
  split at h
  all_goals first
    | next hx => rw [hx]; exact Bool.false_ne_true
    | cases h

theorem Sign.not_isFault {level : Nat} {x : Lexeme} {op : BinOp} (h : Sign level x op) :
    ¬x.isFault := by
  cases h <;> exact Bool.false_ne_true

namespace Derivation

/-- No token of a derivation is a fault. -/
theorem not_isFault {s : Symbol} (d : Derivation s) : ∀ t ∈ d.yield, ¬t.lexeme.isFault := by
  have hmark : ∀ {c : Char} (t : Terminal (.punct c)), ¬t.1.lexeme.isFault :=
    fun t => t.not_isFault Bool.false_ne_true
  induction d with
  | plain c ih => exact ih
  | conditional t q y c n iht ihy ihn =>
    have hq := q.not_isFault Bool.false_ne_true
    simp only [yield, List.forall_mem_append, List.forall_mem_cons]
    exact ⟨iht, hq, ihy, hmark c, ihn⟩
  | binary _ e rest ihe ihr =>
    simp only [yield, List.forall_mem_append]
    exact ⟨ihe, ihr⟩
  | post _ e rest ihe ihr =>
    simp only [yield, List.forall_mem_append]
    exact ⟨ihe, ihr⟩
  | operator op sign hsign e rest ihe ihr =>
    simp only [yield, List.forall_mem_append, List.forall_mem_cons]
    exact ⟨hsign.not_isFault, ihe, ihr⟩
  | filter bar x name args rest iha ihr =>
    have hbar := bar.not_isFault Bool.false_ne_true
    have hname := name.not_isFault Bool.false_ne_true
    simp only [yield, List.forall_mem_append, List.forall_mem_cons]
    exact ⟨hbar, hname, iha, ihr⟩
  | noArgument o c =>
    simp only [yield, List.forall_mem_cons]
    exact ⟨hmark o, hmark c, nofun⟩
  | lastExpression e ih => exact ih
  | lastItem e ih => exact ih
  | expression e comma rest ihe ihr | item e comma rest ihe ihr =>
    simp only [yield, List.forall_mem_append, List.forall_mem_cons]
    exact ⟨ihe, hmark comma, ihr⟩
  | atom t e h =>
    rintro _ (_ | ⟨_, ⟨⟩⟩)
    exact not_isFault_of_atom? h
  | word t e h =>
    rintro _ (_ | ⟨_, ⟨⟩⟩)
    exact not_isFault_of_keyAtom? h
  | someArguments o e c ih
  | parenthesized o e c ih | list o e c ih | hash o e c ih | computed o e c ih =>
    simp only [yield, List.forall_mem_append, List.forall_mem_cons]
    exact ⟨hmark o, ih, hmark c, nofun⟩
  | lastEntry k colon e ihk ihe =>
    simp only [yield, List.forall_mem_append, List.forall_mem_cons]
    exact ⟨ihk, hmark colon, ihe⟩
  | entry k colon e comma rest ihk ihe ihr =>
    simp only [yield, List.forall_mem_append, List.forall_mem_cons]
    exact ⟨ihk, hmark colon, ihe, hmark comma, ihr⟩
  | noOperator | noFilter | bare | noItem | noEntry => exact nofun

end Derivation

end Grammar

end Phrasebook
