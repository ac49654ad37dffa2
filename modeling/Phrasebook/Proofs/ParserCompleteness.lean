import Phrasebook.Proofs.ParserSoundness
import Phrasebook.Proofs.Unambiguity

/-!
# The parser accepts what the grammar derives

* `Parse.Reading` : what the function for a symbol returns where it reads a derivation;
* `Parse.reads` : within a large enough bound, every derivation is read, up to where it stops;
* `Expr.parse_iff_derivation` : a text is accepted exactly if its tokens have a derivation, and the
  outcome is the tree of the only one they have.
-/

namespace Phrasebook

open Grammar Outcome

namespace Parse

/-- The function for a symbol reads the tokens `ts` as something that stands for `m`, with the
tokens `rest` after it.  What is closed by a bracket is read together with the bracket. -/
def Reading (endLine n : Nat) : (s : Symbol) → s.Meaning → List Token → List Token → Prop
  | .expr, m, ts, rest => expr endLine n ts = .ok (m, rest)
  | .chain level, m, ts, rest => chain endLine n level ts = .ok (m, rest)
  | .operators level, m, ts, rest => ∀ left, operators endLine n level left ts = .ok (m left, rest)
  | .filters, m, ts, rest => ∀ operand, filters endLine n operand ts = .ok (m operand, rest)
  | .arguments, m, ts, rest => optionalArgs endLine n ts = .ok (m, rest)
  | .expressions, m, ts, rest => argsFrom endLine n ts = .ok (m, rest.tail)
  | .primary, m, ts, rest => primary endLine n ts = .ok (m, rest)
  | .items, m, ts, rest => ∀ (es : Elements) (i : Nat), es.nextIndex = min i (2 ^ 53 + 1) →
      listRest endLine n es ts = .ok (es ++ m i, rest.tail)
  | .entries, m, ts, rest =>
    ∀ es : Elements, hashRest endLine n es ts = .ok (List.append es m, rest.tail)
  | .key, m, ts, rest => key endLine n ts = .ok (m, rest)

/-- A bound on the depth of calls that suffices to read a symbol from a number of tokens. -/
@[simp] def depthFor (size : Nat) : Symbol → Nat
  | .expr => 10 * size + 7
  | .chain level => 10 * size + 2 + (4 - level)
  | .operators _ | .filters | .primary | .key => 10 * size + 1
  | .arguments => 10 * size
  | .expressions | .items => 10 * size + 8
  | .entries => 10 * size + 2

theorem depthFor_le (size : Nat) (s : Symbol) : depthFor size s ≤ 10 * size + 8 := by
  cases s <;> simp only [depthFor] <;> omega

/-- A derivation is read, with any bound that suffices, up to where it stops. -/
def IsRead (endLine : Nat) {s : Symbol} (d : Derivation s) : Prop :=
  ∀ (rest : List Token) (n : Nat), s.Stops rest → depthFor (d.yield ++ rest).length s ≤ n →
    Reading endLine n s d.meaning (d.yield ++ rest) rest

theorem punct?_terminal {c : Char} (t : Terminal (.punct c)) (ts : List Token) :
    punct? c (t.1 :: ts) = some ts :=
  punct?_eq_some.2 ⟨t, rfl⟩

theorem punct?_of_ne {a b : Char} (t : Terminal (.punct a)) (hne : a ≠ b) (ts : List Token) :
    punct? b (t.1 :: ts) = none := by
  rw [punct?, t.2, if_neg]
  rintro ⟨⟩
  exact hne rfl

theorem expect_terminal (endLine : Nat) {c : Char} (t : Terminal (.punct c)) (ts : List Token) :
    expect endLine c (t.1 :: ts) = .ok ts := by
  rw [expect, punct?_terminal]

/-- Nothing that must have tokens begins with punctuation that closes. -/
theorem punct?_yield {s : Symbol} (d : Derivation s) (h : s.isProper = true) {c : Char}
    (hc : c = ')' ∨ c = ']' ∨ c = '\x7d') (rest : List Token) :
    punct? c (d.yield ++ rest) = none := by
  cases hp : punct? c (d.yield ++ rest) with
  | none => rfl
  | some ts =>
    obtain ⟨t, ht⟩ := punct?_eq_some.1 hp
    exact absurd ht (d.append_ne_closing h t hc rest ts)

namespace IsRead

variable {endLine : Nat}

/-- The bound for a derivation is not zero, so that the function for its symbol can be unfolded. -/
theorem exists_succ {s : Symbol} {size n : Nat} (h : depthFor size s ≤ n) (hs : s ≠ .arguments) :
    ∃ k, n = k + 1 := by
  cases s with
  | arguments => exact absurd rfl hs
  | _ => exact ⟨n - 1, by simp only [depthFor] at h; omega⟩

/-- An expression before punctuation is read up to it. -/
theorem before {e : Derivation .expr} (he : IsRead endLine e) {c : Char} (t : Terminal (.punct c))
    (hc : c ≠ '(') {ts : List Token} {n : Nat} (hn : 10 * (e.yield ++ t.1 :: ts).length + 7 ≤ n) :
    expr endLine n (e.yield ++ t.1 :: ts) = .ok (e.meaning, t.1 :: ts) :=
  he _ n (stops_expr_punct t hc) hn

/-- Of an expression, a comma and what follows the comma, the expression is read up to the comma,
and what follows is read within the same bound. -/
theorem separated {s : Symbol} {e : Derivation .expr} {r : Derivation s} (he : IsRead endLine e)
    (hr : IsRead endLine r) (comma : Terminal (.punct ',')) {rest : List Token} {n : Nat}
    (h : s.Stops rest) (hn : 10 * (e.yield ++ comma.1 :: (r.yield ++ rest)).length + 7 ≤ n) :
    expr endLine n (e.yield ++ comma.1 :: (r.yield ++ rest)) =
      .ok (e.meaning, comma.1 :: (r.yield ++ rest)) ∧
      Reading endLine n s r.meaning (r.yield ++ rest) rest := by
  refine ⟨he.before comma (by decide) hn, hr rest n h ?_⟩
  have hle := depthFor_le (r.yield ++ rest).length s
  simp only [List.length_append, List.length_cons] at hn hle ⊢
  omega

theorem plain {c : Derivation (.chain 0)} (hc : IsRead endLine c) : IsRead endLine (.plain c) := by
  intro rest n h hn
  obtain ⟨n, rfl⟩ := exists_succ hn nofun
  simp only [depthFor, Derivation.yield] at hn
  have hchain : chain endLine n 0 (c.yield ++ rest) = .ok (c.meaning, rest) := hc rest n h.1 (by
    simp only [depthFor]
    omega)
  show expr endLine (n + 1) (c.yield ++ rest) = .ok (c.meaning, rest)
  rw [expr, hchain, ok_bind]
  dsimp only
  split
  · exact absurd rfl (h.2 _ rfl)
  · rfl

theorem conditional {t : Derivation (.chain 0)} (q : Terminal (.operator .question))
    {y : Derivation .expr} (colon : Terminal (.punct ':')) {e : Derivation .expr}
    (ht : IsRead endLine t) (hy : IsRead endLine y) (he : IsRead endLine e) :
    IsRead endLine (.conditional t q y colon e) := by
  intro rest n h hn
  obtain ⟨n, rfl⟩ := exists_succ hn nofun
  simp only [depthFor, Derivation.yield, List.append_assoc, List.cons_append] at hn
  simp only [List.length_append, List.length_cons] at hn
  have htest : chain endLine n 0 (t.yield ++ q.1 :: (y.yield ++ colon.1 :: (e.yield ++ rest))) =
      .ok (t.meaning, q.1 :: (y.yield ++ colon.1 :: (e.yield ++ rest))) :=
    ht _ n (stopsAt_question q) (by
    simp only [depthFor, List.length_append, List.length_cons]
    omega)
  have hyes : expr endLine n (y.yield ++ colon.1 :: (e.yield ++ rest)) =
      .ok (y.meaning, colon.1 :: (e.yield ++ rest)) :=
    hy.before colon (by decide) (by
      simp only [List.length_append, List.length_cons]
      omega)
  have hno : expr endLine n (e.yield ++ rest) = .ok (e.meaning, rest) := he rest n h (by
    simp only [depthFor, List.length_append]
    omega)
  show expr endLine (n + 1) ((t.yield ++ q.1 :: (y.yield ++ colon.1 :: e.yield)) ++ rest) =
    .ok (.cond t.meaning y.meaning e.meaning t.line, rest)
  simp only [List.append_assoc, List.cons_append]
  rw [expr, htest, ok_bind, t.lineAt_yield rfl]
  obtain ⟨⟨x, start, stop, line⟩, hx⟩ := q
  obtain rfl : x = .operator .question := hx
  dsimp only
  rw [hyes, ok_bind]
  dsimp only
  rw [expect_terminal, ok_bind, hno]
  rfl

theorem binary {level : Nat} (hlevel : level < operandLevel) {e : Derivation (.chain (level + 1))}
    {r : Derivation (.operators level)} (he : IsRead endLine e) (hr : IsRead endLine r) :
    IsRead endLine (.binary hlevel e r) := by
  intro rest n h hn
  obtain ⟨n, rfl⟩ := exists_succ hn nofun
  simp only [depthFor, Derivation.yield, List.append_assoc, List.length_append] at hn
  have hlt : level < 4 := hlevel
  have hpos := e.length_yield_pos rfl
  have hfirst : chain endLine n (level + 1) (e.yield ++ (r.yield ++ rest)) =
      .ok (e.meaning, r.yield ++ rest) :=
    he _ n (stopsAt_operators r h) (by
      simp only [depthFor, List.length_append]
      omega)
  have hrest : operators endLine n level e.meaning (r.yield ++ rest) =
      .ok (r.meaning e.meaning, rest) :=
    hr rest n h (by
      simp only [depthFor, List.length_append]
      omega) e.meaning
  show chain endLine (n + 1) level ((e.yield ++ r.yield) ++ rest) = .ok (r.meaning e.meaning, rest)
  rw [chain, if_pos hlevel, List.append_assoc, hfirst]
  exact hrest

theorem post {level : Nat} (hlevel : ¬level < operandLevel) {e : Derivation .primary}
    {r : Derivation .filters} (he : IsRead endLine e) (hr : IsRead endLine r) :
    IsRead endLine (.post hlevel e r) := by
  intro rest n h hn
  obtain ⟨n, rfl⟩ := exists_succ hn nofun
  simp only [depthFor, Derivation.yield, List.append_assoc, List.length_append] at hn
  have hpos := e.length_yield_pos rfl
  have hfirst : primary endLine n (e.yield ++ (r.yield ++ rest)) =
      .ok (e.meaning, r.yield ++ rest) :=
    he _ n trivial (by
      simp only [depthFor, List.length_append]
      omega)
  have hrest : filters endLine n e.meaning (r.yield ++ rest) = .ok (r.meaning e.meaning, rest) :=
    hr rest n h.filters (by
      simp only [depthFor, List.length_append]
      omega) e.meaning
  show chain endLine (n + 1) level ((e.yield ++ r.yield) ++ rest) = .ok (r.meaning e.meaning, rest)
  rw [chain, if_neg hlevel, List.append_assoc, hfirst]
  exact hrest

theorem noOperator {level : Nat} :
    IsRead endLine (.noOperator : Derivation (.operators level)) := by
  intro rest n h hn left
  obtain ⟨n, rfl⟩ := exists_succ hn nofun
  show operators endLine (n + 1) level left rest = .ok (left, rest)
  cases rest with
  | nil => rfl
  | cons t ts =>
    rw [operators]
    cases hop : binOp? t.lexeme with
    | none => rfl
    | some op =>
      have hlevel : op.level ≠ level := fun he =>
        h t rfl (Or.inr (Or.inr ⟨level, op, sign_iff.2 ⟨hop, he⟩, Nat.le_refl level⟩))
      simp only [if_neg hlevel]

theorem operator {level : Nat} (op : BinOp) (sign : Token) (hsign : Sign level sign.lexeme op)
    {e : Derivation (.chain (level + 1))} {r : Derivation (.operators level)}
    (he : IsRead endLine e) (hr : IsRead endLine r) :
    IsRead endLine (.operator op sign hsign e r) := by
  intro rest n h hn left
  obtain ⟨hop, hlevel⟩ := sign_iff.1 hsign
  obtain ⟨n, rfl⟩ := exists_succ hn nofun
  simp only [depthFor, Derivation.yield, List.append_assoc, List.cons_append, List.length_append,
    List.length_cons] at hn
  have hright : chain endLine n (level + 1) (e.yield ++ (r.yield ++ rest)) =
      .ok (e.meaning, r.yield ++ rest) :=
    he _ n (stopsAt_operators r h) (by
      simp only [depthFor, List.length_append]
      omega)
  have hrest : operators endLine n level (.binary op left e.meaning sign.line) (r.yield ++ rest) =
      .ok (r.meaning (.binary op left e.meaning sign.line), rest) :=
    hr rest n h (by
      simp only [depthFor, List.length_append]
      omega) _
  show operators endLine (n + 1) level left (sign :: ((e.yield ++ r.yield) ++ rest)) =
    .ok (r.meaning (.binary op left e.meaning sign.line), rest)
  rw [operators, hop, List.append_assoc]
  simp only [if_pos hlevel]
  rw [hright]
  exact hrest

theorem noFilter : IsRead endLine .noFilter := by
  intro rest n h hn operand
  obtain ⟨n, rfl⟩ := exists_succ hn nofun
  show filters endLine (n + 1) operand rest = .ok (operand, rest)
  rw [filters.eq_def]
  dsimp only
  split
  · exact absurd (Or.inl rfl) (h _ rfl)
  · exact absurd (Or.inl rfl) (h _ rfl)
  · rfl

theorem filter (bar : Terminal (.operator .bar)) (x : String) (name : Terminal (.ident x))
    {as : Derivation .arguments} {r : Derivation .filters} (has : IsRead endLine as)
    (hr : IsRead endLine r) : IsRead endLine (.filter bar x name as r) := by
  intro rest n h hn operand
  obtain ⟨n, rfl⟩ := exists_succ hn nofun
  simp only [depthFor, Derivation.yield, List.append_assoc, List.cons_append, List.length_append,
    List.length_cons] at hn
  have hargs : optionalArgs endLine n (as.yield ++ (r.yield ++ rest)) =
      .ok (as.meaning, r.yield ++ rest) :=
    has _ n (stops_arguments_filters r h) (by
      simp only [depthFor, List.length_append]
      omega)
  have hrest : filters endLine n (.filter operand x as.meaning bar.1.line) (r.yield ++ rest) =
      .ok (r.meaning (.filter operand x as.meaning bar.1.line), rest) :=
    hr rest n h (by
      simp only [depthFor, List.length_append]
      omega) _
  show filters endLine (n + 1) operand (bar.1 :: name.1 :: ((as.yield ++ r.yield) ++ rest)) =
    .ok (r.meaning (.filter operand x as.meaning bar.1.line), rest)
  rw [filters_bar, List.append_assoc, hargs]
  exact hrest

theorem bare : IsRead endLine .bare := by
  intro rest n h hn
  show optionalArgs endLine n rest = .ok ([], rest)
  unfold optionalArgs
  cases hp : punct? '(' rest with
  | none => rfl
  | some ts =>
    obtain ⟨o, rfl⟩ := punct?_eq_some.1 hp
    exact absurd o.2 (h o.1 rfl)

theorem noArgument (o : Terminal (.punct '(')) (c : Terminal (.punct ')')) :
    IsRead endLine (.noArgument o c) := by
  intro rest n h hn
  obtain ⟨n, rfl⟩ : ∃ k, n = k + 1 := ⟨n - 1, by
    simp only [depthFor, Derivation.yield, List.cons_append, List.length_cons] at hn
    omega⟩
  show optionalArgs endLine (n + 1) (o.1 :: c.1 :: rest) = .ok ([], rest)
  rw [optionalArgs, punct?_terminal]
  dsimp only
  rw [args, punct?_terminal]

theorem someArguments (o : Terminal (.punct '(')) {as : Derivation .expressions}
    (c : Terminal (.punct ')')) (has : IsRead endLine as) :
    IsRead endLine (.someArguments o as c) := by
  intro rest n h hn
  simp only [depthFor, Derivation.yield, List.append_assoc, List.cons_append, List.nil_append,
    List.length_append, List.length_cons] at hn
  obtain ⟨n, rfl⟩ : ∃ k, n = k + 1 := ⟨n - 1, by omega⟩
  have hargs : argsFrom endLine n (as.yield ++ c.1 :: rest) = .ok (as.meaning, rest) :=
    has _ n ⟨c, rest, rfl⟩ (by
    simp only [depthFor, List.length_append, List.length_cons]
    omega)
  show optionalArgs endLine (n + 1) (o.1 :: ((as.yield ++ [c.1]) ++ rest)) = .ok (as.meaning, rest)
  rw [optionalArgs, punct?_terminal, List.append_assoc]
  dsimp only
  rw [args, punct?_yield as rfl (Or.inl rfl)]
  exact hargs

theorem lastExpression {e : Derivation .expr} (he : IsRead endLine e) :
    IsRead endLine (.lastExpression e) := by
  intro rest n h hn
  obtain ⟨n, rfl⟩ := exists_succ hn nofun
  obtain ⟨c, rest, rfl⟩ := h
  have hexpr := he.before c (by decide) (Nat.le_of_succ_le_succ hn)
  show argsFrom endLine (n + 1) (e.yield ++ c.1 :: rest) = .ok ([e.meaning], rest)
  rw [argsFrom, hexpr, ok_bind]
  dsimp only
  rw [punct?_of_ne c (by decide)]
  dsimp only
  rw [expect_terminal]
  rfl

theorem expression {e : Derivation .expr} (comma : Terminal (.punct ','))
    {r : Derivation .expressions} (he : IsRead endLine e) (hr : IsRead endLine r) :
    IsRead endLine (.expression e comma r) := by
  intro rest n h hn
  obtain ⟨n, rfl⟩ := exists_succ hn nofun
  simp only [depthFor, Derivation.yield, List.append_assoc, List.cons_append, List.length_append,
    List.length_cons] at hn
  obtain ⟨hexpr, hrest⟩ := he.separated hr comma (n := n) h (by
    simp only [List.length_append, List.length_cons]
    omega)
  show argsFrom endLine (n + 1) ((e.yield ++ comma.1 :: r.yield) ++ rest) =
    .ok (e.meaning :: r.meaning, rest.tail)
  rw [argsFrom, List.append_assoc, List.cons_append, hexpr, ok_bind]
  dsimp only
  rw [punct?_terminal]
  dsimp only
  rw [show argsFrom endLine n (r.yield ++ rest) = .ok (r.meaning, rest.tail) from hrest]
  rfl

theorem atom (t : Token) (e : Expr) (h : atom? t = some e) : IsRead endLine (.atom t e h) := by
  intro rest n _ hn
  obtain ⟨n, rfl⟩ := exists_succ hn nofun
  exact primary_atom endLine n h rest

/-- Between parentheses an expression is read together with the closing one. -/
theorem closed {e : Derivation .expr} (c : Terminal (.punct ')')) (he : IsRead endLine e)
    {rest : List Token} {n : Nat} (hn : depthFor (e.yield ++ c.1 :: rest).length .expr ≤ n) :
    (expr endLine n ((e.yield ++ [c.1]) ++ rest) >>= fun p => expect endLine ')' p.2 >>= fun rest =>
      .ok (p.1, rest)) =
      .ok (e.meaning, rest) := by
  have hexpr : expr endLine n (e.yield ++ c.1 :: rest) = .ok (e.meaning, c.1 :: rest) :=
    he _ n (stops_expr_punct c (by decide)) hn
  rw [List.append_assoc, List.singleton_append, hexpr, ok_bind, expect_terminal]
  rfl

theorem parenthesized (o : Terminal (.punct '(')) {e : Derivation .expr} (c : Terminal (.punct ')'))
    (he : IsRead endLine e) : IsRead endLine (.parenthesized o e c) := by
  intro rest n _ hn
  obtain ⟨n, rfl⟩ := exists_succ hn nofun
  simp only [depthFor, Derivation.yield, List.append_assoc, List.cons_append, List.nil_append,
    List.length_append, List.length_cons] at hn
  show primary endLine (n + 1) (o.1 :: ((e.yield ++ [c.1]) ++ rest)) = .ok (e.meaning, rest)
  rw [primary_parenthesis]
  refine he.closed c ?_
  simp only [depthFor, List.length_append, List.length_cons]
  omega

theorem list (o : Terminal (.punct '[')) {items : Derivation .items} (c : Terminal (.punct ']'))
    (hitems : IsRead endLine items) : IsRead endLine (.list o items c) := by
  intro rest n _ hn
  obtain ⟨n, rfl⟩ := exists_succ hn nofun
  simp only [depthFor, Derivation.yield, List.append_assoc, List.cons_append, List.nil_append,
    List.length_append, List.length_cons] at hn
  have hlist : listRest endLine n [] (items.yield ++ c.1 :: rest) =
      .ok ([] ++ items.meaning 0, rest) :=
    hitems _ n ⟨c, rest, rfl⟩ (by
      simp only [depthFor, List.length_append, List.length_cons]
      omega) [] 0 rfl
  show primary endLine (n + 1) (o.1 :: ((items.yield ++ [c.1]) ++ rest)) =
    .ok (.array (items.meaning 0) o.1.line, rest)
  rw [primary_list, List.append_assoc, List.singleton_append, hlist]
  rfl

theorem hash (o : Terminal (.punct '\x7b')) {entries : Derivation .entries}
    (c : Terminal (.punct '\x7d')) (hentries : IsRead endLine entries) :
    IsRead endLine (.hash o entries c) := by
  intro rest n _ hn
  obtain ⟨n, rfl⟩ := exists_succ hn nofun
  simp only [depthFor, Derivation.yield, List.append_assoc, List.cons_append, List.nil_append,
    List.length_append, List.length_cons] at hn
  have hhash : hashRest endLine n [] (entries.yield ++ c.1 :: rest) =
      .ok ([] ++ entries.elements, rest) :=
    hentries _ n ⟨c, rest, rfl⟩ (by
      simp only [depthFor, List.length_append, List.length_cons]
      omega) []
  show primary endLine (n + 1) (o.1 :: ((entries.yield ++ [c.1]) ++ rest)) =
    .ok (.array entries.elements o.1.line, rest)
  rw [primary_hash, List.append_assoc, List.singleton_append, hhash]
  rfl

theorem noItem : IsRead endLine .noItem := by
  intro rest n h hn es i hi
  obtain ⟨c, rest, rfl⟩ := h
  show listRest endLine n es (c.1 :: rest) = .ok (es ++ [], rest)
  rw [listRest, punct?_terminal, List.append_nil]

theorem lastItem {e : Derivation .expr} (he : IsRead endLine e) : IsRead endLine (.lastItem e) := by
  intro rest n h hn es i hi
  obtain ⟨n, rfl⟩ := exists_succ hn nofun
  obtain ⟨c, rest, rfl⟩ := h
  have hexpr := he.before c (by decide) (Nat.le_of_succ_le_succ hn)
  show listRest endLine (n + 1) es (e.yield ++ c.1 :: rest) =
    .ok (es ++ [(.number (indexKey i) e.tree.line, e.tree)], rest)
  rw [listRest, punct?_yield e rfl (Or.inr (Or.inl rfl))]
  dsimp only
  rw [listFrom_succ, hexpr, ok_bind]
  dsimp only
  rw [punct?_terminal, ← add_none_eq hi]
  rfl

theorem item {e : Derivation .expr} (comma : Terminal (.punct ',')) {r : Derivation .items}
    (he : IsRead endLine e) (hr : IsRead endLine r) : IsRead endLine (.item e comma r) := by
  intro rest n h hn es i hi
  obtain ⟨n, rfl⟩ := exists_succ hn nofun
  simp only [depthFor, Derivation.yield, List.append_assoc, List.cons_append, List.length_append,
    List.length_cons] at hn
  obtain ⟨hexpr, hrest⟩ := he.separated hr comma (n := n) h (by
    simp only [List.length_append, List.length_cons]
    omega)
  show listRest endLine (n + 1) es ((e.yield ++ comma.1 :: r.yield) ++ rest) =
    .ok (es ++ (.number (indexKey i) e.tree.line, e.tree) :: r.meaning (i + 1), rest.tail)
  rw [List.append_assoc, List.cons_append, listRest, punct?_yield e rfl (Or.inr (Or.inl rfl))]
  dsimp only
  rw [listFrom_succ, hexpr, ok_bind]
  dsimp only
  rw [punct?_of_ne comma (by decide)]
  dsimp only
  rw [expect_terminal, ok_bind, ← add_none_append hi]
  exact hrest _ _ (Elements.nextIndex_add hi e.tree)

theorem noEntry : IsRead endLine .noEntry := by
  intro rest n h hn es
  obtain ⟨c, rest, rfl⟩ := h
  show hashRest endLine n es (c.1 :: rest) = .ok (es ++ [], rest)
  rw [hashRest, punct?_terminal, List.append_nil]

theorem lastEntry {k : Derivation .key} (colon : Terminal (.punct ':')) {e : Derivation .expr}
    (hk : IsRead endLine k) (he : IsRead endLine e) : IsRead endLine (.lastEntry k colon e) := by
  intro rest n h hn es
  obtain ⟨n, rfl⟩ := exists_succ hn nofun
  obtain ⟨c, rest, rfl⟩ := h
  simp only [depthFor, Derivation.yield, List.append_assoc, List.cons_append, List.length_append,
    List.length_cons] at hn
  have hkey : key endLine n (k.yield ++ colon.1 :: (e.yield ++ c.1 :: rest)) =
      .ok (k.meaning, colon.1 :: (e.yield ++ c.1 :: rest)) := hk _ n trivial (by
    simp only [depthFor, List.length_append, List.length_cons]
    omega)
  have hexpr : expr endLine n (e.yield ++ c.1 :: rest) = .ok (e.meaning, c.1 :: rest) :=
    he.before c (by decide) (by
    simp only [List.length_append, List.length_cons]
    omega)
  show hashRest endLine (n + 1) es ((k.yield ++ colon.1 :: e.yield) ++ c.1 :: rest) =
    .ok (es ++ ([(k.meaning, e.meaning)] : Elements), rest)
  rw [List.append_assoc, List.cons_append, hashRest, punct?_yield k rfl (Or.inr (Or.inr rfl))]
  dsimp only
  rw [hashFrom_succ, hkey, ok_bind, expect_terminal, ok_bind, hexpr, ok_bind]
  dsimp only
  rw [punct?_terminal]
  rfl

theorem entry {k : Derivation .key} (colon : Terminal (.punct ':')) {e : Derivation .expr}
    (comma : Terminal (.punct ',')) {r : Derivation .entries} (hk : IsRead endLine k)
    (he : IsRead endLine e) (hr : IsRead endLine r) :
    IsRead endLine (.entry k colon e comma r) := by
  intro rest n h hn es
  obtain ⟨n, rfl⟩ := exists_succ hn nofun
  simp only [depthFor, Derivation.yield, List.append_assoc, List.cons_append, List.length_append,
    List.length_cons] at hn
  have hkey : key endLine n (k.yield ++ colon.1 :: (e.yield ++ comma.1 :: (r.yield ++ rest))) =
      .ok (k.meaning, colon.1 :: (e.yield ++ comma.1 :: (r.yield ++ rest))) := hk _ n trivial (by
    simp only [depthFor, List.length_append, List.length_cons]
    omega)
  obtain ⟨hexpr, hentries⟩ := he.separated hr comma (n := n) h (by
    simp only [List.length_append, List.length_cons]
    omega)
  have hrest : hashRest endLine n (es.add e.meaning (some k.meaning)) (r.yield ++ rest) =
      .ok (List.append (es.add e.meaning (some k.meaning)) r.elements, rest.tail) := hentries _
  show hashRest endLine (n + 1) es
    ((k.yield ++ colon.1 :: (e.yield ++ comma.1 :: r.yield)) ++ rest) =
    .ok (es ++ ((k.meaning, e.meaning) :: r.elements : Elements), rest.tail)
  simp only [List.append_assoc, List.cons_append]
  rw [hashRest, punct?_yield k rfl (Or.inr (Or.inr rfl))]
  dsimp only
  rw [hashFrom_succ, hkey, ok_bind, expect_terminal, ok_bind, hexpr, ok_bind]
  dsimp only
  rw [punct?_of_ne comma (by decide)]
  dsimp only
  rw [expect_terminal, ok_bind, hrest]
  have happend : List.append (es.add e.meaning (some k.meaning)) r.elements =
      es ++ ((k.meaning, e.meaning) :: r.elements : Elements) :=
    List.append_assoc es [(k.meaning, e.meaning)] r.elements
  rw [happend]

theorem word (t : Token) (e : Expr) (h : keyAtom? t = some e) : IsRead endLine (.word t e h) := by
  intro rest n _ hn
  obtain ⟨n, rfl⟩ := exists_succ hn nofun
  exact key_word endLine n h rest

theorem computed (o : Terminal (.punct '(')) {e : Derivation .expr} (c : Terminal (.punct ')'))
    (he : IsRead endLine e) : IsRead endLine (.computed o e c) := by
  intro rest n _ hn
  obtain ⟨n, rfl⟩ := exists_succ hn nofun
  simp only [depthFor, Derivation.yield, List.append_assoc, List.cons_append, List.nil_append,
    List.length_append, List.length_cons] at hn
  show key endLine (n + 1) (o.1 :: ((e.yield ++ [c.1]) ++ rest)) = .ok (e.meaning, rest)
  rw [key_parenthesis]
  refine he.closed c ?_
  simp only [depthFor, List.length_append, List.length_cons]
  omega

end IsRead

/-- Every derivation is read, up to where it stops. -/
theorem reads (endLine : Nat) {s : Symbol} (d : Derivation s) : IsRead endLine d := by
  induction d with
  | plain c hc => exact .plain hc
  | conditional t q y colon n ht hy hn => exact .conditional q colon ht hy hn
  | binary h e rest he hrest => exact .binary h he hrest
  | post h e rest he hrest => exact .post h he hrest
  | noOperator => exact .noOperator
  | operator op sign hsign e rest he hrest => exact .operator op sign hsign he hrest
  | noFilter => exact .noFilter
  | filter bar x name args rest hargs hrest => exact .filter bar x name hargs hrest
  | bare => exact .bare
  | noArgument o c => exact .noArgument o c
  | someArguments o args c hargs => exact .someArguments o c hargs
  | lastExpression e he => exact .lastExpression he
  | expression e comma rest he hrest => exact .expression comma he hrest
  | atom t e h => exact .atom t e h
  | parenthesized o e c he => exact .parenthesized o c he
  | list o items c hitems => exact .list o c hitems
  | hash o entries c hentries => exact .hash o c hentries
  | noItem => exact .noItem
  | lastItem e he => exact .lastItem he
  | item e comma rest he hrest => exact .item comma he hrest
  | noEntry => exact .noEntry
  | lastEntry k colon e hk he => exact .lastEntry colon hk he
  | entry k colon e comma rest hk he hrest => exact .entry colon comma hk he hrest
  | word t e h => exact .word t e h
  | computed o e c he => exact .computed o c he

/-! ### Texts -/

/-- Tokens without a fault are handed on to the function for expressions. -/
theorem ofTokens_of_clean {ts : List Token} (h : ∀ t ∈ ts, t.lexeme.isFault = false) (hne : ts ≠ [])
    (line : Nat) :
    ofTokens ts line = expr ((ts.getLast?.map (·.line)).getD line) (bound ts.length) ts >>= fun p =>
      match p.2 with
      | [] => .ok p.1
      | t :: _ => .error ⟨.trailing t.lexeme.text t.start, t.line⟩ := by
  have hfind : ts.find? (·.lexeme.isFault) = none :=
    List.find?_eq_none.2 fun t ht => by simp [h t ht]
  have hempty : ts.isEmpty = false := List.isEmpty_eq_false_iff.2 hne
  unfold ofTokens
  rw [hfind]
  simp only [hempty, Bool.false_eq_true, if_false]
  rfl

/-- What is accepted has no fault among its tokens, and they have a derivation; nothing is refused
for want of depth. -/
theorem meets_ofTokens (ts : List Token) (line : Nat) :
    Meets (fun e => (∀ t ∈ ts, t.lexeme.isFault = false) ∧ ∃ d : Derivation .expr,
      d.yield = ts ∧ d.tree = e)
      (fun f => f.cause ≠ .tooDeep) (ofTokens ts line) := by
  by_cases hclean : ∀ t ∈ ts, t.lexeme.isFault = false
  · by_cases hne : ts = []
    · subst hne
      exact nofun
    rw [ofTokens_of_clean hclean hne]
    refine (((sound _ _).expr ts).mono (fun _ hp => hp) fun f hf => hf ?_).bind ?_
    · unfold bound
      omega
    rintro ⟨e, rest⟩ ⟨d, hts, hd⟩
    cases rest with
    | nil => exact ⟨hclean, d, by rw [hts, List.append_nil], hd⟩
    | cons t rest => exact nofun
  · have hfault : ∃ t ∈ ts, t.lexeme.isFault = true := by simpa using hclean
    obtain ⟨t, ht⟩ := Option.isSome_iff_exists.1 (List.find?_isSome.2 hfault)
    have htrue := List.find?_some ht
    unfold ofTokens
    rw [ht]
    obtain ⟨x, start, stop, l⟩ := t
    cases x with
    | fault f => exact nofun
    | _ => cases htrue

/-- Tokens with a derivation are accepted, and its tree is the outcome. -/
theorem ofTokens_of_derivation (d : Derivation .expr) (line : Nat) :
    ofTokens d.yield line = .ok d.tree := by
  have hclean : ∀ t ∈ d.yield, t.lexeme.isFault = false :=
    fun t ht => Bool.eq_false_iff.2 (d.not_isFault t ht)
  have hexpr :=
    reads ((d.yield.getLast?.map (·.line)).getD line) d [] (bound d.yield.length) stops_expr_nil (by
    simp only [depthFor, bound, List.append_nil]
    omega)
  rw [List.append_nil] at hexpr
  rw [ofTokens_of_clean hclean (d.yield_ne_nil rfl), show expr _ _ d.yield =
    .ok (d.tree, []) from hexpr]
  rfl

end Parse

/-- What is accepted is the tree of a derivation of its tokens, and none of them is a fault. -/
theorem Expr.exists_derivation {input : String} {line : Nat} {e : Expr}
    (h : Expr.parse input line = .ok e) :
    (∀ t ∈ Token.ofText input line, t.lexeme.isFault = false) ∧
      ∃ d : Derivation .expr, d.yield = Token.ofText input line ∧ d.tree = e := by
  have hmeets := Parse.meets_ofTokens (Token.ofText input line) line
  unfold Expr.parse at h
  cases hof : Parse.ofTokens (Token.ofText input line) line with
  | error r =>
    rw [hof] at h
    cases h
  | ok e' =>
    rw [hof] at h hmeets
    cases h
    exact hmeets

/-- A text whose tokens have a derivation is accepted. -/
theorem Expr.parse_of_derivation {input : String} {line : Nat} (d : Derivation .expr)
    (h : d.yield = Token.ofText input line) : Expr.parse input line = .ok d.tree := by
  unfold Expr.parse
  rw [← h, Parse.ofTokens_of_derivation d]

/-- **The parser accepts the grammar.**  A text is accepted exactly if no token of it is a fault and
the tokens have a derivation; it has no other derivation then, and the outcome is its tree.  The
parser never gives up for want of depth. -/
theorem Expr.parse_iff_derivation (input : String) (line : Nat) :
    (∀ e, Expr.parse input line = .ok e ↔
      (∀ t ∈ Token.ofText input line, t.lexeme.isFault = false) ∧
        ∃ d : Derivation .expr, d.yield = Token.ofText input line ∧ d.tree = e ∧
          ∀ d' : Derivation .expr, d'.yield = Token.ofText input line → d' = d) ∧
      ∀ l, Expr.parse input line ≠ .error (.parse .tooDeep input l) := by
  have hmeets := Parse.meets_ofTokens (Token.ofText input line) line
  refine ⟨fun e => ⟨fun h => ?_, ?_⟩, fun l h => ?_⟩
  · unfold Expr.parse at h
    cases hof : Parse.ofTokens (Token.ofText input line) line with
    | error f =>
      rw [hof] at h
      cases h
    | ok e' =>
      rw [hof] at h hmeets
      cases h
      obtain ⟨hclean, d, hyield, htree⟩ := hmeets
      exact ⟨hclean, d, hyield, htree, fun d' hd' => Derivation.eq_of_yield (hd'.trans hyield.symm)⟩
  · rintro ⟨-, d, hyield, rfl, -⟩
    unfold Expr.parse
    rw [← hyield, Parse.ofTokens_of_derivation d]
  · unfold Expr.parse at h
    cases hof : Parse.ofTokens (Token.ofText input line) line with
    | error f =>
      rw [hof] at h hmeets
      injection h with h
      injection h with hcause
      exact hmeets hcause
    | ok e' =>
      rw [hof] at h
      cases h

end Phrasebook
