import Phrasebook.Proofs.Grammar

/-!
# One derivation for one reading

* `Symbol.Stops` : what may come after a derivation of a symbol, so that it does not go on;
* `Derivation.unique` : where two derivations of a symbol stop in the same tokens, they are the
  same, and stop at the same place;
* `Derivation.eq_of_yield` : the grammar is unambiguous.
-/

namespace Phrasebook

namespace Grammar

/-! ### Where derivations stop -/

/-- A token that carries on a chain of the level: a sign of a filter, a binary operator of the level
or a tighter one, or an opening parenthesis, which would begin arguments. -/
def CarriesOn (level : Nat) (t : Token) : Prop :=
  t.lexeme = .operator .bar ∨ t.lexeme = .punct '(' ∨ ∃ k op, Sign k t.lexeme op ∧ level ≤ k

/-- The next token, if there is one, does not carry on a chain of the level. -/
def StopsAt (level : Nat) (ts : List Token) : Prop := ∀ t ∈ ts.head?, ¬CarriesOn level t

/-- What may come after a derivation of a symbol, so that it does not go on. -/
def Symbol.Stops : Symbol → List Token → Prop
  | .expr, ts => StopsAt 0 ts ∧ ∀ t ∈ ts.head?, t.lexeme ≠ .operator .question
  | .chain level, ts | .operators level, ts => StopsAt level ts
  | .filters, ts => StopsAt operandLevel ts
  | .arguments, ts => ∀ t ∈ ts.head?, t.lexeme ≠ .punct '('
  | .expressions, ts => ∃ (c : Terminal (.punct ')')) (rest : List Token), ts = c.1 :: rest
  | .items, ts => ∃ (c : Terminal (.punct ']')) (rest : List Token), ts = c.1 :: rest
  | .entries, ts => ∃ (c : Terminal (.punct '\x7d')) (rest : List Token), ts = c.1 :: rest
  | .primary, _ | .key, _ => True

section Stops

variable {level : Nat} {ts : List Token}

theorem StopsAt.mono {level' : Nat} (h : StopsAt level ts) (hle : level ≤ level') :
    StopsAt level' ts := by
  intro t ht hc
  refine h t ht ?_
  rcases hc with hbar | hpar | ⟨k, op, hsign, hk⟩
  · exact Or.inl hbar
  · exact Or.inr (Or.inl hpar)
  · exact Or.inr (Or.inr ⟨k, op, hsign, Nat.le_trans hle hk⟩)

/-- Operators bind less tightly than filters, so that a chain of any level stops where filters
stop. -/
theorem StopsAt.filters (h : StopsAt level ts) : StopsAt operandLevel ts := by
  intro t ht hc
  refine h t ht ?_
  rcases hc with hbar | hpar | ⟨k, op, hsign, hk⟩
  · exact Or.inl hbar
  · exact Or.inr (Or.inl hpar)
  · exact absurd hk (Nat.not_le_of_lt hsign.level_lt)

theorem stopsAt_nil (level : Nat) : StopsAt level [] := nofun

theorem stopsAt_cons {t : Token} (h : ¬CarriesOn level t) : StopsAt level (t :: ts) := by
  intro t' ht'
  cases ht'
  exact h

/-- An expression stops at the end of the text. -/
theorem stops_expr_nil : Symbol.expr.Stops [] := ⟨stopsAt_nil 0, nofun⟩

/-- An expression stops at punctuation other than an opening parenthesis. -/
theorem stops_expr_punct {c : Char} (t : Terminal (.punct c)) (hc : c ≠ '(') :
    Symbol.expr.Stops (t.1 :: ts) := by
  refine ⟨stopsAt_cons ?_, ?_⟩
  · rintro (h | h | ⟨k, op, h, -⟩)
    · rw [t.2] at h
      cases h
    · rw [t.2] at h
      cases h
      exact hc rfl
    · rw [t.2] at h
      cases h
  · rintro t' ⟨⟩ h
    rw [t.2] at h
    cases h

/-- The test of a conditional stops at the question mark. -/
theorem stopsAt_question (q : Terminal (.operator .question)) : StopsAt level (q.1 :: ts) := by
  refine stopsAt_cons ?_
  rintro (h | h | ⟨k, op, h, -⟩) <;> rw [q.2] at h <;> cases h

/-- An operand stops at the operators of its chain. -/
theorem stopsAt_operators (d : Derivation (.operators level)) (h : StopsAt level ts) :
    StopsAt (level + 1) (d.yield ++ ts) := by
  cases d with
  | noOperator => exact h.mono (Nat.le_succ level)
  | operator op sign hsign right rest =>
    refine stopsAt_cons ?_
    rintro (h | h | ⟨k, op', hsign', hk⟩)
    · rw [h] at hsign
      cases hsign
    · rw [h] at hsign
      cases hsign
    · obtain ⟨-, rfl⟩ := hsign.unique hsign'
      omega

/-- The arguments of a filter stop at the next filter. -/
theorem stops_arguments_filters (d : Derivation .filters) (h : StopsAt operandLevel ts) :
    Symbol.arguments.Stops (d.yield ++ ts) := by
  cases d with
  | noFilter => exact fun t ht hpar => h t ht (Or.inr (Or.inl hpar))
  | filter bar x name args rest =>
    rintro t ⟨⟩ hpar
    rw [bar.2] at hpar
    cases hpar

end Stops

/-! ### Where derivations begin -/

namespace Derivation

/-- A token that an expression or a key begins with. -/
def Begins (t : Token) : Prop :=
  (atom? t).isSome ∨ (keyAtom? t).isSome ∨ t.lexeme = .punct '(' ∨ t.lexeme = .punct '[' ∨
    t.lexeme = .punct '\x7b'

theorem begins_head {s : Symbol} (d : Derivation s) (h : s.isProper = true) (r : List Token) :
    ∃ t ts, d.yield ++ r = t :: ts ∧ Begins t := by
  have hleft : ∀ {s : Symbol} (e : Derivation s), (∀ r, ∃ t ts, e.yield ++ r = t :: ts ∧ Begins t) →
      ∀ more r, ∃ t ts, (e.yield ++ more) ++ r = t :: ts ∧ Begins t := by
    intro s e he more r
    rw [List.append_assoc]
    exact he (more ++ r)
  induction d generalizing r with
  | plain c ih => exact ih rfl r
  | conditional t q y c n ih => exact hleft t (ih rfl) _ r
  | binary _ e rest ih => exact hleft e (ih rfl) _ r
  | post _ e rest ih => exact hleft e (ih rfl) _ r
  | lastExpression e ih => exact ih rfl r
  | expression e comma rest ih => exact hleft e (ih rfl) _ r
  | atom t e hatom => exact ⟨t, r, rfl, Or.inl (by simp [hatom])⟩
  | parenthesized o e c => exact ⟨o.1, _, rfl, Or.inr (Or.inr (Or.inl o.2))⟩
  | list o items c => exact ⟨o.1, _, rfl, Or.inr (Or.inr (Or.inr (Or.inl o.2)))⟩
  | hash o entries c => exact ⟨o.1, _, rfl, Or.inr (Or.inr (Or.inr (Or.inr o.2)))⟩
  | word t e hword => exact ⟨t, r, rfl, Or.inr (Or.inl (by simp [hword]))⟩
  | computed o e c => exact ⟨o.1, _, rfl, Or.inr (Or.inr (Or.inl o.2))⟩
  | _ => cases h

/-- Nothing that must have tokens begins with punctuation that closes. -/
theorem append_ne_closing {s : Symbol} (d : Derivation s) (h : s.isProper = true) {c : Char}
    (t : Terminal (.punct c)) (hc : c = ')' ∨ c = ']' ∨ c = '\x7d') (r ts : List Token) :
    d.yield ++ r ≠ t.1 :: ts := by
  intro he
  obtain ⟨b, bs, hb, hbegins⟩ := d.begins_head h r
  obtain rfl : b = t.1 := by
    rw [hb] at he
    exact (List.cons.inj he).1
  unfold Begins atom? keyAtom? at hbegins
  rw [t.2] at hbegins
  rcases hc with rfl | rfl | rfl <;> simp at hbegins

/-! ### Unambiguity -/

/-- Another derivation of the symbol that stops in the same tokens is the same one, and stops at the
same place. -/
def Unique {s : Symbol} (d : Derivation s) : Prop :=
  ∀ (d' : Derivation s) (r r' : List Token), s.Stops r → s.Stops r' → d.yield ++ r = d'.yield ++
    r' → d = d' ∧ r = r'

/-- Brackets with the same tokens hold the same derivation. -/
theorem Unique.bracketed {s : Symbol} {d d' : Derivation s} (hd : d.Unique) {a b : Lexeme}
    {o o' : Terminal a} {c c' : Terminal b} {r r' : List Token} (h : s.Stops (c.1 :: r))
    (h' : s.Stops (c'.1 :: r'))
    (he : o.1 :: (d.yield ++ [c.1]) ++ r = o'.1 :: (d'.yield ++ [c'.1]) ++ r') :
    o = o' ∧ d = d' ∧ c = c' ∧ r = r' := by
  simp only [List.append_assoc, List.cons_append, List.nil_append] at he
  obtain ⟨ho, h₁⟩ := List.cons.inj he
  obtain ⟨hd', h₂⟩ := hd d' _ _ h h' h₁
  obtain ⟨hc, h₃⟩ := List.cons.inj h₂
  exact ⟨Subtype.ext ho, hd', Subtype.ext hc, h₃⟩

/-- Expressions with the same tokens before punctuation are the same, with the same punctuation
behind them. -/
theorem Unique.before {e e' : Derivation .expr} (he : e.Unique) {a b : Char}
    (c : Terminal (.punct a)) (c' : Terminal (.punct b)) (hopen : a ≠ '(' ∧ b ≠ '(')
    {ts ts' : List Token} (h₀ : e.yield ++ c.1 :: ts = e'.yield ++ c'.1 :: ts') :
    e = e' ∧ c.1 = c'.1 ∧ ts = ts' := by
  obtain ⟨rfl, h₁⟩ := he e' _ _ (stops_expr_punct c hopen.1) (stops_expr_punct c' hopen.2) h₀
  obtain ⟨hc, hts⟩ := List.cons.inj h₁
  exact ⟨rfl, hc, hts⟩

/-- An expression, a comma and what follows the comma are given by their tokens. -/
theorem Unique.separated {s : Symbol} {e e' : Derivation .expr} {rest rest' : Derivation s}
    (he : e.Unique) (hrest : rest.Unique) {comma comma' : Terminal (.punct ',')} {r r' : List Token}
    (h : s.Stops r) (h' : s.Stops r')
    (h₀ : (e.yield ++ comma.1 :: rest.yield) ++ r = (e'.yield ++ comma'.1 :: rest'.yield) ++ r') :
    e = e' ∧ comma = comma' ∧ rest = rest' ∧ r = r' := by
  simp only [List.append_assoc, List.cons_append] at h₀
  obtain ⟨he', hcomma, h₁⟩ := he.before comma comma' (by decide) h₀
  obtain ⟨hrest', hr⟩ := hrest rest' r r' h h' h₁
  exact ⟨he', Subtype.ext hcomma, hrest', hr⟩

/-- Two tokens that are different punctuation are different. -/
theorem punct_ne {a b : Char} (t : Terminal (.punct a)) (t' : Terminal (.punct b)) (hne : a ≠ b) :
    t.1 ≠ t'.1 := by
  intro he
  have := t.2.symm.trans ((congrArg Token.lexeme he).trans t'.2)
  cases this
  exact hne rfl

/-- Punctuation stands for no expression by itself. -/
theorem ne_punct_of_atom? {t : Token} {e : Expr} (h : atom? t = some e) {c : Char}
    (o : Terminal (.punct c)) : t ≠ o.1 := by
  rintro rfl
  unfold atom? at h
  rw [o.2] at h
  cases h

/-- Punctuation stands for no key by itself. -/
theorem ne_punct_of_keyAtom? {t : Token} {e : Expr} (h : keyAtom? t = some e) {c : Char}
    (o : Terminal (.punct c)) : t ≠ o.1 := by
  rintro rfl
  unfold keyAtom? at h
  rw [o.2] at h
  cases h

namespace Unique

theorem plain {c : Derivation (.chain 0)} (hc : c.Unique) : (Derivation.plain c).Unique := by
  intro d' r r' h h' h₀
  cases d' with
  | plain c' =>
    obtain ⟨rfl, rfl⟩ := hc c' r r' h.1 h'.1 h₀
    exact ⟨rfl, rfl⟩
  | conditional t q y colon n =>
    simp only [yield, List.append_assoc, List.cons_append] at h₀
    obtain ⟨-, rfl⟩ := hc t r _ h.1 (stopsAt_question q) h₀
    exact absurd q.2 (h.2 q.1 rfl)

theorem conditional {t : Derivation (.chain 0)} (q : Terminal (.operator .question))
    {y : Derivation .expr} (colon : Terminal (.punct ':')) {n : Derivation .expr} (ht : t.Unique)
    (hy : y.Unique) (hn : n.Unique) : (Derivation.conditional t q y colon n).Unique := by
  intro d' r r' h h' h₀
  cases d' with
  | plain c' =>
    simp only [yield, List.append_assoc, List.cons_append] at h₀
    obtain ⟨-, rfl⟩ := ht c' _ r' (stopsAt_question q) h'.1 h₀
    exact absurd q.2 (h'.2 q.1 rfl)
  | conditional t' q' y' colon' n' =>
    simp only [yield, List.append_assoc, List.cons_append] at h₀
    obtain ⟨rfl, h₁⟩ := ht t' _ _ (stopsAt_question q) (stopsAt_question q') h₀
    obtain ⟨hq, h₂⟩ := List.cons.inj h₁
    obtain ⟨rfl, hcolon, h₃⟩ := hy.before colon colon' (by decide) h₂
    obtain ⟨rfl, rfl⟩ := hn n' r r' h h' h₃
    rw [Subtype.ext hq, Subtype.ext hcolon]
    exact ⟨rfl, rfl⟩

theorem binary {level : Nat} (hlevel : level < operandLevel) {e : Derivation (.chain (level + 1))}
    {rest : Derivation (.operators level)} (he : e.Unique) (hrest : rest.Unique) :
    (Derivation.binary hlevel e rest).Unique := by
  intro d' r r' h h' h₀
  cases d' with
  | binary _ e' rest' =>
    simp only [yield, List.append_assoc] at h₀
    obtain ⟨rfl, h₁⟩ := he e' _ _ (stopsAt_operators rest h) (stopsAt_operators rest' h') h₀
    obtain ⟨rfl, rfl⟩ := hrest rest' r r' h h' h₁
    exact ⟨rfl, rfl⟩
  | post hlevel' => exact absurd hlevel hlevel'

theorem post {level : Nat} (hlevel : ¬level < operandLevel) {e : Derivation .primary}
    {rest : Derivation .filters} (he : e.Unique) (hrest : rest.Unique) :
    (Derivation.post hlevel e rest).Unique := by
  intro d' r r' h h' h₀
  cases d' with
  | binary hlevel' => exact absurd hlevel' hlevel
  | post _ e' rest' =>
    simp only [yield, List.append_assoc] at h₀
    obtain ⟨rfl, h₁⟩ := he e' _ _ trivial trivial h₀
    obtain ⟨rfl, rfl⟩ := hrest rest' r r' (StopsAt.filters h) (StopsAt.filters h') h₁
    exact ⟨rfl, rfl⟩

theorem noOperator {level : Nat} :
    (Derivation.noOperator : Derivation (.operators level)).Unique := by
  intro d' r r' h h' h₀
  cases d' with
  | noOperator => exact ⟨rfl, h₀⟩
  | operator op sign hsign =>
    obtain rfl := h₀
    exact absurd (Or.inr (Or.inr ⟨level, op, hsign, Nat.le_refl level⟩)) (h sign rfl)

theorem operator {level : Nat} (op : BinOp) (sign : Token) (hsign : Sign level sign.lexeme op)
    {e : Derivation (.chain (level + 1))} {rest : Derivation (.operators level)} (he : e.Unique)
    (hrest : rest.Unique) : (Derivation.operator op sign hsign e rest).Unique := by
  intro d' r r' h h' h₀
  cases d' with
  | noOperator =>
    obtain rfl := h₀.symm
    exact absurd (Or.inr (Or.inr ⟨level, op, hsign, Nat.le_refl level⟩)) (h' sign rfl)
  | operator op' sign' hsign' e' rest' =>
    simp only [yield, List.append_assoc, List.cons_append] at h₀
    obtain ⟨rfl, h₁⟩ := List.cons.inj h₀
    obtain ⟨rfl, -⟩ := hsign.unique hsign'
    obtain ⟨rfl, h₂⟩ := he e' _ _ (stopsAt_operators rest h) (stopsAt_operators rest' h') h₁
    obtain ⟨rfl, rfl⟩ := hrest rest' r r' h h' h₂
    exact ⟨rfl, rfl⟩

theorem noFilter : Derivation.noFilter.Unique := by
  intro d' r r' h h' h₀
  cases d' with
  | noFilter => exact ⟨rfl, h₀⟩
  | filter bar x name args rest =>
    obtain rfl := h₀
    exact absurd (Or.inl bar.2) (h bar.1 rfl)

theorem filter (bar : Terminal (.operator .bar)) (x : String) (name : Terminal (.ident x))
    {args : Derivation .arguments} {rest : Derivation .filters} (hargs : args.Unique)
    (hrest : rest.Unique) : (Derivation.filter bar x name args rest).Unique := by
  intro d' r r' h h' h₀
  cases d' with
  | noFilter =>
    obtain rfl := h₀.symm
    exact absurd (Or.inl bar.2) (h' bar.1 rfl)
  | filter bar' x' name' args' rest' =>
    simp only [yield, List.append_assoc, List.cons_append] at h₀
    obtain ⟨hbar, h₁⟩ := List.cons.inj h₀
    obtain ⟨hname, h₂⟩ := List.cons.inj h₁
    obtain rfl : x = x' := by
      have := name.2.symm.trans ((congrArg Token.lexeme hname).trans name'.2)
      cases this
      rfl
    obtain ⟨rfl, h₃⟩ :=
      hargs args' _ _ (stops_arguments_filters rest h) (stops_arguments_filters rest' h') h₂
    obtain ⟨rfl, rfl⟩ := hrest rest' r r' h h' h₃
    rw [Subtype.ext hbar, Subtype.ext hname]
    exact ⟨rfl, rfl⟩

theorem bare : Derivation.bare.Unique := by
  intro d' r r' h h' h₀
  cases d' with
  | bare => exact ⟨rfl, h₀⟩
  | noArgument o c =>
    obtain rfl := h₀
    exact absurd o.2 (h o.1 rfl)
  | someArguments o args c =>
    obtain rfl := h₀
    exact absurd o.2 (h o.1 rfl)

theorem noArgument (o : Terminal (.punct '(')) (c : Terminal (.punct ')')) :
    (Derivation.noArgument o c).Unique := by
  intro d' r r' h h' h₀
  cases d' with
  | bare =>
    obtain rfl := h₀.symm
    exact absurd o.2 (h' o.1 rfl)
  | noArgument o' c' =>
    obtain ⟨ho, h₁⟩ := List.cons.inj h₀
    obtain ⟨hc, h₂⟩ := List.cons.inj h₁
    rw [Subtype.ext ho, Subtype.ext hc]
    exact ⟨rfl, h₂⟩
  | someArguments o' args c' =>
    simp only [yield, List.append_assoc, List.cons_append, List.nil_append] at h₀
    exact absurd (List.cons.inj h₀).2.symm (args.append_ne_closing rfl c (Or.inl rfl) _ _)

theorem someArguments (o : Terminal (.punct '(')) {args : Derivation .expressions}
    (c : Terminal (.punct ')')) (hargs : args.Unique) :
    (Derivation.someArguments o args c).Unique := by
  intro d' r r' h h' h₀
  cases d' with
  | bare =>
    obtain rfl := h₀.symm
    exact absurd o.2 (h' o.1 rfl)
  | noArgument o' c' =>
    simp only [yield, List.append_assoc, List.cons_append, List.nil_append] at h₀
    exact absurd (List.cons.inj h₀).2 (args.append_ne_closing rfl c' (Or.inl rfl) _ _)
  | someArguments o' args' c' =>
    obtain ⟨rfl, rfl, rfl, rfl⟩ := hargs.bracketed ⟨c, r, rfl⟩ ⟨c', r', rfl⟩ h₀
    exact ⟨rfl, rfl⟩

theorem lastExpression {e : Derivation .expr} (he : e.Unique) :
    (Derivation.lastExpression e).Unique := by
  intro d' r r' h h' h₀
  obtain ⟨c, r, rfl⟩ := h
  obtain ⟨c', r', rfl⟩ := h'
  cases d' with
  | lastExpression e' =>
    obtain ⟨rfl, hc, rfl⟩ := he.before c c' (by decide) h₀
    exact ⟨rfl, by rw [hc]⟩
  | expression e' comma rest =>
    simp only [yield, List.append_assoc, List.cons_append] at h₀
    obtain ⟨-, hsame, -⟩ := he.before c comma (by decide) h₀
    exact absurd hsame (punct_ne c comma (by decide))

theorem expression {e : Derivation .expr} (comma : Terminal (.punct ','))
    {rest : Derivation .expressions} (he : e.Unique) (hrest : rest.Unique) :
    (Derivation.expression e comma rest).Unique := by
  intro d' r r' h h' h₀
  cases d' with
  | lastExpression e' =>
    obtain ⟨c', r', rfl⟩ := h'
    simp only [yield, List.append_assoc, List.cons_append] at h₀
    obtain ⟨-, hsame, -⟩ := he.before comma c' (by decide) h₀
    exact absurd hsame (punct_ne comma c' (by decide))
  | expression e' comma' rest' =>
    obtain ⟨rfl, rfl, rfl, rfl⟩ := he.separated hrest h h' h₀
    exact ⟨rfl, rfl⟩

theorem atom (t : Token) (e : Expr) (hatom : atom? t = some e) :
    (Derivation.atom t e hatom).Unique := by
  intro d' r r' h h' h₀
  cases d' with
  | atom t' e' hatom' =>
    obtain ⟨rfl, h₁⟩ := List.cons.inj h₀
    obtain rfl : e = e' := Option.some.inj (hatom.symm.trans hatom')
    exact ⟨rfl, h₁⟩
  | parenthesized o => exact absurd (List.cons.inj h₀).1 (ne_punct_of_atom? hatom o)
  | list o => exact absurd (List.cons.inj h₀).1 (ne_punct_of_atom? hatom o)
  | hash o => exact absurd (List.cons.inj h₀).1 (ne_punct_of_atom? hatom o)

theorem parenthesized (o : Terminal (.punct '(')) {e : Derivation .expr} (c : Terminal (.punct ')'))
    (he : e.Unique) : (Derivation.parenthesized o e c).Unique := by
  intro d' r r' h h' h₀
  cases d' with
  | atom t e hatom => exact absurd (List.cons.inj h₀).1.symm (ne_punct_of_atom? hatom o)
  | parenthesized o' e' c' =>
    obtain ⟨rfl, rfl, rfl, rfl⟩ :=
      he.bracketed (stops_expr_punct c (by decide)) (stops_expr_punct c' (by decide)) h₀
    exact ⟨rfl, rfl⟩
  | list o' => exact absurd (List.cons.inj h₀).1 (punct_ne o o' (by decide))
  | hash o' => exact absurd (List.cons.inj h₀).1 (punct_ne o o' (by decide))

theorem list (o : Terminal (.punct '[')) {items : Derivation .items} (c : Terminal (.punct ']'))
    (hitems : items.Unique) : (Derivation.list o items c).Unique := by
  intro d' r r' h h' h₀
  cases d' with
  | atom t e hatom => exact absurd (List.cons.inj h₀).1.symm (ne_punct_of_atom? hatom o)
  | parenthesized o' => exact absurd (List.cons.inj h₀).1 (punct_ne o o' (by decide))
  | list o' items' c' =>
    obtain ⟨rfl, rfl, rfl, rfl⟩ := hitems.bracketed ⟨c, r, rfl⟩ ⟨c', r', rfl⟩ h₀
    exact ⟨rfl, rfl⟩
  | hash o' => exact absurd (List.cons.inj h₀).1 (punct_ne o o' (by decide))

theorem hash (o : Terminal (.punct '\x7b')) {entries : Derivation .entries}
    (c : Terminal (.punct '\x7d')) (hentries : entries.Unique) :
    (Derivation.hash o entries c).Unique := by
  intro d' r r' h h' h₀
  cases d' with
  | atom t e hatom => exact absurd (List.cons.inj h₀).1.symm (ne_punct_of_atom? hatom o)
  | parenthesized o' => exact absurd (List.cons.inj h₀).1 (punct_ne o o' (by decide))
  | list o' => exact absurd (List.cons.inj h₀).1 (punct_ne o o' (by decide))
  | hash o' entries' c' =>
    obtain ⟨rfl, rfl, rfl, rfl⟩ := hentries.bracketed ⟨c, r, rfl⟩ ⟨c', r', rfl⟩ h₀
    exact ⟨rfl, rfl⟩

theorem noItem : Derivation.noItem.Unique := by
  intro d' r r' h h' h₀
  obtain ⟨c, r, rfl⟩ := h
  cases d' with
  | noItem => exact ⟨rfl, h₀⟩
  | lastItem e => exact absurd h₀.symm (e.append_ne_closing rfl c (Or.inr (Or.inl rfl)) _ _)
  | item e comma rest =>
    simp only [yield, List.append_assoc] at h₀
    exact absurd h₀.symm (e.append_ne_closing rfl c (Or.inr (Or.inl rfl)) _ _)

theorem lastItem {e : Derivation .expr} (he : e.Unique) : (Derivation.lastItem e).Unique := by
  intro d' r r' h h' h₀
  obtain ⟨c, r, rfl⟩ := h
  obtain ⟨c', r', rfl⟩ := h'
  cases d' with
  | noItem => exact absurd h₀ (e.append_ne_closing rfl c' (Or.inr (Or.inl rfl)) _ _)
  | lastItem e' =>
    obtain ⟨rfl, hc, rfl⟩ := he.before c c' (by decide) h₀
    exact ⟨rfl, by rw [hc]⟩
  | item e' comma rest =>
    simp only [yield, List.append_assoc, List.cons_append] at h₀
    obtain ⟨-, hsame, -⟩ := he.before c comma (by decide) h₀
    exact absurd hsame (punct_ne c comma (by decide))

theorem item {e : Derivation .expr} (comma : Terminal (.punct ',')) {rest : Derivation .items}
    (he : e.Unique) (hrest : rest.Unique) : (Derivation.item e comma rest).Unique := by
  intro d' r r' h h' h₀
  cases d' with
  | noItem =>
    obtain ⟨c', r', rfl⟩ := h'
    simp only [yield, List.append_assoc] at h₀
    exact absurd h₀ (e.append_ne_closing rfl c' (Or.inr (Or.inl rfl)) _ _)
  | lastItem e' =>
    obtain ⟨c', r', rfl⟩ := h'
    simp only [yield, List.append_assoc, List.cons_append] at h₀
    obtain ⟨-, hsame, -⟩ := he.before comma c' (by decide) h₀
    exact absurd hsame (punct_ne comma c' (by decide))
  | item e' comma' rest' =>
    obtain ⟨rfl, rfl, rfl, rfl⟩ := he.separated hrest h h' h₀
    exact ⟨rfl, rfl⟩

theorem noEntry : Derivation.noEntry.Unique := by
  intro d' r r' h h' h₀
  obtain ⟨c, r, rfl⟩ := h
  cases d' with
  | noEntry => exact ⟨rfl, h₀⟩
  | lastEntry k colon e =>
    simp only [yield, List.append_assoc] at h₀
    exact absurd h₀.symm (k.append_ne_closing rfl c (Or.inr (Or.inr rfl)) _ _)
  | entry k colon e comma rest =>
    simp only [yield, List.append_assoc] at h₀
    exact absurd h₀.symm (k.append_ne_closing rfl c (Or.inr (Or.inr rfl)) _ _)

theorem lastEntry {k : Derivation .key} (colon : Terminal (.punct ':')) {e : Derivation .expr}
    (hk : k.Unique) (he : e.Unique) : (Derivation.lastEntry k colon e).Unique := by
  intro d' r r' h h' h₀
  obtain ⟨c, r, rfl⟩ := h
  obtain ⟨c', r', rfl⟩ := h'
  simp only [yield, List.append_assoc, List.cons_append] at h₀
  cases d' with
  | noEntry => exact absurd h₀ (k.append_ne_closing rfl c' (Or.inr (Or.inr rfl)) _ _)
  | lastEntry k' colon' e' =>
    simp only [yield, List.append_assoc, List.cons_append] at h₀
    obtain ⟨rfl, h₁⟩ := hk k' _ _ trivial trivial h₀
    obtain ⟨hcolon, h₂⟩ := List.cons.inj h₁
    obtain ⟨rfl, hc, rfl⟩ := he.before c c' (by decide) h₂
    rw [Subtype.ext hcolon, hc]
    exact ⟨rfl, rfl⟩
  | entry k' colon' e' comma rest =>
    simp only [yield, List.append_assoc, List.cons_append] at h₀
    obtain ⟨rfl, h₁⟩ := hk k' _ _ trivial trivial h₀
    obtain ⟨-, hsame, -⟩ := he.before c comma (by decide) (List.cons.inj h₁).2
    exact absurd hsame (punct_ne c comma (by decide))

theorem entry {k : Derivation .key} (colon : Terminal (.punct ':')) {e : Derivation .expr}
    (comma : Terminal (.punct ',')) {rest : Derivation .entries} (hk : k.Unique) (he : e.Unique)
    (hrest : rest.Unique) : (Derivation.entry k colon e comma rest).Unique := by
  intro d' r r' h h' h₀
  cases d' with
  | noEntry =>
    obtain ⟨c', r', rfl⟩ := h'
    simp only [yield, List.append_assoc] at h₀
    exact absurd h₀ (k.append_ne_closing rfl c' (Or.inr (Or.inr rfl)) _ _)
  | lastEntry k' colon' e' =>
    obtain ⟨c', r', rfl⟩ := h'
    simp only [yield, List.append_assoc, List.cons_append] at h₀
    obtain ⟨rfl, h₁⟩ := hk k' _ _ trivial trivial h₀
    obtain ⟨-, hsame, -⟩ := he.before comma c' (by decide) (List.cons.inj h₁).2
    exact absurd hsame (punct_ne comma c' (by decide))
  | entry k' colon' e' comma' rest' =>
    simp only [yield, List.append_assoc, List.cons_append] at h₀
    obtain ⟨rfl, h₁⟩ := hk k' _ _ trivial trivial h₀
    obtain ⟨hcolon, h₂⟩ := List.cons.inj h₁
    obtain ⟨rfl, rfl, rfl, rfl⟩ := he.separated hrest h h' (by simpa using h₂)
    rw [Subtype.ext hcolon]
    exact ⟨rfl, rfl⟩

theorem word (t : Token) (e : Expr) (hword : keyAtom? t = some e) :
    (Derivation.word t e hword).Unique := by
  intro d' r r' h h' h₀
  cases d' with
  | word t' e' hword' =>
    obtain ⟨rfl, h₁⟩ := List.cons.inj h₀
    obtain rfl : e = e' := Option.some.inj (hword.symm.trans hword')
    exact ⟨rfl, h₁⟩
  | computed o => exact absurd (List.cons.inj h₀).1 (ne_punct_of_keyAtom? hword o)

theorem computed (o : Terminal (.punct '(')) {e : Derivation .expr} (c : Terminal (.punct ')'))
    (he : e.Unique) : (Derivation.computed o e c).Unique := by
  intro d' r r' h h' h₀
  cases d' with
  | word t e hword => exact absurd (List.cons.inj h₀).1.symm (ne_punct_of_keyAtom? hword o)
  | computed o' e' c' =>
    obtain ⟨rfl, rfl, rfl, rfl⟩ :=
      he.bracketed (stops_expr_punct c (by decide)) (stops_expr_punct c' (by decide)) h₀
    exact ⟨rfl, rfl⟩

end Unique

/-- Where two derivations of a symbol stop in the same tokens, they are the same, and stop at the
same place. -/
theorem unique {s : Symbol} (d : Derivation s) : d.Unique := by
  induction d with
  | plain c hc => exact .plain hc
  | conditional t q y colon n ht hy hn => exact .conditional q colon ht hy hn
  | binary h e rest he hrest => exact .binary h he hrest
  | post h e rest he hrest => exact .post h he hrest
  | noOperator => exact .noOperator
  | operator op sign hsign e rest he hrest => exact .operator op sign hsign he hrest
  | noFilter => exact .noFilter
  | filter bar x name args rest hargs hrest => exact .filter bar x name hargs hrest
  | bare => exact .bare
  | noArgument o c => exact .noArgument o c
  | someArguments o args c hargs => exact .someArguments o c hargs
  | lastExpression e he => exact .lastExpression he
  | expression e comma rest he hrest => exact .expression comma he hrest
  | atom t e h => exact .atom t e h
  | parenthesized o e c he => exact .parenthesized o c he
  | list o items c hitems => exact .list o c hitems
  | hash o entries c hentries => exact .hash o c hentries
  | noItem => exact .noItem
  | lastItem e he => exact .lastItem he
  | item e comma rest he hrest => exact .item comma he hrest
  | noEntry => exact .noEntry
  | lastEntry k colon e hk he => exact .lastEntry colon hk he
  | entry k colon e comma rest hk he hrest => exact .entry colon comma hk he hrest
  | word t e h => exact .word t e h
  | computed o e c he => exact .computed o c he

/-- The grammar is unambiguous: an expression has no two derivations. -/
theorem eq_of_yield {d d' : Derivation .expr} (h : d.yield = d'.yield) : d = d' :=
  (d.unique d' [] [] stops_expr_nil stops_expr_nil (by rw [h])).1

end Derivation

end Grammar

end Phrasebook
