import Phrasebook.Proofs.ParserCompleteness
import Phrasebook.Proofs.ReadBack

/-!
# Reading what was written

* `Spells` : a text is cut into the tokens of a derivation that stands for a given meaning, lines
  aside, whatever follows;
* `Expr.Spelt` : the text of an expression spells what `Expr.readBack` says;
* `Expr.parse_text` : so the text of an expression is read, and as an expression with other lines
  exactly if all keys come back.
-/

namespace Phrasebook

namespace Grammar

/-! ### Meanings without lines -/

def Symbol.unlined : (s : Symbol) → s.Meaning → s.Meaning
  | .expr, e => Expr.unlined e
  | .chain _, e => Expr.unlined e
  | .primary, e => Expr.unlined e
  | .key, e => Expr.unlined e
  | .operators _, f => fun e => Expr.unlined (f e)
  | .filters, f => fun e => Expr.unlined (f e)
  | .arguments, as => Expr.unlinedList as
  | .expressions, as => Expr.unlinedList as
  | .items, f => fun i => Expr.unlinedPairs (f i)
  | .entries, es => Expr.unlinedPairs es

/-- One more filter can be put behind filters. -/
theorem Derivation.exists_filter (bar : Terminal (.operator .bar)) (x : String)
    (name : Terminal (.ident x)) (args : Derivation .arguments) :
    ∀ d : Derivation .filters, ∃ d' : Derivation .filters,
      d'.yield = d.yield ++ bar.1 :: name.1 :: args.yield ∧
        ∀ e, d'.meaning e = Expr.filter (d.meaning e) x args.meaning bar.1.line
  | .noFilter =>
    ⟨.filter bar x name args .noFilter, by simp only [yield, List.append_nil, List.nil_append],
      fun _ => rfl⟩
  | .filter b y n as rest => by
    obtain ⟨d', hyield, hmeaning⟩ := exists_filter bar x name args rest
    refine ⟨.filter b y n as d', ?_, fun e => hmeaning _⟩
    simp only [yield, hyield, List.cons_append, List.append_assoc]

end Grammar

open Grammar

/-! ### Texts that spell a meaning -/

/-- The text is cut into lexemes whatever follows, and tokens with these lexemes have a derivation
that stands for `v`, lines aside. -/
def Spells (s : Symbol) (cs : List Char) (v : s.Meaning) : Prop :=
  ∃ xs, LexedAs cs xs ∧
    ∀ ts : List Token, ts.map (·.lexeme) = xs → ∃ d : Derivation s, d.yield = ts ∧
    s.unlined d.meaning = v

/-- Tokens are cut where their lexemes are cut. -/
theorem exists_terminal {ts : List Token} {xs ys : List Lexeme} {x : Lexeme}
    (h : ts.map (·.lexeme) = xs ++ x :: ys) :
    ∃ (ts₁ ts₂ : List Token) (t : Terminal x), ts = ts₁ ++ t.1 :: ts₂ ∧ ts₁.map (·.lexeme) = xs ∧
      ts₂.map (·.lexeme) = ys := by
  obtain ⟨ts₁, us, rfl, h₁, hus⟩ := List.map_eq_append_iff.1 h
  obtain ⟨t, ts₂, rfl, ht, h₂⟩ := List.map_eq_cons_iff.1 hus
  exact ⟨ts₁, ts₂, ⟨t, ht⟩, rfl, h₁, h₂⟩

namespace Spells

variable {cs ds zs : List Char}

/-- A production for no text. -/
theorem empty {s : Symbol} {v : s.Meaning} (d : Derivation s) (hyield : d.yield = [])
    (hmeaning : s.unlined d.meaning = v) : Spells s [] v := by
  refine ⟨[], fun _ _ _ hrest => hrest, fun us hus => ⟨d, ?_, hmeaning⟩⟩
  rw [hyield, List.map_eq_nil_iff.1 hus]

/-- A production for a single token. -/
theorem token {s : Symbol} {x : Lexeme} {v : s.Meaning} (hlex : LexedAs cs [x])
    (h : ∀ t : Token, t.lexeme = x → ∃ d : Derivation s, d.yield = [t] ∧ s.unlined d.meaning = v) :
    Spells s cs v := by
  refine ⟨[x], hlex, fun us hus => ?_⟩
  obtain ⟨t, rfl, ht⟩ := List.map_eq_singleton_iff.1 hus
  exact h t ht

/-- A production of a single symbol. -/
theorem only {s s' : Symbol} {v : s.Meaning} {v' : s'.Meaning}
    (build : Derivation s → Derivation s') (hyield : ∀ d, (build d).yield = d.yield)
    (hmeaning : ∀ d, s.unlined d.meaning = v → s'.unlined (build d).meaning = v')
    (h : Spells s cs v) : Spells s' cs v' := by
  obtain ⟨xs, hxs, hd⟩ := h
  refine ⟨xs, hxs, fun us hus => ?_⟩
  obtain ⟨d, rfl, hv⟩ := hd us hus
  exact ⟨build d, hyield d, hmeaning d hv⟩

/-- A production that puts a symbol between two punctuation marks. -/
theorem bracketed {s s' : Symbol} {o c : Char} {v : s.Meaning} {v' : s'.Meaning}
    (build : Terminal (.punct o) → Derivation s → Terminal (.punct c) → Derivation s')
    (hyield : ∀ op d cl, (build op d cl).yield = op.1 :: (d.yield ++ [cl.1]))
    (hmeaning : ∀ op d cl, s.unlined d.meaning = v → s'.unlined (build op d cl).meaning = v')
    (ho : isPunctuation o = true) (hc : isPunctuation c = true)
    (hend : isIdentPart c = false ∧ c ≠ '.') (h : Spells s cs v) :
    Spells s' (o :: cs ++ [c]) v' := by
  obtain ⟨xs, hxs, hd⟩ := h
  refine ⟨.punct o :: (xs ++ [.punct c]), ?_, fun us hus => ?_⟩
  · exact LexedAs.punct_append ho (hxs.append (fun _ _ => ends_cons _ hend) (LexedAs.punct hc))
  · obtain ⟨op, us₁, rfl, hop, h₁⟩ := List.map_eq_cons_iff.1 hus
    obtain ⟨ts, us₂, rfl, hts, h₂⟩ := List.map_eq_append_iff.1 h₁
    obtain ⟨cl, rfl, hcl⟩ := List.map_eq_singleton_iff.1 h₂
    obtain ⟨d, rfl, hv⟩ := hd ts hts
    exact ⟨build ⟨op, hop⟩ d ⟨cl, hcl⟩, hyield _ _ _, hmeaning _ _ _ hv⟩

/-- A production that puts a punctuation mark and a space between two symbols. -/
theorem separated {s s₁ s₂ : Symbol} {c : Char} {v : s.Meaning} {v₁ : s₁.Meaning} {v₂ : s₂.Meaning}
    (build : Derivation s₁ → Terminal (.punct c) → Derivation s₂ → Derivation s)
    (hyield : ∀ d₁ t d₂, (build d₁ t d₂).yield = d₁.yield ++ t.1 :: d₂.yield)
    (hmeaning : ∀ d₁ t d₂, s₁.unlined d₁.meaning = v₁ → s₂.unlined d₂.meaning = v₂ →
      s.unlined (build d₁ t d₂).meaning = v)
    (hc : isPunctuation c = true) (hend : isIdentPart c = false ∧ c ≠ '.') (h : Spells s₁ cs v₁)
    (h' : Spells s₂ ds v₂) :
    Spells s (cs ++ c :: ' ' :: ds) v := by
  obtain ⟨xs, hxs, hd⟩ := h
  obtain ⟨ys, hys, hd'⟩ := h'
  refine ⟨xs ++ .punct c :: ys, ?_, fun us hus => ?_⟩
  · exact hxs.append (fun _ _ => ends_cons _ hend) (LexedAs.punct_append hc hys.space_append)
  · obtain ⟨ts₁, ts₂, t, rfl, h₁, h₂⟩ := exists_terminal hus
    obtain ⟨d₁, rfl, hv₁⟩ := hd ts₁ h₁
    obtain ⟨d₂, rfl, hv₂⟩ := hd' ts₂ h₂
    exact ⟨build d₁ t d₂, hyield _ _ _, hmeaning _ _ _ hv₁ hv₂⟩

/-! ### Chains -/

theorem ofPrimary {a : Expr} (h : Spells .primary cs a) : Spells (.chain operandLevel) cs a :=
  only (fun d => .post (Nat.lt_irrefl _) d .noFilter) (fun _ => List.append_nil _)
    (fun _ hv => hv) h

/-- What binds tighter stands for a chain as well. -/
theorem ofTighter {a : Expr} {level tighter : Nat} (hlevel : level ≤ tighter)
    (htop : tighter ≤ operandLevel) (h : Spells (.chain tighter) cs a) :
    Spells (.chain level) cs a := by
  induction hlevel with
  | refl => exact h
  | step hlevel ih =>
    exact ih (Nat.le_of_lt htop)
      (only (fun d => .binary htop d .noOperator) (fun _ => List.append_nil _) (fun _ hv => hv) h)

theorem ofChain {a : Expr} (h : Spells (.chain operandLevel) cs a) : Spells .expr cs a :=
  only .plain (fun _ => rfl) (fun _ hv => hv) (ofTighter (Nat.zero_le _) (Nat.le_refl _) h)

/-! ### Operators, filters and conditionals -/

theorem filter {a : Expr} {as : List Expr} {x : String} (hx : Expr.IsName x)
    (h : Spells (.chain operandLevel) cs a) (hends : ∀ rest, Ends rest → Ends (ds ++ rest))
    (hargs : Spells .arguments ds as) :
    Spells (.chain operandLevel) (cs ++ '|' :: (x.toList ++ ds)) (.filter a x as 0) := by
  obtain ⟨xs, hxs, hd⟩ := h
  obtain ⟨ys, hys, hargs⟩ := hargs
  refine ⟨xs ++ .operator .bar :: .ident x :: ys, ?_, fun us hus => ?_⟩
  · have hname := (LexedAs.ident hx.1 hx.2).append hends hys
    exact hxs.append (fun _ _ => ends_cons _ (by decide)) hname.bar_append
  · obtain ⟨ts₁, us₁, bar, rfl, h₁, hus₁⟩ := exists_terminal hus
    obtain ⟨name, ts₂, rfl, hname, h₂⟩ := List.map_eq_cons_iff.1 hus₁
    obtain ⟨d, rfl, rfl⟩ := hd ts₁ h₁
    obtain ⟨args, rfl, rfl⟩ := hargs ts₂ h₂
    cases d with
    | binary hlevel _ _ => exact absurd hlevel (Nat.lt_irrefl _)
    | post hlevel operand rest =>
      obtain ⟨d', hyield, hmeaning⟩ := Derivation.exists_filter bar x ⟨name, hname⟩ args rest
      refine ⟨.post hlevel operand d', ?_, congrArg Expr.unlined (hmeaning _)⟩
      simp only [Derivation.yield, hyield, List.append_assoc]

theorem binary {a b : Expr} (op : BinOp) (h : Spells (.chain operandLevel) cs a)
    (h' : Spells (.chain operandLevel) ds b) :
    Spells (.chain 0) (cs ++ ' ' :: (op.text.toList ++ ' ' :: ds)) (.binary op a b 0) := by
  obtain ⟨level, hop⟩ : ∃ level, Sign level op.lexeme op := by
    cases op <;> exact ⟨_, by constructor⟩
  have hlevel : level < operandLevel := hop.level_lt
  refine ofTighter (Nat.zero_le _) (Nat.le_of_lt hlevel) ?_
  obtain ⟨xs, hxs, hd⟩ := ofTighter hlevel (Nat.le_refl _) h
  obtain ⟨ys, hys, hd'⟩ := ofTighter hlevel (Nat.le_refl _) h'
  refine ⟨xs ++ op.lexeme :: ys, ?_, fun us hus => ?_⟩
  · exact hxs.append (fun _ _ => ends_cons _ (by decide)) (hys.operator_append op).space_append
  · obtain ⟨ts₁, ts₂, sign, rfl, h₁, h₂⟩ := exists_terminal hus
    obtain ⟨d, rfl, rfl⟩ := hd ts₁ h₁
    obtain ⟨d', rfl, rfl⟩ := hd' ts₂ h₂
    have hsign : Sign level sign.1.lexeme op := by
      rw [sign.2]
      exact hop
    refine ⟨.binary hlevel d (.operator op sign.1 hsign d' .noOperator), ?_, rfl⟩
    simp only [Derivation.yield, List.append_nil]

theorem conditional {t y n : Expr} (ht : Spells (.chain 0) cs t) (hy : Spells .expr ds y)
    (hn : Spells .expr zs n) :
    Spells .expr (cs ++ " ? ".toList ++ ds ++ " : ".toList ++ zs) (.cond t y n 0) := by
  obtain ⟨xs, hxs, hd⟩ := ht
  obtain ⟨ys, hys, hdy⟩ := hy
  obtain ⟨ws, hws, hdn⟩ := hn
  refine ⟨xs ++ .operator .question :: (ys ++ .punct ':' :: ws), ?_, fun us hus => ?_⟩
  · have hno := (LexedAs.punct_append (c := ':') rfl hws.space_append).space_append
    have hbranches := hys.append (fun _ _ => ends_cons _ (by decide)) hno
    have hyes := hbranches.space_append.question_append.space_append
    have htest := hxs.append (fun _ _ => ends_cons _ (by decide)) hyes
    simpa using htest
  · obtain ⟨ts₁, us₁, question, rfl, h₁, hus₁⟩ := exists_terminal hus
    obtain ⟨ts₂, ts₃, colon, rfl, h₂, h₃⟩ := exists_terminal hus₁
    obtain ⟨d, rfl, rfl⟩ := hd ts₁ h₁
    obtain ⟨dy, rfl, rfl⟩ := hdy ts₂ h₂
    obtain ⟨dn, rfl, rfl⟩ := hdn ts₃ h₃
    exact ⟨.conditional d question dy colon dn, rfl, rfl⟩

/-! ### Lists and hashes -/

theorem parenthesized {a : Expr} (h : Spells .expr cs a) : Spells .primary ('(' :: cs ++ [')']) a :=
  bracketed .parenthesized (fun _ _ _ => rfl) (fun _ _ _ hv => hv) rfl rfl (by decide) h

theorem computed {a : Expr} (h : Spells .expr cs a) : Spells .key ('(' :: cs ++ [')']) a :=
  bracketed .computed (fun _ _ _ => rfl) (fun _ _ _ hv => hv) rfl rfl (by decide) h

theorem list {vs : List Expr} (h : Spells .items cs fun i => Expr.numbered i vs) :
    Spells .primary ('[' :: cs ++ [']']) (.array (Expr.numbered 0 vs) 0) := by
  refine bracketed .list (fun _ _ _ => rfl) (fun _ _ _ hv => ?_) rfl rfl (by decide) h
  exact congrArg (Expr.array · 0) (congrFun hv 0)

theorem hash {es : Elements} (h : Spells .entries cs es) :
    Spells .primary ('\x7b' :: cs ++ ['\x7d']) (.array es 0) :=
  bracketed .hash (fun _ _ _ => rfl) (fun _ _ _ hv => congrArg (Expr.array · 0) hv) rfl
    rfl (by decide) h

theorem someArguments {as : List Expr} (h : Spells .expressions cs as) :
    Spells .arguments ('(' :: cs ++ [')']) as :=
  bracketed .someArguments (fun _ _ _ => rfl) (fun _ _ _ hv => hv) rfl rfl (by decide) h

theorem lastExpression {a : Expr} (h : Spells .expr cs a) : Spells .expressions cs [a] :=
  only .lastExpression (fun _ => rfl) (fun _ hv => congrArg (fun e => [e]) hv) h

theorem expressions {a : Expr} {as : List Expr} (h : Spells .expr cs a)
    (hs : Spells .expressions ds as) : Spells .expressions (cs ++ ',' :: ' ' :: ds) (a :: as) :=
  separated .expression (fun _ _ _ => rfl) (fun _ _ _ hv hvs => congrArg₂ List.cons hv hvs) rfl
    (by decide) h hs

theorem lastItem {v : Expr} (h : Spells .expr cs v) :
    Spells .items cs fun i => Expr.numbered i [v] := by
  refine only .lastItem (fun _ => rfl) (fun _ hv => ?_) h
  subst hv
  rfl

theorem item {v : Expr} {vs : List Expr} (h : Spells .expr cs v)
    (hs : Spells .items ds fun i => Expr.numbered i vs) :
    Spells .items (cs ++ ',' :: ' ' :: ds) fun i => Expr.numbered i (v :: vs) := by
  refine separated .item (fun _ _ _ => rfl) (fun d _ d' hv hvs => ?_) rfl (by decide) h hs
  subst hv
  funext i
  exact congrArg _ (congrFun hvs (i + 1))

theorem lastEntry {k v : Expr} (hk : Spells .key cs k) (hv : Spells .expr ds v) :
    Spells .entries (cs ++ ':' :: ' ' :: ds) ([(k, v)] : Elements) := by
  refine separated .lastEntry (fun _ _ _ => rfl) (fun _ _ _ hk hv => ?_) rfl (by decide) hk hv
  subst hk hv
  rfl

theorem entry {k v : Expr} {es : Elements} (hk : Spells .key cs k) (hv : Spells .expr ds v)
    (hs : Spells .entries zs es) :
    Spells .entries (cs ++ ':' :: ' ' :: ds ++ ',' :: ' ' :: zs) ((k, v) :: es) := by
  obtain ⟨xs, hxs, hd⟩ := hk
  obtain ⟨ys, hys, hd'⟩ := hv
  obtain ⟨ws, hws, hds⟩ := hs
  refine ⟨xs ++ .punct ':' :: (ys ++ .punct ',' :: ws), ?_, fun us hus => ?_⟩
  · have hrest := LexedAs.punct_append (c := ',') rfl hws.space_append
    have hvalue := (hys.append (fun _ _ => ends_cons _ (by decide)) hrest).space_append
    have hkey :=
      hxs.append (fun _ _ => ends_cons _ (by decide)) (LexedAs.punct_append (c := ':') rfl hvalue)
    rwa [List.append_assoc, List.cons_append, List.cons_append]
  · obtain ⟨ts₁, us₁, colon, rfl, h₁, hus₁⟩ := exists_terminal hus
    obtain ⟨ts₂, ts₃, comma, rfl, h₂, h₃⟩ := exists_terminal hus₁
    obtain ⟨d, rfl, rfl⟩ := hd ts₁ h₁
    obtain ⟨d', rfl, rfl⟩ := hd' ts₂ h₂
    obtain ⟨rest, rfl, rfl⟩ := hds ts₃ h₃
    exact ⟨.entry d colon d' comma rest, rfl, rfl⟩

end Spells

/-! ### The text of every expression -/

namespace Expr

/-- The text of an expression spells what is read back from it, and if it is no operator, also where
an operand stands. -/
structure Spelt (e : Expr) : Prop where
  whole : Spells .expr e.chars e.readBack
  operand : e.isOpen = false → Spells (.chain operandLevel) e.chars e.readBack

theorem Spelt.ofOperand {e : Expr} (h : Spells (.chain operandLevel) e.chars e.readBack) :
    e.Spelt :=
  ⟨Spells.ofChain h, fun _ => h⟩

theorem Spelt.ofOpen {e : Expr} (h : Spells .expr e.chars e.readBack) (hopen : e.isOpen = true) :
    e.Spelt :=
  ⟨h, fun hclosed => absurd hopen (Bool.not_eq_true _ ▸ hclosed)⟩

/-- Operators are put in parentheses where an operand stands. -/
theorem Spelt.closed {e : Expr} (h : e.Spelt) :
    Spells (.chain operandLevel) (parenthesizedIf e.isOpen e.chars) e.readBack := by
  cases hopen : e.isOpen with
  | true => exact Spells.ofPrimary (Spells.parenthesized h.whole)
  | false => exact h.operand hopen

/-- A token that stands for a literal, and in the place of a key for the key that is read. -/
theorem spells_of_lexeme {v : Literal} {x : Lexeme} (hlex : LexedAs v.chars [x])
    (hatom : ∀ t : Token, t.lexeme = x → atom? t = some (.const v t.line))
    (hkey : ∀ t : Token, t.lexeme = x → keyAtom? t = some (.const (literalKey v) t.line)) :
    Spells .primary v.chars (.const v 0) ∧ Spells .key v.chars (.const (literalKey v) 0) :=
  ⟨Spells.token hlex fun t ht => ⟨.atom t _ (hatom t ht), rfl, rfl⟩,
    Spells.token hlex fun t ht => ⟨.word t _ (hkey t ht), rfl, rfl⟩⟩

theorem spells_literal {v : Literal} {l : Nat} (h : (const v l).Writable) :
    Spells .primary v.chars (.const v 0) ∧ Spells .key v.chars (.const (literalKey v) 0) := by
  cases v with
  | string s =>
    have hlex := LexedAs.quoted s.toList
    rw [String.ofList_toList] at hlex
    exact spells_of_lexeme hlex (fun t ht => by rw [atom?, ht])
      fun t ht => by rw [keyAtom?, ht]; rfl
  | number x =>
    have hlex := LexedAs.number (Double.isNumeral_labelChars h.1 h.2)
    exact spells_of_lexeme hlex (fun t ht => by rw [atom?, ht])
      fun t ht => by rw [keyAtom?, ht]; rfl
  | bool b =>
    cases b with
    | true =>
      exact spells_of_lexeme (LexedAs.keyword .true) (fun t ht => by rw [atom?, ht]) fun t ht => by
        rw [keyAtom?, ht]; rfl
    | false =>
      exact spells_of_lexeme (LexedAs.keyword .false) (fun t ht => by rw [atom?, ht]) fun t ht => by
        rw [keyAtom?, ht]; rfl
  | null =>
    exact spells_of_lexeme (LexedAs.keyword .null) (fun t ht => by rw [atom?, ht]) fun t ht => by
      rw [keyAtom?, ht]; rfl

theorem spells_name {x : String} (h : IsName x) : Spells .primary x.toList (.name x 0) :=
  Spells.token (LexedAs.ident h.1 h.2) fun t ht =>
    ⟨.atom t (.name x t.line) (by rw [atom?, ht]), rfl, rfl⟩

theorem commaSeparated_singleton (cs : List Char) : commaSeparated [cs] = cs :=
  List.intercalate_singleton

theorem commaSeparated_cons_cons (cs ds : List Char) (parts : List (List Char)) :
    commaSeparated (cs :: ds :: parts) = cs ++ ',' :: ' ' :: commaSeparated (ds :: parts) := by
  unfold commaSeparated
  rw [List.intercalate_cons_cons, List.append_assoc, List.cons_append, List.singleton_append]

theorem spells_list {as : List Expr} (hne : as ≠ []) (h : ∀ a ∈ as, a.Spelt) :
    Spells .expressions (commaSeparated (charsOfList as)) (readBackList as) := by
  induction as with
  | nil => exact absurd rfl hne
  | cons a as ih =>
    rw [List.forall_mem_cons] at h
    cases as with
    | nil =>
      rw [charsOfList, charsOfList, commaSeparated_singleton]
      exact Spells.lastExpression h.1.whole
    | cons b bs =>
      rw [charsOfList, charsOfList, commaSeparated_cons_cons]
      exact Spells.expressions h.1.whole (ih (List.cons_ne_nil _ _) h.2)

theorem spells_values {es : List (Expr × Expr)} (h : ∀ p ∈ es, p.2.Spelt) :
    Spells .items (commaSeparated (charsOfValues es)) fun i => numbered i (readBackValues es) := by
  induction es with
  | nil => exact Spells.empty .noItem rfl rfl
  | cons p es ih =>
    obtain ⟨k, v⟩ := p
    rw [List.forall_mem_cons] at h
    cases es with
    | nil =>
      rw [charsOfValues, charsOfValues, commaSeparated_singleton]
      exact Spells.lastItem h.1.whole
    | cons q es =>
      obtain ⟨k', v'⟩ := q
      rw [charsOfValues, charsOfValues, commaSeparated_cons_cons]
      exact Spells.item h.1.whole (ih h.2)

theorem spells_key {k : Expr} (h : k.Spelt) (hk : k.Writable) :
    Spells .key (parenthesizedIf (!k.isConst) k.chars) k.readBack.asKey := by
  cases hconst : k.isConst with
  | true =>
    cases k with
    | const v l => exact (spells_literal hk).2
    | _ => cases hconst
  | false =>
    rw [asKey_of_isConst ((isConst_readBack k).trans hconst)]
    exact Spells.computed h.whole

theorem spells_entries {es : List (Expr × Expr)} (hkeys : ∀ p ∈ es, p.1.Writable)
    (h : ∀ p ∈ es, p.1.Spelt ∧ p.2.Spelt) :
    Spells .entries (commaSeparated (charsOfEntries es)) (readBackEntries es) := by
  induction es with
  | nil => exact Spells.empty .noEntry rfl rfl
  | cons p es ih =>
    obtain ⟨k, v⟩ := p
    rw [List.forall_mem_cons] at h hkeys
    have hkey := spells_key h.1.1 hkeys.1
    cases es with
    | nil =>
      rw [charsOfEntries, charsOfEntries, commaSeparated_singleton]
      exact Spells.lastEntry hkey h.1.2.whole
    | cons q es =>
      obtain ⟨k', v'⟩ := q
      rw [charsOfEntries, charsOfEntries, commaSeparated_cons_cons]
      exact Spells.entry hkey h.1.2.whole (ih hkeys.2 h.2)

/-- The arguments of a filter as they are written: without any there are no parentheses. -/
def argumentChars (as : List Expr) : List Char :=
  if as.isEmpty then [] else '(' :: commaSeparated (charsOfList as) ++ [')']

theorem spells_arguments {as : List Expr} (h : ∀ a ∈ as, a.Spelt) :
    Spells .arguments (argumentChars as) (readBackList as) := by
  cases as with
  | nil => exact Spells.empty .bare rfl rfl
  | cons a as => exact Spells.someArguments (spells_list (List.cons_ne_nil a as) h)

/-- Arguments end a name in front of them. -/
theorem ends_arguments (as : List Expr) (rest : List Char) (h : Ends rest) :
    Ends (argumentChars as ++ rest) := by
  cases as with
  | nil => exact h
  | cons a as => exact ends_cons _ (by decide)

theorem chars_list {es : List (Expr × Expr)} (h : Elements.isList es = true) (l : Nat) :
    (array es l).chars = '[' :: commaSeparated (charsOfValues es) ++ [']'] := if_pos h

theorem chars_hash {es : List (Expr × Expr)} (h : ¬Elements.isList es = true) (l : Nat) :
    (array es l).chars = '\x7b' :: commaSeparated (charsOfEntries es) ++ ['\x7d'] := if_neg h

theorem chars_filter (e : Expr) (x : String) (as : List Expr) (l : Nat) :
    (filter e x as l).chars = parenthesizedIf e.isOpen e.chars ++
      '|' :: (x.toList ++ argumentChars as) :=
  List.append_assoc ..

theorem chars_cond (t y n : Expr) (l : Nat) :
    (cond t y n l).chars = parenthesizedIf t.isOpen t.chars ++ " ? ".toList ++ y.chars ++
      " : ".toList ++ n.chars := rfl

theorem chars_binary (op : BinOp) (a b : Expr) (l : Nat) :
    (binary op a b l).chars =
      parenthesizedIf a.isOpen a.chars ++ ' ' ::
      (op.text.toList ++ ' ' :: parenthesizedIf b.isOpen b.chars) :=
  List.append_assoc ..

theorem spells (e : Expr) (h : e.Printable) : e.Spelt := by
  induction e using children_induction with
  | step e ih =>
    have hspelt : ∀ c ∈ e.children, c.Spelt := fun c hc => ih c hc (h.child hc)
    cases e with
    | const v l => exact Spelt.ofOperand (Spells.ofPrimary (spells_literal h.writable).1)
    | name x l =>
      have hx : IsName x := h.writable
      exact Spelt.ofOperand (Spells.ofPrimary (spells_name hx))
    | array es l =>
      have hboth : ∀ p ∈ es, p.1.Spelt ∧ p.2.Spelt := forall_children_array.1 hspelt
      have hchildren : ∀ c ∈ (array es l).children, c.Writable := fun c hc => (h.child hc).writable
      have hkeys : ∀ p ∈ es, p.1.Writable := fun p hp => (forall_children_array.1 hchildren p hp).1
      refine Spelt.ofOperand (Spells.ofPrimary ?_)
      by_cases hlist : Elements.isList es
      · rw [chars_list hlist, readBack, if_pos hlist]
        exact Spells.list (spells_values fun p hp => (hboth p hp).2)
      · rw [chars_hash hlist, readBack, if_neg hlist]
        exact Spells.hash (spells_entries hkeys hboth)
    | filter e x as l =>
      obtain ⟨he, has⟩ := List.forall_mem_cons.1 hspelt
      have hx : IsName x := h.writable
      refine Spelt.ofOperand ?_
      rw [chars_filter, readBack]
      exact Spells.filter hx he.closed (ends_arguments as) (spells_arguments has)
    | cond t y n l =>
      have ht := hspelt t (by simp [children])
      have hy := hspelt y (by simp [children])
      have hn := hspelt n (by simp [children])
      refine Spelt.ofOpen ?_ rfl
      rw [chars_cond, readBack]
      exact Spells.conditional (Spells.ofTighter (Nat.zero_le _) (Nat.le_refl _) ht.closed)
        hy.whole hn.whole
    | binary op a b l =>
      have ha := hspelt a (by simp [children])
      have hb := hspelt b (by simp [children])
      refine Spelt.ofOpen (Spells.only .plain (fun _ => rfl) (fun _ hv => hv) ?_) rfl
      rw [chars_binary, readBack]
      exact Spells.binary op ha.closed hb.closed
    | choice es k l => exact h.writable.elim

/-- The text of an expression is read, and as what it says. -/
theorem exists_parse_text {e : Expr} (h : e.Printable) (line : Nat) :
    ∃ m, Expr.parse e.text line = .ok m ∧ m.unlined = e.readBack := by
  obtain ⟨xs, hxs, hd⟩ := (spells e h).whole
  obtain ⟨d, hyield, hmeaning⟩ := hd _ (hxs.toLexes line 0)
  have htokens : Token.ofText e.text line = d.yield := by
    unfold Token.ofText text
    rw [String.toList_ofList, hyield]
  exact ⟨d.tree, parse_of_derivation d htokens.symm, hmeaning⟩

/-- **The parser reads what the printer writes.**  The text of a printable expression is accepted on
every line, and the outcome is the same expression up to lines exactly if no hash in it has a
boolean or null constant among its keys, which would come back as a string.  A list must not outgrow
the numbers that its indices are counted with either; no list that fits into a memory does. -/
theorem parse_text (e : Expr) (h : e.Printable) (line : Nat) :
    ∃ m, Expr.parse e.text line = .ok m ∧
      (m.unlined = e.unlined ↔ ∀ es l, Expr.array es l ∈ e.nodes →
        (Elements.isList es = false → ∀ p ∈ es, p.1.isBareWord = false) ∧
          (Elements.isList es = true → es.length ≤ 2 ^ 53 + 2)) := by
  obtain ⟨m, hparse, hm⟩ := exists_parse_text h line
  refine ⟨m, hparse, ?_⟩
  rw [hm, readBack_eq_unlined_iff h]
  constructor
  · intro hkeeps es l hes
    exact hkeeps (array es l) hes
  · intro hkeeps a ha
    cases a with
    | array es l => exact hkeeps es l ha
    | _ => trivial

/-- A conditional that stands where an operand stands, a filter applied to it, and a hash with a key
that is no literal. -/
theorem parse_text_filtered_conditional :
    let e : Expr := .filter
      (.cond (.binary .equal (.name "count" 3) (.number (.ofNat 1) 3) 3) (.string "it's" 3)
        (.name "other" 4) 3) "trans"
      [.array [(.name "key" 4, .array [(.number (.ofNat 0) 4, .const .null 4)] 4)] 4] 4
    e.Printable ∧ ∃ m, Expr.parse e.text 1 = .ok m ∧ m.unlined = e.unlined := by
  intro e
  have hprintable : e.Printable := by decide +kernel
  obtain ⟨m, hparse, hiff⟩ := parse_text e hprintable 1
  refine ⟨hprintable, m, hparse, hiff.2 fun es l hes => ?_⟩
  have hkeeps : ∀ a ∈ e.nodes, a.KeepsKeys := by decide +kernel
  exact hkeeps (array es l) hes

end Expr

end Phrasebook
