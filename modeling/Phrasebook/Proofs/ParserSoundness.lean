import Phrasebook.Proofs.ExactNumbers
import Phrasebook.Proofs.Grammar

/-!
# The parser reads derivations

* `Parse.Sound` : whatever the functions of the parser return stands for a derivation of the tokens
  they took, and with a large enough bound they refuse nothing for want of depth;
* `Parse.sound` : this is so for every bound.
-/

namespace Phrasebook

open Grammar Outcome

namespace Parse

/-! ### Punctuation -/

theorem punct?_eq_some {c : Char} {ts rest : List Token} :
    punct? c ts = some rest ↔ ∃ t : Terminal (.punct c), ts = t.1 :: rest := by
  cases ts with
  | nil => simp [punct?]
  | cons t ts =>
    rw [punct?]
    by_cases ht : t.lexeme = .punct c
    · rw [if_pos ht]
      constructor
      · rintro ⟨⟩
        exact ⟨⟨t, ht⟩, rfl⟩
      · rintro ⟨t', h⟩
        cases h
        rfl
    · rw [if_neg ht]
      constructor
      · rintro ⟨⟩
      · rintro ⟨t', h⟩
        cases h
        exact absurd t'.2 ht

/-- A refusal that is not for want of depth, where there is enough of it. -/
def Founded (enough : Prop) (f : Refusal) : Prop := enough → f.cause ≠ .tooDeep

theorem meets_expect (endLine : Nat) (c : Char) (ts : List Token) (enough : Prop) :
    Meets (fun rest => ∃ t : Terminal (.punct c), ts = t.1 :: rest) (Founded enough)
      (expect endLine c ts) := by
  unfold expect
  split
  · next rest h => exact punct?_eq_some.1 h
  · exact fun _ => nofun

/-! ### Parts of the functions -/

section Parts

variable (endLine n : Nat)

/-- The arguments of a filter, if there is an opening parenthesis. -/
def optionalArgs (ts : List Token) : Except Refusal (List Expr × List Token) :=
  match punct? '(' ts with
  | some rest => args endLine n rest
  | none => .ok ([], ts)

/-- The rest of a list after the entries `es`: its end, or more values. -/
def listRest (es : Elements) (ts : List Token) : Except Refusal (Elements × List Token) :=
  match punct? ']' ts with
  | some rest => .ok (es, rest)
  | none => listFrom endLine n es ts

/-- The rest of a hash after the entries `es`: its end, or more entries. -/
def hashRest (es : Elements) (ts : List Token) : Except Refusal (Elements × List Token) :=
  match punct? '\x7d' ts with
  | some rest => .ok (es, rest)
  | none => hashFrom endLine n es ts

theorem filters_bar (operand : Expr) (bar : Terminal (.operator .bar)) {x : String}
    (name : Terminal (.ident x)) (ts : List Token) :
    filters endLine (n + 1) operand (bar.1 :: name.1 :: ts) =
      optionalArgs endLine n ts >>= fun p =>
        filters endLine n (.filter operand x p.1 bar.1.line) p.2 := by
  obtain ⟨⟨b, start, stop, line⟩, hb⟩ := bar
  obtain ⟨⟨y, start', stop', line'⟩, hy⟩ := name
  obtain rfl : b = .operator .bar := hb
  obtain rfl : y = .ident x := hy
  rw [filters, optionalArgs]
  cases punct? '(' ts <;> rfl

theorem listFrom_succ (es : Elements) (ts : List Token) : listFrom endLine (n + 1) es ts =
    expr endLine n ts >>= fun p =>
      match punct? ']' p.2 with
      | some rest => .ok (es.add p.1 none, rest)
      | none => expect endLine ',' p.2 >>= listRest endLine n (es.add p.1 none) := by
  rw [listFrom]
  rfl

theorem hashFrom_succ (es : Elements) (ts : List Token) : hashFrom endLine (n + 1) es ts =
    key endLine n ts >>= fun k => expect endLine ':' k.2 >>= fun rest =>
    expr endLine n rest >>= fun p =>
      match punct? '\x7d' p.2 with
      | some rest => .ok (es.add p.1 (some k.1), rest)
      | none => expect endLine ',' p.2 >>= hashRest endLine n (es.add p.1 (some k.1)) := by
  rw [hashFrom]
  rfl

theorem primary_list (o : Terminal (.punct '[')) (ts : List Token) :
    primary endLine (n + 1) (o.1 :: ts) =
    listRest endLine n [] ts >>= fun p => .ok (.array p.1 o.1.line, p.2) := by
  rw [primary, o.2, listRest]
  cases punct? ']' ts <;> rfl

theorem primary_hash (o : Terminal (.punct '\x7b')) (ts : List Token) :
    primary endLine (n + 1) (o.1 :: ts) =
    hashRest endLine n [] ts >>= fun p => .ok (.array p.1 o.1.line, p.2) := by
  rw [primary, o.2, hashRest]
  cases punct? '\x7d' ts <;> rfl

theorem primary_parenthesis (o : Terminal (.punct '(')) (ts : List Token) :
    primary endLine (n + 1) (o.1 :: ts) =
    expr endLine n ts >>= fun p => expect endLine ')' p.2 >>= fun rest => .ok (p.1, rest) := by
  rw [primary, o.2]
  rfl

theorem key_parenthesis (o : Terminal (.punct '(')) (ts : List Token) :
    key endLine (n + 1) (o.1 :: ts) =
    expr endLine n ts >>= fun p => expect endLine ')' p.2 >>= fun rest => .ok (p.1, rest) := by
  rw [key, o.2]
  rfl

theorem primary_atom {t : Token} {e : Expr} (h : atom? t = some e) (ts : List Token) :
    primary endLine (n + 1) (t :: ts) = .ok (e, ts) := by
  rw [primary]
  cases hx : t.lexeme with
  | keyword k =>
    rw [atom?_keyword hx] at h
    obtain ⟨v, hv, rfl⟩ := Option.map_eq_some_iff.1 h
    simp only [hv]
  | string | number | ident =>
    simp only [atom?, hx, Option.some.injEq] at h
    subst h
    rfl
  | operator | punct | fault => simp [atom?, hx] at h

theorem key_word {t : Token} {e : Expr} (h : keyAtom? t = some e) (ts : List Token) :
    key endLine (n + 1) (t :: ts) = .ok (e, ts) := by
  unfold keyAtom? at h
  rw [key]
  split at h
  · next hx => cases h; rw [hx]
  · next hx => cases h; rw [hx]
  · next hx => cases h; rw [hx]
  · next hx => cases h; rw [hx]
  · cases h

end Parts

/-! ### What each function reads -/

/-- A value that is added to a list takes the next index as its key. -/
theorem add_none_eq {es : Elements} {i : Nat} (hi : es.nextIndex = min i (2 ^ 53 + 1)) (e : Expr) :
    es.add e none = es ++ [(.number (indexKey i) e.line, e)] := by
  unfold Elements.add indexKey
  rw [hi, Elements.ofNat_min_succ_top]
  rfl

/-- Values that are added to a list one after another stand in their order. -/
theorem add_none_append {es : Elements} {i : Nat} (hi : es.nextIndex = min i (2 ^ 53 + 1))
    (e : Expr) (more : Elements) :
    es.add e none ++ more = es ++ (.number (indexKey i) e.line, e) :: more := by
  rw [add_none_eq hi, List.append_assoc, List.singleton_append]

/-- Whatever the functions of the parser return stands for a derivation of the tokens they took.  If
the bound `n` is large enough for the tokens, nothing is refused for want of depth. -/
structure Sound (endLine n : Nat) : Prop where
  expr : ∀ ts, Meets (fun p => ∃ d : Derivation .expr, ts = d.yield ++ p.2 ∧ d.meaning = p.1)
    (Founded (10 * ts.length + 7 ≤ n)) (Parse.expr endLine n ts)
  chain : ∀ level ts, Meets (fun p => ∃ d : Derivation (.chain level), ts = d.yield ++ p.2 ∧
      d.meaning = p.1)
    (Founded (10 * ts.length + 2 + (4 - level) ≤ n)) (Parse.chain endLine n level ts)
  operators : ∀ level left ts,
    Meets (fun p => ∃ d : Derivation (.operators level), ts = d.yield ++ p.2 ∧ d.meaning left = p.1)
      (Founded (10 * ts.length + 1 ≤ n)) (Parse.operators endLine n level left ts)
  filters : ∀ operand ts, Meets (fun p => ∃ d : Derivation .filters, ts = d.yield ++ p.2 ∧
      d.meaning operand = p.1)
    (Founded (10 * ts.length + 1 ≤ n)) (Parse.filters endLine n operand ts)
  args : ∀ (o : Terminal (.punct '(')) ts,
    Meets (fun p => ∃ d : Derivation .arguments, o.1 :: ts = d.yield ++ p.2 ∧ d.meaning = p.1)
      (Founded (10 * ts.length + 9 ≤ n)) (Parse.args endLine n ts)
  argsFrom : ∀ ts, Meets (fun p => ∃ (d : Derivation .expressions) (c : Terminal (.punct ')')),
      ts = d.yield ++ c.1 :: p.2 ∧ d.meaning = p.1)
    (Founded (10 * ts.length + 8 ≤ n)) (Parse.argsFrom endLine n ts)
  primary : ∀ ts, Meets (fun p => ∃ d : Derivation .primary, ts = d.yield ++ p.2 ∧ d.meaning = p.1)
    (Founded (10 * ts.length + 1 ≤ n)) (Parse.primary endLine n ts)
  listFrom : ∀ es i ts, Elements.nextIndex es = min i (2 ^ 53 + 1) →
    Meets (fun p => ∃ (d : Derivation .items) (c : Terminal (.punct ']')),
        ts = d.yield ++ c.1 :: p.2 ∧ es ++ d.meaning i = p.1)
      (Founded (10 * ts.length + 8 ≤ n)) (Parse.listFrom endLine n es ts)
  hashFrom : ∀ es ts, Meets (fun p => ∃ (d : Derivation .entries) (c : Terminal (.punct '\x7d')),
      ts = d.yield ++ c.1 :: p.2 ∧ es ++ d.elements = p.1)
    (Founded (10 * ts.length + 2 ≤ n)) (Parse.hashFrom endLine n es ts)
  key : ∀ ts, Meets (fun p => ∃ d : Derivation .key, ts = d.yield ++ p.2 ∧ d.meaning = p.1)
    (Founded (10 * ts.length + 1 ≤ n)) (Parse.key endLine n ts)

namespace Sound

variable {endLine n : Nat}

theorem zero (endLine : Nat) : Sound endLine 0 := by
  constructor <;> intros <;> exact fun h => absurd h (by omega)

theorem expr_succ (h : Sound endLine n) (ts : List Token) :
    Meets (fun p => ∃ d : Derivation .expr, ts = d.yield ++ p.2 ∧ d.meaning = p.1)
      (Founded (10 * ts.length + 7 ≤ n + 1)) (Parse.expr endLine (n + 1) ts) := by
  rw [Parse.expr]
  refine ((h.chain 0 ts).mono (fun _ hp => hp) fun f hf hn => hf (by omega)).bind ?_
  rintro ⟨test, rest⟩ ⟨d, rfl, rfl⟩
  have hpos := d.length_yield_pos rfl
  rw [d.lineAt_yield rfl]
  simp only [List.length_append]
  split
  · next start stop line rest =>
    rw [List.length_cons]
    refine ((h.expr rest).mono (fun _ hp => hp) fun f hf hn => hf (by omega)).bind ?_
    rintro ⟨yes, rest₁⟩ ⟨y, rfl, rfl⟩
    refine (meets_expect endLine ':' rest₁ _).bind ?_
    rintro rest₂ ⟨colon, rfl⟩
    simp only [List.length_append, List.length_cons]
    refine ((h.expr rest₂).mono (fun _ hp => hp) fun f hf hn => hf (by omega)).bind ?_
    rintro ⟨no, rest₃⟩ ⟨z, rfl, rfl⟩
    refine ⟨.conditional d ⟨⟨.operator .question, start, stop, line⟩, rfl⟩ y colon z, ?_, rfl⟩
    simp
  · exact ⟨.plain d, rfl, rfl⟩

theorem chain_succ (h : Sound endLine n) (level : Nat) (ts : List Token) :
    Meets (fun p => ∃ d : Derivation (.chain level), ts = d.yield ++ p.2 ∧ d.meaning = p.1)
      (Founded (10 * ts.length + 2 + (4 - level) ≤ n + 1))
        (Parse.chain endLine (n + 1) level ts) := by
  rw [Parse.chain]
  split
  · next hlevel =>
    have hlt : level < 4 := hlevel
    refine ((h.chain (level + 1) ts).mono (fun _ hp => hp) fun f hf hn => hf (by omega)).bind ?_
    rintro ⟨left, rest⟩ ⟨d, rfl, rfl⟩
    have hpos := d.length_yield_pos rfl
    simp only [List.length_append]
    refine (h.operators level d.meaning rest).mono ?_ fun f hf hn => hf (by omega)
    rintro ⟨e, rest'⟩ ⟨o, rfl, rfl⟩
    exact ⟨.binary hlevel d o, by simp, rfl⟩
  · next hlevel =>
    refine ((h.primary ts).mono (fun _ hp => hp) fun f hf hn => hf (by omega)).bind ?_
    rintro ⟨operand, rest⟩ ⟨d, rfl, rfl⟩
    have hpos := d.length_yield_pos rfl
    simp only [List.length_append]
    refine (h.filters d.meaning rest).mono ?_ fun f hf hn => hf (by omega)
    rintro ⟨e, rest'⟩ ⟨o, rfl, rfl⟩
    exact ⟨.post hlevel d o, by simp, rfl⟩

theorem operators_succ (h : Sound endLine n) (level : Nat) (left : Expr) (ts : List Token) :
    Meets (fun p => ∃ d : Derivation (.operators level), ts = d.yield ++ p.2 ∧ d.meaning left = p.1)
      (Founded (10 * ts.length + 1 ≤ n + 1)) (Parse.operators endLine (n + 1) level left ts) := by
  cases ts with
  | nil => exact ⟨.noOperator, rfl, rfl⟩
  | cons t ts =>
    rw [Parse.operators]
    split
    · exact ⟨.noOperator, rfl, rfl⟩
    · next op hop =>
      split
      · next hlevel =>
        rw [List.length_cons]
        refine ((h.chain (level + 1) ts).mono (fun _ hp => hp) fun f hf hn => hf (by omega)).bind ?_
        rintro ⟨right, rest⟩ ⟨d, rfl, rfl⟩
        simp only [List.length_append]
        refine (h.operators level _ rest).mono ?_ fun f hf hn => hf (by omega)
        rintro ⟨e, rest'⟩ ⟨o, rfl, rfl⟩
        exact ⟨.operator op t (sign_iff.2 ⟨hop, hlevel⟩) d o, by simp, rfl⟩
      · exact ⟨.noOperator, rfl, rfl⟩

/-- The arguments of a filter are read whether there are any or not. -/
theorem optionalArgs (h : Sound endLine n) (ts : List Token) :
    Meets (fun p => ∃ d : Derivation .arguments, ts = d.yield ++ p.2 ∧ d.meaning = p.1)
      (Founded (10 * ts.length ≤ n)) (Parse.optionalArgs endLine n ts) := by
  unfold Parse.optionalArgs
  split
  · next rest hrest =>
    obtain ⟨o, rfl⟩ := punct?_eq_some.1 hrest
    rw [List.length_cons]
    exact (h.args o rest).mono (fun _ hp => hp) fun f hf hn => hf (by omega)
  · exact ⟨.bare, rfl, rfl⟩

theorem filters_succ (h : Sound endLine n) (operand : Expr) (ts : List Token) :
    Meets (fun p => ∃ d : Derivation .filters, ts = d.yield ++ p.2 ∧ d.meaning operand = p.1)
      (Founded (10 * ts.length + 1 ≤ n + 1)) (Parse.filters endLine (n + 1) operand ts) := by
  rw [Parse.filters.eq_def]
  dsimp only
  split
  · next start stop line x start' stop' line' ts =>
    have hbar := filters_bar endLine n operand ⟨⟨.operator .bar, start, stop, line⟩, rfl⟩
      (⟨⟨.ident x, start', stop', line'⟩, rfl⟩ : Terminal (.ident x)) ts
    rw [Parse.filters] at hbar
    rw [hbar, List.length_cons, List.length_cons]
    refine ((h.optionalArgs ts).mono (fun _ hp => hp) fun f hf hn => hf (by omega)).bind ?_
    rintro ⟨args, rest⟩ ⟨d, rfl, rfl⟩
    simp only [List.length_append]
    refine (h.filters _ rest).mono ?_ fun f hf hn => hf (by omega)
    rintro ⟨e, rest'⟩ ⟨o, rfl, rfl⟩
    exact ⟨.filter ⟨⟨.operator .bar, start, stop, line⟩, rfl⟩ x
      ⟨⟨.ident x, start', stop', line'⟩, rfl⟩ d o, by simp, rfl⟩
  · exact fun _ h => by cases h
  · exact ⟨.noFilter, rfl, rfl⟩

theorem args_succ (h : Sound endLine n) (o : Terminal (.punct '(')) (ts : List Token) :
    Meets (fun p => ∃ d : Derivation .arguments, o.1 :: ts = d.yield ++ p.2 ∧ d.meaning = p.1)
      (Founded (10 * ts.length + 9 ≤ n + 1)) (Parse.args endLine (n + 1) ts) := by
  rw [Parse.args]
  split
  · next rest hrest =>
    obtain ⟨c, rfl⟩ := punct?_eq_some.1 hrest
    exact ⟨.noArgument o c, rfl, rfl⟩
  · refine (h.argsFrom ts).mono ?_ fun f hf hn => hf (by omega)
    rintro ⟨args, rest⟩ ⟨d, c, rfl, rfl⟩
    exact ⟨.someArguments o d c, by simp, rfl⟩

theorem argsFrom_succ (h : Sound endLine n) (ts : List Token) :
    Meets (fun p => ∃ (d : Derivation .expressions) (c : Terminal (.punct ')')),
        ts = d.yield ++ c.1 :: p.2 ∧ d.meaning = p.1)
      (Founded (10 * ts.length + 8 ≤ n + 1)) (Parse.argsFrom endLine (n + 1) ts) := by
  rw [Parse.argsFrom]
  refine ((h.expr ts).mono (fun _ hp => hp) fun f hf hn => hf (by omega)).bind ?_
  rintro ⟨arg, rest⟩ ⟨d, rfl, rfl⟩
  dsimp only
  split
  · next rest' hrest =>
    obtain ⟨comma, rfl⟩ := punct?_eq_some.1 hrest
    simp only [List.length_append, List.length_cons]
    refine ((h.argsFrom rest').mono (fun _ hp => hp) fun f hf hn => hf (by omega)).bind ?_
    rintro ⟨args, rest⟩ ⟨a, c, rfl, rfl⟩
    exact ⟨.expression d comma a, c, by simp, rfl⟩
  · refine (meets_expect endLine ')' rest _).bind ?_
    rintro rest' ⟨c, rfl⟩
    exact ⟨.lastExpression d, c, rfl, rfl⟩

/-- The inside of parentheses and the closing one. -/
theorem parenthesized (h : Sound endLine n) (ts : List Token) :
    Meets (fun p => ∃ (d : Derivation .expr) (c : Terminal (.punct ')')),
        ts = d.yield ++ c.1 :: p.2 ∧ d.meaning = p.1)
      (Founded (10 * ts.length + 7 ≤ n))
      (Parse.expr endLine n ts >>= fun p => Parse.expect endLine ')' p.2 >>= fun rest =>
        .ok (p.1, rest)) := by
  refine (h.expr ts).bind ?_
  rintro ⟨e, rest⟩ ⟨d, rfl, rfl⟩
  refine (meets_expect endLine ')' rest _).bind ?_
  rintro rest' ⟨c, rfl⟩
  exact ⟨d, c, rfl, rfl⟩

theorem listRest (h : Sound endLine n) {es : Elements} {i : Nat}
    (hi : es.nextIndex = min i (2 ^ 53 + 1)) (ts : List Token) :
    Meets (fun p => ∃ (d : Derivation .items) (c : Terminal (.punct ']')),
        ts = d.yield ++ c.1 :: p.2 ∧ es ++ d.meaning i = p.1)
      (Founded (10 * ts.length + 8 ≤ n)) (Parse.listRest endLine n es ts) := by
  unfold Parse.listRest
  split
  · next rest hrest =>
    obtain ⟨c, rfl⟩ := punct?_eq_some.1 hrest
    exact ⟨.noItem, c, rfl, List.append_nil es⟩
  · exact h.listFrom es i ts hi

theorem hashRest (h : Sound endLine n) (es : Elements) (ts : List Token) :
    Meets (fun p => ∃ (d : Derivation .entries) (c : Terminal (.punct '\x7d')),
        ts = d.yield ++ c.1 :: p.2 ∧ es ++ d.elements = p.1)
      (Founded (10 * ts.length + 2 ≤ n)) (Parse.hashRest endLine n es ts) := by
  unfold Parse.hashRest
  split
  · next rest hrest =>
    obtain ⟨c, rfl⟩ := punct?_eq_some.1 hrest
    exact ⟨.noEntry, c, rfl, List.append_nil es⟩
  · exact h.hashFrom es ts

theorem primary_succ (h : Sound endLine n) (ts : List Token) :
    Meets (fun p => ∃ d : Derivation .primary, ts = d.yield ++ p.2 ∧ d.meaning = p.1)
      (Founded (10 * ts.length + 1 ≤ n + 1)) (Parse.primary endLine (n + 1) ts) := by
  cases ts with
  | nil => exact fun _ h => by cases h
  | cons t ts =>
    rw [List.length_cons]
    cases hatom : atom? t with
    | some e =>
      rw [primary_atom endLine n hatom]
      exact ⟨.atom t e hatom, rfl, rfl⟩
    | none =>
      by_cases hparenthesis : t.lexeme = .punct '('
      · rw [primary_parenthesis endLine n ⟨t, hparenthesis⟩]
        refine (h.parenthesized ts).mono ?_ fun f hf hn => hf (by omega)
        rintro ⟨e, rest⟩ ⟨d, c, rfl, rfl⟩
        exact ⟨.parenthesized ⟨t, hparenthesis⟩ d c, by simp, rfl⟩
      by_cases hbracket : t.lexeme = .punct '['
      · rw [primary_list endLine n ⟨t, hbracket⟩]
        refine ((h.listRest (i := 0) rfl ts).mono (fun _ hp => hp) fun f hf hn =>
          hf (by omega)).bind ?_
        rintro ⟨es, rest⟩ ⟨d, c, rfl, rfl⟩
        exact ⟨.list ⟨t, hbracket⟩ d c, by simp, rfl⟩
      by_cases hbrace : t.lexeme = .punct '\x7b'
      · rw [primary_hash endLine n ⟨t, hbrace⟩]
        refine ((h.hashRest [] ts).mono (fun _ hp => hp) fun f hf hn => hf (by omega)).bind ?_
        rintro ⟨es, rest⟩ ⟨d, c, rfl, rfl⟩
        exact ⟨.hash ⟨t, hbrace⟩ d c, by simp, rfl⟩
      rw [Parse.primary]
      split
      · next hx => simp [atom?, hx] at hatom
      · next hx => simp [atom?, hx] at hatom
      · next hx => simp [atom?, hx] at hatom
      · next k hx =>
        cases hk : keywordLiteral? k with
        | some v => simp [atom?_keyword hx, hk] at hatom
        | none => exact fun _ h => by cases h
      · next hx => exact absurd hx hparenthesis
      · next hx => exact absurd hx hbracket
      · next hx => exact absurd hx hbrace
      · exact fun _ h => by cases h

theorem listFrom_succ (h : Sound endLine n) (es : Elements) (i : Nat) (ts : List Token)
    (hi : es.nextIndex = min i (2 ^ 53 + 1)) :
    Meets (fun p => ∃ (d : Derivation .items) (c : Terminal (.punct ']')),
        ts = d.yield ++ c.1 :: p.2 ∧ es ++ d.meaning i = p.1)
      (Founded (10 * ts.length + 8 ≤ n + 1)) (Parse.listFrom endLine (n + 1) es ts) := by
  rw [Parse.listFrom_succ]
  refine ((h.expr ts).mono (fun _ hp => hp) fun f hf hn => hf (by omega)).bind ?_
  rintro ⟨e, rest⟩ ⟨d, rfl, rfl⟩
  dsimp only
  split
  · next rest' hrest =>
    obtain ⟨c, rfl⟩ := punct?_eq_some.1 hrest
    exact ⟨.lastItem d, c, rfl, (add_none_eq hi d.tree).symm⟩
  · refine (meets_expect endLine ',' rest _).bind ?_
    rintro rest' ⟨comma, rfl⟩
    simp only [List.length_append, List.length_cons]
    refine (h.listRest (Elements.nextIndex_add hi d.meaning) rest').mono ?_
      fun f hf hn => hf (by omega)
    rintro ⟨es', rest''⟩ ⟨items, c, rfl, rfl⟩
    exact ⟨.item d comma items,
      c, by simp, (add_none_append hi d.tree (items.meaning (i + 1))).symm⟩

theorem hashFrom_succ (h : Sound endLine n) (es : Elements) (ts : List Token) :
    Meets (fun p => ∃ (d : Derivation .entries) (c : Terminal (.punct '\x7d')),
        ts = d.yield ++ c.1 :: p.2 ∧ es ++ d.elements = p.1)
      (Founded (10 * ts.length + 2 ≤ n + 1)) (Parse.hashFrom endLine (n + 1) es ts) := by
  rw [Parse.hashFrom_succ]
  refine ((h.key ts).mono (fun _ hp => hp) fun f hf hn => hf (by omega)).bind ?_
  rintro ⟨key, rest⟩ ⟨k, rfl, rfl⟩
  have hpos := k.length_yield_pos rfl
  refine (meets_expect endLine ':' rest _).bind ?_
  rintro rest₁ ⟨colon, rfl⟩
  simp only [List.length_append, List.length_cons]
  refine ((h.expr rest₁).mono (fun _ hp => hp) fun f hf hn => hf (by omega)).bind ?_
  rintro ⟨e, rest₂⟩ ⟨d, rfl, rfl⟩
  dsimp only
  split
  · next rest₃ hrest =>
    obtain ⟨c, rfl⟩ := punct?_eq_some.1 hrest
    exact ⟨.lastEntry k colon d, c, by simp, rfl⟩
  · refine (meets_expect endLine ',' rest₂ _).bind ?_
    rintro rest₃ ⟨comma, rfl⟩
    simp only [List.length_append, List.length_cons]
    refine (h.hashRest _ rest₃).mono ?_ fun f hf hn => hf (by omega)
    rintro ⟨es', rest₄⟩ ⟨entries, c, rfl, rfl⟩
    refine ⟨.entry k colon d comma entries, c, by simp, ?_⟩
    exact (List.append_assoc es [(k.meaning, d.meaning)] entries.elements).symm

theorem key_succ (h : Sound endLine n) (ts : List Token) :
    Meets (fun p => ∃ d : Derivation .key, ts = d.yield ++ p.2 ∧ d.meaning = p.1)
      (Founded (10 * ts.length + 1 ≤ n + 1)) (Parse.key endLine (n + 1) ts) := by
  cases ts with
  | nil => exact fun _ h => by cases h
  | cons t ts =>
    rw [List.length_cons]
    cases hword : keyAtom? t with
    | some e =>
      rw [key_word endLine n hword]
      exact ⟨.word t e hword, rfl, rfl⟩
    | none =>
      by_cases hparenthesis : t.lexeme = .punct '('
      · rw [key_parenthesis endLine n ⟨t, hparenthesis⟩]
        refine (h.parenthesized ts).mono ?_ fun f hf hn => hf (by omega)
        rintro ⟨e, rest⟩ ⟨d, c, rfl, rfl⟩
        exact ⟨.computed ⟨t, hparenthesis⟩ d c, by simp, rfl⟩
      rw [Parse.key]
      split
      · next hx => simp [keyAtom?, hx] at hword
      · next hx => simp [keyAtom?, hx] at hword
      · next hx => simp [keyAtom?, hx] at hword
      · next hx => simp [keyAtom?, hx] at hword
      · next hx => exact absurd hx hparenthesis
      · exact fun _ h => by cases h

/-- What holds with one bound on the depth of calls holds with the next. -/
theorem succ (h : Sound endLine n) : Sound endLine (n + 1) where
  expr := h.expr_succ
  chain := h.chain_succ
  operators := h.operators_succ
  filters := h.filters_succ
  args := h.args_succ
  argsFrom := h.argsFrom_succ
  primary := h.primary_succ
  listFrom := h.listFrom_succ
  hashFrom := h.hashFrom_succ
  key := h.key_succ

end Sound

/-- The parser reads derivations. -/
theorem sound (endLine n : Nat) : Sound endLine n := by
  induction n with
  | zero => exact .zero endLine
  | succ n ih => exact ih.succ

end Parse

end Phrasebook
