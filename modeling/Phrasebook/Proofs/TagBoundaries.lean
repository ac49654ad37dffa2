import Phrasebook.Proofs.ParserCompleteness
import Phrasebook.Proofs.TagText

/-!
# Expressions in tags

Which expressions can be put in a tag as they are.

* `Grammar.Nested` : the braces of a list of tokens are closed in their order;
* `Grammar.Derivation.nested` : so are those of every derivation, so that no expression ends before
  a brace that closes an earlier one;
* `Tag.ClosesEarly` : somewhere in a tag a brace that ends a hash is followed by another right
  brace;
* `Template.parse_tag` : an expression can be put in a tag exactly if the tag does not close early,
  and is refused otherwise.
-/

namespace Phrasebook

namespace Grammar

/-! ### Nested braces -/

/-- The number of left braces among tokens. -/
def opened (ts : List Token) : Nat := ts.countP fun t => t.lexeme = .punct '\x7b'

/-- The number of right braces among tokens. -/
def closed (ts : List Token) : Nat := ts.countP fun t => t.lexeme = .punct '\x7d'

/-- All braces are closed, and none is closed before it is opened. -/
structure Nested (ts : List Token) : Prop where
  opened_eq : opened ts = closed ts
  closed_le : ∀ as bs, ts = as ++ bs → closed as ≤ opened as

theorem opened_append (as bs : List Token) : opened (as ++ bs) = opened as + opened bs :=
  List.countP_append

theorem closed_append (as bs : List Token) : closed (as ++ bs) = closed as + closed bs :=
  List.countP_append

def NoBrace (t : Token) : Prop := t.lexeme ≠ .punct '\x7b' ∧ t.lexeme ≠ .punct '\x7d'

variable {as bs ts : List Token} {t : Token}

theorem Nested.nil : Nested [] where
  opened_eq := rfl
  closed_le as bs h := by
    rw [(List.append_eq_nil_iff.1 h.symm).1]
    exact Nat.le_refl _

theorem Nested.append (ha : Nested as) (hb : Nested bs) : Nested (as ++ bs) where
  opened_eq := by rw [opened_append, closed_append, ha.opened_eq, hb.opened_eq]
  closed_le xs ys h := by
    rcases List.append_eq_append_iff.1 h with ⟨zs, rfl, hzs⟩ | ⟨zs, has, -⟩
    · have hle := hb.closed_le zs ys hzs
      rw [opened_append, closed_append, ha.opened_eq]
      omega
    · exact ha.closed_le xs zs has

theorem Nested.cons (ht : NoBrace t) (h : Nested ts) : Nested (t :: ts) := by
  have hopened : opened [t] = 0 := by simp [opened, ht.1]
  have hclosed : closed [t] = 0 := by simp [closed, ht.2]
  have hsingle : Nested [t] := by
    refine ⟨by rw [hopened, hclosed], fun xs ys hxs => ?_⟩
    have hle : closed xs + closed ys = 0 := by rw [← closed_append, ← hxs, hclosed]
    omega
  exact hsingle.append h

/-- Nested tokens between two braces are nested. -/
theorem Nested.braces (o : Terminal (.punct '\x7b')) (c : Terminal (.punct '\x7d'))
    (h : Nested ts) : Nested (o.1 :: (ts ++ [c.1])) := by
  have hopens : ∀ xs, opened (o.1 :: xs) = opened xs + 1 := fun xs => by simp [opened, o.2]
  have hcloses : ∀ xs, closed (o.1 :: xs) = closed xs := fun xs => by simp [closed, o.2]
  have hlast : opened [c.1] = 0 ∧ closed [c.1] = 1 := by simp [opened, closed, c.2]
  refine ⟨?_, fun xs ys hxs => ?_⟩
  · rw [hopens, hcloses, opened_append, closed_append, h.opened_eq, hlast.1, hlast.2]
  · cases xs with
    | nil => exact Nat.le_refl _
    | cons x xs =>
      obtain ⟨rfl, htail⟩ := List.cons.inj hxs
      rw [hopens, hcloses]
      rcases List.append_eq_append_iff.1 htail with ⟨zs, rfl, hzs⟩ | ⟨zs, hts, -⟩
      · have hle : closed zs + closed ys = 1 := by rw [← closed_append, ← hzs, hlast.2]
        rw [opened_append, closed_append, h.opened_eq]
        omega
      · have := h.closed_le xs zs hts
        omega

theorem noBrace_of_lexeme {x : Lexeme} (t : Terminal x)
    (hx : x ≠ .punct '\x7b' ∧ x ≠ .punct '\x7d') : NoBrace t.1 := by
  unfold NoBrace
  rw [t.2]
  exact hx

theorem noBrace_of_punct {c : Char} (t : Terminal (.punct c)) (hc : c ≠ '\x7b' ∧ c ≠ '\x7d') :
    NoBrace t.1 :=
  noBrace_of_lexeme t ⟨fun h => hc.1 (Lexeme.punct.inj h), fun h => hc.2 (Lexeme.punct.inj h)⟩

theorem noBrace_of_atom? {e : Expr} (h : atom? t = some e) : NoBrace t := by
  constructor <;> intro hx <;> simp [atom?, hx] at h

theorem noBrace_of_keyAtom? {e : Expr} (h : keyAtom? t = some e) : NoBrace t := by
  constructor <;> intro hx <;> simp [keyAtom?, hx] at h

theorem noBrace_of_sign {level : Nat} {op : BinOp} (h : Sign level t.lexeme op) : NoBrace t := by
  constructor <;> intro hx <;> rw [hx] at h <;> cases h

/-- The braces of every derivation are nested. -/
theorem Derivation.nested {s : Symbol} (d : Derivation s) : Nested d.yield := by
  induction d with
  | plain c ih => exact ih
  | conditional t q y c n iht ihy ihn =>
    have hq : NoBrace q.1 := noBrace_of_lexeme q (by decide)
    exact iht.append (.cons hq (ihy.append (.cons (noBrace_of_punct c (by decide)) ihn)))
  | binary _ e rest ihe ihr => exact ihe.append ihr
  | post _ e rest ihe ihr => exact ihe.append ihr
  | operator op sign hsign e rest ihe ihr => exact .cons (noBrace_of_sign hsign) (ihe.append ihr)
  | filter bar x name args rest iha ihr =>
    have hbar : NoBrace bar.1 := noBrace_of_lexeme bar (by decide)
    have hname : NoBrace name.1 := noBrace_of_lexeme name (by simp)
    exact .cons hbar (.cons hname (iha.append ihr))
  | noArgument o c =>
    exact .cons (noBrace_of_punct o (by decide)) (.cons (noBrace_of_punct c (by decide)) .nil)
  | lastExpression e ih => exact ih
  | lastItem e ih => exact ih
  | expression e comma rest ihe ihr | item e comma rest ihe ihr =>
    exact ihe.append (.cons (noBrace_of_punct comma (by decide)) ihr)
  | atom t e h => exact .cons (noBrace_of_atom? h) .nil
  | word t e h => exact .cons (noBrace_of_keyAtom? h) .nil
  | someArguments o e c ih | parenthesized o e c ih | list o e c ih | computed o e c ih =>
    exact .cons (noBrace_of_punct o (by decide))
      (ih.append (.cons (noBrace_of_punct c (by decide)) .nil))
  | hash o entries c ih => exact ih.braces o c
  | lastEntry k colon e ihk ihe => exact ihk.append (.cons (noBrace_of_punct colon (by decide)) ihe)
  | entry k colon e comma rest ihk ihe ihr =>
    exact ihk.append (.cons (noBrace_of_punct colon (by decide))
      (ihe.append (.cons (noBrace_of_punct comma (by decide)) ihr)))
  | noOperator | noFilter | bare | noItem | noEntry => exact .nil

end Grammar

/-! ### Putting an expression in a tag -/

namespace Tag

/-- In the tag of an expression, a right brace that is a token of the expression is followed by
another right brace. -/
def ClosesEarly (e : String) : Prop :=
  ∃ t ∈ Token.ofText e 1, t.lexeme = .punct '\x7d' ∧
    ∃ before after, (e ++ "\x7d\x7d").toList = before ++ '\x7d' :: '\x7d' :: after ∧
    t.start = byteLength before

variable {e : String} {n : Expr}

/-- An accepted text has no lexical faults, and its tokens have a derivation. -/
theorem of_parse {line : Nat} (h : Expr.parse e line = .ok n) :
    (∀ t ∈ Token.ofText e line, t.lexeme.isFault = false) ∧ ∃ d : Grammar.Derivation .expr,
      d.yield = Token.ofText e line := by
  obtain ⟨hclean, d, hd, -⟩ := Expr.exists_derivation h
  exact ⟨hclean, d, hd⟩

/-- No expression ends right before a brace that closes an earlier one: where a closing stands
within an accepted text, the text before it is refused. -/
theorem parse_ne_ok_of_cut (h : Expr.parse e 1 = .ok n) {before after : List Char}
    (he : e.toList = before ++ '\x7d' :: after) (hout : Mode.outside.after before = .outside)
    (n' : Expr) : Expr.parse (.ofList before) 1 ≠ .ok n' := by
  intro h'
  obtain ⟨hclean, d, hd⟩ := of_parse h
  obtain ⟨hclean', d', hd'⟩ := of_parse h'
  have hlayout := Token.layout_ofText e 1
  have hlayout' := Token.layout_ofText (.ofList before) 1
  rw [String.toList_ofList] at hlayout'
  -- the tokens of the whole text that stand before the brace have as many braces as those of the
  -- text cut there
  obtain ⟨ts₁, t, ts₂, hts, ht, hstart⟩ := hlayout.exists_punct hclean rfl (by decide) he hout
  have hbrace : Token.ofText e 1 = (ts₁ ++ [t]) ++ ts₂ := by rw [hts, List.append_assoc]; rfl
  rw [hts] at hlayout hclean
  obtain ⟨before', raw, after', hcut, -, hstart', -, hbefore, -⟩ := hlayout.cut (hclean t (by simp))
  obtain rfl : before = before' := eq_of_byteLength (he.symm.trans hcut) (by omega)
  have hclean₁ := hlayout.clean_of_append
  have hopened : Grammar.opened ts₁ = Grammar.opened (Token.ofText (.ofList before) 1) :=
    (hbefore.countP_punct hclean₁ rfl (by decide)).trans
      (hlayout'.countP_punct hclean' rfl (by decide)).symm
  have hclosed : Grammar.closed ts₁ = Grammar.closed (Token.ofText (.ofList before) 1) :=
    (hbefore.countP_punct hclean₁ rfl (by decide)).trans
      (hlayout'.countP_punct hclean' rfl (by decide)).symm
  have hbalanced := (hd' ▸ d'.nested).opened_eq
  have hle := (hd ▸ d.nested).closed_le _ _ hbrace
  have hlast : Grammar.opened [t] = 0 ∧ Grammar.closed [t] = 1 := by
    simp [Grammar.opened, Grammar.closed, ht]
  rw [Grammar.opened_append, Grammar.closed_append, hlast.1, hlast.2] at hle
  omega

end Tag

namespace Template

open Tag

/-- The template of a single tag, by where the tag is cut. -/
theorem parse_eq_of_splitClose {e name : String} {inner after : List Char}
    (hc : splitClose .outside (e ++ "\x7d\x7d").toList = some (inner, after)) :
    Template.parse ("\x7b\x7b" ++ e ++ "\x7d\x7d") name =
      Expr.parse (.ofList inner) 1 >>= fun n => segments (1 + lineEnds inner) after >>= fun more =>
        .ok ⟨name, .print n 1 :: more⟩ := by
  have hopen : splitOpen ("\x7b\x7b" ++ e ++ "\x7d\x7d").toList =
      some ([], (e ++ "\x7d\x7d").toList) := by
    rw [String.append_assoc, String.toList_append]
    rfl
  unfold Template.parse
  rw [segments_of_tag hopen hc]
  show (Expr.parse (.ofList inner) 1 >>= _) >>= _ = _
  cases Expr.parse (.ofList inner) 1 with
  | error err => rfl
  | ok n =>
    show (segments (1 + lineEnds inner) after >>= _) >>= _ =
      segments (1 + lineEnds inner) after >>= _
    cases segments (1 + lineEnds inner) after <;> rfl

/-- A refused text is refused by the reader of expressions. -/
theorem exists_refusal {e : String} {line : Nat} (h : ∀ n, Expr.parse e line ≠ .ok n) :
    ∃ cause l, Expr.parse e line = .error (.parse cause e l) := by
  unfold Expr.parse at h ⊢
  cases hof : Parse.ofTokens (Token.ofText e line) line with
  | ok n => exact absurd (by rw [hof]) (h n)
  | error r => exact ⟨r.cause, r.line, rfl⟩

variable {e name : String} {n : Expr}

/-- A tag that closes early is cut within its expression, which is refused then. -/
theorem parse_of_closesEarly (h : Expr.parse e 1 = .ok n) (hearly : ClosesEarly e) (name : String) :
    ∃ cause input l, Template.parse ("\x7b\x7b" ++ e ++ "\x7d\x7d") name =
      .error (.parse cause input l) := by
  obtain ⟨t, ht, hlexeme, before, after, hbefore, hstart⟩ := hearly
  obtain ⟨hclean, -⟩ := of_parse h
  have hlayout := Token.layout_ofText e 1
  obtain ⟨ts₁, ts₂, hts⟩ := List.append_of_mem ht
  have hcut := hts ▸ hlayout
  obtain ⟨before', raw, after', he, hraw, hstart', -⟩ := hcut.cut (hclean t ht)
  rw [hlexeme] at hraw
  obtain ⟨-, rfl⟩ := hraw
  have hsource : (e ++ "\x7d\x7d").toList = e.toList ++ ['\x7d', '\x7d'] := String.toList_append
  have hsame : before ++ '\x7d' :: '\x7d' :: after =
      before' ++ ('\x7d' :: (after' ++ ['\x7d', '\x7d'])) := by
    rw [← hbefore, hsource, he]
    simp
  obtain rfl : before = before' := eq_of_byteLength hsame (by omega)
  have hout : Mode.outside.after before = .outside :=
    (hlayout.outside_iff hclean rfl (by decide) he).2 ⟨t, ht, hlexeme, by omega⟩
  obtain ⟨inner, rest, hsplit, hprefix⟩ := exists_splitClose after hout
  rw [← hbefore] at hsplit
  obtain ⟨hinner, hout'⟩ := of_splitClose hsplit
  rcases append_eq_append_cons (hsource.symm.trans hinner) with ⟨behind, hbehind⟩ | ⟨more, rfl, -⟩
  · obtain ⟨cause, l, hrefused⟩ := exists_refusal (parse_ne_ok_of_cut h hbehind hout')
    exact ⟨cause, _, l, by rw [parse_eq_of_splitClose hsplit, hrefused]; rfl⟩
  · have hlength := hprefix.length_le
    simp only [he, List.length_append, List.length_cons] at hlength
    omega

/-- A tag that does not close early is cut behind its expression. -/
theorem parse_of_not_closesEarly (h : Expr.parse e 1 = .ok n) (hlate : ¬ClosesEarly e) :
    Template.parse ("\x7b\x7b" ++ e ++ "\x7d\x7d") name = .ok ⟨name, [.print n 1]⟩ := by
  obtain ⟨hclean, -⟩ := of_parse h
  have hlayout := Token.layout_ofText e 1
  have hsource : (e ++ "\x7d\x7d").toList = e.toList ++ '\x7d' :: '\x7d' :: [] :=
    String.toList_append
  obtain ⟨inner, rest, hsplit, more, hmore⟩ := exists_splitClose [] (hlayout.after_outside hclean)
  rw [← hsource] at hsplit
  obtain ⟨hinner, hout⟩ := of_splitClose hsplit
  cases more with
  | nil =>
    rw [List.append_nil] at hmore
    obtain rfl : rest = [] := by
      rw [hsource, hmore] at hinner
      simpa using hinner
    rw [parse_eq_of_splitClose hsplit, hmore, String.ofList_toList, h, segments_of_text rfl]
    rfl
  | cons c more =>
    have hbrace : e.toList = inner ++ '\x7d' :: more := by
      rw [hsource, ← hmore, List.append_assoc] at hinner
      obtain ⟨rfl, -⟩ := List.cons.inj (List.append_cancel_left hinner)
      exact hmore.symm
    obtain ⟨t, ht, hlexeme, hstart⟩ := (hlayout.outside_iff hclean rfl (by decide) hbrace).1 hout
    exact absurd ⟨t, ht, hlexeme, inner, rest, hinner, by omega⟩ hlate

/-- **Which expressions can be put in a tag.**  An accepted expression between two left and two
right braces is the template that prints it, exactly if no right brace that is a token of the
expression is followed by another one; otherwise the template is refused, and is never one with
another expression. -/
theorem parse_tag (h : Expr.parse e 1 = .ok n) (name : String) :
    (Template.parse ("\x7b\x7b" ++ e ++ "\x7d\x7d") name = .ok ⟨name, [.print n 1]⟩ ↔
      ¬ClosesEarly e) ∧
      (Template.parse ("\x7b\x7b" ++ e ++ "\x7d\x7d") name ≠ .ok ⟨name, [.print n 1]⟩ →
        ∃ cause input l,
          Template.parse ("\x7b\x7b" ++ e ++ "\x7d\x7d") name = .error (.parse cause input l)) := by
  refine ⟨⟨fun hok hearly => ?_, parse_of_not_closesEarly h⟩, fun hne => ?_⟩
  · obtain ⟨cause, input, l, herror⟩ := parse_of_closesEarly h hearly name
    rw [hok] at herror
    cases herror
  · by_cases hearly : ClosesEarly e
    · exact parse_of_closesEarly h hearly name
    · exact absurd (parse_of_not_closesEarly h hearly) hne

/-- A hash with braces in a string: the string does not matter, but the hash must not end right
before the closing. -/
theorem parse_tag_hash :
    Expr.parse "\x7ba: '\x7d\x7d'\x7d" 1 = .ok (.array [(.string "a" 1, .string "\x7d\x7d" 1)] 1) ∧
      (∃ cause input l,
        Template.parse ("\x7b\x7b" ++ "\x7ba: '\x7d\x7d'\x7d" ++ "\x7d\x7d") "page" =
          .error (.parse cause input l)) ∧
      Expr.parse "\x7ba: '\x7d\x7d'\x7d " 1 =
        .ok (.array [(.string "a" 1, .string "\x7d\x7d" 1)] 1) ∧
      ¬ClosesEarly "\x7ba: '\x7d\x7d'\x7d " := by
  have htight : Expr.parse "\x7ba: '\x7d\x7d'\x7d" 1 =
      .ok (.array [(.string "a" 1, .string "\x7d\x7d" 1)] 1) := by
    decide +kernel
  have hspaced : Expr.parse "\x7ba: '\x7d\x7d'\x7d " 1 =
      .ok (.array [(.string "a" 1, .string "\x7d\x7d" 1)] 1) := by
    decide +kernel
  refine ⟨htight, (parse_tag htight "page").2 ?_, hspaced, (parse_tag hspaced "page").1.1 ?_⟩ <;>
    decide +kernel

end Template

end Phrasebook
