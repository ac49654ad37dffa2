import Phrasebook.Proofs.ParserSoundness
import Phrasebook.Proofs.TokenLayout

/-!
# The lines of refusals

Where the reader of expressions refuses a text, it points at one of its lines.

* `Parse.Keeps` : a reader that is given tokens on lines of a set leaves such tokens, and refuses on
  a line of the set;
* `Parse.linesKept` : so do all functions of the parser, if the line that they report the end of the
  tokens on is in the set;
* `Expr.parse_line_bounds` : a text is refused on a line of the text.
-/

namespace Phrasebook

open Outcome

namespace Parse

/-- All tokens stand on lines of a set. -/
def OnLines (L : Nat → Prop) (ts : List Token) : Prop := ∀ t ∈ ts, L t.line

/-- A reader that is given tokens on lines of a set leaves such tokens, and refuses on such a
line. -/
def Keeps {α : Type} (L : Nat → Prop) (f : List Token → Except Refusal (α × List Token)) : Prop :=
  ∀ ts, OnLines L ts → Meets (fun p => OnLines L p.2) (fun r => L r.line) (f ts)

section Lines

variable {L : Nat → Prop} {endLine : Nat} {t : Token} {ts : List Token}

theorem OnLines.tail (h : OnLines L (t :: ts)) : OnLines L ts :=
  fun u hu => h u (List.mem_cons_of_mem _ hu)

theorem OnLines.head (h : OnLines L (t :: ts)) : L t.line := h t (List.mem_cons_self ..)

theorem OnLines.lineAt (h : OnLines L ts) (hend : L endLine) : L (lineAt endLine ts) := by
  cases ts with
  | nil => exact hend
  | cons t ts => exact h.head

theorem OnLines.punct? {c : Char} {rest : List Token} (h : OnLines L ts)
    (hrest : punct? c ts = some rest) : OnLines L rest := by
  obtain ⟨t, rfl⟩ := punct?_eq_some.1 hrest
  exact h.tail

theorem OnLines.expect (h : OnLines L ts) (hend : L endLine) (c : Char) :
    Meets (OnLines L) (fun r => L r.line) (expect endLine c ts) := by
  unfold Parse.expect
  split
  · next hrest => exact h.punct? hrest
  · exact h.lineAt hend

end Lines

/-- The functions of the parser, within a bound on the depth of their calls, keep to the lines of a
set. -/
structure LinesKept (L : Nat → Prop) (endLine n : Nat) : Prop where
  expr : Keeps L (Parse.expr endLine n)
  chain : ∀ level, Keeps L (Parse.chain endLine n level)
  operators : ∀ level left, Keeps L (Parse.operators endLine n level left)
  filters : ∀ operand, Keeps L (Parse.filters endLine n operand)
  args : Keeps L (Parse.args endLine n)
  argsFrom : Keeps L (Parse.argsFrom endLine n)
  primary : Keeps L (Parse.primary endLine n)
  listFrom : ∀ es, Keeps L (Parse.listFrom endLine n es)
  hashFrom : ∀ es, Keeps L (Parse.hashFrom endLine n es)
  key : Keeps L (Parse.key endLine n)

namespace LinesKept

variable {L : Nat → Prop} {endLine n : Nat}

theorem zero (hend : L endLine) : LinesKept L endLine 0 := by
  constructor <;> intros <;> exact fun ts h => h.lineAt hend

theorem expr_succ (hend : L endLine) (h : LinesKept L endLine n) :
    Keeps L (Parse.expr endLine (n + 1)) := by
  intro ts hts
  rw [Parse.expr]
  refine (h.chain 0 ts hts).bind ?_
  rintro ⟨test, rest⟩ hrest
  dsimp only
  split
  · refine (h.expr _ hrest.tail).bind ?_
    rintro ⟨yes, rest₁⟩ h₁
    refine (h₁.expect hend ':').bind fun rest₂ h₂ => (h.expr rest₂ h₂).bind ?_
    rintro ⟨no, rest₃⟩ h₃
    exact h₃
  · exact hrest

theorem chain_succ (h : LinesKept L endLine n) (level : Nat) :
    Keeps L (Parse.chain endLine (n + 1) level) := by
  intro ts hts
  rw [Parse.chain]
  split
  · refine (h.chain (level + 1) ts hts).bind ?_
    rintro ⟨left, rest⟩ hrest
    exact h.operators level left rest hrest
  · refine (h.primary ts hts).bind ?_
    rintro ⟨operand, rest⟩ hrest
    exact h.filters operand rest hrest

theorem operators_succ (h : LinesKept L endLine n) (level : Nat) (left : Expr) :
    Keeps L (Parse.operators endLine (n + 1) level left) := by
  intro ts hts
  cases ts with
  | nil => exact hts
  | cons t ts =>
    rw [Parse.operators]
    split
    · exact hts
    · split
      · refine (h.chain (level + 1) ts hts.tail).bind ?_
        rintro ⟨right, rest⟩ hrest
        exact h.operators level _ rest hrest
      · exact hts

theorem optionalArgs (h : LinesKept L endLine n) : Keeps L (Parse.optionalArgs endLine n) := by
  intro ts hts
  unfold Parse.optionalArgs
  split
  · next rest hrest => exact h.args rest (hts.punct? hrest)
  · exact hts

theorem filters_succ (hend : L endLine) (h : LinesKept L endLine n) (operand : Expr) :
    Keeps L (Parse.filters endLine (n + 1) operand) := by
  intro ts hts
  rw [Parse.filters.eq_def]
  dsimp only
  split
  · next start stop line x start' stop' line' ts =>
    have hbar := filters_bar endLine n operand ⟨⟨.operator .bar, start, stop, line⟩, rfl⟩
      (⟨⟨.ident x, start', stop', line'⟩, rfl⟩ : Grammar.Terminal (.ident x)) ts
    rw [Parse.filters] at hbar
    rw [hbar]
    refine (h.optionalArgs ts hts.tail.tail).bind ?_
    rintro ⟨args, rest⟩ hrest
    exact h.filters _ rest hrest
  · exact hts.tail.lineAt hend
  · exact hts

theorem args_succ (h : LinesKept L endLine n) : Keeps L (Parse.args endLine (n + 1)) := by
  intro ts hts
  rw [Parse.args]
  split
  · next rest hrest => exact hts.punct? hrest
  · exact h.argsFrom ts hts

theorem argsFrom_succ (hend : L endLine) (h : LinesKept L endLine n) :
    Keeps L (Parse.argsFrom endLine (n + 1)) := by
  intro ts hts
  rw [Parse.argsFrom]
  refine (h.expr ts hts).bind ?_
  rintro ⟨arg, rest⟩ hrest
  dsimp only
  split
  · next rest' hcomma =>
    refine (h.argsFrom rest' (OnLines.punct? hrest hcomma)).bind ?_
    rintro ⟨args, rest⟩ hrest
    exact hrest
  · exact (OnLines.expect hrest hend ')').bind fun rest' h' => h'

theorem parenthesized (hend : L endLine) (h : LinesKept L endLine n) : Keeps L fun ts =>
    Parse.expr endLine n ts >>= fun p => Parse.expect endLine ')' p.2 >>= fun rest =>
      .ok (p.1, rest) := by
  intro ts hts
  refine (h.expr ts hts).bind ?_
  rintro ⟨e, rest⟩ hrest
  exact (OnLines.expect hrest hend ')').bind fun rest' h' => h'

theorem listRest (h : LinesKept L endLine n) (es : Elements) :
    Keeps L (Parse.listRest endLine n es) := by
  intro ts hts
  unfold Parse.listRest
  split
  · next rest hrest => exact hts.punct? hrest
  · exact h.listFrom es ts hts

theorem hashRest (h : LinesKept L endLine n) (es : Elements) :
    Keeps L (Parse.hashRest endLine n es) := by
  intro ts hts
  unfold Parse.hashRest
  split
  · next rest hrest => exact hts.punct? hrest
  · exact h.hashFrom es ts hts

theorem primary_succ (hend : L endLine) (h : LinesKept L endLine n) :
    Keeps L (Parse.primary endLine (n + 1)) := by
  intro ts hts
  cases ts with
  | nil => exact hend
  | cons t ts =>
    by_cases hparenthesis : t.lexeme = .punct '('
    · rw [primary_parenthesis endLine n ⟨t, hparenthesis⟩]
      exact h.parenthesized hend ts hts.tail
    by_cases hbracket : t.lexeme = .punct '['
    · rw [primary_list endLine n ⟨t, hbracket⟩]
      exact (h.listRest [] ts hts.tail).bind fun p hp => hp
    by_cases hbrace : t.lexeme = .punct '\x7b'
    · rw [primary_hash endLine n ⟨t, hbrace⟩]
      exact (h.hashRest [] ts hts.tail).bind fun p hp => hp
    rw [Parse.primary]
    split
    · exact hts.tail
    · exact hts.tail
    · exact hts.tail
    · split
      · exact hts.tail
      · exact hts.head
    · next hx => exact absurd hx hparenthesis
    · next hx => exact absurd hx hbracket
    · next hx => exact absurd hx hbrace
    · exact hts.head

theorem listFrom_succ (hend : L endLine) (h : LinesKept L endLine n) (es : Elements) :
    Keeps L (Parse.listFrom endLine (n + 1) es) := by
  intro ts hts
  rw [Parse.listFrom_succ]
  refine (h.expr ts hts).bind ?_
  rintro ⟨e, rest⟩ hrest
  dsimp only
  split
  · next rest' hclose => exact OnLines.punct? hrest hclose
  · exact (OnLines.expect hrest hend ',').bind fun rest' h' => h.listRest _ rest' h'

theorem key_succ (hend : L endLine) (h : LinesKept L endLine n) :
    Keeps L (Parse.key endLine (n + 1)) := by
  intro ts hts
  cases ts with
  | nil => exact hend
  | cons t ts =>
    by_cases hparenthesis : t.lexeme = .punct '('
    · rw [key_parenthesis endLine n ⟨t, hparenthesis⟩]
      exact h.parenthesized hend ts hts.tail
    rw [Parse.key]
    split
    · exact hts.tail
    · exact hts.tail
    · exact hts.tail
    · exact hts.tail
    · next hx => exact absurd hx hparenthesis
    · exact hts.head

theorem hashFrom_succ (hend : L endLine) (h : LinesKept L endLine n) (es : Elements) :
    Keeps L (Parse.hashFrom endLine (n + 1) es) := by
  intro ts hts
  rw [Parse.hashFrom_succ]
  refine (h.key ts hts).bind ?_
  rintro ⟨key, rest⟩ hrest
  refine (OnLines.expect hrest hend ':').bind fun rest₁ h₁ => (h.expr rest₁ h₁).bind ?_
  rintro ⟨e, rest₂⟩ h₂
  dsimp only
  split
  · next rest₃ hclose => exact OnLines.punct? h₂ hclose
  · exact (OnLines.expect h₂ hend ',').bind fun rest₃ h₃ => h.hashRest _ rest₃ h₃

/-- What holds with one bound on the depth of calls holds with the next. -/
theorem succ (hend : L endLine) (h : LinesKept L endLine n) : LinesKept L endLine (n + 1) where
  expr := h.expr_succ hend
  chain := h.chain_succ
  operators := h.operators_succ
  filters := h.filters_succ hend
  args := h.args_succ
  argsFrom := h.argsFrom_succ hend
  primary := h.primary_succ hend
  listFrom := h.listFrom_succ hend
  hashFrom := h.hashFrom_succ hend
  key := h.key_succ hend

end LinesKept

/-- The parser keeps to the lines of its tokens. -/
theorem linesKept {L : Nat → Prop} {endLine : Nat} (hend : L endLine) (n : Nat) :
    LinesKept L endLine n := by
  induction n with
  | zero => exact .zero hend
  | succ n ih => exact ih.succ hend

/-- Tokens are refused on the line of a token, or on the line that the text starts on. -/
theorem meets_ofTokens_lines {L : Nat → Prop} {ts : List Token} {line : Nat} (hts : OnLines L ts)
    (hline : L line) : Meets (fun _ => True) (fun r => L r.line) (ofTokens ts line) := by
  unfold ofTokens
  split
  · next f start stop l hfind => exact hts _ (List.mem_of_find?_eq_some hfind)
  · split
    · exact hline
    · have hend : L ((ts.getLast?.map (·.line)).getD line) := by
        cases hlast : ts.getLast? with
        | none => exact hline
        | some t => exact hts t (List.mem_of_getLast? hlast)
      refine ((linesKept hend _).expr ts hts).bind ?_
      rintro ⟨e, rest⟩ hrest
      cases rest with
      | nil => exact trivial
      | cons t rest => exact OnLines.head hrest

end Parse

/-- A text is refused on one of its lines. -/
theorem Expr.parse_line_bounds (input : String) (line : Nat) :
    Meets (fun _ => True)
      (fun err => ∃ cause l, err = .parse cause input l ∧ line ≤ l ∧
        l ≤ line + lineEnds input.toList)
      (Expr.parse input line) := by
  have hts : Parse.OnLines (fun l => line ≤ l ∧ l ≤ line + lineEnds input.toList)
      (Token.ofText input line) :=
    (Token.layout_ofText input line).line_bounds
  have hmeets :=
    Parse.meets_ofTokens_lines hts (show line ≤ line ∧ line ≤ line + lineEnds input.toList by omega)
  unfold Expr.parse
  cases hof : Parse.ofTokens (Token.ofText input line) line with
  | ok e => exact trivial
  | error r =>
    rw [hof] at hmeets
    exact ⟨r.cause, r.line, rfl, hmeets⟩

end Phrasebook
