import Phrasebook.Proofs.ParserCompleteness
import Phrasebook.Proofs.Relining

/-!
# Reading on other lines

The line that a text starts on moves the lines of what is read from it, and nothing else.

* `Token.ofText_relined` : the tokens of a text that starts on another line;
* `Grammar.Derivation.relined` : a derivation with the lines of its tokens moved;
* `Grammar.Derivation.meaning_relined` : what it stands for moves with it;
* `Expr.parse_relined` : so a text that is read on one line is read on every line, as the same
  expression moved.
-/

namespace Phrasebook

/-! ### Shifts -/

/-- From `line` on, lines are counted from `line'` instead. -/
def Shifts (f : Nat → Nat) (line line' : Nat) : Prop := ∀ n, f (line + n) = line' + n

namespace Shifts

variable {f : Nat → Nat} {line line' : Nat}

theorem start (h : Shifts f line line') : f line = line' := h 0

theorem add (h : Shifts f line line') (k : Nat) : Shifts f (line + k) (line' + k) := fun n => by
  rw [Nat.add_assoc, h, Nat.add_assoc]

theorem of_add (k line : Nat) : Shifts (· + k) line (line + k) :=
  fun n => Nat.add_right_comm line n k

/-- Any line can be moved to any other. -/
theorem between (line line' : Nat) : Shifts (fun n => n - line + line') line line' := fun n => by
  dsimp only
  omega

end Shifts

/-! ### Tokens -/

namespace Token

def relined (f : Nat → Nat) (t : Token) : Token := { t with line := f t.line }

/-- A text that starts on another line has the same tokens there. -/
theorem scan_relined {f : Nat → Nat} {line line' : Nat} (hf : Shifts f line line') (pos : Nat)
    (cs : List Char) : scan line' pos cs = (scan line pos cs).map (relined f) := by
  obtain ⟨n, hn⟩ : ∃ n, cs.length = n := ⟨_, rfl⟩
  induction n using Nat.strong_induction_on generalizing line line' pos cs with
  | _ n ih =>
    rw [scan.eq_def line', scan.eq_def line]
    split
    · rfl
    · next c rest hd =>
      have hhead := hf.add (lineEnds (cs.takeWhile isBlank))
      dsimp only
      split
      · rw [List.map_singleton, relined, hhead.start]
      · have hlength := Lexeme.length_rest_scan_le c rest
        have hdrop := Lexeme.length_dropWhile_le isBlank cs
        rw [hd, List.length_cons] at hdrop
        rw [List.map_cons, relined, hhead.start]
        congr 1
        exact ih _ (by omega) (hhead.add _) _ _ rfl

theorem ofText_relined {f : Nat → Nat} {line line' : Nat} (hf : Shifts f line line')
    (input : String) :
    ofText input line' = (ofText input line).map (relined f) := scan_relined hf 0 input.toList

end Token

/-! ### Derivations -/

namespace Grammar

def Terminal.relined (f : Nat → Nat) {x : Lexeme} (t : Terminal x) : Terminal x :=
  ⟨t.1.relined f, t.2⟩

theorem atom?_relined (f : Nat → Nat) (t : Token) :
    atom? (t.relined f) = (atom? t).map (Expr.relined f) := by
  obtain ⟨x, start, stop, line⟩ := t
  cases x with
  | keyword k => cases k <;> rfl
  | _ => rfl

theorem keyAtom?_relined (f : Nat → Nat) (t : Token) :
    keyAtom? (t.relined f) = (keyAtom? t).map (Expr.relined f) := by
  obtain ⟨x, start, stop, line⟩ := t
  cases x <;> rfl

/-- The second meaning is the first one with its lines moved. -/
def Symbol.Moved (f : Nat → Nat) : (s : Symbol) → s.Meaning → s.Meaning → Prop
  | .expr, e, e' => e' = Expr.relined f e
  | .chain _, e, e' => e' = Expr.relined f e
  | .primary, e, e' => e' = Expr.relined f e
  | .key, e, e' => e' = Expr.relined f e
  | .operators _, g, g' => ∀ e, g' (Expr.relined f e) = Expr.relined f (g e)
  | .filters, g, g' => ∀ e, g' (Expr.relined f e) = Expr.relined f (g e)
  | .arguments, as, as' => as' = Expr.relinedList f as
  | .expressions, as, as' => as' = Expr.relinedList f as
  | .items, g, g' => ∀ i, g' i = Expr.relinedPairs f (g i)
  | .entries, es, es' => es' = Expr.relinedPairs f es

namespace Derivation

variable (f : Nat → Nat)

def relined {s : Symbol} : Derivation s → Derivation s
  | .plain c => .plain c.relined
  | .conditional t q y c n => .conditional t.relined (q.relined f) y.relined (c.relined f) n.relined
  | .binary h e rest => .binary h e.relined rest.relined
  | .post h e rest => .post h e.relined rest.relined
  | .noOperator => .noOperator
  | .operator op sign h e rest => .operator op (sign.relined f) h e.relined rest.relined
  | .noFilter => .noFilter
  | .filter bar x name args rest =>
    .filter (bar.relined f) x (name.relined f) args.relined rest.relined
  | .bare => .bare
  | .noArgument o c => .noArgument (o.relined f) (c.relined f)
  | .someArguments o args c => .someArguments (o.relined f) args.relined (c.relined f)
  | .lastExpression e => .lastExpression e.relined
  | .expression e comma rest => .expression e.relined (comma.relined f) rest.relined
  | .atom t e h => .atom (t.relined f) (e.relined f) (by rw [atom?_relined, h]; rfl)
  | .parenthesized o e c => .parenthesized (o.relined f) e.relined (c.relined f)
  | .list o items c => .list (o.relined f) items.relined (c.relined f)
  | .hash o entries c => .hash (o.relined f) entries.relined (c.relined f)
  | .noItem => .noItem
  | .lastItem e => .lastItem e.relined
  | .item e comma rest => .item e.relined (comma.relined f) rest.relined
  | .noEntry => .noEntry
  | .lastEntry k colon e => .lastEntry k.relined (colon.relined f) e.relined
  | .entry k colon e comma rest =>
    .entry k.relined (colon.relined f) e.relined (comma.relined f) rest.relined
  | .word t e h => .word (t.relined f) (e.relined f) (by rw [keyAtom?_relined, h]; rfl)
  | .computed o e c => .computed (o.relined f) e.relined (c.relined f)

theorem yield_relined {s : Symbol} (d : Derivation s) :
    (d.relined f).yield = d.yield.map (Token.relined f) := by
  induction d <;> simp_all [relined, yield, Terminal.relined]

theorem line_relined {s : Symbol} (d : Derivation s) (h : s.isProper = true) :
    (d.relined f).line = f d.line := by
  unfold line
  rw [yield_relined]
  cases hy : d.yield with
  | nil => exact absurd hy (d.yield_ne_nil h)
  | cons t ts => rfl

/-- What a derivation stands for moves with the lines of its tokens. -/
theorem meaning_relined {s : Symbol} (d : Derivation s) :
    s.Moved f d.meaning (d.relined f).meaning := by
  induction d with
  | plain c ih => exact ih
  | conditional t q y c n iht ihy ihn =>
    have ht : (t.relined f).meaning = Expr.relined f t.meaning := iht
    have hy : (y.relined f).meaning = Expr.relined f y.meaning := ihy
    have hn : (n.relined f).meaning = Expr.relined f n.meaning := ihn
    show Expr.cond (t.relined f).meaning (y.relined f).meaning (n.relined f).meaning
      (t.relined f).line = _
    rw [ht, hy, hn, line_relined f t rfl]
    rfl
  | binary _ e rest ihe ihr | post _ e rest ihe ihr =>
    have he : (e.relined f).meaning = Expr.relined f e.meaning := ihe
    show (rest.relined f).meaning (e.relined f).meaning = _
    rw [he]
    exact ihr e.meaning
  | noOperator | noFilter => exact fun _ => rfl
  | operator op sign _ e rest ihe ihr =>
    intro left
    have he : (e.relined f).meaning = Expr.relined f e.meaning := ihe
    show (rest.relined f).meaning
      (Expr.binary op (Expr.relined f left) (e.relined f).meaning (f sign.line)) = _
    rw [he]
    exact ihr (Expr.binary op left e.meaning sign.line)
  | filter bar x _ args rest iha ihr =>
    intro operand
    have ha : (args.relined f).meaning = Expr.relinedList f args.meaning := iha
    show (rest.relined f).meaning (Expr.filter (Expr.relined f operand) x (args.relined f).meaning
      (f bar.1.line)) = _
    rw [ha]
    exact ihr (Expr.filter operand x args.meaning bar.1.line)
  | bare | noArgument _ _ | noEntry => rfl
  | someArguments _ args _ ih => exact ih
  | lastExpression e ih =>
    have he : (e.relined f).meaning = Expr.relined f e.meaning := ih
    show [(e.relined f).meaning] = _
    rw [he]
    rfl
  | expression e _ rest ihe ihr =>
    have he : (e.relined f).meaning = Expr.relined f e.meaning := ihe
    have hr : (rest.relined f).meaning = Expr.relinedList f rest.meaning := ihr
    show (e.relined f).meaning :: (rest.relined f).meaning = _
    rw [he, hr]
    rfl
  | atom _ e _ | word _ e _ => rfl
  | parenthesized _ e _ ih | computed _ e _ ih => exact ih
  | list o items _ ih =>
    show Expr.array ((items.relined f).meaning 0) (f o.1.line) = _
    rw [show (items.relined f).meaning 0 = Expr.relinedPairs f (items.meaning 0) from ih 0]
    rfl
  | hash o entries _ ih =>
    have hes : (entries.relined f).meaning = Expr.relinedPairs f entries.meaning := ih
    show Expr.array (entries.relined f).meaning (f o.1.line) = _
    rw [hes]
    rfl
  | noItem => exact fun _ => rfl
  | lastItem e ih =>
    intro i
    have he : (e.relined f).tree = e.tree.relined f := ih
    show [(Expr.number (indexKey i) (e.relined f).tree.line, (e.relined f).tree)] = _
    rw [he, Expr.line_relined]
    rfl
  | item e _ rest ihe ihr =>
    intro i
    have he : (e.relined f).tree = e.tree.relined f := ihe
    have hr : (rest.relined f).meaning (i + 1) = Expr.relinedPairs f (rest.meaning (i + 1)) :=
      ihr (i + 1)
    show (Expr.number (indexKey i) (e.relined f).tree.line, (e.relined f).tree) ::
      (rest.relined f).meaning (i + 1) = _
    rw [he, Expr.line_relined, hr]
    rfl
  | lastEntry k _ e ihk ihe =>
    have hk : (k.relined f).meaning = Expr.relined f k.meaning := ihk
    have he : (e.relined f).meaning = Expr.relined f e.meaning := ihe
    show [((k.relined f).meaning, (e.relined f).meaning)] = _
    rw [hk, he]
    rfl
  | entry k _ e _ rest ihk ihe ihr =>
    have hk : (k.relined f).meaning = Expr.relined f k.meaning := ihk
    have he : (e.relined f).meaning = Expr.relined f e.meaning := ihe
    have hr : (rest.relined f).meaning = Expr.relinedPairs f rest.meaning := ihr
    show ((k.relined f).meaning, (e.relined f).meaning) :: (rest.relined f).meaning = _
    rw [hk, he, hr]
    rfl

end Derivation

end Grammar

/-! ### Expressions -/

/-- A text that is read on one line is read on every line, as the same expression moved. -/
theorem Expr.parse_relined {f : Nat → Nat} {line line' : Nat} (hf : Shifts f line line')
    {input : String} {e : Expr} (h : Expr.parse input line = .ok e) :
    Expr.parse input line' = .ok (e.relined f) := by
  obtain ⟨-, d, hyield, rfl⟩ := Expr.exists_derivation h
  have htokens : (d.relined f).yield = Token.ofText input line' := by
    rw [d.yield_relined, hyield, Token.ofText_relined hf]
  rw [Expr.parse_of_derivation (d.relined f) htokens]
  exact congrArg Except.ok (d.meaning_relined f)

theorem Expr.exists_parse_of_parse {input : String} {line : Nat} {e : Expr}
    (h : Expr.parse input line = .ok e) (line' : Nat) : ∃ e', Expr.parse input line' = .ok e' :=
  ⟨_, Expr.parse_relined (Shifts.between line line') h⟩

end Phrasebook
