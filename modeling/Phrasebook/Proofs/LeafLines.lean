import Mathlib.Data.List.Forall2
import Mathlib.Data.List.ReduceOption
import Phrasebook.Proofs.Nodes
import Phrasebook.Proofs.ParserCompleteness
import Phrasebook.Proofs.TokenLayout

/-!
# The lines of constants and names

The constants and names of an expression that was read, from left to right, are those that its
tokens stand for one after another, and each stands on the line of its token.  Only the items of a
list bring constants of their own: their indices.

* `Expr.leaves` : the constants and names of an expression;
* `Grammar.Derivation.sources` : the tokens that the leaves of a derivation stem from;
* `Grammar.Derivation.stemFrom` : the leaves of what a derivation stands for, token by token;
* `Grammar.Derivation.sources_sublist` : these tokens are tokens of the derivation, in their order;
* `Expr.LeavesIn`, `Expr.leavesIn_of_parse` : where the leaves of an expression stand in the text
  around it.
-/

namespace Phrasebook

/-! ### Leaves -/

namespace Expr

/-- Constants and names are leaves. -/
def isLeaf : Expr → Bool
  | .const _ _ | .name _ _ => true
  | _ => false

/-- The constants and names that occur in an expression, from left to right. -/
def leaves (e : Expr) : List Expr := e.nodes.filter isLeaf

/-- The leaves of a node are its own, and those of its children one after another. -/
theorem leaves_eq (e : Expr) :
    e.leaves = (if e.isLeaf then [e] else []) ++ e.children.flatMap leaves := by
  unfold leaves
  rw [nodes_eq, List.filter_cons, List.filter_flatMap]
  cases e.isLeaf <;> rfl

theorem leaves_array (es : Elements) (l : Nat) :
    (Expr.array es l).leaves = es.flatMap fun p => p.1.leaves ++ p.2.leaves := by
  rw [leaves_eq, children, List.flatMap_assoc]
  simp [isLeaf]

theorem leaves_filter (e : Expr) (x : String) (as : List Expr) (l : Nat) :
    (Expr.filter e x as l).leaves = e.leaves ++ as.flatMap leaves := leaves_eq _

theorem leaves_cond (t y n : Expr) (l : Nat) :
    (Expr.cond t y n l).leaves = t.leaves ++ (y.leaves ++ n.leaves) := by
  rw [leaves_eq]
  simp [isLeaf, children]

theorem leaves_binary (op : BinOp) (a b : Expr) (l : Nat) :
    (Expr.binary op a b l).leaves = a.leaves ++ b.leaves := by
  rw [leaves_eq]
  simp [isLeaf, children]

end Expr

namespace Grammar

/-! ### Leaves and tokens -/

/-- A leaf stems from a token if the token stands for it by itself, as an expression or as the key
of a hash.  What stems from no token is the index of an item. -/
def Stems : Option Token → Expr → Prop
  | none, a => ∃ index l, a = .number index l
  | some t, a => atom? t = some a ∨ keyAtom? t = some a

/-- The tokens that the leaves of a derivation stem from, from left to right.  Each item of a list
has its index before it, which stems from no token. -/
def Derivation.sources {s : Symbol} : Derivation s → List (Option Token)
  | .plain c => c.sources
  | .conditional t _ y _ n => t.sources ++ (y.sources ++ n.sources)
  | .binary _ e rest => e.sources ++ rest.sources
  | .post _ e rest => e.sources ++ rest.sources
  | .noOperator => []
  | .operator _ _ _ e rest => e.sources ++ rest.sources
  | .noFilter => []
  | .filter _ _ _ args rest => args.sources ++ rest.sources
  | .bare => []
  | .noArgument _ _ => []
  | .someArguments _ args _ => args.sources
  | .lastExpression e => e.sources
  | .expression e _ rest => e.sources ++ rest.sources
  | .atom t _ _ => [some t]
  | .parenthesized _ e _ => e.sources
  | .list _ items _ => items.sources
  | .hash _ entries _ => entries.sources
  | .noItem => []
  | .lastItem e => none :: e.sources
  | .item e _ rest => none :: (e.sources ++ rest.sources)
  | .noEntry => []
  | .lastEntry k _ e => k.sources ++ e.sources
  | .entry k _ e _ rest => k.sources ++ e.sources ++ rest.sources
  | .word t _ _ => [some t]
  | .computed _ e _ => e.sources

section Parts

variable {as bs cs ts : List (Option Token)} {xs ys : List Expr} {e : Expr}

/-- Leaves stem from given tokens, one after another. -/
abbrev AllStem (ts : List (Option Token)) (xs : List Expr) : Prop := List.Forall₂ Stems ts xs

/-- The leaves of an expression stem from given tokens, one after another. -/
abbrev StemFrom (ts : List (Option Token)) (e : Expr) : Prop := AllStem ts e.leaves

theorem AllStem.append (hx : AllStem as xs) (hy : AllStem bs ys) : AllStem (as ++ bs) (xs ++ ys) :=
  List.rel_append hx hy

/-- Nothing behind the last ones. -/
theorem AllStem.last (h : AllStem ts xs) : AllStem ts (xs ++ []) := by
  rw [List.append_nil]
  exact h

theorem stemFrom_cond {t y n : Expr} (l : Nat) (ht : StemFrom as t) (hy : StemFrom bs y)
    (hn : StemFrom cs n) : StemFrom (as ++ (bs ++ cs)) (.cond t y n l) := by
  unfold StemFrom
  rw [Expr.leaves_cond]
  exact AllStem.append ht (AllStem.append hy hn)

theorem stemFrom_binary {a b : Expr} (op : BinOp) (l : Nat) (ha : StemFrom as a)
    (hb : StemFrom bs b) : StemFrom (as ++ bs) (.binary op a b l) := by
  unfold StemFrom
  rw [Expr.leaves_binary]
  exact AllStem.append ha hb

theorem stemFrom_filter {es : List Expr} (x : String) (l : Nat) (he : StemFrom as e)
    (hes : AllStem bs (es.flatMap Expr.leaves)) : StemFrom (as ++ bs) (.filter e x es l) := by
  unfold StemFrom
  rw [Expr.leaves_filter]
  exact AllStem.append he hes

theorem stemFrom_array {es : Elements} (l : Nat)
    (h : AllStem ts (es.flatMap fun p => p.1.leaves ++ p.2.leaves)) :
    StemFrom ts (.array es l) := by
  unfold StemFrom
  rw [Expr.leaves_array]
  exact h

/-- An item with its index before it. -/
theorem StemFrom.item (i : Nat) (h : StemFrom ts e) :
    AllStem (none :: ts) ((Expr.number (indexKey i) e.line).leaves ++ e.leaves) :=
  .cons ⟨_, _, rfl⟩ h

/-- A token stands for a leaf, on its own line. -/
theorem of_atom? {t : Token} (h : atom? t = some e) : e.leaves = [e] ∧ e.line = t.line := by
  rcases atom?_eq_some h with ⟨v, rfl⟩ | ⟨x, -, rfl⟩ <;> exact ⟨rfl, rfl⟩

theorem of_keyAtom? {t : Token} (h : keyAtom? t = some e) : e.leaves = [e] ∧ e.line = t.line := by
  obtain ⟨v, rfl⟩ := keyAtom?_eq_some h
  exact ⟨rfl, rfl⟩

theorem stemFrom_atom {t : Token} (h : atom? t = some e) : StemFrom [some t] e := by
  unfold StemFrom
  rw [(of_atom? h).1]
  exact .cons (Or.inl h) .nil

theorem stemFrom_word {t : Token} (h : keyAtom? t = some e) : StemFrom [some t] e := by
  unfold StemFrom
  rw [(of_keyAtom? h).1]
  exact .cons (Or.inr h) .nil

theorem Stems.line {t : Token} (h : Stems (some t) e) : e.line = t.line := by
  rcases h with h | h
  · exact (of_atom? h).2
  · exact (of_keyAtom? h).2

end Parts

/-- The leaves of what a derivation stands for stem from given tokens.  What follows an operand adds
its leaves behind those of the operand. -/
def Symbol.StemFrom (ts : List (Option Token)) : (s : Symbol) → s.Meaning → Prop
  | .expr | .chain _ | .primary | .key => Grammar.StemFrom ts
  | .operators _ | .filters => fun (f : Expr → Expr) =>
    ∀ us e, Grammar.StemFrom us e → Grammar.StemFrom (us ++ ts) (f e)
  | .arguments | .expressions => fun (es : List Expr) => AllStem ts (es.flatMap Expr.leaves)
  | .items =>
    fun (f : Nat → Elements) => ∀ i, AllStem ts ((f i).flatMap fun p => p.1.leaves ++ p.2.leaves)
  | .entries => fun (es : Elements) => AllStem ts (es.flatMap fun p => p.1.leaves ++ p.2.leaves)

namespace Derivation

/-- The leaves of what a derivation stands for stem from its tokens, one after another. -/
theorem stemFrom {s : Symbol} (d : Derivation s) : s.StemFrom d.sources d.meaning := by
  induction d with
  | plain c ih => exact ih
  | conditional t q y c n iht ihy ihn => exact stemFrom_cond _ iht ihy ihn
  | binary _ e rest ihe ihr | post _ e rest ihe ihr => exact ihr _ _ ihe
  | noOperator | noFilter =>
    intro us e he
    rw [sources, List.append_nil]
    exact he
  | operator op sign _ e rest ihe ihr =>
    intro us left hleft
    have hrest := ihr _ _ (stemFrom_binary op sign.line hleft ihe)
    rw [List.append_assoc] at hrest
    exact hrest
  | filter bar x name args rest iha ihr =>
    intro us operand hoperand
    have hrest := ihr _ _ (stemFrom_filter x bar.1.line hoperand iha)
    rw [List.append_assoc] at hrest
    exact hrest
  | bare | noArgument _ _ | noEntry => exact .nil
  | someArguments _ args _ ih => exact ih
  | lastExpression e ih => exact AllStem.last ih
  | expression e _ rest ihe ihr => exact AllStem.append ihe ihr
  | atom t e h => exact stemFrom_atom h
  | word t e h => exact stemFrom_word h
  | parenthesized _ e _ ih | computed _ e _ ih => exact ih
  | list o items _ ih => exact stemFrom_array _ (ih 0)
  | hash o entries _ ih => exact stemFrom_array _ ih
  | noItem => exact fun _ => .nil
  | lastItem e ih => exact fun i => AllStem.last (StemFrom.item i ih)
  | item e _ rest ihe ihr => exact fun i => AllStem.append (StemFrom.item i ihe) (ihr (i + 1))
  | lastEntry k _ e ihk ihe => exact AllStem.last (AllStem.append ihk ihe)
  | entry k _ e _ rest ihk ihe ihr => exact AllStem.append (AllStem.append ihk ihe) ihr

theorem sublist_bracketed {ts us : List Token} (h : ts.Sublist us) (o c : Token) :
    ts.Sublist (o :: (us ++ [c])) :=
  (h.trans (List.sublist_append_left us [c])).cons o

/-- The tokens that leaves stem from are tokens of the derivation, in the order of the text. -/
theorem sources_sublist {s : Symbol} (d : Derivation s) :
    d.sources.reduceOption.Sublist d.yield := by
  induction d with
  | plain c ih => exact ih
  | conditional t q y c n iht ihy ihn =>
    rw [sources, List.reduceOption_append, List.reduceOption_append]
    exact iht.append ((ihy.append (ihn.cons c.1)).cons q.1)
  | binary _ e rest ihe ihr | post _ e rest ihe ihr =>
    rw [sources, List.reduceOption_append]
    exact ihe.append ihr
  | operator op sign _ e rest ihe ihr =>
    rw [sources, List.reduceOption_append]
    exact (ihe.append ihr).cons sign
  | filter bar x name args rest iha ihr =>
    rw [sources, List.reduceOption_append]
    exact ((iha.append ihr).cons name.1).cons bar.1
  | noOperator | noFilter | bare | noItem | noEntry => exact .slnil
  | noArgument o c => exact List.nil_sublist _
  | someArguments o args c ih => exact sublist_bracketed ih o.1 c.1
  | lastExpression e ih | lastItem e ih => exact ih
  | expression e comma rest ihe ihr | item e comma rest ihe ihr =>
    have hboth : (e.sources ++ rest.sources).reduceOption.Sublist
        (e.yield ++ comma.1 :: rest.yield) := by
      rw [List.reduceOption_append]
      exact ihe.append (ihr.cons comma.1)
    exact hboth
  | atom t e _ | word t e _ => exact .refl [t]
  | parenthesized o e c ih | computed o e c ih => exact sublist_bracketed ih o.1 c.1
  | list o items c ih => exact sublist_bracketed ih o.1 c.1
  | hash o entries c ih => exact sublist_bracketed ih o.1 c.1
  | lastEntry k colon e ihk ihe =>
    rw [sources, List.reduceOption_append]
    exact ihk.append (ihe.cons colon.1)
  | entry k colon e comma rest ihk ihe ihr =>
    rw [sources, List.append_assoc, List.reduceOption_append, List.reduceOption_append]
    exact ihk.append ((ihe.append (ihr.cons comma.1)).cons colon.1)

end Derivation

/-! ### Where leaves stand -/

/-- The text `inner` stands behind the text `before`: a leaf that stems from a token of `inner`
stands on the line that this token starts on, counted from the beginning. -/
def StandsIn (before inner : List Char) (source : Option Token) (leaf : Expr) : Prop :=
  Stems source leaf ∧ ∀ t ∈ source, ∃ front raw back, inner = front ++ (raw ++ back) ∧
    t.lexeme.Spelt raw ∧ t.start = byteLength front ∧ leaf.line = 1 + lineEnds (before ++ front)

end Grammar

/-- An expression that is read from the text `inner` behind the text `before`: its constants and
names stand on the lines of the tokens that they stem from. -/
def Expr.LeavesIn (before inner : List Char) (e : Expr) : Prop :=
  ∃ d : Grammar.Derivation .expr, d.yield = Token.ofText (.ofList inner) (1 + lineEnds before) ∧
    d.tree = e ∧ List.Forall₂ (Grammar.StandsIn before inner) d.sources e.leaves

open Grammar in
theorem Expr.leavesIn_of_parse {before inner : List Char} {e : Expr}
    (h : Expr.parse (.ofList inner) (1 + lineEnds before) = .ok e) : e.LeavesIn before inner := by
  obtain ⟨hclean, d, hyield, rfl⟩ := Expr.exists_derivation h
  have hlayout := Token.layout_ofText (.ofList inner) (1 + lineEnds before)
  rw [String.toList_ofList] at hlayout
  have hplace : ∀ source ∈ d.sources, ∀ t ∈ source, ∃ front raw back,
      inner = front ++ (raw ++ back) ∧ t.lexeme.Spelt raw ∧ t.start = byteLength front ∧
      t.line = 1 + lineEnds (before ++ front) := by
    rintro source hsource t rfl
    have ht : t ∈ Token.ofText (.ofList inner) (1 + lineEnds before) :=
      hyield ▸ d.sources_sublist.subset (List.reduceOption_mem_iff.2 hsource)
    obtain ⟨ts₁, ts₂, hts⟩ := List.append_of_mem ht
    obtain ⟨front, raw, back, hinner, hraw, hstart, hline, -⟩ := (hts ▸ hlayout).cut (hclean t ht)
    refine ⟨front, raw, back, hinner, hraw, by omega, ?_⟩
    simp [hline, Nat.add_assoc]
  refine ⟨d, hyield, rfl, ((List.forall₂_and_left _ _).2 ⟨hplace, d.stemFrom⟩).imp ?_⟩
  rintro source leaf ⟨hstands, hstems⟩
  refine ⟨hstems, ?_⟩
  rintro t rfl
  obtain ⟨front, raw, back, hinner, hraw, hstart, hline⟩ := hstands t rfl
  exact ⟨front, raw, back, hinner, hraw, hstart, hstems.line.trans hline⟩

end Phrasebook
