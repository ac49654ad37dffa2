import Phrasebook.Proofs.DefaultsPutIn
import Phrasebook.Proofs.Evaluation
import Phrasebook.Proofs.Grammar

/-!
# The lines of nodes and errors

Errors point at the line of a node.  What is known of the lines of the nodes of an expression is
therefore known of its errors: `N x l` says that the name `x` stands on the line `l`, `F x l` that a
filter `x` is applied there, and `L l` that there is such a line.

* `Expr.Placed` : what is known of the top of an expression;
* `Grammar.Fits`, `Grammar.Derivation.placed` : tokens of which it is known stand for expressions of
  which it is known;
* `Error.Grounded` : what is known of an error;
* `Expr.meets_eval` : the errors of evaluation are grounded where the nodes are placed;
* `DefaultPass.meets_run_placed` : the default-message pass leaves placed nodes, and its errors are
  grounded.
-/

namespace Phrasebook

open Outcome

section Lines

variable (N F : String → Nat → Prop) (L : Nat → Prop)

/-- What is known of the line at the top of an expression.  The filter that puts parameters into a
default need not stand in the text. -/
def Expr.Placed : Expr → Prop
  | .name x l => L l ∧ N x l
  | .filter _ x _ l => L l ∧ (F x l ∨ x = Chain.replaceFilter)
  | .choice _ _ l => L l
  | _ => True

/-- It is known of all nodes of an expression. -/
def Expr.AllPlaced (e : Expr) : Prop := ∀ a ∈ e.nodes, a.Placed N F L

/-- What is known of the line of an error; a variable that is missed is missing in the context. -/
def Error.Grounded (context : Context) : Error → Prop
  | .missingTrans l | .missingDefault l | .argument _ l | .parse _ _ l => L l
  | .undefinedVariable x l => L l ∧ N x l ∧ context.get? x = none
  | .unknownFilter x l => L l ∧ F x l
  | .configuration | .runaway _ => False

end Lines

variable {N F : String → Nat → Prop} {L : Nat → Prop}

/-! ### Nodes -/

namespace Expr

variable {e : Expr}

theorem allPlaced_iff :
    e.AllPlaced N F L ↔ e.Placed N F L ∧ ∀ c ∈ e.children, c.AllPlaced N F L := by
  constructor
  · exact fun h => ⟨h e (self_mem_nodes e), fun c hc a ha => h a (mem_nodes_of_child hc ha)⟩
  · rintro ⟨htop, hchild⟩ a ha
    rcases mem_nodes.1 ha with rfl | ⟨c, hc, ha⟩
    · exact htop
    · exact hchild c hc a ha

theorem AllPlaced.top (h : e.AllPlaced N F L) : e.Placed N F L := (allPlaced_iff.1 h).1

theorem AllPlaced.child {c : Expr} (h : e.AllPlaced N F L) (hc : c ∈ e.children) :
    c.AllPlaced N F L :=
  (allPlaced_iff.1 h).2 c hc

/-- What is known of all nodes of an expression is known of those of any expression in it. -/
theorem AllPlaced.node {b : Expr} (h : e.AllPlaced N F L) (hb : b ∈ e.nodes) :
    b.AllPlaced N F L := by
  induction e using children_induction with
  | step e ih =>
    rcases mem_nodes.1 hb with rfl | ⟨c, hc, hb⟩
    · exact h
    · exact ih c hc (h.child hc) hb

theorem allPlaced_const (v : Literal) (l : Nat) : (Expr.const v l).AllPlaced N F L :=
  allPlaced_iff.2 ⟨trivial, nofun⟩

theorem allPlaced_array {es : List (Expr × Expr)} (l : Nat)
    (h : ∀ p ∈ es, p.1.AllPlaced N F L ∧ p.2.AllPlaced N F L) :
    (Expr.array es l).AllPlaced N F L := by
  refine allPlaced_iff.2 ⟨trivial, fun c hc => ?_⟩
  obtain ⟨p, hp, hc⟩ := List.mem_flatMap.1 hc
  simp only [List.mem_cons, List.not_mem_nil, or_false] at hc
  rcases hc with rfl | rfl
  · exact (h p hp).1
  · exact (h p hp).2

theorem allPlaced_filter {x : String} {as : List Expr} {l : Nat}
    (htop : L l ∧ (F x l ∨ x = Chain.replaceFilter)) (he : e.AllPlaced N F L)
    (has : ∀ a ∈ as, a.AllPlaced N F L) : (Expr.filter e x as l).AllPlaced N F L := by
  refine allPlaced_iff.2 ⟨htop, fun c hc => ?_⟩
  rcases List.mem_cons.1 hc with rfl | hc
  · exact he
  · exact has c hc

theorem allPlaced_cond {t y n : Expr} (l : Nat) (ht : t.AllPlaced N F L) (hy : y.AllPlaced N F L)
    (hn : n.AllPlaced N F L) : (Expr.cond t y n l).AllPlaced N F L := by
  refine allPlaced_iff.2 ⟨trivial, fun c hc => ?_⟩
  simp only [children, List.mem_cons, List.not_mem_nil, or_false] at hc
  rcases hc with rfl | rfl | rfl
  · exact ht
  · exact hy
  · exact hn

theorem allPlaced_binary {a b : Expr} (op : BinOp) (l : Nat) (ha : a.AllPlaced N F L)
    (hb : b.AllPlaced N F L) : (Expr.binary op a b l).AllPlaced N F L := by
  refine allPlaced_iff.2 ⟨trivial, fun c hc => ?_⟩
  simp only [children, List.mem_cons, List.not_mem_nil, or_false] at hc
  rcases hc with rfl | rfl
  · exact ha
  · exact hb

theorem ofTop_placed : OfTop (Placed N F L) := by
  intro R a b h ha
  cases h <;> exact ha

end Expr

/-! ### Derivations -/

namespace Grammar

section Tokens

variable (N F L)

/-- What is known of the lines of tokens: of each one, of identifiers, and of bars before
identifiers. -/
structure Fits (ts : List Token) : Prop where
  line : ∀ t ∈ ts, L t.line
  name : ∀ t ∈ ts, ∀ x, t.lexeme = .ident x → N x t.line
  filter : ∀ b t x, [b, t] <:+: ts → b.lexeme = .operator .bar → t.lexeme = .ident x → F x b.line

/-- What is known of all nodes that a derivation stands for. -/
def Symbol.Placed : (s : Symbol) → s.Meaning → Prop
  | .expr | .chain _ | .primary | .key => Expr.AllPlaced N F L
  | .operators _
  | .filters => fun (f : Expr → Expr) => ∀ e, Expr.AllPlaced N F L e → Expr.AllPlaced N F L (f e)
  | .arguments | .expressions => fun (es : List Expr) => ∀ e ∈ es, Expr.AllPlaced N F L e
  | .items =>
    fun (f : Nat → Elements) => ∀ i, ∀ p ∈ f i, Expr.AllPlaced N F L p.1 ∧ Expr.AllPlaced N F L p.2
  | .entries => fun (es : Elements) => ∀ p ∈ es, Expr.AllPlaced N F L p.1 ∧ Expr.AllPlaced N F L p.2

end Tokens

namespace Fits

variable {as bs ts : List Token} {t : Token}

theorem of_infix (h : Fits N F L ts) (hs : as <:+: ts) : Fits N F L as where
  line t ht := h.line t (hs.subset ht)
  name t ht := h.name t (hs.subset ht)
  filter b t x hbt := h.filter b t x (hbt.trans hs)

theorem left (h : Fits N F L (as ++ bs)) : Fits N F L as :=
  h.of_infix (List.prefix_append as bs).isInfix

theorem right (h : Fits N F L (as ++ bs)) : Fits N F L bs :=
  h.of_infix (List.suffix_append as bs).isInfix

theorem tail (h : Fits N F L (t :: ts)) : Fits N F L ts :=
  h.of_infix (List.suffix_cons t ts).isInfix

theorem head (h : Fits N F L (t :: ts)) : L t.line := h.line t (List.mem_cons_self ..)

end Fits

theorem placed_of_atom? {t : Token} {e : Expr} (h : atom? t = some e) (ht : Fits N F L [t]) :
    e.AllPlaced N F L := by
  rcases atom?_eq_some h with ⟨v, rfl⟩ | ⟨x, hx, rfl⟩
  · exact Expr.allPlaced_const _ _
  · exact Expr.allPlaced_iff.2 ⟨⟨ht.head, ht.name t (List.mem_singleton_self t) x hx⟩, nofun⟩

theorem placed_of_keyAtom? {t : Token} {e : Expr} (h : keyAtom? t = some e) :
    e.AllPlaced N F L := by
  obtain ⟨v, rfl⟩ := keyAtom?_eq_some h
  exact Expr.allPlaced_const _ _

/-- Tokens of which it is known where they stand are derived as expressions of which it is known. -/
theorem Derivation.placed {s : Symbol} (d : Derivation s) (h : Fits N F L d.yield) :
    s.Placed N F L d.meaning := by
  induction d with
  | plain c ih => exact ih h
  | conditional t q y c n iht ihy ihn =>
    exact Expr.allPlaced_cond _ (iht h.left) (ihy h.right.tail.left) (ihn h.right.tail.right.tail)
  | binary _ e rest ihe ihr => exact ihr h.right _ (ihe h.left)
  | post _ e rest ihe ihr => exact ihr h.right _ (ihe h.left)
  | noOperator => exact fun e he => he
  | operator op sign _ e rest ihe ihr =>
    exact fun left hleft => ihr h.tail.right _ (Expr.allPlaced_binary op _ hleft (ihe h.tail.left))
  | noFilter => exact fun e he => he
  | filter bar x name args rest iha ihr =>
    intro operand hoperand
    have hfilter : F x bar.1.line :=
      h.filter bar.1 name.1 x ⟨[], args.yield ++ rest.yield, rfl⟩ bar.2 name.2
    exact ihr h.tail.tail.right _
      (Expr.allPlaced_filter ⟨h.head, Or.inl hfilter⟩ hoperand (iha h.tail.tail.left))
  | bare => exact nofun
  | noArgument o c => exact nofun
  | someArguments o args c ih => exact ih h.tail.left
  | lastExpression e ih =>
    intro a ha
    rw [List.mem_singleton.1 ha]
    exact ih h
  | expression e comma rest ihe ihr =>
    intro a ha
    rcases List.mem_cons.1 ha with rfl | ha
    · exact ihe h.left
    · exact ihr h.right.tail a ha
  | atom t e he => exact placed_of_atom? he h
  | parenthesized o e c ih => exact ih h.tail.left
  | list o items c ih => exact Expr.allPlaced_array _ (ih h.tail.left 0)
  | hash o entries c ih => exact Expr.allPlaced_array _ (ih h.tail.left)
  | noItem => exact fun i => nofun
  | lastItem e ih =>
    intro i p hp
    rw [List.mem_singleton.1 hp]
    exact ⟨Expr.allPlaced_const _ _, ih h⟩
  | item e comma rest ihe ihr =>
    intro i p hp
    rcases List.mem_cons.1 hp with rfl | hp
    · exact ⟨Expr.allPlaced_const _ _, ihe h.left⟩
    · exact ihr h.right.tail _ p hp
  | noEntry => exact nofun
  | lastEntry k colon e ihk ihe =>
    intro p hp
    rw [List.mem_singleton.1 hp]
    exact ⟨ihk h.left, ihe h.right.tail⟩
  | entry k colon e comma rest ihk ihe ihr =>
    intro p hp
    rcases List.mem_cons.1 hp with rfl | hp
    · exact ⟨ihk h.left, ihe h.right.tail.left⟩
    · exact ihr h.right.tail.right.tail p hp
  | word t e he => exact placed_of_keyAtom? he
  | computed o e c ih => exact ih h.tail.left

end Grammar

/-! ### Evaluation -/

abbrev Error.IsArgumentOn (l : Nat) (err : Error) : Prop := ∃ cause, err = .argument cause l

namespace Filter

theorem meets_parametersAt (args : List Value) (i l : Nat) :
    Meets (fun _ => True) (Error.IsArgumentOn l) (parametersAt args i l) := by
  unfold parametersAt
  split
  · trivial
  · trivial
  · trivial
  · exact ⟨_, rfl⟩

theorem meets_stringAt (args : List Value) (i l : Nat) :
    Meets (fun _ => True) (Error.IsArgumentOn l) (stringAt args i l) := by
  unfold stringAt
  split
  · trivial
  · trivial
  · trivial
  · exact ⟨_, rfl⟩

theorem meets_trans (loc : Localizer) (locale : Option String) (operand : Value) (args : List Value)
    (l : Nat) : Meets (fun _ => True) (Error.IsArgumentOn l) (trans loc locale operand args l) :=
  (meets_parametersAt args 0 l).bind fun _ _ => (meets_stringAt args 1 l).bind fun _ _ =>
    (meets_stringAt args 2 l).bind fun _ _ => trivial

/-- A filter fails for its arguments, or for its name, which is not that of the filter that puts
parameters in. -/
theorem meets_apply (loc : Localizer) (locale : Option String) (x : String) (operand : Value)
    (args : List Value) (l : Nat) :
    Meets (fun _ => True)
      (fun err => Error.IsArgumentOn l err ∨ (err = .unknownFilter x l ∧ x ≠ Chain.replaceFilter))
      (apply loc locale x operand args l) := by
  unfold apply
  split
  · exact (meets_trans loc locale operand args l).mono (fun _ h => h) fun err h => Or.inl h
  split
  · refine Meets.bind ((meets_parametersAt args 0 l).mono (fun _ h => h) fun err h => Or.inl h) ?_
    exact fun _ _ => trivial
  split
  · trivial
  split
  · trivial
  split
  · trivial
  split
  · trivial
  · next h _ _ _ _ => exact Or.inr ⟨rfl, h⟩

/-- A choice fails for its arguments. -/
theorem meets_choice (loc : Localizer) (locale : Option String) (args : List Value) (l : Nat) :
    Meets (fun _ => True) (Error.IsArgumentOn l) (choice loc locale args l) := by
  unfold choice
  split
  · exact (meets_parametersAt _ 2 l).bind fun _ _ => (meets_stringAt _ 3 l).bind fun _ _ =>
      (meets_stringAt _ 4 l).bind fun _ _ => trivial
  · exact ⟨_, rfl⟩

end Filter

namespace Expr

section Lists

variable {s : Scope} {E : Error → Prop}

theorem meets_evalList {es : List Expr} (h : ∀ e ∈ es, Meets (fun _ => True) E (e.eval s)) :
    Meets (fun _ => True) E (evalList s es) := by
  induction es with
  | nil => trivial
  | cons e es ih =>
    exact (h e (List.mem_cons_self ..)).bind fun _ _ =>
      (ih fun a ha => h a (List.mem_cons_of_mem _ ha)).bind fun _ _ => trivial

theorem meets_evalValues {es : List (Expr × Expr)}
    (h : ∀ p ∈ es, Meets (fun _ => True) E (p.2.eval s)) :
    Meets (fun _ => True) E (evalValues s es) := by
  induction es with
  | nil => trivial
  | cons p es ih =>
    exact (h p (List.mem_cons_self ..)).bind fun _ _ =>
      (ih fun a ha => h a (List.mem_cons_of_mem _ ha)).bind fun _ _ => trivial

theorem meets_evalEntries {es : List (Expr × Expr)}
    (h : ∀ p ∈ es, Meets (fun _ => True) E (p.1.eval s) ∧ Meets (fun _ => True) E (p.2.eval s)) :
    Meets (fun _ => True) E (evalEntries s es) := by
  induction es with
  | nil => trivial
  | cons p es ih =>
    obtain ⟨hkey, hvalue⟩ := h p (List.mem_cons_self ..)
    exact hkey.bind fun _ _ => hvalue.bind fun _ _ =>
      (ih fun a ha => h a (List.mem_cons_of_mem _ ha)).bind fun _ _ => trivial

end Lists

/-- The errors of evaluation are grounded where all nodes are placed. -/
theorem meets_eval (s : Scope) (e : Expr) (h : e.AllPlaced N F L) :
    Meets (fun _ => True) (Error.Grounded N F L s.context) (e.eval s) := by
  induction e using children_induction with
  | step e ih =>
    have hchild :
        ∀ c ∈ e.children, Meets (fun _ => True) (Error.Grounded N F L s.context) (c.eval s) :=
      fun c hc => ih c hc (h.child hc)
    have htop := h.top
    cases e with
    | const v l => trivial
    | name x l =>
      rw [eval]
      cases hx : s.context.get? x with
      | some v => trivial
      | none => exact ⟨htop.1, htop.2, hx⟩
    | array es l =>
      refine (meets_evalEntries fun p hp => ⟨?_, ?_⟩).bind fun _ _ => trivial
      · exact hchild p.1 (List.mem_flatMap.2 ⟨p, hp, by simp⟩)
      · exact hchild p.2 (List.mem_flatMap.2 ⟨p, hp, by simp⟩)
    | filter e x as l =>
      refine (hchild e (List.mem_cons_self ..)).bind fun v _ =>
        (meets_evalList fun a ha => hchild a (List.mem_cons_of_mem _ ha)).bind fun vs _ => ?_
      refine (Filter.meets_apply s.localizer s.locale x v vs l).mono (fun _ _ => trivial) ?_
      rintro err (⟨cause, rfl⟩ | ⟨rfl, hx⟩)
      · exact htop.1
      · exact ⟨htop.1, htop.2.resolve_right hx⟩
    | cond t y n l =>
      rw [eval_cond]
      refine (hchild t (by simp [children])).bind fun v _ => ?_
      split
      · exact hchild y (by simp [children])
      · exact hchild n (by simp [children])
    | binary op a b l =>
      rw [eval]
      refine (hchild a (by simp [children])).bind fun v _ => ?_
      split
      · trivial
      · exact (hchild b (by simp [children])).bind fun _ _ => trivial
    | choice es k l =>
      refine (meets_evalValues fun p hp => hchild p.2 (List.mem_flatMap.2 ⟨p, hp, by simp⟩)).bind
        fun vs _ => ?_
      refine (Filter.meets_choice s.localizer s.locale vs l).mono (fun _ _ => trivial) ?_
      rintro err ⟨cause, rfl⟩
      exact htop

end Expr

/-! ### Putting defaults in -/

namespace Chain

variable {f : Application} {c : Chain}

theorem placed_testArgs (h : ∀ a ∈ c.wrapping.args, a.AllPlaced N F L) :
    ∀ a ∈ c.testArgs, a.AllPlaced N F L := by
  intro a ha
  unfold testArgs at ha
  split at ha
  · next p rest _ hargs =>
    rcases List.mem_cons.1 ha with rfl | ha
    · exact Expr.allPlaced_array _ nofun
    · exact h a (hargs ▸ List.mem_cons_of_mem _ ha)
  · exact h a ha

theorem placed_filledDefault (hline : L c.wrapping.line) (hdefault : c.default.AllPlaced N F L)
    (h : ∀ a ∈ c.wrapping.args, a.AllPlaced N F L) : c.filledDefault.AllPlaced N F L := by
  unfold filledDefault
  split
  · next p rest _ hargs =>
    refine Expr.allPlaced_filter ⟨hline, Or.inr rfl⟩ hdefault fun a ha => ?_
    rw [List.mem_singleton.1 ha]
    exact h p (hargs ▸ List.mem_cons_self ..)
  · exact hdefault

/-- All nodes of what stands in for a chain are placed where those of the chain are: it stands on
the line of the filter below `desc`. -/
theorem placed_replacement (h : ofFilter? f = .ok (some c)) (hf : f.toExpr.AllPlaced N F L) :
    c.replacement.AllPlaced N F L := by
  obtain ⟨-, hoperand, htrans, hdefault⟩ := parts_of_ofFilter? h
  have hwrap : c.wrapping.toExpr.AllPlaced N F L := hoperand ▸ hf.child (List.mem_cons_self ..)
  have hdef : c.default.AllPlaced N F L := hf.child (List.mem_cons_of_mem _ hdefault)
  have htransNode : c.trans.toExpr.AllPlaced N F L :=
    hwrap.node (hoperand ▸ Expr.mem_nodes_of_findTrans? htrans)
  have hmessage : c.trans.operand.AllPlaced N F L := htransNode.child (List.mem_cons_self ..)
  have hbelow : c.wrapping.operand.AllPlaced N F L := hwrap.child (List.mem_cons_self ..)
  have hargs : ∀ a ∈ c.wrapping.args, a.AllPlaced N F L :=
    fun a ha => hwrap.child (List.mem_cons_of_mem _ ha)
  have hconditional : c.conditional.AllPlaced N F L :=
    Expr.allPlaced_cond _
      (Expr.allPlaced_binary _ _ (Expr.allPlaced_filter hwrap.top hbelow (placed_testArgs hargs))
        hmessage)
      (placed_filledDefault hwrap.top.1 hdef hargs) hwrap
  have hchoice : c.choice.AllPlaced N F L := by
    refine Expr.allPlaced_iff.2 ⟨hwrap.top.1, fun a ha => ?_⟩
    obtain ⟨e, he, ha⟩ := List.mem_flatMap.1 ha
    obtain ⟨⟨x, l, hkey⟩, hval⟩ := (Elements.mem_foldl_add he).resolve_left List.not_mem_nil
    simp only [List.mem_cons, List.not_mem_nil, or_false] at ha hval
    rcases ha with rfl | rfl
    · rw [hkey]
      exact Expr.allPlaced_const _ _
    · rcases hval with hval | hval | hval
      · rw [hval]
        exact hbelow
      · rw [hval]
        exact hdef
      · exact hargs _ hval
  unfold replacement
  split
  · exact hchoice
  · exact hconditional
  · exact hconditional

end Chain

/-- The default-message pass leaves placed nodes of placed ones, and its errors are grounded. -/
theorem DefaultPass.meets_run_placed (context : Context) {e : Expr} (he : e.AllPlaced N F L) :
    Meets (Expr.AllPlaced N F L) (Error.Grounded N F L context) (pass.run e) := by
  have henter : ∀ e : Expr, e.AllPlaced N F L →
      Meets (fun r => r.Placed N F L ∧ ∀ c ∈ r.children, c.AllPlaced N F L)
      (Error.Grounded N F L context)
        (pass.enter e) := by
    intro e he
    refine (meets_enter e).mono ?_ ?_
    · rintro r (⟨rfl, -⟩ | ⟨f, c, rfl, hchain, rfl⟩)
      · exact Expr.allPlaced_iff.1 he
      · exact Expr.allPlaced_iff.1 (Chain.placed_replacement hchain he)
    · rintro err ⟨f, rfl, -, rfl | rfl⟩
      · exact he.top.1
      · exact he.top.1
  exact Pass.meets_walk lightens_weight leave_eq Expr.ofTop_placed henter
    e.weight_lt_two_mul_depth he

end Phrasebook
