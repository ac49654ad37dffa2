import Phrasebook.Proofs.DebugRefinement
import Phrasebook.Proofs.DefaultsPutIn

/-!
# Annotated chains

`meaning` filters between the `trans` and the `desc` of a chain, in the debug engine.

* `Annotation`, `Expr.annotate` : `meaning` filters with constants for arguments, and an expression
  below a list of them;
* `Expr.staged` : what becomes of an expression that is compiled first and evaluated then, with one
  equation for each node;
* `Expr.staged_annotate` : annotations do not change what becomes of an expression;
* `Chain.noted`, `Chain.staged_annotated` : what stands in for an annotated chain takes its
  arguments from the last annotation;
* `Engine.printed_annotated` : what the debug engine renders for an annotated chain, and when that
  is what it renders for the chain without annotations;
* `Engine.annotation_changes_text` : chains where it is not.
-/

namespace Phrasebook

open Outcome

/-- The filter that notes what a message means. -/
def meaningFilter : String := "meaning"

/-! ### Annotations -/

namespace Expr

/-- A literal, or a list or hash of constants. -/
def IsConstant (e : Expr) : Prop :=
  ∀ a ∈ e.nodes, match a with
    | .const _ _ | .array _ _ => True
    | _ => False

variable {e : Expr}

theorem IsConstant.child {c : Expr} (h : e.IsConstant) (hc : c ∈ e.children) : c.IsConstant :=
  fun a ha => h a (mem_nodes_of_child hc ha)

/-- The default-message pass keeps constants. -/
theorem IsConstant.run_eq (h : e.IsConstant) : DefaultPass.pass.run e = .ok e := by
  refine DefaultPass.run_eq_self fun f hf => ?_
  exact (h f.toExpr (mem_filters.1 hf)).elim

theorem exists_evalEntries {s : Scope} {es : List (Expr × Expr)}
    (h : ∀ c ∈ es.flatMap fun e => [e.1, e.2], ∃ v, c.eval s = .ok v) :
    ∃ vs, evalEntries s es = .ok vs := by
  induction es with
  | nil => exact ⟨[], rfl⟩
  | cons e es ih =>
    obtain ⟨k, hk⟩ := h e.1 (by simp)
    obtain ⟨v, hv⟩ := h e.2 (by simp)
    obtain ⟨vs, hvs⟩ := ih fun c hc => h c (by
      rw [List.flatMap_cons]
      exact List.mem_append_right _ hc)
    exact ⟨(k.text, v) :: vs, by rw [evalEntries, hk, hv, hvs]; rfl⟩

/-- Constants have values. -/
theorem IsConstant.exists_eval (s : Scope) (h : e.IsConstant) : ∃ v, e.eval s = .ok v := by
  induction e using children_induction with
  | step e ih =>
    have htop := h e (self_mem_nodes e)
    cases e with
    | const v l => exact ⟨_, rfl⟩
    | array es l =>
      obtain ⟨vs, hvs⟩ := exists_evalEntries fun c hc => ih c hc (h.child hc)
      exact ⟨_, by rw [eval, hvs]; rfl⟩
    | _ => exact htop.elim

theorem run_constants {as : List Expr} (h : ∀ a ∈ as, a.IsConstant) :
    as.mapM DefaultPass.pass.run = .ok as := by
  induction as with
  | nil => rfl
  | cons a as ih =>
    rw [List.mapM_cons, (h a (List.mem_cons_self ..)).run_eq,
      ih fun b hb => h b (List.mem_cons_of_mem _ hb)]
    rfl

theorem eval_constants {as : List Expr} (s : Scope) (h : ∀ a ∈ as, a.IsConstant) :
    ∃ vs, evalList s as = .ok vs := by
  induction as with
  | nil => exact ⟨[], rfl⟩
  | cons a as ih =>
    obtain ⟨v, hv⟩ := (h a (List.mem_cons_self ..)).exists_eval s
    obtain ⟨vs, hvs⟩ := ih fun b hb => h b (List.mem_cons_of_mem _ hb)
    exact ⟨v :: vs, evalList_cons hv hvs⟩

end Expr

/-- An annotation of a message: the arguments of a `meaning` filter, and the line it stands on. -/
structure Annotation where
  args : List Expr
  line : Nat
  isConstant : ∀ a ∈ args, a.IsConstant

def Annotation.on (n : Annotation) (e : Expr) : Expr := .filter e meaningFilter n.args n.line

/-- An expression with annotations, the first one innermost. -/
def Expr.annotate (e : Expr) (notes : List Annotation) : Expr := notes.foldl (fun e n => n.on e) e

/-! ### Compiled, then evaluated -/

namespace Expr

/-- What becomes of an expression in the debug engine: the outcome of the default-message pass and,
where that succeeds, the outcome of the evaluation. -/
def staged (s : Scope) (e : Expr) : Except Error (Except Error Value) :=
  (DefaultPass.pass.run e).map (eval s)

def stagedList (s : Scope) (es : List Expr) : Except Error (Except Error (List Value)) :=
  (es.mapM DefaultPass.pass.run).map (evalList s)

def stagedText (s : Scope) (e : Expr) : Except Error (Except Error String) :=
  (e.staged s).map fun o => o.map Value.text

variable {s : Scope}

theorem run_kept {e : Expr} (h : DefaultPass.NoDesc e) :
    DefaultPass.pass.run e = e.mapChildrenM DefaultPass.pass.run := by
  rw [DefaultPass.run_eq, DefaultPass.enter_eq_self h, ok_bind]

theorem stagedList_cons (e : Expr) (es : List Expr) :
    stagedList s (e :: es) = e.staged s >>= fun o => stagedList s es >>= fun os =>
      .ok (o >>= fun v => os >>= fun vs => .ok (v :: vs)) := by
  unfold stagedList staged
  rw [List.mapM_cons]
  simp only [map_of_bind, bind_of_map]
  rfl

theorem staged_filter {e : Expr} {x : String} (hx : x ≠ descFilter) (as : List Expr) (l : Nat) :
    (filter e x as l).staged s = e.staged s >>= fun o => stagedList s as >>= fun os =>
      .ok (o >>= fun v => os >>= fun vs => Filter.apply s.localizer s.locale x v vs l) := by
  unfold stagedList staged
  rw [run_kept fun f hf => by cases hf; exact hx, mapChildrenM]
  simp only [map_of_bind, bind_of_map]
  rfl

theorem staged_equal (a b : Expr) (l : Nat) :
    (binary .equal a b l).staged s = a.staged s >>= fun o => b.staged s >>= fun o' =>
      .ok (o >>= fun v => o' >>= fun w => .ok (.bool (v.looseEq w))) := by
  unfold staged
  rw [run_kept (fun f hf => by cases hf), mapChildrenM]
  simp only [map_of_bind, bind_of_map]
  rfl

theorem staged_cond (t y n : Expr) (l : Nat) :
    (cond t y n l).staged s =
      t.staged s >>= fun o => y.staged s >>= fun oy => n.staged s >>= fun on =>
        .ok (o >>= fun v => if v.truthy then oy else on) := by
  unfold staged
  rw [run_kept (fun f hf => by cases hf), mapChildrenM]
  simp only [map_of_bind, bind_of_map, pure_eq]
  simp only [Except.map, eval_cond]

theorem stagedText_cond (t y n : Expr) (l : Nat) :
    (cond t y n l).stagedText s =
      t.staged s >>= fun o => y.stagedText s >>= fun oy => n.stagedText s >>= fun on =>
        .ok (o >>= fun v => if v.truthy then oy else on) := by
  unfold stagedText
  rw [staged_cond]
  simp only [map_of_bind, bind_of_map]
  refine bind_congr fun o => bind_congr fun oy => bind_congr fun on => congrArg Except.ok ?_
  refine (map_of_bind o _ _).trans (bind_congr fun v => ?_)
  cases v.truthy <;> rfl

/-- The keys of a choice are numbers, so that only its values count. -/
theorem staged_entries {es : Elements} (h : ∀ e ∈ es, ∃ x l, e.1 = .number x l) :
    (es.mapM (mapPairM DefaultPass.pass.run)).map (evalValues s) =
      stagedList s (Elements.values es) := by
  induction es with
  | nil => rfl
  | cons e es ih =>
    obtain ⟨x, l, hkey⟩ := h e (List.mem_cons_self ..)
    have hconst : DefaultPass.pass.run (.number x l) = .ok (.number x l) :=
      DefaultPass.run_eq_self fun f hf => by cases mem_filters.1 hf with | tail _ h => cases h
    have hpair : mapPairM DefaultPass.pass.run e =
        DefaultPass.pass.run e.2 >>= fun v => .ok (.number x l, v) := by
      unfold mapPairM
      rw [hkey, hconst]
      rfl
    have hvalues : Elements.values (e :: es) = e.2 :: Elements.values es := rfl
    rw [hvalues, stagedList_cons, ← ih fun a ha => h a (List.mem_cons_of_mem _ ha),
      List.mapM_cons, hpair]
    unfold staged
    simp only [map_of_bind, bind_of_map, bind_assoc]
    rfl

theorem staged_choice (es : List Expr) (k l : Nat) :
    (choice (es.foldl (fun es v => Elements.add es v none) []) k l).staged s =
      stagedList s es >>= fun os =>
        .ok (os >>= fun vs => Filter.choice s.localizer s.locale vs l) := by
  have hkeys :
      ∀ e ∈ es.foldl (fun es v => Elements.add es v none) [], ∃ x l, e.1 = .number x l :=
    fun e he => ((Elements.mem_foldl_add he).resolve_left List.not_mem_nil).1
  have hentries := staged_entries (s := s) hkeys
  rw [values_added, show Elements.values [] = [] from rfl, List.nil_append] at hentries
  rw [← hentries]
  unfold staged
  rw [run_kept (fun f hf => by cases hf), mapChildrenM]
  simp only [map_of_bind, bind_of_map]
  rfl

/-! ### What annotations leave as it is -/

theorem stagedList_constants {as : List Expr} (h : ∀ a ∈ as, a.IsConstant) :
    ∃ vs, stagedList s as = .ok (.ok vs) := by
  obtain ⟨vs, hvs⟩ := eval_constants s h
  exact ⟨vs, by unfold stagedList; rw [run_constants h, Except.map, hvs]⟩

/-- A `meaning` filter with constants for arguments passes on what becomes of its operand. -/
theorem staged_meaning (e : Expr) {as : List Expr} (h : ∀ a ∈ as, a.IsConstant) (l : Nat) :
    (filter e meaningFilter as l).staged s = e.staged s := by
  obtain ⟨vs, hvs⟩ := stagedList_constants (s := s) h
  rw [staged_filter (by decide), hvs]
  cases e.staged s with
  | error err => rfl
  | ok o => cases o <;> rfl

/-- Annotations do not change what becomes of an expression. -/
theorem staged_annotate (e : Expr) (notes : List Annotation) :
    (e.annotate notes).staged s = e.staged s := by
  induction notes generalizing e with
  | nil => rfl
  | cons n notes ih => exact (ih (n.on e)).trans (staged_meaning e n.isConstant n.line)

/-- The `trans` filter is found below annotations. -/
theorem findTrans?_annotate (e : Expr) (notes : List Annotation) :
    (e.annotate notes).findTrans? = e.findTrans? := by
  induction notes generalizing e with
  | nil => rfl
  | cons n notes ih => exact (ih (n.on e)).trans (if_neg (by decide))

theorem annotate_concat (e : Expr) (notes : List Annotation) (n : Annotation) :
    e.annotate (notes ++ [n]) = n.on (e.annotate notes) := by
  unfold annotate
  rw [List.foldl_append]
  rfl

/-! ### Arguments without parameters -/

/-- The first argument gives no parameters: it is absent, null or the empty hash. -/
def GivesNone : List Expr → Prop
  | [] | .const .null _ :: _ | .array [] _ :: _ => True
  | _ => False

/-- An argument that gives no parameters is kept by the default-message pass, and no parameters come
of it. -/
theorem GivesNone.exists_value {p : Expr} {rest : List Expr} (h : GivesNone (p :: rest)) :
    ∃ v, p.staged s = .ok (.ok v) ∧ ∀ vs l, Filter.parametersAt (v :: vs) 0 l = .ok .empty := by
  have hconst : p.IsConstant ∧ ∃ v, p.eval s = .ok v ∧
      ∀ vs l, Filter.parametersAt (v :: vs) 0 l = .ok .empty := by
    unfold GivesNone at h
    split at h
    · next heq => cases heq
    · next heq =>
      cases heq
      exact ⟨fun a ha => by rw [List.mem_singleton.1 ha]; trivial, _, rfl, fun _ _ => rfl⟩
    · next heq =>
      cases heq
      exact ⟨fun a ha => by rw [List.mem_singleton.1 ha]; trivial, _, rfl, fun _ _ => rfl⟩
    · exact h.elim
  obtain ⟨hconst, v, hv, hparams⟩ := hconst
  exact ⟨v, by unfold staged; rw [hconst.run_eq, Except.map, hv], hparams⟩

/-- A message looked up without parameters stays the same when its first argument is emptied. -/
theorem staged_trans_of_givesNone {m p : Expr} {rest : List Expr} (h : GivesNone (p :: rest))
    (k l : Nat) :
    (filter m transFilter (.array [] k :: rest) l).staged s =
      (filter m transFilter (p :: rest) l).staged s := by
  obtain ⟨v, hv, hparams⟩ := h.exists_value (s := s)
  have hemptied : GivesNone (.array [] k :: rest) := trivial
  obtain ⟨w, hw, hempty⟩ := hemptied.exists_value (s := s)
  rw [staged_filter (by decide), staged_filter (by decide), stagedList_cons,
    stagedList_cons, hv, hw]
  simp only [ok_bind, bind_assoc]
  refine bind_congr fun o => bind_congr fun os => congrArg Except.ok
    (bind_congr fun u => bind_congr fun vs => ?_)
  simp only [Filter.apply, if_pos (show transFilter = "trans" from rfl), Filter.trans,
    hparams, hempty]
  rfl

/-- Filling a text without parameters gives the text. -/
theorem stagedText_replace_of_givesNone {d p : Expr} {rest : List Expr} (h : GivesNone (p :: rest))
    (l : Nat) : (filter d Chain.replaceFilter [p] l).stagedText s = d.stagedText s := by
  obtain ⟨v, hv, hparams⟩ := h.exists_value (s := s)
  unfold stagedText
  rw [staged_filter (by decide), stagedList_cons, hv]
  cases d.staged s with
  | error err => rfl
  | ok o =>
    cases o with
    | error err => rfl
    | ok w =>
      show Except.ok
        (Except.map Value.text (Filter.apply s.localizer s.locale Chain.replaceFilter w [v] l)) = _
      have happly :
          Filter.apply s.localizer s.locale Chain.replaceFilter w [v] l = .ok (.string w.text) := by
        show (Filter.parametersAt [v] 0 l >>= fun params =>
          Except.ok (Value.string (params.fill w.text))) = _
        rw [hparams, ok_bind, Parameters.fill_empty]
      rw [happly]
      rfl

end Expr

/-! ### Annotated chains -/

namespace Chain

def lookup (m : Expr) (args : List Expr) (l : Nat) : Application := ⟨m, transFilter, args, l⟩

/-- A chain with annotations between its `trans` and its `desc`. -/
def annotated (t : Application) (notes : List Annotation) (default : Expr) (more : List Expr)
    (l : Nat) : Expr :=
  .filter (t.toExpr.annotate notes) descFilter (default :: more) l

/-- The default of a chain with the first argument of an annotation for parameters. -/
def noteFilled (n : Annotation) (default : Expr) : Expr :=
  match n.args with
  | [] => default
  | params :: _ => .filter default replaceFilter [params] n.line

/-- What stands in for a chain under an annotation: the default where the message, looked up with
its own parameters, comes back unchanged, filled with what the annotation has for parameters; for
messages with plural forms, the choice between the text looked up and the default, with the
arguments of the annotation. -/
def noted (t : Application) (n : Annotation) (default : Expr) : Expr :=
  if t.args.any countsAmong then
    .choice ((t.toExpr :: default :: n.args).foldl (fun es v => Elements.add es v none) [])
      n.line n.line
  else .cond (.binary .equal t.toExpr t.operand n.line) (noteFilled n default) t.toExpr n.line

variable {s : Scope} {m default : Expr} {args more : List Expr}

/-- The same becomes of a chain and of what the pass puts in its place. -/
theorem staged_replacement {f : Application} {c : Chain} (h : ofFilter? f = .ok (some c)) :
    f.toExpr.staged s = c.replacement.staged s := by
  unfold Expr.staged
  rw [DefaultPass.run_eq, DefaultPass.enter_chain h, ok_bind,
    Expr.run_kept (DefaultPass.noDesc_replacement c)]

/-! What stands in for a chain, by what the filter below `desc` takes. -/

section Replacement

variable {c : Chain}

theorem replacement_of_count (hcount : c.trans.args.any countsAmong = true) :
    c.replacement = c.choice := by
  unfold replacement kind
  rw [hcount]
  rfl

theorem replacement_of_noCount (hcount : c.trans.args.any countsAmong = false) :
    c.replacement = c.conditional := by
  unfold replacement kind
  rw [hcount]
  by_cases hargs : c.wrapping.args.isEmpty = true
  · simp [hargs]
  · simp [hargs]

theorem replacement_of_noArguments (hcount : c.trans.args.any countsAmong = false)
    (hargs : c.wrapping.args = []) :
    c.replacement =
      .cond (.binary .equal c.wrapping.toExpr c.trans.operand c.wrapping.line) c.default
        c.wrapping.toExpr c.wrapping.line := by
  have hkind : c.kind = .plain := by
    unfold kind
    rw [hcount, hargs]
    rfl
  have htest : c.testArgs = c.wrapping.args := by
    unfold testArgs
    rw [hkind]
  have hfilled : c.filledDefault = c.default := by
    unfold filledDefault
    rw [hkind]
  rw [replacement_of_noCount hcount]
  unfold conditional
  rw [hfilled, htest]
  rfl

theorem replacement_of_arguments {p : Expr} {rest : List Expr}
    (hcount : c.trans.args.any countsAmong = false) (hargs : c.wrapping.args = p :: rest) :
    c.replacement =
      .cond (.binary .equal
          (.filter c.wrapping.operand c.wrapping.name (.array [] c.wrapping.line :: rest)
            c.wrapping.line)
          c.trans.operand c.wrapping.line)
        (.filter c.default replaceFilter [p] c.wrapping.line) c.wrapping.toExpr
        c.wrapping.line := by
  have hkind : c.kind = .withArguments := by
    unfold kind
    rw [hcount, hargs]
    rfl
  have htest : c.testArgs = .array [] c.wrapping.line :: rest := by
    unfold testArgs
    rw [hkind, hargs]
  have hfilled : c.filledDefault = .filter c.default replaceFilter [p] c.wrapping.line := by
    unfold filledDefault
    rw [hkind, hargs]
  rw [replacement_of_noCount hcount]
  unfold conditional
  rw [hfilled, htest]

end Replacement

/-- The chain that an annotated chain is matched as: `desc` wraps the last annotation. -/
theorem exists_chain_annotated (m : Expr) (args : List Expr) (k : Nat) (notes : List Annotation)
    (n : Annotation) (default : Expr) (more : List Expr) (l : Nat) :
    ∃ (f : Application) (c : Chain),
      annotated (lookup m args k) (notes ++ [n]) default more l = f.toExpr ∧
      ofFilter? f = .ok (some c) ∧ c.trans = lookup m args k ∧ c.default = default ∧
      c.wrapping = ⟨(lookup m args k).toExpr.annotate notes, meaningFilter, n.args, n.line⟩ := by
  have htrans : ((lookup m args k).toExpr.annotate (notes ++ [n])).findTrans? =
      some (lookup m args k) :=
    (Expr.findTrans?_annotate _ _).trans (if_pos rfl)
  have hwrap : ((lookup m args k).toExpr.annotate (notes ++ [n])).application? =
      some ⟨(lookup m args k).toExpr.annotate notes, meaningFilter, n.args, n.line⟩ := by
    rw [Expr.annotate_concat]
    rfl
  let f : Application :=
    ⟨(lookup m args k).toExpr.annotate (notes ++ [n]), descFilter, default :: more, l⟩
  refine ⟨f,
    ⟨f, lookup m args k, ⟨(lookup m args k).toExpr.annotate notes, meaningFilter, n.args, n.line⟩,
      default⟩, rfl, ?_, rfl, rfl, rfl⟩
  show ofFilter? ⟨_, descFilter, default :: more, l⟩ = _
  unfold ofFilter?
  simp only [if_true, htrans, hwrap]
  rfl

/-- All annotations of a chain but the last leave what becomes of it as it is. -/
theorem staged_annotated (k : Nat) (notes : List Annotation) (n : Annotation) (l : Nat) :
    (annotated (lookup m args k) (notes ++ [n]) default more l).staged s =
      (noted (lookup m args k) n default).staged s := by
  have hbelow := Expr.staged_annotate (s := s) (lookup m args k).toExpr notes
  obtain ⟨f, c, hf, hchain, htrans, hdefault, hwrap⟩ :=
    exists_chain_annotated m args k notes n default more l
  have hnote : c.wrapping.toExpr.staged s = (lookup m args k).toExpr.staged s := by
    rw [hwrap]
    exact (Expr.staged_meaning _ n.isConstant n.line).trans hbelow
  rw [hf, staged_replacement hchain]
  unfold noted
  cases hcount : (lookup m args k).args.any countsAmong with
  | true =>
    rw [if_pos rfl, replacement_of_count (htrans ▸ hcount)]
    unfold choice
    rw [hwrap, hdefault, Expr.staged_choice, Expr.staged_choice, Expr.stagedList_cons,
      Expr.stagedList_cons _ (_ :: _), hbelow]
  | false =>
    rw [if_neg Bool.false_ne_true]
    unfold noteFilled
    cases hargs : n.args with
    | nil =>
      rw [replacement_of_noArguments (htrans ▸ hcount) (by rw [hwrap, hargs]), Expr.staged_cond,
        Expr.staged_cond, Expr.staged_equal, Expr.staged_equal, hnote, hdefault, htrans]
    | cons p rest =>
      have htest : ∀ a ∈ Expr.array [] n.line :: rest, a.IsConstant := by
        intro a ha
        rcases List.mem_cons.1 ha with rfl | ha
        · exact fun b hb => by rw [List.mem_singleton.1 hb]; trivial
        · exact n.isConstant a (hargs ▸ List.mem_cons_of_mem _ ha)
      rw [replacement_of_arguments (htrans ▸ hcount) (by rw [hwrap, hargs]), Expr.staged_cond,
        Expr.staged_cond, Expr.staged_equal, Expr.staged_equal, hnote, hdefault, htrans, hwrap,
        Expr.staged_meaning _ htest, hbelow]

/-- The default of a chain comes to the same text when it is filled with an argument that gives no
parameters. -/
theorem stagedText_noteFilled {n : Annotation} (h : Expr.GivesNone n.args) (default : Expr) :
    (noteFilled n default).stagedText s = default.stagedText s := by
  unfold noteFilled
  cases hargs : n.args with
  | nil => rfl
  | cons p rest =>
    rw [hargs] at h
    exact Expr.stagedText_replace_of_givesNone h n.line

/-- A chain without annotations, whose message takes no parameters, comes to the text of the
conditional that tests the message as it is looked up. -/
theorem stagedText_plain (k l : Nat) (hcount : args.any countsAmong = false)
    (hnone : Expr.GivesNone args) :
    (annotated (lookup m args k) [] default more l).stagedText s =
      (Expr.cond (.binary .equal (lookup m args k).toExpr m k) default
        (lookup m args k).toExpr k).stagedText s := by
  let f : Application := ⟨(lookup m args k).toExpr, descFilter, default :: more, l⟩
  have hchain : ofFilter? f = .ok (some ⟨f, lookup m args k, lookup m args k, default⟩) := rfl
  have htext : (annotated (lookup m args k) [] default more l).stagedText s = _ :=
    congrArg (Except.map (Except.map Value.text)) (staged_replacement hchain)
  rw [htext]
  cases args with
  | nil => rw [replacement_of_noArguments hcount rfl]; rfl
  | cons p rest =>
    rw [replacement_of_arguments hcount rfl]
    show (Expr.cond _ _ _ _).stagedText s = _
    rw [Expr.stagedText_cond, Expr.stagedText_cond, Expr.staged_equal, Expr.staged_equal,
      Expr.stagedText_replace_of_givesNone hnone]
    show (Expr.filter m transFilter (.array [] k :: rest) k).staged s >>= _ >>= _ = _
    rw [Expr.staged_trans_of_givesNone hnone]
    rfl

end Chain

/-! ### Rendering annotated chains -/

namespace Engine

/-- The text of a template that prints one expression, compiled and rendered. -/
def printed (g : Engine) (e : Expr) (line : Nat) (name : String) (context : Context) :
    Except Error String := do
  let t ← g.pipeline.runTemplate ⟨name, [.print e line]⟩
  g.render t context

/-- The debug engine renders what becomes of the expression in two stages. -/
theorem printed_eq (config : Config) (translator : Translator) (e : Expr) (line : Nat)
    (name : String) (context : Context) :
    (make { config with debug := true } translator).printed e line name context =
      e.stagedText ((make { config with debug := true } translator).scope context) >>= id := by
  have hrun : (make { config with debug := true } translator).pipeline.run e =
      DefaultPass.pass.run e :=
    DefaultPass.run_pipeline true e
  have hsegment :
      (make { config with debug := true } translator).pipeline.runSegment (.print e line) =
      DefaultPass.pass.run e >>= fun e' => .ok (.print e' line) := by
    rw [← hrun]
    rfl
  unfold printed Pipeline.runTemplate Expr.stagedText Expr.staged
  rw [List.mapM_cons, List.mapM_nil, hsegment]
  simp only [bind_of_map, bind_assoc]
  refine bind_congr fun e' => ?_
  show (e'.eval _ >>= fun v => Except.ok v.text) >>= (fun text => Except.ok (text ++ "")) =
    (e'.eval _).map Value.text
  cases e'.eval ((make { config with debug := true } translator).scope context) with
  | error err => rfl
  | ok v => exact congrArg Except.ok String.append_empty

/-- **What annotations do to a chain.**  In the debug engine a chain with annotations renders as the
conditional, or the choice for messages with plural forms, that takes its arguments from the last
annotation: earlier annotations make no difference.  No annotation makes a difference to a message
without plural forms if neither the message nor the last annotation is given parameters. -/
theorem printed_annotated (config : Config) (translator : Translator) (name : String)
    (context : Context) (m default : Expr) (args more : List Expr) (notes : List Annotation)
    (n : Annotation) (line k l : Nat) :
    (make { config with debug := true } translator).printed
        (Chain.annotated (Chain.lookup m args k) (notes ++ [n]) default more l) line name context =
      (make { config with debug := true } translator).printed
        (Chain.noted (Chain.lookup m args k) n default) line name context ∧
    (args.any Chain.countsAmong = false → Expr.GivesNone args → Expr.GivesNone n.args →
      (make { config with debug := true } translator).printed
          (Chain.annotated (Chain.lookup m args k) (notes ++ [n]) default more l)
          line name context =
        (make { config with debug := true } translator).printed
          (Chain.annotated (Chain.lookup m args k) [] default more l) line name context) := by
  simp only [printed_eq]
  have hnoted : (Chain.annotated (Chain.lookup m args k) (notes ++ [n]) default more l).stagedText
      ((make { config with debug := true } translator).scope context) =
        (Chain.noted (Chain.lookup m args k) n default).stagedText _ :=
    congrArg (Except.map (Except.map Value.text)) (Chain.staged_annotated k notes n l)
  refine ⟨by rw [hnoted], fun hcount hargs hnote => ?_⟩
  have hplain : ¬ args.any Chain.countsAmong = true := Bool.eq_false_iff.1 hcount
  have hcond : Chain.noted (Chain.lookup m args k) n default =
      .cond (.binary .equal (Chain.lookup m args k).toExpr m n.line) (Chain.noteFilled n default)
        (Chain.lookup m args k).toExpr n.line := if_neg hplain
  rw [hnoted, hcond, Expr.stagedText_cond, Chain.stagedText_noteFilled hnote, Expr.staged_equal,
    Chain.stagedText_plain k l hcount hargs, Expr.stagedText_cond, Expr.staged_equal]

def greetingNote : Annotation where
  args := [.string "greeting" 1]
  line := 1
  isConstant a ha b hb := by
    rw [List.mem_singleton.1 ha] at hb
    rw [List.mem_singleton.1 hb]
    trivial

def bareNote : Annotation := ⟨[], 1, fun _ h => (List.not_mem_nil h).elim⟩

/-- A greeting with two annotations, the last of them bare: the default is rendered, as it is
without annotations. -/
theorem printed_annotated_greeting :
    ([] : List Expr).any Chain.countsAmong = false ∧ Expr.GivesNone [] ∧
      Expr.GivesNone bareNote.args ∧
      (make { debug := true } greetings.toTranslator).printed
          (Chain.annotated (Chain.lookup (.string "hi" 1) [] 1) ([greetingNote] ++ [bareNote])
            (.string "Hello" 1) [] 1)
          1 "page" .empty = .ok "Hello" := by
  refine ⟨rfl, trivial, trivial, ?_⟩
  rw [(printed_annotated { debug := true } greetings.toTranslator "page" .empty (.string "hi" 1)
    (.string "Hello" 1) [] [] [greetingNote] bareNote 1 1 1).2 rfl trivial trivial]
  decide +kernel

def fruit : CatalogueStore :=
  (CatalogueStore.empty "en").add
    ((Catalogue.empty "en").set "messages" "apples" "One apple|%count% apples")

/-- Annotations can change what a chain renders.  Their argument is taken for parameters, which a
string is not; the default is not filled with the parameters of the message; and a message with
plural forms is looked up twice, so that its default stands in for the text that was found. -/
theorem annotation_changes_text :
    (∃ err, (make { debug := true } fruit.toTranslator).renderSource
        "\x7b\x7b 'hi'|trans|meaning('greeting')|desc('Hello') \x7d\x7d" "page" .empty =
          .error err) ∧
      (make { debug := true } fruit.toTranslator).renderSource
        "\x7b\x7b 'hi'|trans|desc('Hello') \x7d\x7d" "page" .empty = .ok "Hello" ∧
      (make { debug := true } fruit.toTranslator).renderSource
        "\x7b\x7b 'hi'|trans(\x7b'%n%': 'Ada'\x7d)|meaning|desc('Hi %n%') \x7d\x7d" "page" .empty =
          .ok "Hi %n%" ∧
      (make { debug := true } fruit.toTranslator).renderSource
        "\x7b\x7b 'hi'|trans(\x7b'%n%': 'Ada'\x7d)|desc('Hi %n%') \x7d\x7d" "page" .empty =
          .ok "Hi Ada" ∧
      (make { debug := true } fruit.toTranslator).renderSource
        "\x7b\x7b 'apples'|trans(\x7b'%count%': 3\x7d)|meaning|desc('x') \x7d\x7d" "page" .empty =
          .ok "x" ∧
      (make { debug := true } fruit.toTranslator).renderSource
        "\x7b\x7b 'apples'|trans(\x7b'%count%': 3\x7d)|desc('x') \x7d\x7d" "page" .empty =
          .ok "3 apples" := by
  refine ⟨⟨.argument (.notParameters "greeting") 1, ?_⟩, ?_, ?_, ?_, ?_, ?_⟩ <;> decide +kernel

end Engine

end Phrasebook
