import Mathlib.Data.List.MinMax
import Mathlib.Order.Nat
import Phrasebook.Pass.Pipeline
import Phrasebook.Proofs.PassWalk
import Phrasebook.Proofs.WalkOutcome

/-!
# What the default-message pass leaves

A replacement may be larger than the chain it stands for, and its children are walked again.  It
takes one `desc` filter off every way down, though, and makes no way more than one node longer:
counting `desc` filters twice, what is walked gets lighter.

* `Expr.weight` : the number of nodes on the longest way down, where `desc` filters count twice;
* `DefaultPass.lightens_weight` : the pass makes the children of every node lighter;
* `DefaultPass.run_eq` : the run of the pass, node by node, without a bound;
* `DefaultPass.run_puts_defaults_in` : the pass comes to an end and leaves no `desc` filter, and a
  second run changes nothing.
-/

namespace Phrasebook

open Outcome

namespace Expr

/-! ### The weight of an expression -/

/-- What a node adds to the weight of an expression. -/
def ownWeight : Expr → Nat
  | .filter _ x _ _ => if x = descFilter then 2 else 1
  | _ => 1

/-- The number of nodes on the longest way down, where `desc` filters count twice. -/
def weight (e : Expr) : Nat := e.ownWeight + (e.children.attach.map fun c => weight c.1).foldr max 0
termination_by e.depth
decreasing_by exact depth_lt_of_mem_children c.2

theorem weight_eq (e : Expr) : e.weight = e.ownWeight + (e.children.map weight).foldr max 0 := by
  rw [weight, List.attach_map_val]

theorem ownWeight_pos (e : Expr) : 0 < e.ownWeight := by
  unfold ownWeight
  split
  · split <;> omega
  · omega

theorem ownWeight_le (e : Expr) : e.ownWeight ≤ 2 := by
  unfold ownWeight
  split
  · split <;> omega
  · omega

theorem ownWeight_eq_one {e : Expr} (h : e.children = []) : e.ownWeight = 1 := by
  cases e with
  | filter e x as l => cases h
  | _ => rfl

theorem weight_leaf {e : Expr} (h : e.children = []) : e.weight = 1 := by
  rw [weight_eq, h, ownWeight_eq_one h]
  rfl

theorem weight_pos (e : Expr) : 0 < e.weight := by
  have := e.ownWeight_pos
  rw [weight_eq]
  omega

theorem ownWeight_add_le {c e : Expr} (h : c ∈ e.children) : e.ownWeight + c.weight ≤ e.weight := by
  have : c.weight ≤ (e.children.map weight).foldr max 0 :=
    List.le_max_of_le (List.mem_map_of_mem h) (Nat.le_refl _)
  rw [e.weight_eq]
  omega

theorem weight_lt_of_mem_children {c e : Expr} (h : c ∈ e.children) : c.weight < e.weight := by
  have := ownWeight_add_le h
  have := e.ownWeight_pos
  omega

theorem weight_le_of_mem_nodes {a e : Expr} (h : a ∈ e.nodes) : a.weight ≤ e.weight := by
  induction e using children_induction with
  | step e ih =>
    rcases mem_nodes.1 h with rfl | ⟨c, hc, ha⟩
    · exact Nat.le_refl _
    · have := ih c hc ha
      have := weight_lt_of_mem_children hc
      omega

/-- An expression weighs its own weight on top of what its children weigh at most. -/
theorem weight_le {e : Expr} {b : Nat} (h : ∀ c ∈ e.children, c.weight ≤ b) :
    e.weight ≤ e.ownWeight + b := by
  have : (e.children.map weight).foldr max 0 ≤ b :=
    List.max_le_of_forall_le _ b (List.forall_mem_map.2 h)
  rw [weight_eq]
  omega

/-- Only filters count twice, and there is a way further down from them. -/
theorem weight_lt_two_mul_depth (e : Expr) : e.weight < 2 * e.depth := by
  induction e using children_induction with
  | step e ih =>
    have hchild : ∀ c ∈ e.children, c.weight ≤ 2 * e.depth - 3 := fun c hc => by
      have := ih c hc
      have := depth_lt_of_mem_children hc
      omega
    have hle := weight_le hchild
    have htwo := e.ownWeight_le
    cases hc : e.children with
    | nil =>
      have hpos := e.depth_pos
      rw [weight_leaf hc]
      omega
    | cons c cs =>
      have hmem : c ∈ e.children := hc ▸ List.mem_cons_self ..
      have := depth_lt_of_mem_children hmem
      have := c.depth_pos
      omega

end Expr

/-! ### Chains -/

/-- The `trans` filter that is found below an expression is in it. -/
theorem Expr.mem_nodes_of_findTrans? {e : Expr} {t : Application} (h : e.findTrans? = some t) :
    t.toExpr ∈ e.nodes := by
  induction e using Expr.children_induction with
  | step e ih =>
    cases e with
    | filter e x as l =>
      rw [Expr.findTrans?] at h
      split at h
      · cases h
        exact Expr.self_mem_nodes _
      · exact Expr.mem_nodes_of_child (List.mem_cons_self ..) (ih e (List.mem_cons_self ..) h)
    | _ => cases h

namespace Chain

/-- The parts of the chain that a filter ends. -/
theorem parts_of_ofFilter? {f : Application} {c : Chain} (h : ofFilter? f = .ok (some c)) :
    f.name = descFilter ∧ f.operand = c.wrapping.toExpr ∧ f.operand.findTrans? = some c.trans ∧
      c.default ∈ f.args := by
  unfold ofFilter? at h
  split at h
  · next hname =>
    split at h
    · next trans wrapping htrans hwrap =>
      have hoperand : f.operand = wrapping.toExpr := by
        cases hf : f.operand <;> rw [hf] at hwrap <;> cases hwrap
        rfl
      split at h
      · next default more hargs =>
        cases h
        exact ⟨hname, hoperand, htrans, hargs ▸ List.mem_cons_self ..⟩
      · cases h
    · cases h
  · cases h

variable {f : Application} {c : Chain}

/-- Emptying the parameters makes no application heavier. -/
theorem weight_test_le (c : Chain) :
    (Expr.filter c.wrapping.operand c.wrapping.name c.testArgs c.wrapping.line).weight ≤
      c.wrapping.toExpr.weight := by
  have hown : c.wrapping.toExpr.ownWeight =
      (Expr.filter c.wrapping.operand c.wrapping.name c.testArgs c.wrapping.line).ownWeight := rfl
  have hchild : ∀ a ∈ c.wrapping.toExpr.children,
      a.weight ≤ c.wrapping.toExpr.weight - c.wrapping.toExpr.ownWeight := fun a ha => by
    have := Expr.ownWeight_add_le ha
    omega
  have hle :
      (Expr.filter c.wrapping.operand c.wrapping.name c.testArgs c.wrapping.line).weight ≤ _ :=
    Expr.weight_le (b := c.wrapping.toExpr.weight - c.wrapping.toExpr.ownWeight) fun a ha => ?_
  · have : c.wrapping.toExpr.ownWeight ≤ c.wrapping.toExpr.weight := by
      rw [Expr.weight_eq c.wrapping.toExpr]
      omega
    omega
  · rcases List.mem_cons.1 ha with rfl | ha
    · exact hchild _ (List.mem_cons_self ..)
    · unfold testArgs at ha
      split at ha
      · next p rest _ hargs =>
        have hmem : ∀ a ∈ p :: rest, a ∈ c.wrapping.toExpr.children :=
          fun a ha => List.mem_cons_of_mem _ (hargs ▸ ha)
        rcases List.mem_cons.1 ha with rfl | ha
        · have hleaf : (Expr.array [] c.wrapping.line).weight = 1 := Expr.weight_leaf rfl
          have := hchild p (hmem p (List.mem_cons_self ..))
          have := p.weight_pos
          omega
        · exact hchild a (hmem a (List.mem_cons_of_mem _ ha))
      · exact hchild a (List.mem_cons_of_mem _ ha)

/-- What a `desc` filter is applied to, and each of its arguments, is lighter by two. -/
theorem weight_child_le (hname : f.name = descFilter) {a : Expr} (ha : a ∈ f.toExpr.children) :
    a.weight + 2 ≤ f.toExpr.weight := by
  have hown : f.toExpr.ownWeight = 2 := if_pos hname
  have := Expr.ownWeight_add_le ha
  omega

theorem weight_wrapping_le (h : ofFilter? f = .ok (some c)) :
    c.wrapping.toExpr.weight + 2 ≤ f.toExpr.weight := by
  obtain ⟨hname, hoperand, -, -⟩ := parts_of_ofFilter? h
  rw [← hoperand]
  exact weight_child_le hname (List.mem_cons_self ..)

theorem weight_default_le (h : ofFilter? f = .ok (some c)) :
    c.default.weight + 2 ≤ f.toExpr.weight := by
  obtain ⟨hname, -, -, hdefault⟩ := parts_of_ofFilter? h
  exact weight_child_le hname (List.mem_cons_of_mem _ hdefault)

theorem weight_filledDefault_lt (h : ofFilter? f = .ok (some c)) :
    c.filledDefault.weight < f.toExpr.weight := by
  have hdefault := weight_default_le h
  have hwrap := weight_wrapping_le h
  unfold filledDefault
  split
  · next p rest _ hargs =>
    have hp : p.weight < c.wrapping.toExpr.weight :=
      Expr.weight_lt_of_mem_children (List.mem_cons_of_mem _ (hargs ▸ List.mem_cons_self ..))
    have hle :=
      Expr.weight_le (e := .filter c.default replaceFilter [p] c.wrapping.line)
        (b := f.toExpr.weight - 2)
      fun a ha => by
        simp only [Expr.children, List.mem_cons, List.not_mem_nil, or_false] at ha
        rcases ha with rfl | rfl <;> omega
    have hown : (Expr.filter c.default replaceFilter [p] c.wrapping.line).ownWeight = 1 := rfl
    omega
  · omega

/-- What stands in for a chain has children that are lighter than the filter that ends the chain. -/
theorem weight_lt_of_mem_replacement (h : ofFilter? f = .ok (some c)) :
    ∀ a ∈ c.replacement.children, a.weight < f.toExpr.weight := by
  have hdefault := weight_default_le h
  have hwrap := weight_wrapping_le h
  have htest := c.weight_test_le
  have htrans : c.trans.operand.weight < c.wrapping.toExpr.weight := by
    obtain ⟨-, hoperand, htrans, -⟩ := parts_of_ofFilter? h
    have hle := Expr.weight_le_of_mem_nodes (Expr.mem_nodes_of_findTrans? htrans)
    have hlt :=
      Expr.weight_lt_of_mem_children (c := c.trans.operand) (e := c.trans.toExpr)
        (List.mem_cons_self ..)
    rw [hoperand] at hle
    omega
  have hconditional : ∀ a ∈ c.conditional.children, a.weight < f.toExpr.weight := fun a ha => by
    simp only [conditional, Expr.children, List.mem_cons, List.not_mem_nil, or_false] at ha
    rcases ha with rfl | rfl | rfl
    · refine Nat.lt_of_le_of_lt (Expr.weight_le (b := c.wrapping.toExpr.weight) fun a ha => ?_) ?_
      · simp only [Expr.children, List.mem_cons, List.not_mem_nil, or_false] at ha
        rcases ha with rfl | rfl <;> omega
      · simp only [Expr.ownWeight]
        omega
    · exact weight_filledDefault_lt h
    · omega
  have hchoice : ∀ a ∈ c.choice.children, a.weight < f.toExpr.weight := fun a ha => by
    obtain ⟨e, he, ha⟩ := List.mem_flatMap.1 ha
    obtain ⟨⟨x, l, hkey⟩, hval⟩ := (Elements.mem_foldl_add he).resolve_left List.not_mem_nil
    have hchild : ∀ b ∈ c.wrapping.toExpr.children, b.weight < f.toExpr.weight := fun b hb => by
      have := Expr.weight_lt_of_mem_children hb
      omega
    simp only [List.mem_cons, List.not_mem_nil, or_false] at ha
    rcases ha with rfl | rfl
    · have hleaf : (Expr.number x l).weight = 1 := Expr.weight_leaf rfl
      rw [hkey]
      omega
    · rcases List.mem_cons.1 hval with hval | hval
      · rw [hval]
        exact hchild _ (List.mem_cons_self ..)
      · rcases List.mem_cons.1 hval with hval | hval
        · rw [hval]
          omega
        · exact hchild _ (List.mem_cons_of_mem _ hval)
  unfold replacement
  split
  · exact hchoice
  · exact hconditional
  · exact hconditional

end Chain

/-! ### The walk -/

namespace DefaultPass

/-- At the top of an expression there is no `desc` filter. -/
def NoDesc (e : Expr) : Prop := ∀ f, e.application? = some f → f.name ≠ descFilter

/-- What the pass does at a node: it keeps it unless it is a `desc` filter, and otherwise puts in
the replacement of the chain that the filter ends, or fails with the line of the filter. -/
theorem meets_enter (e : Expr) :
    Meets (fun r => (r = e ∧ NoDesc e) ∨
        ∃ (f : Application) (c : Chain), e = f.toExpr ∧ Chain.ofFilter? f = .ok (some c) ∧
        r = c.replacement)
      (fun err => ∃ f : Application, e = f.toExpr ∧ f.name = descFilter ∧
        (err = .missingTrans f.line ∨ err = .missingDefault f.line))
      (pass.enter e) := by
  by_cases hdesc : ∃ f, e.application? = some f ∧ f.name = descFilter
  · obtain ⟨f, hf, hname⟩ := hdesc
    obtain rfl : e = f.toExpr := by
      cases e <;> cases hf
      rfl
    cases hc : Chain.ofFilter? f with
    | ok o =>
      cases o with
      | some c =>
        rw [enter_chain hc]
        exact Or.inr ⟨f, c, rfl, hc, rfl⟩
      | none =>
        unfold Chain.ofFilter? at hc
        rw [if_pos hname] at hc
        split at hc
        · split at hc <;> cases hc
        · cases hc
    | error err =>
      have henter : pass.enter f.toExpr = .error err := by
        rw [enter_eq]
        show (Chain.ofFilter? f >>= fun o => _) = _
        rw [hc]
        rfl
      rw [henter]
      refine ⟨f, rfl, hname, ?_⟩
      unfold Chain.ofFilter? at hc
      rw [if_pos hname] at hc
      split at hc
      · split at hc
        · cases hc
        · cases hc
          exact Or.inr rfl
      · cases hc
        exact Or.inl rfl
  · have hkept : NoDesc e := fun f hf hname => hdesc ⟨f, hf, hname⟩
    rw [enter_eq_self hkept]
    exact Or.inl ⟨rfl, hkept⟩

/-- The pass makes the children of every node lighter. -/
theorem lightens_weight : pass.Lightens Expr.weight := by
  intro e r hr c hc
  have henter := meets_enter e
  rw [hr] at henter
  rcases henter with ⟨rfl, -⟩ | ⟨f, chain, rfl, hchain, rfl⟩
  · exact Expr.weight_lt_of_mem_children hc
  · exact Chain.weight_lt_of_mem_replacement hchain c hc

/-- Within the depth that the pass allows itself, or any greater one, the walk is the same. -/
theorem walk_eq_run {n : Nat} {e : Expr} (hn : e.weight < n) : pass.walk n e = pass.run e :=
  Pass.walk_congr lightens_weight hn e.weight_lt_two_mul_depth

/-- The run of the pass, node by node: a replacement is walked below its top. -/
theorem run_eq (e : Expr) : pass.run e = pass.enter e >>= fun r => r.mapChildrenM pass.run := by
  obtain ⟨n, hn⟩ : ∃ n, e.weight = n := ⟨_, rfl⟩
  rw [← walk_eq_run (n := n + 1) (by omega), Pass.walk_succ]
  cases hr : pass.enter e with
  | error err => rfl
  | ok r =>
    have hchild : ∀ c ∈ r.children, pass.walk n c = pass.run c := fun c hc =>
      walk_eq_run (by have := lightens_weight e r hr c hc; omega)
    rw [ok_bind, ok_bind, Expr.mapChildrenM_congr hchild]
    cases r.mapChildrenM pass.run <;> rfl

theorem ofTop_noDesc : Expr.OfTop NoDesc := by
  intro R a b h ha f hf
  cases h with
  | @filter e _ as _ x l =>
    cases hf
    exact ha ⟨e, x, as, l⟩ rfl
  | _ => cases hf

theorem noDesc_iff {e : Expr} :
    (∀ a ∈ e.nodes, NoDesc a) ↔ ∀ f ∈ e.filters, f.name ≠ descFilter := by
  constructor
  · exact fun h f hf => h f.toExpr (Expr.mem_filters.1 hf) f rfl
  · intro h a ha f hf
    exact h f (List.mem_filterMap.2 ⟨a, ha, hf⟩)

theorem noDesc_replacement (c : Chain) : NoDesc c.replacement := by
  intro f hf
  unfold Chain.replacement at hf
  split at hf <;> cases hf

/-- The outcome of the pass has no `desc` filter; the pass does not run away. -/
theorem meets_run (e : Expr) :
    Meets (fun m => ∀ f ∈ m.filters, f.name ≠ descFilter) (fun err => ∀ l, err ≠ .runaway l)
      (pass.run e) := by
  have henter : ∀ e : Expr, True → Meets (fun r => NoDesc r ∧ ∀ c ∈ r.children, True)
      (fun err => ∀ l, err ≠ .runaway l)
      (pass.enter e) := by
    intro e _
    refine (meets_enter e).mono ?_ ?_
    · rintro r (⟨rfl, hkept⟩ | ⟨f, c, rfl, -, rfl⟩)
      · exact ⟨hkept, fun _ _ => trivial⟩
      · exact ⟨noDesc_replacement c, fun _ _ => trivial⟩
    · rintro err ⟨f, -, -, rfl | rfl⟩ l h <;> cases h
  exact (Pass.meets_walk lightens_weight leave_eq ofTop_noDesc henter
    e.weight_lt_two_mul_depth trivial).mono
    (fun _ h => noDesc_iff.1 h) fun _ h => h

/-- The pass keeps an expression without `desc` filters. -/
theorem run_eq_self {e : Expr} (h : ∀ f ∈ e.filters, f.name ≠ descFilter) : pass.run e = .ok e :=
  Pass.walk_eq_self leave_eq (show e.depth ≤ 2 * e.depth by omega) fun a ha => enter_eq_self
    (noDesc_iff.2 h a ha)

/-- The pipeline that has the default-message pass as its only pass. -/
def pipeline (enabled : Bool) : Pipeline (Except Error) := .ofList [toPass ⟨enabled⟩]

theorem run_pipeline (enabled : Bool) (e : Expr) :
    (pipeline enabled).run e = Pass.run (toPass ⟨enabled⟩) e := by
  have hpasses : pipeline enabled = ⟨[toPass ⟨enabled⟩]⟩ := by
    show (⟨[toPass ⟨enabled⟩].mergeSort _⟩ : Pipeline (Except Error)) = _
    rw [List.mergeSort_singleton]
  rw [hpasses]
  unfold Pipeline.run
  rw [List.foldlM_cons]
  cases Pass.run (m := Except Error) (toPass ⟨enabled⟩) e <;> rfl

/-- Switched off, the pass keeps every expression. -/
theorem run_disabled (e : Expr) : Pass.run (m := Except Error) (toPass ⟨false⟩) e = .ok e :=
  Pass.walk_eq_self (fun _ => rfl) (show e.depth ≤ 2 * e.depth by omega) fun _ _ => rfl

/-- **The default-message pass comes to an end and leaves no `desc` filter.**  For every expression
the pass stays within its bound on depth, so that a greater one would make no difference; what it
returns holds no `desc` filter at any depth, and a second run keeps it as it is.  An expression
without `desc` filters is kept in the first run, and with the pass switched off every expression is
kept. -/
theorem run_puts_defaults_in (e : Expr) :
    ((∀ n, 2 * e.depth ≤ n → pass.walk n e = (pipeline true).run e) ∧
      ∀ l, (pipeline true).run e ≠ .error (.runaway l)) ∧
      (∀ m, (pipeline true).run e = .ok m →
        (∀ f ∈ m.filters, f.name ≠ descFilter) ∧ (pipeline true).run m = .ok m) ∧
      ((∀ f ∈ e.filters, f.name ≠ descFilter) → (pipeline true).run e = .ok e) ∧
      (pipeline false).run e = .ok e := by
  have hmeets := meets_run e
  simp only [run_pipeline]
  refine ⟨⟨fun n hn => ?_, fun l h => ?_⟩, fun m hm => ?_, run_eq_self, run_disabled e⟩
  · exact walk_eq_run (Nat.lt_of_lt_of_le e.weight_lt_two_mul_depth hn)
  · rw [h] at hmeets
    exact hmeets l rfl
  · rw [hm] at hmeets
    exact ⟨hmeets, run_eq_self hmeets⟩

end DefaultPass

end Phrasebook
