import Phrasebook.Proofs.DefaultsPutIn

/-!
# What the default-message pass refuses

The pass meets `desc` filters that do not stand in the expression it was given: copies of parts of a
chain, in one of which the first argument of the filter below `desc` is emptied.

* `Expr.ReachesTrans`, `Application.WellFormed` : a `desc` filter with a default, over filters that
  lead down to a `trans`;
* `Application.Blamed` : the errors that a `desc` filter gives cause for;
* `Chain.mem_filters_replacement` : the filters of a replacement are those of the chain, the emptied
  copy and the filter that puts parameters in;
* `Expr.Repeats` : every `desc` filter has the operand and the line of one in a given expression,
  and arguments where it has;
* `DefaultPass.errors_blame_desc` : the pass fails only for `desc` filters of the expression that
  are not well formed.
-/

namespace Phrasebook

open Outcome

/-! ### Well-formed filters -/

/-- The way down through operands of filters comes to a `trans` filter. -/
inductive Expr.ReachesTrans : Expr → Prop
  | here (e : Expr) (as : List Expr) (l : Nat) : ReachesTrans (.filter e transFilter as l)
  | through {e : Expr} (x : String) (as : List Expr) (l : Nat) (h : ReachesTrans e) :
      ReachesTrans (.filter e x as l)

theorem Expr.reachesTrans_iff {e : Expr} : e.ReachesTrans ↔ ∃ t, e.findTrans? = some t := by
  constructor
  · intro h
    induction h with
    | here e as l => exact ⟨_, if_pos rfl⟩
    | through x as l h ih =>
      by_cases hx : x = transFilter
      · exact ⟨_, if_pos hx⟩
      · simpa [findTrans?, hx] using ih
  · intro h
    induction e using children_induction with
    | step e ih =>
      cases e with
      | filter e x as l =>
        by_cases hx : x = transFilter
        · subst hx
          exact .here e as l
        · simp only [findTrans?, if_neg hx] at h
          exact .through x as l (ih e (by simp [children]) h)
      | _ => simp [findTrans?] at h

/-- A default is given, for a message that is looked up below. -/
structure Application.WellFormed (f : Application) : Prop where
  default : f.args ≠ []
  message : f.operand.ReachesTrans

/-- The error that a `desc` filter gives cause for: no message is looked up below it, or it has no
default for one that is. -/
def Application.Blamed (f : Application) (err : Error) : Prop :=
  (err = .missingTrans f.line ∧ ¬f.operand.ReachesTrans) ∨
    (err = .missingDefault f.line ∧ f.operand.ReachesTrans ∧ f.args = [])

theorem Application.WellFormed.not_blamed {f : Application} (h : f.WellFormed) (err : Error) :
    ¬f.Blamed err := by
  rintro (⟨-, hreach⟩ | ⟨-, -, hargs⟩)
  · exact hreach h.message
  · exact h.default hargs

/-- A `desc` filter that ends no chain is to blame for it. -/
theorem Chain.blamed_of_ofFilter? {f : Application} {err : Error} (h : ofFilter? f = .error err) :
    f.Blamed err := by
  unfold ofFilter? at h
  split at h
  · split at h
    · next t w ht hw =>
      have hreach := Expr.reachesTrans_iff.2 ⟨t, ht⟩
      split at h <;> cases h
      next hargs => exact .inr ⟨rfl, hreach, hargs⟩
    · next hnone =>
      cases h
      refine .inl ⟨rfl, fun hreach => ?_⟩
      obtain ⟨t, ht⟩ := Expr.reachesTrans_iff.1 hreach
      -- what leads down to a `trans` filter is a filter
      cases hf : f.operand with
      | filter e x as l => exact hnone t _ ht (by rw [hf]; rfl)
      | _ => simp [hf, Expr.findTrans?] at ht
  · cases h

/-! ### Filters of a replacement -/

theorem Application.eq_of_toExpr {f g : Application} (h : f.toExpr = g.toExpr) : f = g := by
  cases f
  cases g
  cases h
  rfl

theorem Expr.mem_filters_iff {f : Application} {e : Expr} :
    f ∈ e.filters ↔ e = f.toExpr ∨ ∃ c ∈ e.children, f ∈ c.filters := by
  simp only [mem_filters]
  rw [mem_nodes, eq_comm]

theorem Expr.mem_filters_of_node {f : Application} {a e : Expr} (ha : a ∈ e.nodes)
    (hf : f ∈ a.filters) : f ∈ e.filters := by
  induction e using children_induction with
  | step e ih =>
    rcases mem_nodes.1 ha with rfl | ⟨c, hc, ha⟩
    · exact hf
    · exact mem_filters_of_child hc (ih c hc ha)

theorem Expr.not_mem_filters_of_leaf {f : Application} {e : Expr} (he : e.application? = none)
    (hc : e.children = []) : f ∉ e.filters := by
  rw [mem_filters_iff]
  rintro (rfl | ⟨c, hmem, -⟩)
  · cases he
  · simp [hc] at hmem

namespace Chain

variable {f g : Application} {c : Chain}

/-- The filter below `desc` as it stands in the test: with its first argument emptied where there
are arguments. -/
def emptied (c : Chain) : Application := { c.wrapping with args := c.testArgs }

theorem mem_filters_testArgs {a : Expr} (ha : a ∈ c.testArgs) (hg : g ∈ a.filters) :
    ∃ b ∈ c.wrapping.args, g ∈ b.filters := by
  unfold testArgs at ha
  split at ha
  · next p rest _ hargs =>
    rcases List.mem_cons.1 ha with rfl | ha
    · exact absurd hg (Expr.not_mem_filters_of_leaf rfl rfl)
    · exact ⟨a, by simp [hargs, ha], hg⟩
  · exact ⟨a, ha, hg⟩

theorem mem_filters_filledDefault (hg : g ∈ c.filledDefault.filters) :
    g ∈ c.default.filters ∨ (∃ b ∈ c.wrapping.args, g ∈ b.filters) ∨ g.name = replaceFilter := by
  unfold filledDefault at hg
  split at hg
  · next p rest _ hargs =>
    rcases Expr.mem_filters_iff.1 hg with heq | ⟨a, ha, hga⟩
    · have hnew : ⟨c.default, replaceFilter, [p], c.wrapping.line⟩ = g :=
        Application.eq_of_toExpr heq
      exact .inr (.inr (hnew ▸ rfl))
    · simp only [Expr.children, List.mem_cons, List.not_mem_nil, or_false] at ha
      rcases ha with rfl | rfl
      · exact .inl hga
      · exact .inr (.inl ⟨a, by simp [hargs], hga⟩)
  · exact .inl hg

/-- The filters of a replacement are filters of the chain, the emptied copy of the filter below
`desc`, and the filter that puts parameters into the default. -/
theorem mem_filters_replacement (h : ofFilter? f = .ok (some c)) (hg : g ∈ c.replacement.filters) :
    g ∈ f.toExpr.filters ∨ g = c.emptied ∨ g.name = replaceFilter := by
  obtain ⟨-, hoperand, htrans, hdefault⟩ := parts_of_ofFilter? h
  have hwrap : c.wrapping.toExpr ∈ f.toExpr.children := hoperand ▸ List.mem_cons_self ..
  have hbelow : ∀ a ∈ c.wrapping.toExpr.children, g ∈ a.filters →
      g ∈ f.toExpr.filters := fun a ha hg =>
    Expr.mem_filters_of_child hwrap (Expr.mem_filters_of_child ha hg)
  have hargs : (∃ b ∈ c.wrapping.args, g ∈ b.filters) → g ∈ f.toExpr.filters := by
    rintro ⟨b, hb, hg⟩
    exact hbelow b (List.mem_cons_of_mem _ hb) hg
  have hdef : g ∈ c.default.filters → g ∈ f.toExpr.filters :=
    Expr.mem_filters_of_child (List.mem_cons_of_mem _ hdefault)
  have hmessage : g ∈ c.trans.operand.filters → g ∈ f.toExpr.filters := fun hg => by
    have hnode := hoperand ▸ Expr.mem_nodes_of_findTrans? htrans
    refine Expr.mem_filters_of_child hwrap (Expr.mem_filters_of_node hnode ?_)
    exact Expr.mem_filters_of_child (List.mem_cons_self ..) hg
  have htest : g ∈ c.emptied.toExpr.filters → g ∈ f.toExpr.filters ∨ g = c.emptied := by
    intro hg
    rcases Expr.mem_filters_iff.1 hg with heq | ⟨a, ha, hg⟩
    · exact .inr (Application.eq_of_toExpr heq).symm
    · rcases List.mem_cons.1 ha with rfl | ha
      · exact .inl (hbelow _ (List.mem_cons_self ..) hg)
      · exact .inl (hargs (mem_filters_testArgs ha hg))
  have hconditional : g ∈ c.conditional.filters → g ∈ f.toExpr.filters ∨ g = c.emptied ∨
      g.name = replaceFilter := by
    intro hg
    rcases Expr.mem_filters_iff.1 hg with heq | ⟨a, ha, hg⟩
    · cases heq
    · simp only [conditional, Expr.children, List.mem_cons, List.not_mem_nil, or_false] at ha
      rcases ha with rfl | rfl | rfl
      · rcases Expr.mem_filters_iff.1 hg with heq | ⟨b, hb, hg⟩
        · cases heq
        · simp only [Expr.children, List.mem_cons, List.not_mem_nil, or_false] at hb
          rcases hb with rfl | rfl
          · exact (htest hg).imp_right .inl
          · exact .inl (hmessage hg)
      · rcases mem_filters_filledDefault hg with hg | hg | hg
        · exact .inl (hdef hg)
        · exact .inl (hargs hg)
        · exact .inr (.inr hg)
      · exact .inl (Expr.mem_filters_of_child hwrap hg)
  have hchoice : g ∈ c.choice.filters → g ∈ f.toExpr.filters := by
    intro hg
    rcases Expr.mem_filters_iff.1 hg with heq | ⟨a, ha, hg⟩
    · cases heq
    · obtain ⟨e, he, ha⟩ := List.mem_flatMap.1 ha
      obtain ⟨⟨x, l, hkey⟩, hval⟩ := (Elements.mem_foldl_add he).resolve_left List.not_mem_nil
      simp only [List.mem_cons, List.not_mem_nil, or_false] at ha hval
      rcases ha with rfl | rfl
      · exact absurd hg (Expr.not_mem_filters_of_leaf (by simp [hkey, Expr.application?])
          (by simp [hkey, Expr.children]))
      · rcases hval with hval | hval | hval
        · exact hbelow _ (List.mem_cons_self ..) (hval ▸ hg)
        · exact hdef (hval ▸ hg)
        · exact hargs ⟨_, hval, hg⟩
  unfold replacement at hg
  split at hg
  · exact .inl (hchoice hg)
  · exact hconditional hg
  · exact hconditional hg

end Chain

/-! ### Copies of filters -/

/-- A filter with the name, operand and line of another, which has arguments exactly if the other
has. -/
structure Application.Repeats (g f : Application) : Prop where
  name : g.name = f.name
  operand : g.operand = f.operand
  line : g.line = f.line
  args : g.args = [] ↔ f.args = []

theorem Application.Repeats.refl (f : Application) : f.Repeats f := ⟨rfl, rfl, rfl, Iff.rfl⟩

theorem Application.Repeats.trans {h g f : Application} (hg : h.Repeats g) (gf : g.Repeats f) :
    h.Repeats f :=
  ⟨hg.name.trans gf.name, hg.operand.trans gf.operand, hg.line.trans gf.line, hg.args.trans gf.args⟩

/-- What a copy is to blame for, the filter is too. -/
theorem Application.Repeats.blamed {g f : Application} (h : g.Repeats f) {err : Error}
    (hg : g.Blamed err) : f.Blamed err := by
  unfold Blamed at hg ⊢
  rwa [h.operand, h.line, h.args] at hg

theorem Chain.emptied_repeats (c : Chain) : c.emptied.Repeats c.wrapping := by
  refine ⟨rfl, rfl, rfl, ?_⟩
  unfold emptied testArgs
  split
  · next hargs => simp [hargs]
  · rfl

/-- Every `desc` filter of an expression is a copy of one in `n`. -/
def Expr.Repeats (n e : Expr) : Prop :=
  ∀ g ∈ e.filters, g.name = descFilter → ∃ f ∈ n.filters, f.name = descFilter ∧ g.Repeats f

theorem Expr.Repeats.child {n e c : Expr} (h : n.Repeats e) (hc : c ∈ e.children) : n.Repeats c :=
  fun g hg => h g (mem_filters_of_child hc hg)

/-- No `desc` filter comes with a replacement but copies of those in the chain. -/
theorem Chain.repeats_replacement {n : Expr} {f : Application} {c : Chain}
    (h : ofFilter? f = .ok (some c)) (hn : n.Repeats f.toExpr) : n.Repeats c.replacement := by
  obtain ⟨-, hoperand, -, -⟩ := parts_of_ofFilter? h
  intro g hg hname
  rcases mem_filters_replacement h hg with hg | rfl | hg
  · exact hn g hg hname
  · have hwrap : c.wrapping ∈ f.toExpr.filters := by
      refine Expr.mem_filters_of_child (List.mem_cons_self ..) ?_
      rw [hoperand]
      exact Expr.mem_filters_iff.2 (.inl rfl)
    obtain ⟨f', hf', hname', hrepeats⟩ := hn c.wrapping hwrap hname
    exact ⟨f', hf', hname', c.emptied_repeats.trans hrepeats⟩
  · rw [hname] at hg
    exact absurd hg (by decide)

/-! ### The errors of the pass -/

namespace DefaultPass

/-- An error that some `desc` filter of an expression is to blame for. -/
def ErrorOf (n : Expr) (err : Error) : Prop := ∃ f ∈ n.filters, f.name = descFilter ∧ f.Blamed err

/-- At a node whose `desc` filters are copies of those in `n`, what the pass puts in has such copies
only, and it fails for one of them. -/
theorem meets_enter_repeats {n e : Expr} (h : n.Repeats e) :
    Meets (fun r => ∀ c ∈ r.children, n.Repeats c) (ErrorOf n) (pass.enter e) := by
  have henter := meets_enter e
  cases hr : pass.enter e with
  | ok r =>
    rw [hr] at henter
    rcases henter with ⟨rfl, -⟩ | ⟨f, c, rfl, hchain, rfl⟩
    · exact fun c hc => h.child hc
    · exact fun a ha => (Chain.repeats_replacement hchain h).child ha
  | error err =>
    rw [hr] at henter
    obtain ⟨g, rfl, hname, -⟩ := henter
    have hchain : Chain.ofFilter? g = .error err := by
      cases ho : Chain.ofFilter? g with
      | error err' =>
        rw [enter_eq] at hr
        simpa [enter, Application.toExpr, Expr.application?, ho] using hr
      | ok o =>
        rw [enter_eq] at hr
        cases o <;> simp [enter, Application.toExpr, Expr.application?, ho] at hr
    obtain ⟨f, hf, hdesc, hrepeats⟩ := h g (Expr.mem_filters_iff.2 (.inl rfl)) hname
    exact ⟨f, hf, hdesc, hrepeats.blamed (Chain.blamed_of_ofFilter? hchain)⟩

theorem meets_run_errors (n : Expr) : Meets (fun _ => True) (ErrorOf n) (pass.run n) := by
  have hself : n.Repeats n := fun g hg hname => ⟨g, hg, hname, .refl g⟩
  have henter : ∀ e, n.Repeats e → Meets (fun r => True ∧ ∀ c ∈ r.children, n.Repeats c) (ErrorOf n)
      (pass.enter e) :=
    fun e he => (meets_enter_repeats he).mono (fun _ hr => ⟨trivial, hr⟩) fun _ herr => herr
  exact (Pass.meets_walk (Q := fun _ => True) lightens_weight leave_eq
    (fun _ _ _ _ _ => trivial) henter
    n.weight_lt_two_mul_depth hself).mono (fun _ _ => trivial) fun _ herr => herr

/-- **The default-message pass fails for the expression it is given, never for its own
replacements.**  Where every `desc` filter of an expression has a default and leads down to a
`trans` filter, the pass succeeds.  Where it fails, some `desc` filter of the expression is to
blame, and the error has its line: that of a missing `trans` if none is below it, that of a missing
default if one is and the filter has no argument. -/
theorem errors_blame_desc (n : Expr) :
    ((∀ f ∈ n.filters, f.name = descFilter → f.WellFormed) → ∃ m, (pipeline true).run n = .ok m) ∧
      ∀ err, (pipeline true).run n = .error err → ∃ f ∈ n.filters, f.name = descFilter ∧
        ((err = .missingTrans f.line ∧ ¬f.operand.ReachesTrans) ∨
          (err = .missingDefault f.line ∧ f.operand.ReachesTrans ∧ f.args = [])) := by
  have hmeets := meets_run_errors n
  have hrun : (pipeline true).run n = pass.run n := run_pipeline true n
  rw [hrun]
  cases hout : pass.run n with
  | ok m => exact ⟨fun _ => ⟨m, rfl⟩, nofun⟩
  | error err =>
    rw [hout] at hmeets
    refine ⟨fun hwell => ?_, ?_⟩
    · obtain ⟨f, hf, hname, hblamed⟩ := hmeets
      exact absurd hblamed ((hwell f hf hname).not_blamed err)
    · rintro _ ⟨⟩
      exact hmeets

def twiceDefaulted : Expr :=
  .filter (.filter (.filter (.string "a" 1) transFilter [] 1) descFilter [] 2) descFilter
    [.string "A" 3] 3

/-- The outer `desc` filter is put in for first, and what fails is a copy of the inner one: the
error has its line. -/
theorem errors_blame_desc_twice :
    (pipeline true).run twiceDefaulted = .error (.missingDefault 2) ∧
      ∃ f ∈ twiceDefaulted.filters, f.name = descFilter ∧ f.line = 2 ∧ f.args = [] := by
  have hrun : (pipeline true).run twiceDefaulted = .error (.missingDefault 2) := by
    rw [run_pipeline]
    decide +kernel
  obtain ⟨f, hf, hname, ⟨herr, -⟩ | ⟨herr, -, hargs⟩⟩ := (errors_blame_desc twiceDefaulted).2 _ hrun
  · cases herr
  · exact ⟨hrun, f, hf, hname, (Error.missingDefault.inj herr).symm, hargs⟩

end DefaultPass

end Phrasebook
