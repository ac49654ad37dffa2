import Phrasebook.Proofs.Nodes
import Phrasebook.Render

/-!
# Evaluation, child by child

* `Expr.Refines` : where the first expression has a value, the second has the same value;
* `Expr.refines_of_rebuilt` : refining every child of a node refines the node;
* `Expr.eval_congr` : scopes with the same variables, in which the filters of an expression do the
  same, give it the same outcome.
-/

namespace Phrasebook

namespace Expr

theorem eval_cond (s : Scope) (t y n : Expr) (l : Nat) :
    (Expr.cond t y n l).eval s = t.eval s >>= fun v => if v.truthy then y.eval s else n.eval s := by
  rw [eval]

/-! ### Refinement -/

/-- Where the first expression has a value, the second has the same value. -/
def Refines (s : Scope) (a b : Expr) : Prop := ∀ v, a.eval s = .ok v → b.eval s = .ok v

theorem Refines.refl (s : Scope) (a : Expr) : Refines s a a := fun _ h => h

theorem Refines.trans {s : Scope} {a b c : Expr} (hab : Refines s a b) (hbc : Refines s b c) :
    Refines s a c :=
  fun v h => hbc v (hab v h)

section Lists

variable {s : Scope}

theorem evalList_of_refines {as bs : List Expr} (h : List.Forall₂ (Refines s) as bs)
    {vs : List Value} : evalList s as = .ok vs → evalList s bs = .ok vs := by
  induction h generalizing vs with
  | nil => exact id
  | cons hab _ ih =>
    intro hv
    obtain ⟨v, hv, hvs⟩ := Outcome.bind_eq_ok.1 hv
    obtain ⟨ws, hws, he⟩ := Outcome.bind_eq_ok.1 hvs
    rw [evalList, hab v hv, Outcome.ok_bind, ih hws, Outcome.ok_bind, he]

theorem evalValues_of_refines {es es' : List (Expr × Expr)}
    (h : List.Forall₂ (OnBoth (Refines s)) es es') {vs : List Value} :
    evalValues s es = .ok vs → evalValues s es' = .ok vs := by
  induction h generalizing vs with
  | nil => exact id
  | cons hab _ ih =>
    intro hv
    obtain ⟨v, hv, hvs⟩ := Outcome.bind_eq_ok.1 hv
    obtain ⟨ws, hws, he⟩ := Outcome.bind_eq_ok.1 hvs
    rw [evalValues, hab.2 v hv, Outcome.ok_bind, ih hws, Outcome.ok_bind, he]

theorem evalEntries_of_refines {es es' : List (Expr × Expr)}
    (h : List.Forall₂ (OnBoth (Refines s)) es es') {vs : List (String × Value)} :
    evalEntries s es = .ok vs → evalEntries s es' = .ok vs := by
  induction h generalizing vs with
  | nil => exact id
  | cons hab _ ih =>
    intro hv
    obtain ⟨k, hk, hkv⟩ := Outcome.bind_eq_ok.1 hv
    obtain ⟨v, hv, hvs⟩ := Outcome.bind_eq_ok.1 hkv
    obtain ⟨ws, hws, he⟩ := Outcome.bind_eq_ok.1 hvs
    rw [evalEntries, hab.1 k hk, Outcome.ok_bind, hab.2 v hv, Outcome.ok_bind, ih hws,
      Outcome.ok_bind, he]

end Lists

/-- Refining every child of a node refines the node. -/
theorem refines_of_rebuilt {s : Scope} {a b : Expr} (h : Rebuilt (Refines s) a b) :
    Refines s a b := by
  intro v hv
  cases h with
  | const w l => exact hv
  | name x l => exact hv
  | array l hes =>
    obtain ⟨vs, hvs, he⟩ := Outcome.bind_eq_ok.1 hv
    rw [eval, evalEntries_of_refines hes hvs, Outcome.ok_bind, he]
  | filter x l he has =>
    obtain ⟨w, hw, hrest⟩ := Outcome.bind_eq_ok.1 hv
    obtain ⟨vs, hvs, hf⟩ := Outcome.bind_eq_ok.1 hrest
    rw [eval, he w hw, Outcome.ok_bind, evalList_of_refines has hvs, Outcome.ok_bind, hf]
  | cond l ht hy hn =>
    obtain ⟨w, hw, hrest⟩ := Outcome.bind_eq_ok.1 hv
    rw [eval_cond, ht w hw, Outcome.ok_bind]
    by_cases htrue : w.truthy
    · rw [if_pos htrue] at hrest ⊢
      exact hy v hrest
    · rw [if_neg htrue] at hrest ⊢
      exact hn v hrest
  | binary op l ha hb =>
    obtain ⟨w, hw, hrest⟩ := Outcome.bind_eq_ok.1 hv
    rw [eval, ha w hw, Outcome.ok_bind]
    cases hd : decided? op w with
    | some d =>
      rw [hd] at hrest
      exact hrest
    | none =>
      rw [hd] at hrest
      obtain ⟨w', hw', he⟩ := Outcome.bind_eq_ok.1 hrest
      simp only [hb w' hw', Outcome.ok_bind]
      exact he
  | choice k l hes =>
    obtain ⟨vs, hvs, he⟩ := Outcome.bind_eq_ok.1 hv
    rw [eval, evalValues_of_refines hes hvs, Outcome.ok_bind, he]

/-! ### Scopes that agree -/

/-- At the top of an expression two scopes do the same: the filter there, or the choice, is the same
in both. -/
def AgreeAt (s s' : Scope) : Expr → Prop
  | .filter _ x _ _ =>
    ∀ v vs l, Filter.apply s.localizer s.locale x v vs l =
      Filter.apply s'.localizer s'.locale x v vs l
  | .choice _ _ _ =>
    ∀ vs l, Filter.choice s.localizer s.locale vs l = Filter.choice s'.localizer s'.locale vs l
  | _ => True

section Congruence

variable {s s' : Scope}

theorem evalList_congr {es : List Expr} (h : ∀ e ∈ es, e.eval s = e.eval s') :
    evalList s es = evalList s' es := by
  induction es with
  | nil => rfl
  | cons e es ih =>
    rw [evalList, evalList, h e (List.mem_cons_self ..),
      ih fun a ha => h a (List.mem_cons_of_mem _ ha)]

theorem evalValues_congr {es : List (Expr × Expr)} (h : ∀ e ∈ es, e.2.eval s = e.2.eval s') :
    evalValues s es = evalValues s' es := by
  induction es with
  | nil => rfl
  | cons e es ih =>
    rw [evalValues, evalValues, h e (List.mem_cons_self ..),
      ih fun a ha => h a (List.mem_cons_of_mem _ ha)]

theorem evalEntries_congr {es : List (Expr × Expr)}
    (h : ∀ e ∈ es, e.1.eval s = e.1.eval s' ∧ e.2.eval s = e.2.eval s') :
    evalEntries s es = evalEntries s' es := by
  induction es with
  | nil => rfl
  | cons e es ih =>
    obtain ⟨hk, hv⟩ := h e (List.mem_cons_self ..)
    rw [evalEntries, evalEntries, hk, hv, ih fun a ha => h a (List.mem_cons_of_mem _ ha)]

end Congruence

/-- Scopes with the same variables that agree at every node of an expression give it the same
outcome. -/
theorem eval_congr {s s' : Scope} (hctx : s.context = s'.context) (e : Expr)
    (h : ∀ a ∈ e.nodes, AgreeAt s s' a) : e.eval s = e.eval s' := by
  induction e using children_induction with
  | step e ih =>
    have hchild : ∀ c ∈ e.children, c.eval s = c.eval s' := fun c hc =>
      ih c hc fun a ha => h a (mem_nodes_of_child hc ha)
    have htop := h e (self_mem_nodes e)
    cases e with
    | const v l => rfl
    | name x l => rw [eval, eval, hctx]
    | array es l =>
      have hes : evalEntries s es = evalEntries s' es := evalEntries_congr fun e he =>
        ⟨hchild _ (List.mem_flatMap.2 ⟨e, he, by simp⟩),
          hchild _ (List.mem_flatMap.2 ⟨e, he, by simp⟩)⟩
      rw [eval, eval, hes]
    | filter e x as l =>
      have he := hchild e (List.mem_cons_self ..)
      have has : evalList s as = evalList s' as :=
        evalList_congr fun a ha => hchild a (List.mem_cons_of_mem _ ha)
      simp only [eval, he, has, htop _ _ l]
    | cond t y n l =>
      rw [eval, eval, hchild t (by simp [children]), hchild y (by simp [children]),
        hchild n (by simp [children])]
    | binary op a b l =>
      rw [eval, eval, hchild a (by simp [children]), hchild b (by simp [children])]
    | choice es k l =>
      have hes : evalValues s es = evalValues s' es := evalValues_congr fun e he =>
        hchild _ (List.mem_flatMap.2 ⟨e, he, by simp⟩)
      simp only [eval, hes, htop _ l]

end Expr

end Phrasebook
