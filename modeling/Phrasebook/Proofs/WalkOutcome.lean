import Phrasebook.Proofs.Lists
import Phrasebook.Proofs.Nodes
import Phrasebook.Pass

/-!
# The outcome of a walk

Passes whose hook `enter` makes the children of a node lighter come to an end by themselves.

* `Expr.meets_mapChildrenM` : what becomes of a node whose children are replaced, and the errors in
  its place;
* `Pass.Lightens` : the children of what is put in weigh less than the node it is put in for;
* `Pass.walk_congr` : the walk of such a pass does not depend on the bound, once the bound exceeds
  the weight;
* `Pass.meets_walk` : what `enter` makes sure of at every node holds at every node of the outcome,
  and the walk has no errors of its own;
* `Pass.walk_eq_self` : a pass that keeps every node of an expression keeps the expression.
-/

namespace Phrasebook

open Outcome

namespace Expr

/-! ### Replacing children -/

section Children

variable {f g : Expr → Except Error Expr}

theorem meets_mapM {α β : Type} (f : α → Except Error β) (l : List α) :
    Meets (List.Forall₂ (fun a b => f a = .ok b) l) (fun err => ∃ a ∈ l, f a = .error err)
      (l.mapM f) := by
  induction l with
  | nil => exact List.Forall₂.nil
  | cons a l ih =>
    rw [List.mapM_cons]
    cases ha : f a with
    | error err => exact ⟨a, List.mem_cons_self .., ha⟩
    | ok b =>
      refine (ih.mono (fun _ h => h) fun err => ?_).bind fun bs hbs => List.Forall₂.cons ha hbs
      rintro ⟨x, hx, herr⟩
      exact ⟨x, List.mem_cons_of_mem _ hx, herr⟩

/-- A computation on a child has the result related to the child, or fails as the child does. -/
theorem meets_child {f : Expr → Except Error Expr} {cs : List Expr} {c : Expr} (hc : c ∈ cs) :
    Meets (fun c' => f c = .ok c') (fun err => ∃ a ∈ cs, f a = .error err) (f c) := by
  cases h : f c with
  | ok c' => exact rfl
  | error err => exact ⟨c, hc, h⟩

theorem meets_mapPairs (f : Expr → Except Error Expr) (es : List (Expr × Expr)) :
    Meets (List.Forall₂ (OnBoth fun a b => f a = .ok b) es)
      (fun err => ∃ c ∈ es.flatMap fun e => [e.1, e.2], f c = .error err)
        (es.mapM (mapPairM f)) := by
  have hpair : ∀ e : Expr × Expr, Meets (OnBoth (fun a b => f a = .ok b) e)
      (fun err => ∃ c ∈ [e.1, e.2], f c = .error err) (mapPairM f e) := fun e =>
    (meets_child (by simp)).bind fun k hk => (meets_child (by simp)).bind fun v hv => ⟨hk, hv⟩
  refine (meets_mapM (mapPairM f) es).mono (fun es' h => h.imp fun e e' he => ?_) ?_
  · have := hpair e
    rw [he] at this
    exact this
  · rintro err ⟨e, he, herr⟩
    have := hpair e
    rw [herr] at this
    obtain ⟨c, hc, hcerr⟩ := this
    exact ⟨c, List.mem_flatMap.2 ⟨e, he, hc⟩, hcerr⟩

/-- A node whose children are replaced has the replacements for its children; it fails as one of the
children does. -/
theorem meets_mapChildrenM (f : Expr → Except Error Expr) (e : Expr) :
    Meets (Rebuilt (fun a b => f a = .ok b) e) (fun err => ∃ c ∈ e.children, f c = .error err)
      (e.mapChildrenM f) := by
  cases e with
  | const v l => exact .const v l
  | name x l => exact .name x l
  | array es l => exact (meets_mapPairs f es).bind fun es' h => .array l h
  | filter e x as l =>
    refine (meets_child (List.mem_cons_self ..)).bind fun e' he => ?_
    refine ((meets_mapM f as).mono (fun _ h => h) fun err => ?_).bind fun as' has =>
      .filter x l he has
    rintro ⟨a, ha, herr⟩
    exact ⟨a, List.mem_cons_of_mem _ ha, herr⟩
  | cond t y n l =>
    exact (meets_child (by simp [children])).bind fun t' ht =>
      (meets_child (by simp [children])).bind fun y' hy =>
      (meets_child (by simp [children])).bind fun n' hn => .cond l ht hy hn
  | binary op a b l =>
    exact (meets_child (by simp [children])).bind fun a' ha =>
      (meets_child (by simp [children])).bind fun b' hb =>
      .binary op l ha hb
  | choice es k l => exact (meets_mapPairs f es).bind fun es' h => .choice k l h

theorem mapM_congr {α β : Type} {f g : α → Except Error β} {l : List α} (h : ∀ a ∈ l, f a = g a) :
    l.mapM f = l.mapM g := by
  induction l with
  | nil => rfl
  | cons a l ih =>
    rw [List.mapM_cons, List.mapM_cons, h a (List.mem_cons_self ..),
      ih fun x hx => h x (List.mem_cons_of_mem _ hx)]

theorem mapPairs_congr {es : List (Expr × Expr)}
    (h : ∀ c ∈ es.flatMap fun e => [e.1, e.2], f c = g c) :
    es.mapM (mapPairM f) = es.mapM (mapPairM g) := by
  refine mapM_congr fun e he => ?_
  have hkey : f e.1 = g e.1 := h _ (List.mem_flatMap.2 ⟨e, he, by simp⟩)
  have hval : f e.2 = g e.2 := h _ (List.mem_flatMap.2 ⟨e, he, by simp⟩)
  unfold mapPairM
  rw [hkey, hval]

/-- Only what becomes of the children matters to the node. -/
theorem mapChildrenM_congr {e : Expr} (h : ∀ c ∈ e.children, f c = g c) :
    e.mapChildrenM f = e.mapChildrenM g := by
  cases e with
  | const v l => rfl
  | name x l => rfl
  | array es l => rw [mapChildrenM, mapChildrenM, mapPairs_congr h]
  | filter e x as l =>
    rw [mapChildrenM, mapChildrenM, h e (List.mem_cons_self ..),
      mapM_congr fun a ha => h a (List.mem_cons_of_mem _ ha)]
  | cond t y n l =>
    rw [mapChildrenM, mapChildrenM, h t (by simp [children]), h y (by simp [children]),
      h n (by simp [children])]
  | binary op a b l =>
    rw [mapChildrenM, mapChildrenM, h a (by simp [children]), h b (by simp [children])]
  | choice es k l => rw [mapChildrenM, mapChildrenM, mapPairs_congr h]

end Children

/-! ### Rebuilt nodes -/

section Rebuilt

variable {R : Expr → Expr → Prop}

theorem exists_of_mem_onBoth {es es' : List (Expr × Expr)} (h : List.Forall₂ (OnBoth R) es es')
    {c' : Expr} (hc : c' ∈ es'.flatMap fun e => [e.1, e.2]) :
    ∃ c ∈ es.flatMap fun e => [e.1, e.2], R c c' := by
  obtain ⟨e', he', hc⟩ := List.mem_flatMap.1 hc
  obtain ⟨e, he, hkey, hval⟩ := exists_of_mem_forall₂ h he'
  simp only [List.mem_cons, List.not_mem_nil, or_false] at hc
  rcases hc with rfl | rfl
  · exact ⟨e.1, List.mem_flatMap.2 ⟨e, he, by simp⟩, hkey⟩
  · exact ⟨e.2, List.mem_flatMap.2 ⟨e, he, by simp⟩, hval⟩

/-- Every child of a rebuilt node stands for a child of the node. -/
theorem Rebuilt.exists_child {e e' : Expr} (h : Rebuilt R e e') {c' : Expr}
    (hc : c' ∈ e'.children) : ∃ c ∈ e.children, R c c' := by
  cases h with
  | const v l => cases hc
  | name x l => cases hc
  | array l hes => exact exists_of_mem_onBoth hes hc
  | filter x l he has =>
    rcases List.mem_cons.1 hc with rfl | hc
    · exact ⟨_, List.mem_cons_self .., he⟩
    · obtain ⟨a, ha, hR⟩ := exists_of_mem_forall₂ has hc
      exact ⟨a, List.mem_cons_of_mem _ ha, hR⟩
  | cond l ht hy hn =>
    simp only [children, List.mem_cons, List.not_mem_nil, or_false] at hc
    rcases hc with rfl | rfl | rfl
    · exact ⟨_, by simp [children], ht⟩
    · exact ⟨_, by simp [children], hy⟩
    · exact ⟨_, by simp [children], hn⟩
  | binary op l ha hb =>
    simp only [children, List.mem_cons, List.not_mem_nil, or_false] at hc
    rcases hc with rfl | rfl
    · exact ⟨_, by simp [children], ha⟩
    · exact ⟨_, by simp [children], hb⟩
  | choice k l hes => exact exists_of_mem_onBoth hes hc

theorem eq_of_forall₂ {α : Type} {l l' : List α} (h : List.Forall₂ (fun a b => a = b) l l') :
    l = l' := by
  rwa [List.forall₂_eq_eq_eq] at h

theorem eq_of_forall₂_onBoth {es es' : List (Expr × Expr)} (h : List.Forall₂ (OnBoth Eq) es es') :
    es = es' :=
  eq_of_forall₂ (h.imp fun _ _ hab => Prod.ext hab.1 hab.2)

/-- A node rebuilt from its own children is the node. -/
theorem Rebuilt.eq {e e' : Expr} (h : Rebuilt Eq e e') : e = e' := by
  cases h with
  | const v l => rfl
  | name x l => rfl
  | array l hes => rw [eq_of_forall₂_onBoth hes]
  | filter x l he has => rw [he, eq_of_forall₂ has]
  | cond l ht hy hn => rw [ht, hy, hn]
  | binary op l ha hb => rw [ha, hb]
  | choice k l hes => rw [eq_of_forall₂_onBoth hes]

end Rebuilt

/-- What holds at the top of an expression whatever its children are. -/
def OfTop (Q : Expr → Prop) : Prop :=
  ∀ ⦃R : Expr → Expr → Prop⦄ ⦃a b : Expr⦄, Rebuilt R a b → Q a → Q b

end Expr

namespace Pass

variable {p : Pass (Except Error)} {μ : Expr → Nat}

/-- The children of what `enter` puts in weigh less than the node it is put in for. -/
def Lightens (p : Pass (Except Error)) (μ : Expr → Nat) : Prop :=
  ∀ e r, p.enter e = .ok r → ∀ c ∈ r.children, μ c < μ e

theorem walk_succ (n : Nat) (e : Expr) :
    p.walk (n + 1) e = p.enter e >>= fun r => r.mapChildrenM (p.walk n) >>= p.leave := rfl

/-- The bound on the depth of a walk plays no part once it exceeds the weight of the expression. -/
theorem walk_congr (h : p.Lightens μ) {n m : Nat} {e : Expr} (hn : μ e < n) (hm : μ e < m) :
    p.walk n e = p.walk m e := by
  induction n generalizing m e with
  | zero => omega
  | succ n ih =>
    obtain ⟨m, rfl⟩ : ∃ k, m = k + 1 := ⟨m - 1, by omega⟩
    rw [walk_succ, walk_succ]
    cases hr : p.enter e with
    | error err => rfl
    | ok r =>
      have hchild : ∀ c ∈ r.children, p.walk n c = p.walk m c := fun c hc => by
        have := h e r hr c hc
        exact ih (by omega) (by omega)
      rw [ok_bind, ok_bind, Expr.mapChildrenM_congr hchild]

/-- A walk makes sure, at every node of its outcome, of what `enter` makes sure of at the node it
puts in.  `P` is what `enter` may rely on.  The walk fails only as `enter` does. -/
theorem meets_walk {P Q : Expr → Prop} {E : Error → Prop} (h : p.Lightens μ)
    (hleave : ∀ a, p.leave a = .ok a) (hQ : Expr.OfTop Q)
    (henter : ∀ e, P e → Meets (fun r => Q r ∧ ∀ c ∈ r.children, P c) E (p.enter e)) {n : Nat}
    {e : Expr} (hn : μ e < n) (he : P e) : Meets (fun r => ∀ a ∈ r.nodes, Q a) E (p.walk n e) := by
  induction n generalizing e with
  | zero => omega
  | succ n ih =>
    rw [walk_succ]
    have htop := henter e he
    cases hr : p.enter e with
    | error err =>
      rw [hr] at htop
      exact htop
    | ok r =>
      rw [hr] at htop
      obtain ⟨hQr, hP⟩ := htop
      have hchild : ∀ c ∈ r.children,
          Meets (fun c' => ∀ a ∈ c'.nodes, Q a) E (p.walk n c) := fun c hc => by
        have := h e r hr c hc
        exact ih (by omega) (hP c hc)
      refine ((Expr.meets_mapChildrenM (p.walk n) r).mono (fun _ hr' => hr') ?_).bind
        fun r' hr' => ?_
      · rintro err ⟨c, hc, herr⟩
        have := hchild c hc
        rw [herr] at this
        exact this
      · rw [hleave]
        intro a ha
        rcases Expr.mem_nodes.1 ha with rfl | ⟨c', hc', ha⟩
        · exact hQ hr' hQr
        · obtain ⟨c, hc, hwalk⟩ := hr'.exists_child hc'
          have := hchild c hc
          rw [hwalk] at this
          exact this a ha

/-- A pass that keeps every node of an expression keeps the expression. -/
theorem walk_eq_self (hleave : ∀ a, p.leave a = .ok a) {n : Nat} {e : Expr} (hn : e.depth ≤ n)
    (h : ∀ a ∈ e.nodes, p.enter a = .ok a) : p.walk n e = .ok e := by
  induction n generalizing e with
  | zero =>
    have := e.depth_pos
    omega
  | succ n ih =>
    have hchild : ∀ c ∈ e.children, ∃ c', p.walk n c = .ok c' ∧ c = c' := fun c hc => by
      have := Expr.depth_lt_of_mem_children hc
      exact ⟨c, ih (by omega) fun a ha => h a (Expr.mem_nodes_of_child hc ha), rfl⟩
    obtain ⟨e', he', hR⟩ := Expr.exists_rebuilt hchild
    rw [walk_succ, h e (Expr.self_mem_nodes e), ok_bind, he', ok_bind, hleave, hR.eq]

end Pass

end Phrasebook
