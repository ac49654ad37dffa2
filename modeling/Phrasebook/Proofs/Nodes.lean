import Mathlib.Data.List.Forall2
import Phrasebook.Desc.Chain

/-!
# The nodes of an expression

* `Expr.nodes`, `Expr.filters` : everything that occurs in an expression, at any depth, and the
  filters among it;
* `Expr.children_induction` : a property that passes from the children of every node to the node
  holds everywhere;
* `Expr.Rebuilt` : two expressions with the same node on top, whose children are related one by one;
* `Expr.exists_rebuilt` : passing related children to `Expr.mapChildrenM` gives a rebuilt
  expression.
-/

namespace Phrasebook

namespace Expr

/-! ### Occurrences -/

mutual

/-- An expression and everything that occurs in it, at any depth. -/
def nodes : Expr → List Expr
  | .const v l => [.const v l]
  | .name x l => [.name x l]
  | .array es l => .array es l :: nodesOfPairs es
  | .filter e x as l => .filter e x as l :: (nodes e ++ nodesOfList as)
  | .cond t y n l => .cond t y n l :: (nodes t ++ (nodes y ++ nodes n))
  | .binary op a b l => .binary op a b l :: (nodes a ++ nodes b)
  | .choice es k l => .choice es k l :: nodesOfPairs es

def nodesOfList : List Expr → List Expr
  | [] => []
  | e :: es => nodes e ++ nodesOfList es

def nodesOfPairs : List (Expr × Expr) → List Expr
  | [] => []
  | (k, v) :: es => nodes k ++ (nodes v ++ nodesOfPairs es)

end

/-- The filters that occur in an expression, at any depth. -/
def filters (e : Expr) : List Application := e.nodes.filterMap Expr.application?

theorem nodesOfList_eq (es : List Expr) : nodesOfList es = es.flatMap nodes := by
  induction es with
  | nil => rfl
  | cons e es ih => rw [nodesOfList, ih, List.flatMap_cons]

theorem nodesOfPairs_eq (es : List (Expr × Expr)) :
    nodesOfPairs es = (es.flatMap fun e => [e.1, e.2]).flatMap nodes := by
  induction es with
  | nil => rfl
  | cons e es ih => simp [nodesOfPairs, ih]

/-- What holds of the children that entries have holds of every key and every value. -/
theorem forall_mem_entries {P : Expr → Prop} {es : List (Expr × Expr)} :
    (∀ c ∈ es.flatMap fun e => [e.1, e.2], P c) ↔ ∀ e ∈ es, P e.1 ∧ P e.2 := by
  simp only [List.forall_mem_flatMap, List.forall_mem_cons, List.not_mem_nil, false_implies,
    implies_true, and_true]

theorem nodes_eq (e : Expr) : e.nodes = e :: e.children.flatMap nodes := by
  cases e <;> simp [nodes, children, nodesOfList_eq, nodesOfPairs_eq]

theorem mem_nodes {a e : Expr} : a ∈ e.nodes ↔ a = e ∨ ∃ c ∈ e.children, a ∈ c.nodes := by
  rw [nodes_eq, List.mem_cons, List.mem_flatMap]

theorem self_mem_nodes (e : Expr) : e ∈ e.nodes := mem_nodes.2 (Or.inl rfl)

theorem mem_nodes_of_child {a c e : Expr} (hc : c ∈ e.children) (ha : a ∈ c.nodes) : a ∈ e.nodes :=
  mem_nodes.2 (Or.inr ⟨c, hc, ha⟩)

theorem mem_filters {f : Application} {e : Expr} : f ∈ e.filters ↔ f.toExpr ∈ e.nodes := by
  unfold filters
  rw [List.mem_filterMap]
  constructor
  · rintro ⟨a, ha, hf⟩
    cases a <;> cases hf
    exact ha
  · intro h
    exact ⟨f.toExpr, h, rfl⟩

theorem mem_filters_of_child {f : Application} {c e : Expr} (hc : c ∈ e.children)
    (hf : f ∈ c.filters) : f ∈ e.filters :=
  mem_filters.2 (mem_nodes_of_child hc (mem_filters.1 hf))

/-! ### Induction on children -/

theorem depth_le_depthList {e : Expr} {es : List Expr} (h : e ∈ es) : e.depth ≤ depthList es := by
  induction es with
  | nil => cases h
  | cons a es ih =>
    rw [depthList]
    rcases List.mem_cons.1 h with rfl | h
    · exact Nat.le_max_left _ _
    · exact Nat.le_trans (ih h) (Nat.le_max_right _ _)

theorem depth_le_depthPairs {e : Expr × Expr} {es : List (Expr × Expr)} (h : e ∈ es) :
    e.1.depth ≤ depthPairs es ∧ e.2.depth ≤ depthPairs es := by
  induction es with
  | nil => cases h
  | cons a es ih =>
    obtain ⟨k, v⟩ := a
    rw [depthPairs]
    rcases List.mem_cons.1 h with rfl | h
    · exact ⟨by dsimp only; omega, by dsimp only; omega⟩
    · have := ih h
      omega

theorem depth_lt_of_mem_children {c e : Expr} (h : c ∈ e.children) : c.depth < e.depth := by
  cases e with
  | const v l => cases h
  | name x l => cases h
  | array es l | choice es k l =>
    obtain ⟨p, hp, hc⟩ := List.mem_flatMap.1 h
    have := depth_le_depthPairs hp
    rw [depth]
    simp only [List.mem_cons, List.not_mem_nil, or_false] at hc
    rcases hc with rfl | rfl <;> omega
  | filter e x as l =>
    rw [depth]
    rcases List.mem_cons.1 h with rfl | h
    · omega
    · have := depth_le_depthList h
      omega
  | cond t y n l =>
    rw [depth]
    simp only [children, List.mem_cons, List.not_mem_nil, or_false] at h
    rcases h with rfl | rfl | rfl <;> omega
  | binary op a b l =>
    rw [depth]
    simp only [children, List.mem_cons, List.not_mem_nil, or_false] at h
    rcases h with rfl | rfl <;> omega

theorem depth_pos (e : Expr) : 0 < e.depth := by
  cases e <;> rw [depth] <;> omega

/-- What passes from the children of every node to the node holds of all expressions. -/
theorem children_induction {P : Expr → Prop} (step : ∀ e : Expr, (∀ c ∈ e.children, P c) → P e)
    (e : Expr) : P e :=
  step e fun c hc =>
    have := depth_lt_of_mem_children hc
    children_induction step c
termination_by e.depth

/-! ### Rebuilding a node -/

/-- Entries whose keys and values are related. -/
def OnBoth (R : Expr → Expr → Prop) (a b : Expr × Expr) : Prop := R a.1 b.1 ∧ R a.2 b.2

/-- Two expressions with the same node on top, whose children are related one by one. -/
inductive Rebuilt (R : Expr → Expr → Prop) : Expr → Expr → Prop
  | const (v : Literal) (l : Nat) : Rebuilt R (.const v l) (.const v l)
  | name (x : String) (l : Nat) : Rebuilt R (.name x l) (.name x l)
  | array {es es' : List (Expr × Expr)} (l : Nat) (h : List.Forall₂ (OnBoth R) es es') :
      Rebuilt R (.array es l) (.array es' l)
  | filter {e e' : Expr} {as as' : List Expr} (x : String) (l : Nat) (he : R e e')
      (has : List.Forall₂ R as as') :
      Rebuilt R (.filter e x as l) (.filter e' x as' l)
  | cond {t t' y y' n n' : Expr} (l : Nat) (ht : R t t') (hy : R y y') (hn : R n n') :
      Rebuilt R (.cond t y n l) (.cond t' y' n' l)
  | binary {a a' b b' : Expr} (op : BinOp) (l : Nat) (ha : R a a') (hb : R b b') :
      Rebuilt R (.binary op a b l) (.binary op a' b' l)
  | choice {es es' : List (Expr × Expr)} (k l : Nat) (h : List.Forall₂ (OnBoth R) es es') :
      Rebuilt R (.choice es k l) (.choice es' k l)

theorem exists_forall₂_mapM {α β : Type} {f : α → Except Error β} {R : α → β → Prop} {l : List α}
    (h : ∀ a ∈ l, ∃ b, f a = .ok b ∧ R a b) : ∃ l', l.mapM f = .ok l' ∧ List.Forall₂ R l l' := by
  induction l with
  | nil => exact ⟨[], rfl, List.Forall₂.nil⟩
  | cons a l ih =>
    obtain ⟨b, hb, hR⟩ := h a (List.mem_cons_self ..)
    obtain ⟨l', hl, hRl⟩ := ih fun x hx => h x (List.mem_cons_of_mem _ hx)
    refine ⟨b :: l', ?_, List.Forall₂.cons hR hRl⟩
    rw [List.mapM_cons, hb, hl]
    rfl

theorem exists_onBoth_mapM {f : Expr → Except Error Expr} {R : Expr → Expr → Prop}
    {es : List (Expr × Expr)}
    (h : ∀ c ∈ es.flatMap fun e => [e.1, e.2], ∃ c', f c = .ok c' ∧ R c c') :
    ∃ es', es.mapM (mapPairM f) = .ok es' ∧ List.Forall₂ (OnBoth R) es es' := by
  refine exists_forall₂_mapM fun e he => ?_
  obtain ⟨k, hk, hRk⟩ := h e.1 (List.mem_flatMap.2 ⟨e, he, by simp⟩)
  obtain ⟨v, hv, hRv⟩ := h e.2 (List.mem_flatMap.2 ⟨e, he, by simp⟩)
  refine ⟨(k, v), ?_, hRk, hRv⟩
  unfold mapPairM
  rw [hk, hv]
  rfl

/-- Where `f` gives every child a related one, it rebuilds the node. -/
theorem exists_rebuilt {f : Expr → Except Error Expr} {R : Expr → Expr → Prop} {e : Expr}
    (h : ∀ c ∈ e.children, ∃ c', f c = .ok c' ∧ R c c') :
    ∃ e', e.mapChildrenM f = .ok e' ∧ Rebuilt R e e' := by
  cases e with
  | const v l => exact ⟨_, rfl, .const v l⟩
  | name x l => exact ⟨_, rfl, .name x l⟩
  | array es l =>
    obtain ⟨es', hes, hR⟩ := exists_onBoth_mapM h
    exact ⟨_, by rw [mapChildrenM, hes]; rfl, .array l hR⟩
  | filter e x as l =>
    obtain ⟨e', he, hRe⟩ := h e (List.mem_cons_self ..)
    obtain ⟨as', has, hRas⟩ := exists_forall₂_mapM fun a ha => h a (List.mem_cons_of_mem _ ha)
    have hmap : mapChildrenM f (.filter e x as l) = .ok (.filter e' x as' l) := by
      rw [mapChildrenM, he]
      simp only [bind, Except.bind, has]
      rfl
    exact ⟨_, hmap, .filter x l hRe hRas⟩
  | cond t y n l =>
    obtain ⟨t', ht, hRt⟩ := h t (by simp [children])
    obtain ⟨y', hy, hRy⟩ := h y (by simp [children])
    obtain ⟨n', hn, hRn⟩ := h n (by simp [children])
    exact ⟨_, by rw [mapChildrenM, ht, hy, hn]; rfl, .cond l hRt hRy hRn⟩
  | binary op a b l =>
    obtain ⟨a', ha, hRa⟩ := h a (by simp [children])
    obtain ⟨b', hb, hRb⟩ := h b (by simp [children])
    exact ⟨_, by rw [mapChildrenM, ha, hb]; rfl, .binary op l hRa hRb⟩
  | choice es k l =>
    obtain ⟨es', hes, hR⟩ := exists_onBoth_mapM h
    exact ⟨_, by rw [mapChildrenM, hes]; rfl, .choice k l hR⟩

end Expr

/-- Values added one after another without keys stand under numbers. -/
theorem Elements.mem_foldl_add {vs : List Expr} {es : Elements} {e : Expr × Expr}
    (h : e ∈ vs.foldl (fun es v => Elements.add es v none) es) :
    e ∈ es ∨ (∃ x l, e.1 = .number x l) ∧ e.2 ∈ vs := by
  induction vs generalizing es with
  | nil => exact Or.inl h
  | cons v vs ih =>
    rcases ih h with h | ⟨hkey, hval⟩
    · rcases List.mem_append.1 h with h | h
      · exact Or.inl h
      · rw [List.mem_singleton.1 h]
        exact Or.inr ⟨⟨_, _, rfl⟩, List.mem_cons_self ..⟩
    · exact Or.inr ⟨hkey, List.mem_cons_of_mem _ hval⟩

end Phrasebook
