import Phrasebook.Desc.Pass
import Phrasebook.Proofs.Nodes

/-!
# The walk of a pass

* `Pass.Carries` : the walk down to a given depth succeeds, and what it makes of an expression is
  related to it;
* `Pass.exists_walk` : the walk succeeds on a node if it does on the children of what `enter` puts
  in;
* `DefaultPass.enter_eq_self`, `DefaultPass.enter_chain` : what the default-message pass puts in.
-/

namespace Phrasebook

namespace Pass

/-- The walk down to depth `n` succeeds, and what it makes of the expression is related to it by
`R`. -/
def Carries (p : Pass (Except Error)) (R : Expr → Expr → Prop) (n : Nat) (e : Expr) : Prop :=
  ∃ e', p.walk n e = .ok e' ∧ R e e'

variable {p : Pass (Except Error)} {R : Expr → Expr → Prop}

/-- The walk succeeds on a node if it does on the children of what `enter` puts in. -/
theorem exists_walk (hleave : ∀ a, p.leave a = .ok a) {n : Nat} {e r : Expr}
    (hr : p.enter e = .ok r) (h : ∀ c ∈ r.children, p.Carries R n c) :
    ∃ r', p.walk (n + 1) e = .ok r' ∧ Expr.Rebuilt R r r' := by
  obtain ⟨r', hm, hR⟩ := Expr.exists_rebuilt h
  refine ⟨r', ?_, hR⟩
  rw [walk, hr, Outcome.ok_bind, hm, Outcome.ok_bind, hleave]

/-- A node that `enter` keeps is carried if its children are. -/
theorem carries_of_kept (hleave : ∀ a, p.leave a = .ok a)
    (hR : ∀ {a b : Expr}, Expr.Rebuilt R a b → R a b) {n : Nat} {e : Expr} (he : p.enter e = .ok e)
    (h : ∀ c ∈ e.children, p.Carries R n c) : p.Carries R (n + 1) e := by
  obtain ⟨e', hw, hb⟩ := exists_walk hleave he h
  exact ⟨e', hw, hR hb⟩

end Pass

namespace DefaultPass

/-- The pass at work on expressions, switched on. -/
abbrev pass : Pass (Except Error) := toPass ⟨true⟩

theorem leave_eq (e : Expr) : pass.leave e = .ok e := rfl

theorem enter_eq (e : Expr) : pass.enter e = enter ⟨true⟩ e := by
  show Pass.ofOutcome (enter ⟨true⟩ e) = enter ⟨true⟩ e
  cases enter ⟨true⟩ e <;> rfl

/-- The pass keeps every node that is no `desc` filter. -/
theorem enter_eq_self {e : Expr} (h : ∀ f, e.application? = some f → f.name ≠ descFilter) :
    pass.enter e = .ok e := by
  rw [enter_eq]
  unfold enter
  rw [if_pos rfl]
  cases hf : e.application? with
  | none => rfl
  | some f =>
    simp only [Chain.ofFilter?, if_neg (h f hf)]
    rfl

/-- The pass puts the replacement of a chain in its place. -/
theorem enter_chain {f : Application} {c : Chain} (h : Chain.ofFilter? f = .ok (some c)) :
    pass.enter f.toExpr = .ok c.replacement := by
  rw [enter_eq]
  show (Chain.ofFilter? f >>= fun o => _) = _
  rw [h]
  rfl

end DefaultPass

end Phrasebook
