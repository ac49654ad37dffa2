import Phrasebook.Proofs.ReadBack
import Phrasebook.Proofs.WalkOutcome
import Phrasebook.Proofs.PassWalk
import Phrasebook.Proofs.Evaluation

/-!
# Lines play no part

Moving every line of an expression by one function moves the lines of what becomes of it, and
nothing else.

* `Expr.relined`, `Error.relined` : an expression, or an error, with its lines moved;
* `Outcome.Moved` : an outcome and the same outcome with its lines moved;
* `Expr.eval_relined` : the value of an expression does not depend on its lines, nor does the error
  in its place but for its own line;
* `Chain.replacement_relined` : what stands in for a chain moves with the chain;
* `DefaultPass.run_relined` : so does the outcome of the default-message pass.
-/

namespace Phrasebook

open Outcome

/-! ### Moved outcomes -/

def Error.relined (f : Nat → Nat) : Error → Error
  | .missingTrans l => .missingTrans (f l)
  | .missingDefault l => .missingDefault (f l)
  | .parse cause input l => .parse cause input (f l)
  | .unknownFilter x l => .unknownFilter x (f l)
  | .undefinedVariable x l => .undefinedVariable x (f l)
  | .argument cause l => .argument cause (f l)
  | .configuration => .configuration
  | .runaway l => .runaway (f l)

/-- The second outcome is the first one moved: its result by `g`, the line of its error by `f`. -/
def Outcome.Moved {α β : Type} (f : Nat → Nat) (g : α → β) : Except Error α → Except Error β → Prop
  | .ok a, .ok b => b = g a
  | .error err, .error err' => err' = err.relined f
  | _, _ => False

namespace Outcome.Moved

variable {f : Nat → Nat} {α β γ δ : Type} {g : α → β} {h : γ → δ} {x : Except Error α}
    {y : Except Error β}

theorem bind {k : α → Except Error γ} {k' : β → Except Error δ} (hx : Moved f g x y)
    (hk : ∀ a, Moved f h (k a) (k' (g a))) : Moved f h (x >>= k) (y >>= k') := by
  cases x with
  | error err =>
    cases y with
    | error err' => exact hx
    | ok b => exact hx.elim
  | ok a =>
    cases y with
    | error err' => exact hx.elim
    | ok b =>
      obtain rfl : b = g a := hx
      exact hk a

theorem of_ok {a : α} (hx : Moved f g x y) (h : x = .ok a) : y = .ok (g a) := by
  subst h
  cases y with
  | error err => exact hx.elim
  | ok b => exact congrArg Except.ok hx

/-- What keeps its result when it is moved has a result if what it is moved to has it. -/
theorem ok_iff {x y : Except Error α} (hx : Moved f id x y) (a : α) : x = .ok a ↔ y = .ok a := by
  refine ⟨hx.of_ok, fun h => ?_⟩
  subst h
  cases x with
  | error err => exact hx.elim
  | ok b => exact congrArg Except.ok (show a = b from hx).symm

/-- Computations that move item by item move all in all. -/
theorem mapM {α β γ δ : Type} {g : α → β} {h : γ → δ} {k : α → Except Error γ}
    {k' : β → Except Error δ} {l : List α} (hk : ∀ a ∈ l, Moved f h (k a) (k' (g a))) :
    Moved f (List.map h) (l.mapM k) ((l.map g).mapM k') := by
  induction l with
  | nil => rfl
  | cons a l ih =>
    rw [List.mapM_cons, List.map_cons, List.mapM_cons]
    refine (hk a (List.mem_cons_self ..)).bind fun b => ?_
    exact (ih fun c hc => hk c (List.mem_cons_of_mem _ hc)).bind fun bs => rfl

end Outcome.Moved

/-! ### Moved expressions -/

namespace Expr

mutual

/-- The expression with all its lines moved. -/
def relined (f : Nat → Nat) : Expr → Expr
  | .const v l => .const v (f l)
  | .name x l => .name x (f l)
  | .array es l => .array (relinedPairs f es) (f l)
  | .filter e x as l => .filter (e.relined f) x (relinedList f as) (f l)
  | .cond t y n l => .cond (t.relined f) (y.relined f) (n.relined f) (f l)
  | .binary op a b l => .binary op (a.relined f) (b.relined f) (f l)
  | .choice es k l => .choice (relinedPairs f es) (f k) (f l)

def relinedList (f : Nat → Nat) : List Expr → List Expr
  | [] => []
  | e :: es => e.relined f :: relinedList f es

def relinedPairs (f : Nat → Nat) : List (Expr × Expr) → List (Expr × Expr)
  | [] => []
  | (k, v) :: es => (k.relined f, v.relined f) :: relinedPairs f es

end

def relinedPair (f : Nat → Nat) (e : Expr × Expr) : Expr × Expr := (e.1.relined f, e.2.relined f)

section Lemmas

variable (f : Nat → Nat)

theorem relinedList_eq (es : List Expr) : relinedList f es = es.map (relined f) := by
  induction es with
  | nil => rfl
  | cons e es ih => rw [relinedList, ih, List.map_cons]

theorem relinedPairs_eq (es : List (Expr × Expr)) : relinedPairs f es = es.map (relinedPair f) := by
  induction es with
  | nil => rfl
  | cons e es ih => rw [relinedPairs, ih, List.map_cons, relinedPair]

theorem line_relined (e : Expr) : (e.relined f).line = f e.line := by
  cases e <;> rfl

mutual

theorem depth_relined : ∀ e : Expr, (e.relined f).depth = e.depth
  | .const v l => rfl
  | .name x l => rfl
  | .array es l => by rw [relined, depth, depth, depthPairs_relined es]
  | .filter e x as l => by rw [relined, depth, depth, depth_relined e, depthList_relined as]
  | .cond t y n l => by rw [relined, depth, depth, depth_relined t, depth_relined y,
      depth_relined n]
  | .binary op a b l => by rw [relined, depth, depth, depth_relined a, depth_relined b]
  | .choice es k l => by rw [relined, depth, depth, depthPairs_relined es]

theorem depthList_relined : ∀ es : List Expr, depthList (relinedList f es) = depthList es
  | [] => rfl
  | e :: es => by rw [relinedList, depthList, depthList, depth_relined e, depthList_relined es]

theorem depthPairs_relined :
    ∀ es : List (Expr × Expr), depthPairs (relinedPairs f es) = depthPairs es
  | [] => rfl
  | (k, v) :: es => by rw [relinedPairs, depthPairs, depthPairs, depth_relined k, depth_relined v,
      depthPairs_relined es]

end

mutual

/-- Without lines an expression is the expression with all lines moved to zero. -/
theorem relined_zero : ∀ e : Expr, e.relined (fun _ => 0) = e.unlined
  | .const v l => rfl
  | .name x l => rfl
  | .array es l => by rw [relined, unlined, relinedPairs_zero es]
  | .filter e x as l => by rw [relined, unlined, relined_zero e, relinedList_zero as]
  | .cond t y n l => by rw [relined, unlined, relined_zero t, relined_zero y, relined_zero n]
  | .binary op a b l => by rw [relined, unlined, relined_zero a, relined_zero b]
  | .choice es k l => by rw [relined, unlined, relinedPairs_zero es]

theorem relinedList_zero : ∀ es : List Expr, relinedList (fun _ => 0) es = unlinedList es
  | [] => rfl
  | e :: es => by rw [relinedList, unlinedList, relined_zero e, relinedList_zero es]

theorem relinedPairs_zero :
    ∀ es : List (Expr × Expr), relinedPairs (fun _ => 0) es = unlinedPairs es
  | [] => rfl
  | (k, v) :: es => by rw [relinedPairs, unlinedPairs, relined_zero k, relined_zero v,
      relinedPairs_zero es]

end

end Lemmas

end Expr

/-! ### Evaluation -/

namespace Filter

variable (f : Nat → Nat) (l : Localizer) (locale : Option String) (args : List Value) (line : Nat)

theorem parametersAt_relined (i : Nat) :
    Moved f id (parametersAt args i line) (parametersAt args i (f line)) := by
  unfold parametersAt
  split <;> rfl

theorem stringAt_relined (i : Nat) :
    Moved f id (stringAt args i line) (stringAt args i (f line)) := by
  unfold stringAt
  split <;> rfl

/-- A filter does the same on every line. -/
theorem apply_relined (name : String) (operand : Value) :
    Moved f id (apply l locale name operand args line)
      (apply l locale name operand args (f line)) := by
  unfold apply
  split
  · refine (parametersAt_relined f args line 0).bind fun params => ?_
    refine (stringAt_relined f args line 1).bind fun domain => ?_
    exact (stringAt_relined f args line 2).bind fun named => rfl
  split
  · exact (parametersAt_relined f args line 0).bind fun params => rfl
  repeat' split
  all_goals rfl

theorem choice_relined :
    Moved f id (choice l locale args line) (choice l locale args (f line)) := by
  unfold choice
  split
  · refine (parametersAt_relined f _ line 2).bind fun params => ?_
    refine (stringAt_relined f _ line 3).bind fun domain => ?_
    exact (stringAt_relined f _ line 4).bind fun named => rfl
  · rfl

end Filter

namespace Expr

variable (f : Nat → Nat) (s : Scope)

mutual

/-- The value of an expression does not depend on its lines. -/
theorem eval_relined : ∀ e : Expr, Moved f id (e.eval s) ((e.relined f).eval s)
  | .const v l => rfl
  | .name x l => by
    rw [relined, eval, eval]
    split <;> rfl
  | .array es l => (evalEntries_relined es).bind fun vs => rfl
  | .filter e x as l =>
    (eval_relined e).bind fun v =>
      (evalList_relined as).bind fun vs => Filter.apply_relined f _ _ vs l x v
  | .cond t y n l => by
    rw [relined, eval_cond, eval_cond]
    refine (eval_relined t).bind fun v => ?_
    by_cases hv : v.truthy = true
    · rw [if_pos hv, id, if_pos hv]
      exact eval_relined y
    · rw [if_neg hv, id, if_neg hv]
      exact eval_relined n
  | .binary op a b l => by
    rw [relined, eval, eval]
    refine (eval_relined a).bind fun v => ?_
    dsimp only [id]
    cases decided? op v with
    | some w => rfl
    | none => exact (eval_relined b).bind fun w => rfl
  | .choice es k l => (evalValues_relined es).bind fun vs => Filter.choice_relined f _ _ vs l

theorem evalList_relined :
    ∀ es : List Expr, Moved f id (evalList s es) (evalList s (relinedList f es))
  | [] => rfl
  | e :: es => (eval_relined e).bind fun _ => (evalList_relined es).bind fun _ => rfl

theorem evalValues_relined :
    ∀ es : List (Expr × Expr), Moved f id (evalValues s es) (evalValues s (relinedPairs f es))
  | [] => rfl
  | (_, e) :: es => (eval_relined e).bind fun _ => (evalValues_relined es).bind fun _ => rfl

theorem evalEntries_relined :
    ∀ es : List (Expr × Expr), Moved f id (evalEntries s es) (evalEntries s (relinedPairs f es))
  | [] => rfl
  | (k, e) :: es =>
    (eval_relined k).bind fun _ => (eval_relined e).bind fun _ =>
      (evalEntries_relined es).bind fun _ => rfl

end

end Expr

/-! ### Chains -/

def Application.relined (f : Nat → Nat) (a : Application) : Application :=
  ⟨a.operand.relined f, a.name, Expr.relinedList f a.args, f a.line⟩

def Chain.relined (f : Nat → Nat) (c : Chain) : Chain :=
  ⟨c.desc.relined f, c.trans.relined f, c.wrapping.relined f, c.default.relined f⟩

section Chains

variable (f : Nat → Nat)

theorem Expr.application?_relined (e : Expr) :
    (e.relined f).application? = e.application?.map (Application.relined f) := by
  cases e <;> rfl

theorem Expr.findTrans?_relined (e : Expr) :
    (e.relined f).findTrans? = e.findTrans?.map (Application.relined f) := by
  induction e using Expr.children_induction with
  | step e ih =>
    cases e with
    | filter e x as l =>
      rw [relined, findTrans?, findTrans?]
      by_cases hx : x = transFilter
      · rw [if_pos hx, if_pos hx]
        rfl
      · rw [if_neg hx, if_neg hx]
        exact ih e (List.mem_cons_self ..)
    | _ => rfl

theorem Elements.hasKey_relined (es : Elements) (key : String) :
    Elements.hasKey (Expr.relinedPairs f es) key = Elements.hasKey es key := by
  unfold hasKey
  rw [Expr.relinedPairs_eq, List.any_map]
  congr 1
  funext e
  obtain ⟨k, v⟩ := e
  cases k with
  | const w l => cases w <;> rfl
  | _ => rfl

theorem Elements.add_relined (es : Elements) (value : Expr) :
    Expr.relinedPairs f (Elements.add es value none) = Elements.add (Expr.relinedPairs f es)
      (value.relined f) none := by
  have hindex : ∀ e : Expr, indexAfter? (e.relined f) = indexAfter? e := by
    intro e
    cases e with
    | const w l => cases w <;> rfl
    | _ => rfl
  have hnext : Elements.nextIndex (es.map (Expr.relinedPair f)) = es.nextIndex := by
    unfold nextIndex
    rw [List.filterMap_map]
    congr 2
    funext e
    exact hindex e.1
  unfold add
  rw [Expr.relinedPairs_eq, Expr.relinedPairs_eq, hnext, List.map_append, Expr.line_relined]
  rfl

theorem Elements.foldl_add_relined (es : List Expr) (added : Elements) :
    Expr.relinedPairs f (es.foldl (fun es v => Elements.add es v none) added) =
      (Expr.relinedList f es).foldl (fun es v => Elements.add es v none)
      (Expr.relinedPairs f added) := by
  induction es generalizing added with
  | nil => rfl
  | cons e es ih =>
    rw [List.foldl_cons, ih, Elements.add_relined]
    rfl

namespace Chain

theorem countsAmong_relined (e : Expr) : countsAmong (e.relined f) = countsAmong e := by
  cases e with
  | array es l => exact Elements.hasKey_relined f es countParameter
  | _ => rfl

theorem kind_relined (c : Chain) : (c.relined f).kind = c.kind := by
  have hcount : (c.relined f).trans.args.any countsAmong = c.trans.args.any countsAmong := by
    show (Expr.relinedList f c.trans.args).any countsAmong = _
    rw [Expr.relinedList_eq, List.any_map]
    congr 1
    funext e
    exact countsAmong_relined f e
  have hempty : (c.relined f).wrapping.args.isEmpty = c.wrapping.args.isEmpty := by
    show (Expr.relinedList f c.wrapping.args).isEmpty = _
    rw [Expr.relinedList_eq, List.isEmpty_map]
  unfold kind
  rw [hcount, hempty]

/-- A chain is matched on whatever lines it stands. -/
theorem ofFilter?_relined (a : Application) :
    Moved f (Option.map (Chain.relined f)) (ofFilter? a) (ofFilter? (a.relined f)) := by
  have htrans := a.operand.findTrans?_relined f
  have hwrapping := a.operand.application?_relined f
  have hargs : (a.relined f).args = a.args.map (Expr.relined f) := Expr.relinedList_eq f a.args
  unfold ofFilter?
  by_cases hname : a.name = descFilter
  · rw [if_pos hname, if_pos (show (a.relined f).name = descFilter from hname), hargs]
    rw [show (a.relined f).operand = a.operand.relined f from rfl, htrans, hwrapping]
    cases a.operand.findTrans? with
    | none => rfl
    | some t =>
      cases a.operand.application? with
      | none => rfl
      | some w => cases a.args <;> rfl
  · rw [if_neg hname, if_neg (show ¬(a.relined f).name = descFilter from hname)]
    rfl

theorem testArgs_relined (c : Chain) : (c.relined f).testArgs = Expr.relinedList f c.testArgs := by
  have hargs : (c.relined f).wrapping.args = Expr.relinedList f c.wrapping.args := rfl
  unfold testArgs
  rw [kind_relined, hargs]
  cases c.kind <;> cases c.wrapping.args <;> rfl

theorem filledDefault_relined (c : Chain) :
    (c.relined f).filledDefault = c.filledDefault.relined f := by
  have hargs : (c.relined f).wrapping.args = Expr.relinedList f c.wrapping.args := rfl
  unfold filledDefault
  rw [kind_relined, hargs]
  cases c.kind <;> cases c.wrapping.args <;> rfl

/-- What stands in for a chain moves with the chain. -/
theorem replacement_relined (c : Chain) : (c.relined f).replacement = c.replacement.relined f := by
  have hchoice : (c.relined f).choice = c.choice.relined f := by
    unfold choice
    rw [Expr.relined, Elements.foldl_add_relined]
    rfl
  have hconditional : (c.relined f).conditional = c.conditional.relined f := by
    unfold conditional
    rw [testArgs_relined, filledDefault_relined]
    rfl
  unfold replacement
  rw [kind_relined]
  cases c.kind with
  | pluralized => exact hchoice
  | plain => exact hconditional
  | withArguments => exact hconditional

end Chain

end Chains

/-! ### The default-message pass -/

namespace Expr

/-- A node whose children move with what becomes of them moves with what becomes of it. -/
theorem mapChildrenM_relined (f : Nat → Nat) {k : Expr → Except Error Expr} {e : Expr}
    (hk : ∀ c ∈ e.children, Moved f (relined f) (k c) (k (c.relined f))) :
    Moved f (relined f) (e.mapChildrenM k) ((e.relined f).mapChildrenM k) := by
  have hlist : ∀ {as : List Expr}, (∀ a ∈ as, a ∈ e.children) →
      Moved f (relinedList f) (as.mapM k) ((relinedList f as).mapM k) := by
    intro as has
    have hmoved := Moved.mapM fun a ha => hk a (has a ha)
    rw [relinedList_eq, show relinedList f = List.map (relined f) from funext (relinedList_eq f)]
    exact hmoved
  have hpairs : ∀ {es : List (Expr × Expr)}, (∀ p ∈ es, p.1 ∈ e.children ∧ p.2 ∈ e.children) →
      Moved f (relinedPairs f) (es.mapM (mapPairM k)) ((relinedPairs f es).mapM (mapPairM k)) := by
    intro es hes
    have hmoved : Moved f (List.map (relinedPair f)) (es.mapM (mapPairM k))
        ((es.map (relinedPair f)).mapM (mapPairM k)) :=
      Moved.mapM fun p hp => (hk p.1 (hes p hp).1).bind fun _ =>
        (hk p.2 (hes p hp).2).bind fun _ => rfl
    rw [relinedPairs_eq, show relinedPairs f =
      List.map (relinedPair f) from funext (relinedPairs_eq f)]
    exact hmoved
  cases e with
  | const v l => rfl
  | name x l => rfl
  | array es l =>
    refine (hpairs fun p hp => ?_).bind fun _ => rfl
    simp only [children, List.mem_flatMap]
    exact ⟨⟨p, hp, by simp⟩, p, hp, by simp⟩
  | filter e x as l =>
    exact (hk e (List.mem_cons_self ..)).bind fun _ =>
      (hlist fun a ha => List.mem_cons_of_mem _ ha).bind fun _ => rfl
  | cond t y n l =>
    exact (hk t (by simp [children])).bind fun _ => (hk y (by simp [children])).bind fun _ =>
      (hk n (by simp [children])).bind fun _ => rfl
  | binary op a b l =>
    exact (hk a (by simp [children])).bind fun _ => (hk b (by simp [children])).bind fun _ => rfl
  | choice es k l =>
    refine (hpairs fun p hp => ?_).bind fun _ => rfl
    simp only [children, List.mem_flatMap]
    exact ⟨⟨p, hp, by simp⟩, p, hp, by simp⟩

end Expr

namespace DefaultPass

variable (f : Nat → Nat)

theorem enter_relined (e : Expr) :
    Moved f (Expr.relined f) (pass.enter e) (pass.enter (e.relined f)) := by
  rw [enter_eq, enter_eq]
  unfold enter
  rw [if_pos rfl, if_pos rfl, Expr.application?_relined]
  cases e.application? with
  | none => rfl
  | some a =>
    refine (Chain.ofFilter?_relined f a).bind fun o => ?_
    cases o with
    | none => rfl
    | some c => exact (Chain.replacement_relined f c)

/-- The walk of the pass moves with the expression, step by step. -/
theorem walk_relined (n : Nat) (e : Expr) :
    Moved f (Expr.relined f) (pass.walk n e) (pass.walk n (e.relined f)) := by
  induction n generalizing e with
  | zero => exact congrArg Error.runaway (Expr.line_relined f e)
  | succ n ih =>
    rw [Pass.walk_succ, Pass.walk_succ]
    refine (enter_relined f e).bind fun r => ?_
    exact (Expr.mapChildrenM_relined f fun c _ => ih c).bind fun _ => rfl

/-- The outcome of the pass moves with the expression. -/
theorem run_relined (e : Expr) :
    Moved f (Expr.relined f) (pass.run e) (pass.run (e.relined f)) := by
  have hreach : pass.reach (e.relined f) = pass.reach e := congrArg (2 * ·) (Expr.depth_relined f e)
  unfold Pass.run
  rw [hreach]
  exact walk_relined f _ e

end DefaultPass

end Phrasebook
