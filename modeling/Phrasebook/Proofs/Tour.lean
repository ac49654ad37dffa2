import Mathlib.Data.List.Perm.Basic
import Phrasebook.Pass.Pipeline
import Phrasebook.Pass.Recording
import Phrasebook.Proofs.Nodes

/-!
# The tour of a pass

The calls that a run of passes makes of its hooks, and where it stops.

* `Expr.tour` : the calls of a pass over an expression, which enclose those over its children;
* `Pass.Watches` : a pass that keeps every node, notes every call, and fails where the record calls
  for it;
* `Recording.Makes` : a computation that comes to what making some calls one after another comes to;
* `Pass.makes_run`, `Pipeline.makes_run` : a pass makes the calls of its tour, and passes theirs one
  after another;
* `Pipeline.run_tours` : the record of a run, to the end or up to the call that fails.
-/

namespace Phrasebook

/-! ### Tours -/

namespace Expr

mutual

/-- The calls of the hooks of a pass over an expression: the node is entered, its children are
toured in the order of the text, and the node is left. -/
def tour (pass : String) : Expr → List Call
  | .const v l => [⟨pass, .enter, .const v l⟩, ⟨pass, .leave, .const v l⟩]
  | .name x l => [⟨pass, .enter, .name x l⟩, ⟨pass, .leave, .name x l⟩]
  | .array es l =>
    ⟨pass, .enter, .array es l⟩ :: (tourOfPairs pass es ++ [⟨pass, .leave, .array es l⟩])
  | .filter e x as l =>
    ⟨pass, .enter, .filter e x as l⟩ ::
      (tour pass e ++ tourOfList pass as ++ [⟨pass, .leave, .filter e x as l⟩])
  | .cond t y n l =>
    ⟨pass, .enter, .cond t y n l⟩ ::
      (tour pass t ++ (tour pass y ++ tour pass n) ++ [⟨pass, .leave, .cond t y n l⟩])
  | .binary op a b l =>
    ⟨pass, .enter, .binary op a b l⟩ ::
      (tour pass a ++ tour pass b ++ [⟨pass, .leave, .binary op a b l⟩])
  | .choice es k l =>
    ⟨pass, .enter, .choice es k l⟩ :: (tourOfPairs pass es ++ [⟨pass, .leave, .choice es k l⟩])

def tourOfList (pass : String) : List Expr → List Call
  | [] => []
  | e :: es => tour pass e ++ tourOfList pass es

def tourOfPairs (pass : String) : List (Expr × Expr) → List Call
  | [] => []
  | (k, v) :: es => tour pass k ++ (tour pass v ++ tourOfPairs pass es)

end

variable (pass : String)

theorem tourOfList_eq (es : List Expr) : tourOfList pass es = es.flatMap (tour pass) := by
  induction es with
  | nil => rfl
  | cons e es ih => rw [tourOfList, ih, List.flatMap_cons]

theorem tourOfPairs_eq (es : List (Expr × Expr)) :
    tourOfPairs pass es = (es.flatMap fun e => [e.1, e.2]).flatMap (tour pass) := by
  induction es with
  | nil => rfl
  | cons e es ih => simp [tourOfPairs, ih]

theorem tour_eq (e : Expr) :
    e.tour pass = ⟨pass, .enter, e⟩ :: (e.children.flatMap (tour pass) ++ [⟨pass, .leave, e⟩]) := by
  cases e <;> simp [tour, children, tourOfList_eq, tourOfPairs_eq]

/-- The nodes on which a hook is called, in order. -/
def calledOn (hook : Hook) (calls : List Call) : List Expr :=
  (calls.filter fun c => c.hook == hook).map Call.expr

theorem calledOn_append (hook : Hook) (as bs : List Call) :
    calledOn hook (as ++ bs) = calledOn hook as ++ calledOn hook bs := by
  unfold calledOn
  rw [List.filter_append, List.map_append]

theorem calledOn_flatMap (hook : Hook) (es : List Expr) (f : Expr → List Call) :
    calledOn hook (es.flatMap f) = es.flatMap fun e => calledOn hook (f e) := by
  induction es with
  | nil => rfl
  | cons e es ih => rw [List.flatMap_cons, calledOn_append, ih, List.flatMap_cons]

/-- Every node is entered once, before what occurs in it. -/
theorem calledOn_enter_tour (e : Expr) : calledOn .enter (e.tour pass) = e.nodes := by
  induction e using children_induction with
  | step e ih =>
    have hchildren :
        e.children.flatMap (fun c => calledOn .enter (c.tour pass)) = e.children.flatMap nodes :=
      List.flatMap_congr ih
    rw [tour_eq, nodes_eq, ← List.singleton_append, calledOn_append, calledOn_append,
      calledOn_flatMap, hchildren]
    exact congrArg (e :: ·) (List.append_nil _)

/-- Every node is left once. -/
theorem calledOn_leave_tour (e : Expr) : (calledOn .leave (e.tour pass)).Perm e.nodes := by
  induction e using children_induction with
  | step e ih =>
    have hchildren : (e.children.flatMap fun c => calledOn .leave (c.tour pass)).Perm
        (e.children.flatMap nodes) :=
      List.Perm.flatMap_left e.children ih
    rw [tour_eq, nodes_eq, ← List.singleton_append, calledOn_append, calledOn_append,
      calledOn_flatMap]
    exact (List.perm_append_singleton e _).trans (hchildren.cons e)

end Expr

/-! ### Computations that make calls -/

namespace Recording

variable {α β : Type} {fault : List Call → Option Error} {x : Recording α} {a : α} {b : β}
    {cs ds : List Call}

/-- Notes calls one after another behind those of `log`, up to the first at which the record calls
for an error. -/
def replay (fault : List Call → Option Error) (log : List Call) :
    List Call → Option Error × List Call
  | [] => (none, log)
  | c :: cs =>
    match fault (log ++ [c]) with
    | some err => (some err, log ++ [c])
    | none => replay fault (log ++ [c]) cs

def outcome (a : α) : Option Error → Except Error α
  | none => .ok a
  | some err => .error err

/-- Whatever was recorded before, the computation makes the calls one after another, and has the
value `a` at their end. -/
def Makes (fault : List Call → Option Error) (x : Recording α) (cs : List Call) (a : α) : Prop :=
  ∀ log, x.run.run log = (outcome a (replay fault log cs).1, (replay fault log cs).2)

theorem replay_append (log : List Call) : replay fault log (cs ++ ds) =
    match replay fault log cs with
    | (none, log') => replay fault log' ds
    | (some err, log') => (some err, log') := by
  induction cs generalizing log with
  | nil => rfl
  | cons c cs ih =>
    rw [List.cons_append, replay, replay]
    cases fault (log ++ [c]) with
    | some err => rfl
    | none => exact ih (log ++ [c])

/-- Calls that are all in order are all recorded. -/
theorem replay_of_forall {log : List Call}
    (h : ∀ k, 0 < k → k ≤ cs.length → fault (log ++ cs.take k) = none) :
    replay fault log cs = (none, log ++ cs) := by
  induction cs generalizing log with
  | nil => rw [replay, List.append_nil]
  | cons c cs ih =>
    have hfirst : fault (log ++ [c]) = none := h 1 (by omega) (by simp)
    rw [replay, hfirst]
    show replay fault (log ++ [c]) cs = _
    rw [ih, List.append_assoc, List.singleton_append]
    intro k hk hle
    rw [List.append_assoc]
    exact h (k + 1) (by omega) (Nat.succ_le_succ hle)

/-- The first call that is not in order is the last one recorded. -/
theorem replay_of_first {log : List Call} {k : Nat} {err : Error} (hk : 0 < k) (hle : k ≤ cs.length)
    (hbefore : ∀ j, 0 < j → j < k → fault (log ++ cs.take j) = none)
    (h : fault (log ++ cs.take k) = some err) :
    replay fault log cs = (some err, log ++ cs.take k) := by
  induction cs generalizing log k with
  | nil => exact absurd hk (Nat.not_lt.2 hle)
  | cons c cs ih =>
    obtain ⟨k, rfl⟩ : ∃ m, k = m + 1 := ⟨k - 1, by omega⟩
    rw [replay]
    cases k with
    | zero =>
      have herr : fault (log ++ [c]) = some err := h
      rw [herr]
      rfl
    | succ k =>
      have hfirst : fault (log ++ [c]) = none := hbefore 1 (by omega) (by omega)
      rw [hfirst]
      show replay fault (log ++ [c]) cs = _
      have hbehind : log ++ (c :: cs).take (k + 2) = log ++ [c] ++ cs.take (k + 1) := by simp
      rw [hbehind] at h ⊢
      refine ih (by omega) (Nat.le_of_succ_le_succ hle) (fun j hj hlt => ?_) h
      rw [List.append_assoc]
      exact hbefore (j + 1) (by omega) (by omega)

theorem run_bind (x : Recording α) (f : α → Recording β) (log : List Call) : (x >>= f).run.run log =
    match x.run.run log with
    | (.ok a, log') => (f a).run.run log'
    | (.error err, log') => (.error err, log') := by
  show (match x.run.run log with
    | (r, log') => (ExceptT.bindCont f r).run log') = _
  rcases x.run.run log with ⟨r, log'⟩
  cases r <;> rfl

theorem Makes.pure (fault : List Call → Option Error) (a : α) : Makes fault (Pure.pure a) [] a :=
  fun _ => rfl

/-- One computation after another makes its calls behind those of the other. -/
theorem Makes.bind {f : α → Recording β} (hx : Makes fault x cs a) (hf : Makes fault (f a) ds b) :
    Makes fault (x >>= f) (cs ++ ds) b := by
  intro log
  rw [run_bind, hx log, replay_append]
  rcases replay fault log cs with ⟨_ | err, log'⟩
  · exact hf log'
  · rfl

/-- What is done with the value of a computation makes no calls. -/
theorem Makes.map (hx : Makes fault x cs a) (f : α → β) :
    Makes fault (do return f (← x)) cs (f a) := by
  have hmake := hx.bind (f := fun a => Pure.pure (f a)) (Makes.pure fault (f a))
  rwa [List.append_nil] at hmake

section Children

variable {f : Expr → Recording Expr} {g : Expr → List Call}

theorem Makes.mapM {γ : Type} {f : γ → Recording γ} {g : γ → List Call} {es : List γ}
    (h : ∀ e ∈ es, Makes fault (f e) (g e) e) : Makes fault (es.mapM f) (es.flatMap g) es := by
  induction es with
  | nil => exact Makes.pure fault []
  | cons e es ih =>
    rw [List.mapM_cons, List.flatMap_cons]
    exact (h e (List.mem_cons_self ..)).bind
      ((ih fun a ha => h a (List.mem_cons_of_mem _ ha)).map (e :: ·))

theorem Makes.mapPairs {es : List (Expr × Expr)}
    (h : ∀ c ∈ es.flatMap fun e => [e.1, e.2], Makes fault (f c) (g c) c) :
    Makes fault (es.mapM (Expr.mapPairM f)) ((es.flatMap fun e => [e.1, e.2]).flatMap g) es := by
  have hpair : ∀ e ∈ es, Makes fault (Expr.mapPairM f e) (g e.1 ++ g e.2) e := by
    intro e he
    have hkey := h e.1 (List.mem_flatMap.2 ⟨e, he, by simp⟩)
    have hvalue := h e.2 (List.mem_flatMap.2 ⟨e, he, by simp⟩)
    exact hkey.bind (hvalue.map fun v => (e.1, v))
  have hcalls : (es.flatMap fun e => [e.1, e.2]).flatMap g =
      es.flatMap fun e => g e.1 ++ g e.2 := by
    simp [List.flatMap_assoc]
  rw [hcalls]
  exact Makes.mapM hpair

/-- A node whose children are kept is kept, with the calls for its children in the order of the
text. -/
theorem Makes.mapChildrenM {e : Expr} (h : ∀ c ∈ e.children, Makes fault (f c) (g c) c) :
    Makes fault (e.mapChildrenM f) (e.children.flatMap g) e := by
  cases e with
  | const v l => exact Makes.pure fault _
  | name x l => exact Makes.pure fault _
  | array es l => exact (Makes.mapPairs h).map fun es => Expr.array es l
  | filter e x as l =>
    have hargs : Makes fault (as.mapM f) (as.flatMap g) as :=
      Makes.mapM fun a ha => h a (List.mem_cons_of_mem _ ha)
    rw [Expr.mapChildrenM]
    exact (h e (List.mem_cons_self ..)).bind (hargs.map fun as => Expr.filter e x as l)
  | cond t y n l =>
    have hcalls : (Expr.cond t y n l).children.flatMap g = g t ++ (g y ++ g n) := by
      simp [Expr.children]
    rw [Expr.mapChildrenM, hcalls]
    refine (h t (by simp [Expr.children])).bind ((h y (by simp [Expr.children])).bind ?_)
    exact (h n (by simp [Expr.children])).map fun n => Expr.cond t y n l
  | binary op a b l =>
    have hcalls : (Expr.binary op a b l).children.flatMap g = g a ++ g b := by simp [Expr.children]
    rw [Expr.mapChildrenM, hcalls]
    refine (h a (by simp [Expr.children])).bind ?_
    exact (h b (by simp [Expr.children])).map fun b => Expr.binary op a b l
  | choice es k l => exact (Makes.mapPairs h).map fun es => Expr.choice es k l

end Children

end Recording

/-! ### Passes that watch -/

namespace Pass

open Recording

/-- Notes a call, and fails if the record calls for it. -/
def watch (fault : List Call → Option Error) (c : Call) : Recording Unit := do
  note c
  match fault (← get) with
  | some err => throw err
  | none => return ()

/-- A pass whose hooks note the call, fail if the record then calls for it, and otherwise keep the
node. -/
structure Watches (p : Pass Recording) (fault : List Call → Option Error) : Prop where
  enter : ∀ e, p.enter e = do
    watch fault ⟨p.name, .enter, e⟩
    return e
  leave : ∀ e, p.leave e = do
    watch fault ⟨p.name, .leave, e⟩
    return e

def watching (name : String) (priority : Int) (fault : List Call → Option Error) :
    Pass Recording where
  name := name
  priority := priority
  enter e := do
    watch fault ⟨name, .enter, e⟩
    return e
  leave e := do
    watch fault ⟨name, .leave, e⟩
    return e
  reach := Expr.depth
  depth_le_reach _ := Nat.le_refl _

theorem watches_watching (name : String) (priority : Int) (fault : List Call → Option Error) :
    (watching name priority fault).Watches fault :=
  ⟨fun _ => rfl, fun _ => rfl⟩

variable {p : Pass Recording} {fault : List Call → Option Error}

theorem makes_watch (c : Call) : Makes fault (watch fault c) [c] () := by
  intro log
  have hrun : (watch fault c).run.run log = (outcome () (fault (log ++ [c])), log ++ [c]) := by
    unfold watch note
    show (match fault (log ++ [c]) with
      | some err => (throw err : Recording Unit)
      | none => return ()).run.run (log ++ [c]) = _
    cases fault (log ++ [c]) <;> rfl
  rw [hrun, replay]
  cases fault (log ++ [c]) <;> rfl

theorem makes_walk (h : p.Watches fault) {n : Nat} {e : Expr} (hn : e.depth ≤ n) :
    Makes fault (p.walk n e) (e.tour p.name) e := by
  induction n generalizing e with
  | zero =>
    have := e.depth_pos
    omega
  | succ n ih =>
    have hchildren : ∀ c ∈ e.children, Makes fault (p.walk n c) (c.tour p.name) c := by
      intro c hc
      have := Expr.depth_lt_of_mem_children hc
      exact ih (by omega)
    have henter : Makes fault (p.enter e) [⟨p.name, .enter, e⟩] e := by
      rw [h.enter]
      exact (makes_watch _).map fun _ => e
    have hleave : Makes fault (p.leave e) [⟨p.name, .leave, e⟩] e := by
      rw [h.leave]
      exact (makes_watch _).map fun _ => e
    rw [Expr.tour_eq]
    exact henter.bind ((Makes.mapChildrenM hchildren).bind hleave)

/-- A watching pass makes the calls of its tour and keeps the expression. -/
theorem makes_run (h : p.Watches fault) (e : Expr) : Makes fault (p.run e) (e.tour p.name) e :=
  makes_walk h (p.depth_le_reach e)

end Pass

namespace Pipeline

open Recording

/-- The calls of all passes over an expression, in the order in which the passes run. -/
def tour (l : Pipeline Recording) (e : Expr) : List Call := l.passes.flatMap fun p => e.tour p.name

theorem makes_run {l : Pipeline Recording} {fault : List Call → Option Error}
    (h : ∀ p ∈ l.passes, p.Watches fault) (e : Expr) : Makes fault (l.run e) (l.tour e) e := by
  obtain ⟨passes⟩ := l
  unfold run tour
  dsimp only at h ⊢
  induction passes with
  | nil => exact Makes.pure fault e
  | cons p passes ih =>
    rw [List.foldlM_cons, List.flatMap_cons]
    exact (p.makes_run (h p (List.mem_cons_self ..)) e).bind
      (ih fun q hq => h q (List.mem_cons_of_mem _ hq))

/-- **The record of a run is the tour of every pass, up to the first failure.**  Passes that keep
every node and note every call keep the expression, and the record has their tours in the order in
which they run.  If a call is noted and fails, the run has its error, and nothing is noted behind
it.  A tour enters and leaves every node once, and between the two has the tours of the children in
the order of the text. -/
theorem run_tours (l : Pipeline Recording) (fault : List Call → Option Error)
    (h : ∀ p ∈ l.passes, p.Watches fault) (e : Expr) (log : List Call) :
    ((∀ k, 0 < k → k ≤ (l.tour e).length → fault (log ++ (l.tour e).take k) = none) →
        (l.run e).run.run log = (.ok e, log ++ l.tour e)) ∧
      (∀ k err, 0 < k → k ≤ (l.tour e).length →
        (∀ j, 0 < j → j < k → fault (log ++ (l.tour e).take j) = none) →
        fault (log ++ (l.tour e).take k) = some err →
          (l.run e).run.run log = (.error err, log ++ (l.tour e).take k)) ∧
      (∀ pass (a : Expr),
        a.tour pass =
            ⟨pass, .enter, a⟩ :: (a.children.flatMap (Expr.tour pass) ++ [⟨pass, .leave, a⟩]) ∧
          Expr.calledOn .enter (a.tour pass) = a.nodes ∧
          (Expr.calledOn .leave (a.tour pass)).Perm a.nodes) := by
  have hrun := makes_run h e log
  refine ⟨fun hnone => ?_, fun k err hk hle hbefore herr => ?_, fun pass a => ?_⟩
  · rw [hrun, replay_of_forall hnone]
    rfl
  · rw [hrun, replay_of_first hk hle hbefore herr]
    rfl
  · exact ⟨a.tour_eq pass, a.calledOn_enter_tour pass, a.calledOn_leave_tour pass⟩

def failSixth (calls : List Call) : Option Error :=
  if calls.length = 6 then some (.unknownFilter "upper" 1) else none

/-- Two passes over a filter: the second fails on entering the operand, and neither operand nor
filter is left again. -/
theorem run_tours_sixth :
    let l : Pipeline Recording := ⟨[.watching "a" 0 failSixth, .watching "b" 1 failSixth]⟩
    let e := Expr.filter (.name "x" 2) "upper" [] 1
    (∀ p ∈ l.passes, p.Watches failSixth) ∧
      (l.run e).run.run [] = (.error (.unknownFilter "upper" 1), (l.tour e).take 6) ∧
      ((l.tour e).take 6).map Call.text =
        ["a:enter:1:x|upper", "a:enter:2:x", "a:leave:2:x", "a:leave:1:x|upper",
          "b:enter:1:x|upper", "b:enter:2:x"] := by
  intro l e
  have hwatch : ∀ p ∈ l.passes, p.Watches failSixth := by
    intro p hp
    simp only [l, List.mem_cons, List.not_mem_nil, or_false] at hp
    rcases hp with rfl | rfl <;> exact Pass.watches_watching _ _ failSixth
  refine ⟨hwatch, (run_tours l failSixth hwatch e []).2.1 6 _ (by decide) (by decide)
    (fun j hj hlt => ?_) rfl, ?_⟩
  · have hlength : ((l.tour e).take j).length = j := by
      rw [List.length_take]
      exact Nat.min_eq_left (Nat.le_trans (Nat.le_of_lt hlt) (by decide))
    rw [List.nil_append, failSixth, hlength, if_neg (by omega)]
  · decide +kernel

end Pipeline

end Phrasebook
