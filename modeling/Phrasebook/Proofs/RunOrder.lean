import Mathlib.Data.List.Sort
import Phrasebook.Pass.Pipeline
import Phrasebook.Pass.Rule

/-!
# The order in which passes run

A pipeline is sorted anew whenever a pass is added.  Over a whole history of additions that comes to
one stable sort.

* `Pipeline.StablySorted` : the passes of a history with the lower priorities first, those of one
  priority as in the history;
* `Pipeline.StablySorted.unique` : there is only one such order;
* `Pipeline.StablySorted.add` : adding a pass keeps to it;
* `Pipeline.runs_in_stable_order` : so what runs is the history in that order, and of two histories
  only the order within each priority counts.
-/

namespace Phrasebook

namespace Pipeline

variable {m : Type → Type}

/-! ### Stable orders -/

/-- The passes of one priority. -/
def ofPriority (k : Int) (passes : List (Pass m)) : List (Pass m) :=
  passes.filter fun p => p.priority = k

/-- The passes of a history in ascending order of priority, those of one priority in the order of
the history. -/
structure StablySorted (history passes : List (Pass m)) : Prop where
  perm : passes.Perm history
  ascending : passes.Pairwise fun p q => p.priority ≤ q.priority
  stable : ∀ k, ofPriority k passes = ofPriority k history

/-- Two histories that differ at most in how passes of different priorities stand to each other. -/
def SameWithinPriorities (history history' : List (Pass m)) : Prop :=
  ∀ k, ofPriority k history = ofPriority k history'

variable {history history' passes passes' : List (Pass m)} {p q : Pass m} {k : Int}

theorem ofPriority_cons : ofPriority k (p :: passes) = if p.priority = k
    then p :: ofPriority k passes else ofPriority k passes := by
  simp only [ofPriority, List.filter_cons, decide_eq_true_eq]

theorem ofPriority_append :
    ofPriority k (passes ++ passes') = ofPriority k passes ++ ofPriority k passes' :=
  List.filter_append ..

theorem mem_ofPriority : p ∈ ofPriority k passes ↔ p ∈ passes ∧ p.priority = k := by
  simp only [ofPriority, List.mem_filter, decide_eq_true_eq]

/-- Two neighbours of different priorities may change places. -/
theorem SameWithinPriorities.swap (hpriority : p.priority ≠ q.priority)
    (before behind : List (Pass m)) :
    SameWithinPriorities (before ++ p :: q :: behind) (before ++ q :: p :: behind) := by
  intro k
  simp only [ofPriority_append, ofPriority_cons]
  by_cases hp : p.priority = k
  · have hq : q.priority ≠ k := fun hq => hpriority (hp.trans hq.symm)
    rw [if_pos hp, if_neg hq, if_neg hq, if_pos hp]
  · rw [if_neg hp, if_neg hp]

theorem SameWithinPriorities.mem_iff (h : SameWithinPriorities history history') :
    p ∈ history ↔ p ∈ history' := by
  have hp : p ∈ ofPriority p.priority history ↔ p ∈ ofPriority p.priority history' := by rw [h]
  simpa only [mem_ofPriority, and_true] using hp

theorem SameWithinPriorities.tail (h : SameWithinPriorities (p :: history) (p :: history')) :
    SameWithinPriorities history history' := by
  intro k
  have hk := h k
  rw [ofPriority_cons, ofPriority_cons] at hk
  split at hk
  · exact (List.cons_eq_cons.1 hk).2
  · exact hk

/-- Ascending orders that agree within every priority are the same. -/
theorem eq_of_ascending (h : passes.Pairwise fun p q => p.priority ≤ q.priority)
    (h' : passes'.Pairwise fun p q => p.priority ≤ q.priority)
    (hsame : SameWithinPriorities passes passes') : passes = passes' := by
  induction passes generalizing passes' with
  | nil => exact (List.eq_nil_iff_forall_not_mem.2 fun p hp => List.not_mem_nil
      (hsame.mem_iff.2 hp)).symm
  | cons p passes ih =>
    cases passes' with
    | nil => exact absurd (hsame.mem_iff.1 List.mem_cons_self) List.not_mem_nil
    | cons q passes' =>
      obtain ⟨hleast, hrest⟩ := List.pairwise_cons.1 h
      obtain ⟨hleast', hrest'⟩ := List.pairwise_cons.1 h'
      have hpq : p.priority ≤ q.priority := by
        rcases List.mem_cons.1 (hsame.mem_iff.2 List.mem_cons_self) with hq | hq
        · exact Int.le_of_eq (congrArg Pass.priority hq.symm)
        · exact hleast q hq
      have hqp : q.priority ≤ p.priority := by
        rcases List.mem_cons.1 (hsame.mem_iff.1 List.mem_cons_self) with hp | hp
        · exact Int.le_of_eq (congrArg Pass.priority hp.symm)
        · exact hleast' p hp
      -- both heads lead the passes of their common priority
      have hheads := hsame p.priority
      rw [ofPriority_cons, ofPriority_cons, if_pos rfl, if_pos (Int.le_antisymm hqp hpq)] at hheads
      obtain ⟨rfl, -⟩ := List.cons_eq_cons.1 hheads
      rw [ih hrest hrest' hsame.tail]

/-- A history is stably sorted in one way. -/
theorem StablySorted.unique (h : StablySorted history passes) (h' : StablySorted history passes') :
    passes = passes' :=
  eq_of_ascending h.ascending h'.ascending fun k => (h.stable k).trans (h'.stable k).symm

/-- Histories that agree within every priority are sorted in the same way. -/
theorem StablySorted.congr (h : StablySorted history passes) (h' : StablySorted history' passes')
    (hsame : SameWithinPriorities history history') : passes = passes' :=
  eq_of_ascending h.ascending h'.ascending fun k => (h.stable k).trans
    ((hsame k).trans (h'.stable k).symm)

/-! ### Sorting -/

/-- The passes sorted once, lower priorities first. -/
def sorted (passes : List (Pass m)) : List (Pass m) :=
  passes.mergeSort fun p q => p.priority ≤ q.priority

theorem stablySorted_sorted (history : List (Pass m)) : StablySorted history (sorted history) := by
  have htrans : ∀ p q r : Pass m, decide (p.priority ≤ q.priority) = true →
      decide (q.priority ≤ r.priority) = true →
      decide (p.priority ≤ r.priority) = true := by
    intro p q r hpq hqr
    simp only [decide_eq_true_eq] at *
    omega
  have htotal : ∀ p q : Pass m,
      (decide (p.priority ≤ q.priority) || decide (q.priority ≤ p.priority)) = true := by
    intro p q
    simp only [Bool.or_eq_true, decide_eq_true_eq]
    omega
  have hperm : (sorted history).Perm history := List.mergeSort_perm ..
  refine ⟨hperm, ?_, fun k => ?_⟩
  · exact (List.pairwise_mergeSort htrans htotal history).imp fun h => decide_eq_true_eq.mp h
  · -- the passes of one priority stand in order already, so they keep their order, and no other of
    -- that priority comes in
    have hequal :
        (ofPriority k history).Pairwise fun p q => decide (p.priority ≤ q.priority) = true := by
      refine List.pairwise_of_forall_mem_list fun p hp q hq => ?_
      have hp := (mem_ofPriority.1 hp).2
      have hq := (mem_ofPriority.1 hq).2
      simp only [decide_eq_true_eq]
      omega
    have hsublist : (ofPriority k history).Sublist (sorted history) :=
      List.sublist_mergeSort htrans htotal hequal List.filter_sublist
    have hinside : (ofPriority k history).Sublist (ofPriority k (sorted history)) := by
      have hself : ofPriority k (ofPriority k history) = ofPriority k history :=
        List.filter_eq_self.2 fun p hp => decide_eq_true (mem_ofPriority.1 hp).2
      exact hself ▸ hsublist.filter fun p : Pass m => p.priority = k
    exact (hinside.eq_of_length (hperm.filter _).length_eq.symm).symm

/-- Adding a pass keeps to the stable order. -/
theorem StablySorted.add {l : Pipeline m} (h : StablySorted history l.passes) (p : Pass m) :
    StablySorted (history ++ [p]) (l.add p).passes := by
  obtain ⟨hperm, hascending, hstable⟩ := stablySorted_sorted (l.passes ++ [p])
  refine ⟨hperm.trans (h.perm.append_right [p]), hascending, fun k => (hstable k).trans ?_⟩
  rw [ofPriority_append, ofPriority_append, h.stable]

/-- Adding passes one after another keeps to the stable order of the whole history. -/
theorem StablySorted.foldl_add {l : Pipeline m} (h : StablySorted history l.passes)
    (added : List (Pass m)) :
    StablySorted (history ++ added) (added.foldl Pipeline.add l).passes := by
  induction added generalizing history l with
  | nil =>
    rw [List.append_nil]
    exact h
  | cons p added ih =>
    have hrest := ih (h.add p)
    rw [List.append_assoc] at hrest
    exact hrest

theorem stablySorted_ofList (history : List (Pass m)) :
    StablySorted history (ofList history).passes := by
  have hempty : StablySorted [] (empty : Pipeline m).passes := ⟨.nil, .nil, fun _ => rfl⟩
  exact hempty.foldl_add history

/-! ### Runs -/

variable [Monad m] [MonadExceptOf Error m]

/-- **Passes run in the stable order of their history.**  What runs after any sequence of additions
is the history in ascending order of priority, no pass lost or twice, and within a priority in the
order of the additions; this order is the one that a single stable sort of the history gives, and
the only one of that kind.  Another history that agrees within every priority runs in the same
order, so that it does the same to every expression. -/
theorem runs_in_stable_order (initial added : List (Pass m)) :
    let l := added.foldl add (ofList initial)
    (∀ passes, StablySorted (initial ++ added) passes ↔ passes = l.passes) ∧
    l.names = (sorted (initial ++ added)).map Pass.name ∧
    ∀ initial' added', SameWithinPriorities (initial ++ added) (initial' ++ added') →
      let l' := added'.foldl add (ofList initial')
      l'.names = l.names ∧ ∀ e, l'.run e = l.run e := by
  intro l
  have h : StablySorted (initial ++ added) l.passes := (stablySorted_ofList initial).foldl_add added
  refine ⟨fun passes => ⟨fun hpasses => hpasses.unique h, fun hpasses => hpasses ▸ h⟩, ?_,
    fun initial' added' hsame => ?_⟩
  · rw [names, h.unique (stablySorted_sorted _)]
  · have h' := (stablySorted_ofList initial').foldl_add added'
    have hpasses := h'.congr h fun k => (hsame k).symm
    dsimp only
    exact ⟨by rw [names, names, hpasses], fun e => by rw [run, run, hpasses]⟩

/-- Two passes that rename the same name run in the order in which they are added, before and after
one of another priority. -/
theorem runs_in_stable_order_renaming :
    let first := RulePass.toPass ⟨"first", 0, [.renameName "a" "b"], none⟩
    let second := RulePass.toPass ⟨"second", 0, [.renameName "b" "c"], none⟩
    let late := RulePass.toPass ⟨"late", 5, [.renameName "c" "d"], none⟩
    SameWithinPriorities ([first] ++ [late, second]) ([] ++ [first, second, late]) ∧
      (ofList ([] ++ [first, second, late])).names = ["first", "second", "late"] ∧
      ∀ e, ([first, second, late].foldl add (ofList [])).run e =
        ([late, second].foldl add (ofList [first])).run e := by
  intro first second late
  have hsame : SameWithinPriorities ([first] ++ [late, second]) ([] ++ [first, second, late]) :=
    SameWithinPriorities.swap (by decide) [first] []
  have hnames : (ofList ([] ++ [first, second, late])).names = ["first", "second", "late"] := by
    have horder : StablySorted ([] ++ [first, second, late]) [first, second, late] :=
      ⟨.refl _, by simp [first, second, late, RulePass.toPass], fun _ => rfl⟩
    rw [names, (stablySorted_ofList _).unique horder]
    rfl
  exact ⟨hsame, hnames,
    ((runs_in_stable_order [first] [late, second]).2.2 [] [first, second, late] hsame).2⟩

end Pipeline

end Phrasebook
