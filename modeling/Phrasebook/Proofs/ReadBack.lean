import Phrasebook.Proofs.Grammar
import Phrasebook.Proofs.Lexing
import Phrasebook.Proofs.Nodes

/-!
# What the text of an expression says

* `Expr.unlined` : an expression without its lines;
* `Expr.Printable` : expressions whose names, numbers and nodes can be written at all;
* `Expr.readBack` : the expression that the text of an expression says, without lines;
* `Expr.readBack_eq_unlined_iff` : it is the same expression exactly if every list and hash in it
  keeps its keys.
-/

namespace Phrasebook

namespace Expr

/-! ### Expressions without lines -/

mutual

/-- The expression with all lines set to zero. -/
def unlined : Expr → Expr
  | .const v _ => .const v 0
  | .name x _ => .name x 0
  | .array es _ => .array (unlinedPairs es) 0
  | .filter e x as _ => .filter e.unlined x (unlinedList as) 0
  | .cond t y n _ => .cond t.unlined y.unlined n.unlined 0
  | .binary op a b _ => .binary op a.unlined b.unlined 0
  | .choice es _ _ => .choice (unlinedPairs es) 0 0

def unlinedList : List Expr → List Expr
  | [] => []
  | e :: es => e.unlined :: unlinedList es

def unlinedPairs : List (Expr × Expr) → List (Expr × Expr)
  | [] => []
  | (k, v) :: es => (k.unlined, v.unlined) :: unlinedPairs es

end

/-! ### Expressions that can be written -/

/-- An identifier that is no reserved word. -/
def IsName (x : String) : Prop := spellsWord x.toList = true ∧ Keyword.ofText? x = none

instance (x : String) : Decidable (IsName x) := inferInstanceAs (Decidable (_ ∧ _))

/-- Whether a node can be written, apart from its children: names are identifiers, numbers are
finite and have no sign, and there is no choice between messages. -/
def Writable : Expr → Prop
  | .const (.number x) _ => x.isFinite = true ∧ x.isNegative = false
  | .const _ _ => True
  | .name x _ => IsName x
  | .array _ _ => True
  | .filter _ x _ _ => IsName x
  | .cond _ _ _ _ => True
  | .binary _ _ _ _ => True
  | .choice _ _ _ => False

instance : DecidablePred Writable
  | .const (.number x) _ => inferInstanceAs (Decidable (x.isFinite = true ∧ x.isNegative = false))
  | .const (.string _) _ | .const (.bool _) _ | .const .null _ => isTrue trivial
  | .name x _ => inferInstanceAs (Decidable (IsName x))
  | .array _ _ => isTrue trivial
  | .filter _ x _ _ => inferInstanceAs (Decidable (IsName x))
  | .cond _ _ _ _ | .binary _ _ _ _ => isTrue trivial
  | .choice _ _ _ => isFalse id

/-- All nodes can be written. -/
def Printable (e : Expr) : Prop := ∀ a ∈ e.nodes, a.Writable

instance (e : Expr) : Decidable e.Printable :=
  inferInstanceAs (Decidable (∀ a ∈ e.nodes, a.Writable))

theorem Printable.writable {e : Expr} (h : e.Printable) : e.Writable := h e (self_mem_nodes e)

theorem Printable.child {c e : Expr} (h : e.Printable) (hc : c ∈ e.children) : c.Printable :=
  fun a ha => h a (mem_nodes_of_child hc ha)

/-! ### Keys -/

/-- Whether the expression is a literal that is written as a bare word. -/
def isBareWord : Expr → Bool
  | .const (.bool _) _ | .const .null _ => true
  | _ => false

/-- A literal as it is read in the place of a key, where bare words are strings. -/
def literalKey : Literal → Literal
  | .bool true => .string "true"
  | .bool false => .string "false"
  | .null => .string "null"
  | .string s => .string s
  | .number x => .number x

/-- An expression as it is read in the place of a key. -/
def asKey : Expr → Expr
  | .const v l => .const (literalKey v) l
  | e => e

/-- The entries of a list: every value under its index, from `i` on. -/
def numbered : Nat → List Expr → Elements
  | _, [] => []
  | i, v :: vs => (.number (Grammar.indexKey i) 0, v) :: numbered (i + 1) vs

mutual

/-- The expression that the text of an expression says, without lines.  A list is written without
its keys and a key in a hash as a bare word where it can be; all else stays as it is. -/
def readBack : Expr → Expr
  | .const v _ => .const v 0
  | .name x _ => .name x 0
  | .array es _ =>
    if Elements.isList es then .array (numbered 0 (readBackValues es)) 0
      else .array (readBackEntries es) 0
  | .filter e x as _ => .filter e.readBack x (readBackList as) 0
  | .cond t y n _ => .cond t.readBack y.readBack n.readBack 0
  | .binary op a b _ => .binary op a.readBack b.readBack 0
  | .choice es _ _ => .choice (readBackEntries es) 0 0

def readBackList : List Expr → List Expr
  | [] => []
  | e :: es => e.readBack :: readBackList es

def readBackValues : List (Expr × Expr) → List Expr
  | [] => []
  | (_, v) :: es => v.readBack :: readBackValues es

def readBackEntries : List (Expr × Expr) → List (Expr × Expr)
  | [] => []
  | (k, v) :: es => (k.readBack.asKey, v.readBack) :: readBackEntries es

end

/-- Whether the keys of a list or hash come back: no key of a hash is written as a bare word, other
than strings, and a list can be counted. -/
def KeepsKeys : Expr → Prop
  | .array es _ =>
    (Elements.isList es = false → ∀ p ∈ es, p.1.isBareWord = false) ∧
      (Elements.isList es = true → es.length ≤ 2 ^ 53 + 2)
  | _ => True

instance : DecidablePred KeepsKeys
  | .array es _ =>
    inferInstanceAs (Decidable ((Elements.isList es = false → ∀ p ∈ es, p.1.isBareWord = false) ∧
      (Elements.isList es = true → es.length ≤ 2 ^ 53 + 2)))
  | .const _ _
  | .name _ _ | .filter _ _ _ _ | .cond _ _ _ _ | .binary _ _ _ _ | .choice _ _ _ => isTrue trivial

/-! ### Keys of hashes -/

theorem asKey_of_isConst {e : Expr} (h : e.isConst = false) : e.asKey = e := by
  cases e with
  | const v l => cases h
  | _ => rfl

theorem isConst_readBack (e : Expr) : e.readBack.isConst = e.isConst := by
  cases e with
  | array es l =>
    rw [readBack]
    split <;> rfl
  | _ => rfl

theorem asKey_readBack_eq_iff (k : Expr) :
    k.readBack.asKey = k.unlined ↔ k.isBareWord = false ∧ k.readBack = k.unlined := by
  cases hk : k.isConst with
  | false =>
    have hbare : k.isBareWord = false := by
      cases k with
      | const v l => cases hk
      | _ => rfl
    rw [asKey_of_isConst ((isConst_readBack k).trans hk)]
    exact ⟨fun h => ⟨hbare, h⟩, fun h => h.2⟩
  | true =>
    cases k with
    | const v l =>
      cases v with
      | bool b => cases b <;> simp [readBack, unlined, asKey, literalKey, isBareWord]
      | _ => simp [readBack, unlined, asKey, literalKey, isBareWord]
    | _ => cases hk

theorem readBackEntries_eq_iff (es : List (Expr × Expr)) :
    readBackEntries es = unlinedPairs es ↔
      (∀ p ∈ es, p.1.isBareWord = false) ∧ ∀ p ∈ es, p.1.readBack = p.1.unlined ∧
      p.2.readBack = p.2.unlined := by
  induction es with
  | nil => simp [readBackEntries, unlinedPairs]
  | cons p es ih =>
    obtain ⟨k, v⟩ := p
    simp only [readBackEntries, unlinedPairs, List.cons.injEq, Prod.mk.injEq,
      asKey_readBack_eq_iff, ih, List.forall_mem_cons]
    tauto

/-! ### Keys of lists -/

theorem indexKey_of_le {i : Nat} (hi : i ≤ 2 ^ 53 + 1) : Grammar.indexKey i = .ofNat i := by
  unfold Grammar.indexKey
  rw [← Elements.ofNat_min_succ_top, Nat.min_eq_left hi]

/-- The first index that is held as a number and still is not reached by counting. -/
theorem indexKey_ne : Grammar.indexKey (2 ^ 53 + 2) ≠ .ofNat (2 ^ 53 + 2) := by decide +kernel

theorem forall_indexKey_iff (n : Nat) :
    (∀ i < n, Grammar.indexKey i = .ofNat i) ↔ n ≤ 2 ^ 53 + 2 := by
  constructor
  · intro h
    by_contra hn
    exact indexKey_ne (h _ (by omega))
  · intro hn i hi
    exact indexKey_of_le (by omega)

/-- A number without a sign that equals an index is the index. -/
theorem eq_of_equals {x : Double} {i : Nat} (hsign : x.isNegative = false)
    (h : x.equals (.ofNat i) = true) : x = .ofNat i := by
  cases x with
  | nan => cases h
  | ranked negative r =>
    obtain rfl : negative = false := hsign
    unfold Double.ofNat Double.ofRank at h ⊢
    simp only [Double.equals, Double.place?, beq_iff_eq, Int.ofNat_inj] at h
    exact congrArg _ (Fin.ext h)

theorem key_of_countsFrom {i : Nat} {k v : Expr} {es : Elements} (hk : k.Writable)
    (h : Elements.countsFrom i ((k, v) :: es) = true) :
    (∃ l, k = .number (.ofNat i) l) ∧ Elements.countsFrom (i + 1) es = true := by
  unfold Elements.countsFrom at h
  split at h
  · next hnil => cases hnil
  · next x l _ _ heq =>
    cases heq
    rw [Bool.and_eq_true] at h
    exact ⟨⟨l, by rw [eq_of_equals hk.2 h.1]⟩, h.2⟩
  · cases h

theorem numbered_eq_iff {i : Nat} {es : Elements} (hkeys : ∀ p ∈ es, p.1.Writable)
    (hcount : Elements.countsFrom i es = true) :
    numbered i (readBackValues es) = unlinedPairs es ↔
      (∀ j < es.length, Grammar.indexKey (i + j) = .ofNat (i + j)) ∧
        ∀ p ∈ es, p.1.readBack = p.1.unlined ∧ p.2.readBack = p.2.unlined := by
  induction es generalizing i with
  | nil => simp [numbered, readBackValues, unlinedPairs]
  | cons p es ih =>
    obtain ⟨k, v⟩ := p
    rw [List.forall_mem_cons] at hkeys
    obtain ⟨⟨l, rfl⟩, hrest⟩ := key_of_countsFrom hkeys.1 hcount
    have hindex : (∀ j < es.length + 1, Grammar.indexKey (i + j) = .ofNat (i + j)) ↔
        Grammar.indexKey i = .ofNat i ∧
          ∀ j < es.length, Grammar.indexKey (i + 1 + j) = .ofNat (i + 1 + j) := by
      rw [Nat.forall_lt_succ_left, Nat.add_zero]
      simp only [Nat.add_assoc, Nat.add_comm 1]
    rw [List.length_cons, hindex, List.forall_mem_cons, readBackValues, numbered, unlinedPairs]
    simp only [unlined, readBack, List.cons.injEq, Prod.mk.injEq, ih hkeys.2 hrest, const.injEq,
      Literal.number.injEq, and_true, true_and]
    exact and_and_and_comm

/-! ### The boundary -/

theorem readBackList_eq_iff (as : List Expr) :
    readBackList as = unlinedList as ↔ ∀ a ∈ as, a.readBack = a.unlined := by
  induction as with
  | nil => simp [readBackList, unlinedList]
  | cons a as ih => simp only [readBackList, unlinedList, List.cons.injEq, ih, List.forall_mem_cons]

theorem forall_children_array {P : Expr → Prop} {es : List (Expr × Expr)} {l : Nat} :
    (∀ c ∈ (array es l).children, P c) ↔ ∀ p ∈ es, P p.1 ∧ P p.2 := forall_mem_entries

/-- A node comes back as it is if it keeps its keys and its children come back. -/
theorem readBack_eq_iff_children {e : Expr} (h : e.Printable) :
    e.readBack = e.unlined ↔ e.KeepsKeys ∧ ∀ c ∈ e.children, c.readBack = c.unlined := by
  cases e with
  | const v l => simp [readBack, unlined, KeepsKeys, children]
  | name x l => simp [readBack, unlined, KeepsKeys, children]
  | array es l =>
    rw [forall_children_array, readBack, unlined, KeepsKeys]
    cases hlist : Elements.isList es with
    | true =>
      have hkeys : ∀ p ∈ es, p.1.Writable := fun p hp =>
        (h.child (List.mem_flatMap.2 ⟨p, hp, List.mem_cons_self ..⟩)).writable
      have hiff := numbered_eq_iff hkeys hlist
      simp only [Nat.zero_add, forall_indexKey_iff] at hiff
      simp only [if_true, array.injEq, and_true, hiff, true_implies, Bool.true_eq_false,
        false_implies, true_and]
    | false =>
      simp only [Bool.false_eq_true, if_false, array.injEq, and_true, readBackEntries_eq_iff,
        false_implies, true_implies]
  | filter e x as l => simp [readBack, unlined, KeepsKeys, children, readBackList_eq_iff]
  | cond t y n l => simp [readBack, unlined, KeepsKeys, children]
  | binary op a b l => simp [readBack, unlined, KeepsKeys, children]
  | choice es k l => exact h.writable.elim

/-- An expression comes back as it is exactly if every list and hash in it keeps its keys. -/
theorem readBack_eq_unlined_iff {e : Expr} (h : e.Printable) :
    e.readBack = e.unlined ↔ ∀ a ∈ e.nodes, a.KeepsKeys := by
  induction e using children_induction with
  | step e ih =>
    have hchildren :
        (∀ c ∈ e.children, c.readBack = c.unlined) ↔ ∀ c ∈ e.children, ∀ a ∈ c.nodes, a.KeepsKeys :=
      forall₂_congr fun c hc => ih c hc (h.child hc)
    rw [readBack_eq_iff_children h, hchildren, nodes_eq, List.forall_mem_cons,
      List.forall_mem_flatMap]

/-- A key that is a bare word comes back as a string. -/
example : (array [(.const (.bool true) 1, .name "x" 1)] 1).readBack =
    .array [(.string "true" 0, .name "x" 0)] 0 :=
  rfl

end Expr

end Phrasebook
