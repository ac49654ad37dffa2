import Phrasebook.Expr

/-!
# Equality of expressions

* `Expr.equalBy` : equality of expressions up to a given comparison of literals;
* `Expr.same` : equality in which numbers are compared as numbers, so that "not a number" differs
  from itself;
* `Expr.equalBy_iff` : a comparison that decides equality of literals decides equality of
  expressions.
-/

namespace Phrasebook

/-- Equality of literals, numbers compared as numbers. -/
def Literal.same : Literal → Literal → Bool
  | .string a, .string b => a == b
  | .number a, .number b => a.equals b
  | .bool a, .bool b => a == b
  | .null, .null => true
  | _, _ => false

namespace Expr

variable (r : Literal → Literal → Bool)

mutual

/-- Equality of expressions with their lines, literals compared by `r`. -/
def equalBy : Expr → Expr → Bool
  | .const a l, .const b l' => r a b && l == l'
  | .name a l, .name b l' => a == b && l == l'
  | .array a l, .array b l' => equalPairsBy a b && l == l'
  | .filter a x as l, .filter b y bs l' => equalBy a b && x == y && equalListBy as bs && l == l'
  | .cond a b c l, .cond a' b' c' l' => equalBy a a' && equalBy b b' && equalBy c c' && l == l'
  | .binary o a b l, .binary o' a' b' l' => o == o' && equalBy a a' && equalBy b b' && l == l'
  | .choice a k l, .choice b k' l' => equalPairsBy a b && k == k' && l == l'
  | _, _ => false

def equalListBy : List Expr → List Expr → Bool
  | [], [] => true
  | a :: as, b :: bs => equalBy a b && equalListBy as bs
  | _, _ => false

def equalPairsBy : List (Expr × Expr) → List (Expr × Expr) → Bool
  | [], [] => true
  | (k, v) :: as, (k', v') :: bs => equalBy k k' && equalBy v v' && equalPairsBy as bs
  | _, _ => false

end

/-- Equality of expressions with their lines, numbers compared as numbers. -/
def same (a b : Expr) : Bool := equalBy Literal.same a b

/-! ### Deciding equality -/

variable {r}

mutual

theorem eq_of_equalBy (hr : ∀ a b, r a b = true → a = b) :
    ∀ (a b : Expr), equalBy r a b = true → a = b
  | .const v l, b, h => by
    cases b with
    | const v' l' =>
      simp only [equalBy, Bool.and_eq_true, beq_iff_eq] at h
      rw [hr _ _ h.1, h.2]
    | _ => simp [equalBy] at h
  | .name x l, b, h => by
    cases b with
    | name x' l' =>
      simp only [equalBy, Bool.and_eq_true, beq_iff_eq] at h
      rw [h.1, h.2]
    | _ => simp [equalBy] at h
  | .array es l, b, h => by
    cases b with
    | array es' l' =>
      simp only [equalBy, Bool.and_eq_true, beq_iff_eq] at h
      rw [eq_of_equalPairsBy hr _ _ h.1, h.2]
    | _ => simp [equalBy] at h
  | .filter e x as l, b, h => by
    cases b with
    | filter e' x' as' l' =>
      simp only [equalBy, Bool.and_eq_true, beq_iff_eq] at h
      rw [eq_of_equalBy hr _ _ h.1.1.1, h.1.1.2, eq_of_equalListBy hr _ _ h.1.2, h.2]
    | _ => simp [equalBy] at h
  | .cond t y n l, b, h => by
    cases b with
    | cond t' y' n' l' =>
      simp only [equalBy, Bool.and_eq_true, beq_iff_eq] at h
      rw [eq_of_equalBy hr _ _ h.1.1.1, eq_of_equalBy hr _ _ h.1.1.2,
        eq_of_equalBy hr _ _ h.1.2, h.2]
    | _ => simp [equalBy] at h
  | .binary o a c l, b, h => by
    cases b with
    | binary o' a' c' l' =>
      simp only [equalBy, Bool.and_eq_true, beq_iff_eq] at h
      rw [h.1.1.1, eq_of_equalBy hr _ _ h.1.1.2, eq_of_equalBy hr _ _ h.1.2, h.2]
    | _ => simp [equalBy] at h
  | .choice es k l, b, h => by
    cases b with
    | choice es' k' l' =>
      simp only [equalBy, Bool.and_eq_true, beq_iff_eq] at h
      rw [eq_of_equalPairsBy hr _ _ h.1.1, h.1.2, h.2]
    | _ => simp [equalBy] at h

theorem eq_of_equalListBy (hr : ∀ a b, r a b = true → a = b) :
    ∀ (as bs : List Expr), equalListBy r as bs = true → as = bs
  | [], [], _ => rfl
  | [], _ :: _, h => by simp [equalListBy] at h
  | _ :: _, [], h => by simp [equalListBy] at h
  | a :: as, b :: bs, h => by
    simp only [equalListBy, Bool.and_eq_true] at h
    rw [eq_of_equalBy hr _ _ h.1, eq_of_equalListBy hr _ _ h.2]

theorem eq_of_equalPairsBy (hr : ∀ a b, r a b = true → a = b) :
    ∀ (as bs : List (Expr × Expr)), equalPairsBy r as bs = true → as = bs
  | [], [], _ => rfl
  | [], _ :: _, h => by simp [equalPairsBy] at h
  | _ :: _, [], h => by simp [equalPairsBy] at h
  | (k, v) :: as, (k', v') :: bs, h => by
    simp only [equalPairsBy, Bool.and_eq_true] at h
    rw [eq_of_equalBy hr _ _ h.1.1, eq_of_equalBy hr _ _ h.1.2, eq_of_equalPairsBy hr _ _ h.2]

end

mutual

theorem equalBy_self (hr : ∀ a, r a a = true) : ∀ e : Expr, equalBy r e e = true
  | .const v _ => by simp [equalBy, hr v]
  | .name _ _ => by simp [equalBy]
  | .array es _ => by simp [equalBy, equalPairsBy_self hr es]
  | .filter e _ as _ => by simp [equalBy, equalBy_self hr e, equalListBy_self hr as]
  | .cond t y n _ => by simp [equalBy, equalBy_self hr t, equalBy_self hr y, equalBy_self hr n]
  | .binary _ a b _ => by simp [equalBy, equalBy_self hr a, equalBy_self hr b]
  | .choice es _ _ => by simp [equalBy, equalPairsBy_self hr es]

theorem equalListBy_self (hr : ∀ a, r a a = true) : ∀ es : List Expr, equalListBy r es es = true
  | [] => rfl
  | e :: es => by simp [equalListBy, equalBy_self hr e, equalListBy_self hr es]

theorem equalPairsBy_self (hr : ∀ a, r a a = true) :
    ∀ es : List (Expr × Expr), equalPairsBy r es es = true
  | [] => rfl
  | (k, v) :: es => by simp [equalPairsBy, equalBy_self hr k, equalBy_self hr v,
      equalPairsBy_self hr es]

end

theorem equalBy_iff (hr : ∀ a b, r a b = true ↔ a = b) {a b : Expr} :
    equalBy r a b = true ↔ a = b :=
  ⟨eq_of_equalBy (fun a b => (hr a b).1) a b, fun h => h ▸ equalBy_self (fun a => (hr a a).2 rfl) a⟩

instance : DecidableEq Expr := fun a b =>
  decidable_of_iff (equalBy (fun a b => decide (a = b)) a b = true)
    (equalBy_iff fun _ _ => decide_eq_true_iff)

end Expr

end Phrasebook
