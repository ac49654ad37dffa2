import Phrasebook.Value

/-!
# Comparing values

* `Value.looseEq` : equality as templates see it: scalars of different kinds are compared by truth,
  by number or by text;
* `Value.same` : equality of values of the same kind, numbers compared as numbers;
* `Value.equal_iff` : equality of values as data can be decided.
-/

namespace Phrasebook

namespace Value

/-! ### Loose equality -/

/-- Equality of scalars as templates see it: by truth if one is a truth value, else by number if
both stand for one, else by text; two strings always by text. -/
def looseScalarEq (a b : Value) : Bool :=
  match a, b with
  | .null, .null => true
  | .bool _, _ | _, .bool _ => a.truthy == b.truthy
  | .string s, .string t => s == t
  | _, _ =>
    match a.number?, b.number? with
    | some x, some y => x.equals y
    | _, _ => a.text == b.text

theorem looseScalarEq_comm (a b : Value) : looseScalarEq a b = looseScalarEq b a := by
  have htruth : (a.truthy == b.truthy) = (b.truthy == a.truthy) := Bool.beq_comm
  have hnumber : (match a.number?, b.number? with
      | some x, some y => x.equals y
      | _, _ => a.text == b.text) =
    match b.number?, a.number? with
      | some x, some y => x.equals y
      | _, _ => b.text == a.text := by
    cases a.number? <;> cases b.number? <;>
      first | exact Double.equals_comm _ _ | exact Bool.beq_comm
  cases a with
  | bool p => cases b <;> exact htruth
  | null =>
    cases b with
    | null => rfl
    | bool q => exact htruth
    | _ => exact hnumber
  | string s =>
    cases b with
    | string t => exact Bool.beq_comm
    | bool q => exact htruth
    | _ => exact hnumber
  | _ =>
    cases b with
    | bool q => exact htruth
    | _ => exact hnumber

mutual

/-- Equality as templates see it.  Maps are equal if they have the same keys and loosely equal
values there; a map equals no scalar. -/
def looseEq : Value → Value → Bool
  | .map a, .map b => a.length == b.length && looseEqAt a b
  | .map _, _ => false
  | _, .map _ => false
  | a, b => looseScalarEq a b

/-- Whether every entry has a loosely equal one at its key among `others`. -/
def looseEqAt : List (String × Value) → List (String × Value) → Bool
  | [], _ => true
  | (k, v) :: es, others =>
    (match Assoc.lookup? k others with
      | some w => looseEq v w
      | none => false) && looseEqAt es others

end

/-! ### Equality of the same kind -/

mutual

/-- Equality of values of the same kind, numbers compared as numbers; the order of entries does not
count. -/
def same : Value → Value → Bool
  | .null, .null => true
  | .bool a, .bool b => a == b
  | .number a, .number b => a.equals b
  | .string a, .string b => a == b
  | .map a, .map b => a.length == b.length && sameAt a b
  | _, _ => false

/-- Whether every entry has an equal one at its key among `others`. -/
def sameAt : List (String × Value) → List (String × Value) → Bool
  | [], _ => true
  | (k, v) :: es, others =>
    (match Assoc.lookup? k others with
      | some w => same v w
      | none => false) && sameAt es others

end

/-! ### Equality as data -/

mutual

/-- Equality of values as data, the order of entries included. -/
def equal : Value → Value → Bool
  | .null, .null => true
  | .bool a, .bool b => a == b
  | .number a, .number b => a == b
  | .string a, .string b => a == b
  | .map a, .map b => equalEntries a b
  | _, _ => false

def equalEntries : List (String × Value) → List (String × Value) → Bool
  | [], [] => true
  | (k, v) :: es, (k', v') :: es' => k == k' && equal v v' && equalEntries es es'
  | _, _ => false

end

mutual

theorem eq_of_equal : ∀ (a b : Value), equal a b = true → a = b
  | .null, b, h => by cases b <;> simp_all [equal]
  | .bool x, b, h => by cases b <;> simp_all [equal]
  | .number x, b, h => by cases b <;> simp_all [equal]
  | .string x, b, h => by cases b <;> simp_all [equal]
  | .map es, b, h => by
    cases b with
    | map es' => rw [eq_of_equalEntries es es' (by simpa [equal] using h)]
    | _ => simp [equal] at h

theorem eq_of_equalEntries : ∀ (as bs : List (String × Value)), equalEntries as bs = true → as = bs
  | [], [], _ => rfl
  | [], _ :: _, h => by simp [equalEntries] at h
  | _ :: _, [], h => by simp [equalEntries] at h
  | (k, v) :: as, (k', v') :: bs, h => by
    simp only [equalEntries, Bool.and_eq_true, beq_iff_eq] at h
    rw [h.1.1, eq_of_equal _ _ h.1.2, eq_of_equalEntries _ _ h.2]

end

mutual

theorem equal_self : ∀ a : Value, equal a a = true
  | .null => rfl
  | .bool _ => by simp [equal]
  | .number _ => by simp [equal]
  | .string _ => by simp [equal]
  | .map es => by simp [equal, equalEntries_self es]

theorem equalEntries_self : ∀ es : List (String × Value), equalEntries es es = true
  | [] => rfl
  | (_, v) :: es => by simp [equalEntries, equal_self v, equalEntries_self es]

end

theorem equal_iff {a b : Value} : equal a b = true ↔ a = b :=
  ⟨eq_of_equal a b, fun h => h ▸ equal_self a⟩

instance : DecidableEq Value := fun _ _ => decidable_of_iff _ equal_iff

end Value

end Phrasebook
