import Mathlib.Data.List.Nodup
import Mathlib.Data.List.Perm.Subperm
import Phrasebook.Proofs.Lists
import Phrasebook.Value.Comparison

/-!
# The equality of templates is lawful

The comparison goes by truth, by number or by text, and looks the entries of one map up in the
other.  On values in which no map has a key twice it is symmetric all the same, and the order of
entries plays no part in it.

* `Value.entries_induction` : what passes from the values in a map to the map holds of all values;
* `Value.numbers` : the numbers in a value, at any depth;
* `Value.Reordered` : the same value but for the order of entries, at any depth;
* `Value.Matched.symm` : maps of one size whose entries are matched one way are matched the other
  way;
* `Value.looseEq_lawful` : symmetry, equality as a case of it, when a value equals itself, and the
  order of entries.
-/

namespace Phrasebook

namespace Double

theorem equals_self_iff {x : Double} : x.equals x = true ↔ x ≠ .nan := by
  cases x with
  | nan => simp [equals, place?]
  | ranked negative r => cases negative <;> simp [equals, place?]

end Double

namespace Value

/-! ### Values in maps -/

/-- What holds of scalars, and passes from the values in a map to the map, holds of all values. -/
theorem entries_induction {P : Value → Prop} (scalar : ∀ v, (∀ es, v ≠ .map es) → P v)
    (map : ∀ es, (∀ e ∈ es, P e.2) → P (.map es)) (v : Value) : P v :=
  match v with
  | .map es => map es fun e he =>
    have hentry : sizeOf e < sizeOf es := List.sizeOf_lt_of_mem he
    have hvalue : sizeOf e.2 < sizeOf e := by
      rcases e with ⟨k, w⟩
      simp only [Prod.mk.sizeOf_spec]
      omega
    entries_induction scalar map e.2
  | .null => scalar _ nofun
  | .bool _ => scalar _ nofun
  | .number _ => scalar _ nofun
  | .string _ => scalar _ nofun
termination_by v

theorem wellFormedEntries_iff {es : List (String × Value)} :
    WellFormedEntries es ↔ ∀ e ∈ es, e.2.WellFormed := by
  induction es with
  | nil => simp [WellFormedEntries]
  | cons e es ih => rw [WellFormedEntries, ih, List.forall_mem_cons]

theorem wellFormed_map_iff {es : List (String × Value)} :
    (map es).WellFormed ↔ (Assoc.keys es).Nodup ∧ ∀ e ∈ es, e.2.WellFormed := by
  rw [WellFormed, wellFormedEntries_iff]

mutual

/-- The numbers in a value, at any depth. -/
def numbers : Value → List Double
  | .number n => [n]
  | .map es => numbersOfEntries es
  | _ => []

def numbersOfEntries : List (String × Value) → List Double
  | [] => []
  | (_, v) :: es => numbers v ++ numbersOfEntries es

end

theorem mem_numbersOfEntries {x : Double} {es : List (String × Value)} :
    x ∈ numbersOfEntries es ↔ ∃ e ∈ es, x ∈ e.2.numbers := by
  induction es with
  | nil => simp [numbersOfEntries]
  | cons e es ih => simp [numbersOfEntries, ih]

/-! ### Scalars -/

theorem looseEq_of_scalar {a b : Value} (ha : ∀ es, a ≠ .map es) (hb : ∀ es, b ≠ .map es) :
    looseEq a b = looseScalarEq a b := by
  cases a with
  | map es => exact absurd rfl (ha es)
  | _ =>
    cases b with
    | map es => exact absurd rfl (hb es)
    | _ => rfl

/-- A map equals no scalar. -/
theorem looseEq_map_scalar (es : List (String × Value)) {b : Value} (hb : ∀ es, b ≠ .map es) :
    looseEq (.map es) b = false ∧ looseEq b (.map es) = false := by
  cases b with
  | map es => exact absurd rfl (hb es)
  | _ => exact ⟨rfl, rfl⟩

/-- A scalar equals itself, unless it is not a number. -/
theorem looseScalarEq_self_iff {a : Value} (ha : ∀ es, a ≠ .map es) :
    looseScalarEq a a = true ↔ .nan ∉ a.numbers := by
  cases a with
  | map es => exact absurd rfl (ha es)
  | number n =>
    have hself : looseScalarEq (.number n) (.number n) = n.equals n := rfl
    rw [hself, Double.equals_self_iff, numbers, List.mem_singleton]
    exact ne_comm
  | _ => simp [looseScalarEq, numbers]

/-- Equality of scalars of one kind is a case of the equality of templates. -/
theorem looseScalarEq_of_same {a b : Value} (ha : ∀ es, a ≠ .map es) (h : same a b = true) :
    (∀ es, b ≠ .map es) ∧ looseScalarEq a b = true := by
  cases a with
  | map es => exact absurd rfl (ha es)
  | null => cases b <;> first | exact ⟨nofun, rfl⟩ | cases h
  | bool x =>
    cases b with
    | bool y => exact ⟨nofun, h⟩
    | _ => cases h
  | number x =>
    cases b with
    | number y => exact ⟨nofun, h⟩
    | _ => cases h
  | string x =>
    cases b with
    | string y => exact ⟨nofun, h⟩
    | _ => cases h

/-! ### Maps -/

theorem looseEqAt_iff {es fs : List (String × Value)} :
    looseEqAt es fs = true ↔
      ∀ e ∈ es, ∃ w, Assoc.lookup? e.1 fs = some w ∧ looseEq e.2 w = true := by
  induction es with
  | nil => simp [looseEqAt]
  | cons e es ih =>
    rw [looseEqAt, Bool.and_eq_true, ih, List.forall_mem_cons]
    cases Assoc.lookup? e.1 fs <;> simp

theorem sameAt_iff {es fs : List (String × Value)} :
    sameAt es fs = true ↔ ∀ e ∈ es, ∃ w, Assoc.lookup? e.1 fs = some w ∧ same e.2 w = true := by
  induction es with
  | nil => simp [sameAt]
  | cons e es ih =>
    rw [sameAt, Bool.and_eq_true, ih, List.forall_mem_cons]
    cases Assoc.lookup? e.1 fs <;> simp

/-- As many entries, and for every entry of the first list a related one at its key in the
second. -/
def Matched (R : Value → Value → Prop) (es fs : List (String × Value)) : Prop :=
  es.length = fs.length ∧ ∀ e ∈ es, ∃ f ∈ fs, f.1 = e.1 ∧ R e.2 f.2

variable {R S : Value → Value → Prop} {es fs gs : List (String × Value)}

theorem Matched.mono (h : Matched R es fs) (hR : ∀ e ∈ es, ∀ f ∈ fs, R e.2 f.2 → S e.2 f.2) :
    Matched S es fs := by
  refine ⟨h.1, fun e he => ?_⟩
  obtain ⟨f, hf, hkey, hrel⟩ := h.2 e he
  exact ⟨f, hf, hkey, hR e he f hf hrel⟩

/-- The keys of the first list are all keys of the second, which has no more, so the entries of the
second are matched too. -/
theorem Matched.symm (hes : (Assoc.keys es).Nodup) (hfs : (Assoc.keys fs).Nodup)
    (h : Matched R es fs) : Matched (fun w v => R v w) fs es := by
  have hsub : Assoc.keys es ⊆ Assoc.keys fs := by
    intro k hk
    obtain ⟨e, he, rfl⟩ := List.mem_map.1 hk
    obtain ⟨f, hf, hkey, -⟩ := h.2 e he
    exact List.mem_map.2 ⟨f, hf, hkey⟩
  have hlength : (Assoc.keys fs).length ≤ (Assoc.keys es).length := by
    simp only [Assoc.keys, List.length_map]
    exact Nat.le_of_eq h.1.symm
  have hperm : (Assoc.keys es).Perm (Assoc.keys fs) :=
    (List.subperm_of_subset hes hsub).perm_of_length_le hlength
  refine ⟨h.1.symm, fun f hf => ?_⟩
  obtain ⟨e, he, hkey⟩ := List.mem_map.1 (hperm.mem_iff.2 (List.mem_map_of_mem hf))
  obtain ⟨f', hf', hkey', hrel⟩ := h.2 e he
  have hsame : f' = f := List.inj_on_of_nodup_map hfs hf' hf (hkey'.trans hkey)
  exact ⟨e, he, hkey, hsame ▸ hrel⟩

theorem looseEq_map_iff (hfs : (Assoc.keys fs).Nodup) :
    looseEq (.map es) (.map fs) = true ↔ Matched (fun v w => looseEq v w = true) es fs := by
  rw [looseEq, Bool.and_eq_true, beq_iff_eq, looseEqAt_iff]
  simp only [Assoc.lookup?_eq_some_iff hfs]
  refine and_congr_right fun _ => forall₂_congr fun e _ => ?_
  constructor
  · rintro ⟨w, hw, hloose⟩
    exact ⟨(e.1, w), hw, rfl, hloose⟩
  · rintro ⟨⟨k, w⟩, hw, rfl, hloose⟩
    exact ⟨w, hw, hloose⟩

/-! ### The laws -/

theorem looseEq_comm {a b : Value} (ha : a.WellFormed) (hb : b.WellFormed) :
    looseEq a b = looseEq b a := by
  induction a using entries_induction generalizing b with
  | scalar a hscalar =>
    by_cases hmap : ∃ fs, b = .map fs
    · obtain ⟨fs, rfl⟩ := hmap
      obtain ⟨hleft, hright⟩ := looseEq_map_scalar fs hscalar
      rw [hleft, hright]
    · have hb : ∀ fs, b ≠ .map fs := not_exists.1 hmap
      rw [looseEq_of_scalar hscalar hb, looseEq_of_scalar hb hscalar, looseScalarEq_comm]
  | map es ih =>
    by_cases hmap : ∃ fs, b = .map fs
    · obtain ⟨fs, rfl⟩ := hmap
      obtain ⟨hes, hvalues⟩ := wellFormed_map_iff.1 ha
      obtain ⟨hfs, hvalues'⟩ := wellFormed_map_iff.1 hb
      have hcomm : ∀ e ∈ es, ∀ f ∈ fs, looseEq e.2 f.2 = looseEq f.2 e.2 := fun e he f hf =>
        ih e he (hvalues e he) (hvalues' f hf)
      rw [Bool.eq_iff_iff, looseEq_map_iff hfs, looseEq_map_iff hes]
      constructor
      · intro h
        exact (h.symm hes hfs).mono fun f hf e he hloose => (hcomm e he f hf).symm.trans hloose
      · intro h
        exact (h.symm hfs hes).mono fun e he f hf hloose => (hcomm e he f hf).trans hloose
    · obtain ⟨hleft, hright⟩ := looseEq_map_scalar es (not_exists.1 hmap)
      rw [hleft, hright]

theorem looseEq_of_same {a b : Value} (h : same a b = true) : looseEq a b = true := by
  induction a using entries_induction generalizing b with
  | scalar a hscalar =>
    obtain ⟨hb, hloose⟩ := looseScalarEq_of_same hscalar h
    rw [looseEq_of_scalar hscalar hb, hloose]
  | map es ih =>
    cases b with
    | map fs =>
      rw [same, Bool.and_eq_true, sameAt_iff] at h
      rw [looseEq, Bool.and_eq_true, looseEqAt_iff]
      refine ⟨h.1, fun e he => ?_⟩
      obtain ⟨w, hw, hsame⟩ := h.2 e he
      exact ⟨w, hw, ih e he hsame⟩
    | _ => cases h

/-- A value equals itself just if all its numbers are numbers. -/
theorem looseEq_self_iff {a : Value} (ha : a.WellFormed) :
    looseEq a a = true ↔ .nan ∉ a.numbers := by
  induction a using entries_induction with
  | scalar a hscalar => rw [looseEq_of_scalar hscalar hscalar, looseScalarEq_self_iff hscalar]
  | map es ih =>
    obtain ⟨hes, hvalues⟩ := wellFormed_map_iff.1 ha
    have hfind : ∀ e ∈ es, Assoc.lookup? e.1 es = some e.2 :=
      fun e he => (Assoc.lookup?_eq_some_iff hes).2 he
    rw [looseEq, beq_self_eq_true, Bool.true_and, looseEqAt_iff, numbers,
      mem_numbersOfEntries, not_exists]
    constructor
    · rintro h e ⟨he, hnan⟩
      obtain ⟨w, hw, hloose⟩ := h e he
      rw [hfind e he] at hw
      cases hw
      exact (ih e he (hvalues e he)).1 hloose hnan
    · intro h e he
      exact ⟨e.2, hfind e he, (ih e he (hvalues e he)).2 fun hnan => h e ⟨he, hnan⟩⟩

/-! ### The order of entries -/

mutual

/-- The same value, but for the order in which the entries of maps stand, at any depth. -/
def Reordered : Value → Value → Prop
  | .map es, .map fs => ∃ gs, ReorderedEntries es gs ∧ gs.Perm fs
  | a, b => a = b

def ReorderedEntries : List (String × Value) → List (String × Value) → Prop
  | [], [] => True
  | (k, v) :: es, (l, w) :: gs => k = l ∧ Reordered v w ∧ ReorderedEntries es gs
  | _, _ => False

end

/-- The same key, and the same value but for the order of entries in it. -/
def ReorderedEntry (e g : String × Value) : Prop := e.1 = g.1 ∧ Reordered e.2 g.2

theorem reorderedEntries_iff : ReorderedEntries es gs ↔ List.Forall₂ ReorderedEntry es gs := by
  induction es generalizing gs with
  | nil => cases gs <;> simp [ReorderedEntries]
  | cons e es ih =>
    cases gs with
    | nil => simp [ReorderedEntries]
    | cons g gs => rw [ReorderedEntries, ih, List.forall₂_cons, ReorderedEntry, and_assoc]

theorem reordered_scalar_iff {a a' : Value} (ha : ∀ es, a ≠ .map es) : Reordered a a' ↔ a = a' := by
  cases a with
  | map es => exact absurd rfl (ha es)
  | _ => cases a' <;> simp [Reordered]

theorem reordered_map_iff {a' : Value} : Reordered (.map es) a' ↔
    ∃ gs fs, List.Forall₂ ReorderedEntry es gs ∧ gs.Perm fs ∧ a' = .map fs := by
  constructor
  · intro h
    cases a' with
    | map fs =>
      obtain ⟨gs, hgs, hperm⟩ := h
      exact ⟨gs, fs, reorderedEntries_iff.1 hgs, hperm, rfl⟩
    | _ => cases h
  · rintro ⟨gs, fs, hgs, hperm, rfl⟩
    exact ⟨gs, reorderedEntries_iff.2 hgs, hperm⟩

theorem reordered_self (a : Value) : Reordered a a := by
  induction a using entries_induction with
  | scalar a hscalar => exact (reordered_scalar_iff hscalar).2 rfl
  | map es ih =>
    exact reordered_map_iff.2 ⟨es, es, List.forall₂_same.2 fun e he => ⟨rfl, ih e he⟩,
      .refl es, rfl⟩

theorem keys_eq_of_forall₂ (h : List.Forall₂ ReorderedEntry es gs) :
    Assoc.keys es = Assoc.keys gs := by
  induction h with
  | nil => rfl
  | cons hab _ ih => exact List.cons_eq_cons.2 ⟨hab.1, ih⟩

/-- Reordering keeps the keys of every map apart. -/
theorem Reordered.wellFormed {a a' : Value} (h : Reordered a a') (ha : a.WellFormed) :
    a'.WellFormed := by
  induction a using entries_induction generalizing a' with
  | scalar a hscalar => exact (reordered_scalar_iff hscalar).1 h ▸ ha
  | map es ih =>
    obtain ⟨gs, fs, hgs, hperm, rfl⟩ := reordered_map_iff.1 h
    obtain ⟨hes, hvalues⟩ := wellFormed_map_iff.1 ha
    refine wellFormed_map_iff.2 ⟨?_, fun f hf => ?_⟩
    · have hkeys : (Assoc.keys fs).Perm (Assoc.keys es) :=
        keys_eq_of_forall₂ hgs ▸ (hperm.map Prod.fst).symm
      exact hkeys.nodup_iff.2 hes
    · obtain ⟨e, he, -, hrel⟩ := exists_of_mem_forall₂ hgs (hperm.mem_iff.2 hf)
      exact ih e he hrel (hvalues e he)

theorem looseEqAt_of_forall₂ (hgs : List.Forall₂ ReorderedEntry es gs)
    (hvalues : ∀ e ∈ es, ∀ a', Reordered e.2 a' → ∀ b, looseEq e.2 b = looseEq a' b) :
    looseEqAt es fs = looseEqAt gs fs := by
  induction hgs with
  | nil => rfl
  | @cons e g es gs hab _ ih =>
    obtain ⟨he, hes⟩ := List.forall_mem_cons.1 hvalues
    rw [looseEqAt, looseEqAt, ih hes, hab.1]
    cases Assoc.lookup? g.1 fs with
    | none => rfl
    | some w => exact congrArg (· && _) (he g.2 hab.2 w)

theorem looseEqAt_perm (h : es.Perm gs) : looseEqAt es fs = looseEqAt gs fs := by
  rw [Bool.eq_iff_iff, looseEqAt_iff, looseEqAt_iff]
  exact ⟨fun heq e he => heq e (h.mem_iff.2 he), fun heq e he => heq e (h.mem_iff.1 he)⟩

theorem Reordered.looseEq_left {a a' : Value} (h : Reordered a a') (b : Value) :
    looseEq a b = looseEq a' b := by
  induction a using entries_induction generalizing a' b with
  | scalar a hscalar => rw [(reordered_scalar_iff hscalar).1 h]
  | map es ih =>
    obtain ⟨gs, fs, hgs, hperm, rfl⟩ := reordered_map_iff.1 h
    by_cases hmap : ∃ bs, b = .map bs
    · obtain ⟨bs, rfl⟩ := hmap
      have hvalues : ∀ e ∈ es, ∀ a', Reordered e.2 a' → ∀ b, looseEq e.2 b = looseEq a' b :=
        fun e he a' hrel => ih e he hrel
      rw [looseEq, looseEq, hgs.length_eq, hperm.length_eq, looseEqAt_of_forall₂ hgs hvalues,
        looseEqAt_perm hperm]
    · rw [(looseEq_map_scalar es (not_exists.1 hmap)).1,
        (looseEq_map_scalar fs (not_exists.1 hmap)).1]

/-- **The equality of templates is lawful** on values in which no map has a key twice.  It is
symmetric; equality kind by kind is a case of it; a value equals itself just if none of the numbers
in it is not a number; and values whose maps have their entries in another order, at any depth, take
the same part in it. -/
theorem looseEq_lawful (a b : Value) (ha : a.WellFormed) (hb : b.WellFormed) :
    looseEq a b = looseEq b a ∧ (same a b = true → looseEq a b = true) ∧
      (looseEq a a = true ↔ .nan ∉ a.numbers) ∧
      ∀ a' b', Reordered a a' → Reordered b b' → looseEq a' b' = looseEq a b := by
  refine ⟨looseEq_comm ha hb, looseEq_of_same, looseEq_self_iff ha, fun a' b' ha' hb' => ?_⟩
  calc looseEq a' b' = looseEq a b' := (ha'.looseEq_left b').symm
    _ = looseEq b' a := looseEq_comm ha (hb'.wellFormed hb)
    _ = looseEq b a := (hb'.looseEq_left a).symm
    _ = looseEq a b := (looseEq_comm ha hb).symm

/-- Two maps with null or zero at the same places, and the first once more with its entries turned
round at both depths. -/
theorem looseEq_lawful_turned :
    let a := map [("count", number .zero), ("user", map [("name", string "Ann"), ("age", null)])]
    let b := map [("count", null), ("user", map [("name", string "Ann"), ("age", number .zero)])]
    let a' := map [("user", map [("age", null), ("name", string "Ann")]), ("count", number .zero)]
    a.WellFormed ∧ b.WellFormed ∧ Reordered a a' ∧ same a b = false ∧
      looseEq b a = true ∧ looseEq a a = true ∧ looseEq a' b = true := by
  intro a b a'
  have ha : a.WellFormed := by simp [a, WellFormed, WellFormedEntries, Assoc.keys]
  have hb : b.WellFormed := by simp [b, WellFormed, WellFormedEntries, Assoc.keys]
  have hreordered : Reordered a a' := by
    refine ⟨[("count", number .zero), ("user", map [("age", null), ("name", string "Ann")])], ?_,
      .swap ..⟩
    exact ⟨rfl, rfl, rfl, ⟨[("name", string "Ann"), ("age", null)], ⟨rfl, rfl, rfl, rfl, trivial⟩,
      .swap ..⟩, trivial⟩
  have hloose : looseEq a b = true := by decide +kernel
  obtain ⟨hcomm, -, hself, hturned⟩ := looseEq_lawful a b ha hb
  refine ⟨ha, hb, hreordered, by decide +kernel, hcomm ▸ hloose, hself.2 (by decide +kernel), ?_⟩
  exact (hturned a' b hreordered (reordered_self b)).trans hloose

end Value

end Phrasebook
