import Mathlib.Tactic.Ring
import Phrasebook.Expr

/-!
# Numbers that are held exactly

* `Double.nearestRank_eq` : a fraction that is worth just what a finite rank is worth is read as
  that rank;
* `Double.exists_rank` : whole numbers up to `2 ^ 53` are worth what some rank is worth;
* `Double.wholePart_ofNat`, `Double.isWhole_ofNat` : so they come back unchanged;
* `Elements.nextIndex_add` : adding to a list counts up, as far as the indices are held exactly.
-/

namespace Phrasebook

namespace Double

/-! ### Significands -/

theorem binade_eq : binade = 2 ^ 52 := rfl

theorem unitsPerOne_pos : 0 < unitsPerOne := by decide +kernel

theorem unitsPerOne_eq : unitsPerOne = 2 ^ places := by decide +kernel

/-- A full significand stands for itself times a power of two. -/
theorem units_add (k : Nat) {q : Nat} (hq : binade ≤ q) (hq' : q < 2 * binade) :
    units (k * binade + q) = q * 2 ^ k := by
  have hpos : 0 < binade := Nat.pow_pos (by decide)
  obtain ⟨m, rfl⟩ : ∃ m, q = binade + m := ⟨q - binade, by omega⟩
  have hm : m < binade := by omega
  have hr : k * binade + (binade + m) = m + (k + 1) * binade := by
    rw [Nat.add_mul, Nat.one_mul]
    omega
  have hlarge : ¬m + (k + 1) * binade < binade := by
    rw [Nat.add_mul, Nat.one_mul]
    omega
  rw [hr, units, if_neg hlarge, Nat.add_mul_mod_self_right, Nat.mod_eq_of_lt hm,
    Nat.add_mul_div_right _ _ hpos, Nat.div_eq_of_lt hm, Nat.zero_add, Nat.add_sub_cancel]
  rfl

/-- What a rank is made of: a significand and the number of places it is shifted by, of which there
are none unless the significand is full. -/
theorem exists_significand (r : Nat) :
    ∃ k q, r = k * binade + q ∧ units r = q * 2 ^ k ∧ q < 2 * binade ∧ (k = 0 ∨ binade ≤ q) := by
  have hpos : 0 < binade := Nat.pow_pos (by decide)
  by_cases hr : r < binade
  · refine ⟨0, r, by omega, ?_, by omega, Or.inl rfl⟩
    rw [units, if_pos hr, Nat.pow_zero, Nat.mul_one]
  · have hdiv : 1 ≤ r / binade := (Nat.one_le_div_iff hpos).2 (by omega)
    have hmod : r % binade < binade := Nat.mod_lt _ hpos
    have hsplit : r = (r / binade - 1) * binade + (binade + r % binade) := by
      have := Nat.div_add_mod r binade
      have hmul : binade * (r / binade) = (r / binade - 1) * binade + binade := by
        rw [Nat.sub_mul, Nat.one_mul, Nat.mul_comm,
          Nat.sub_add_cancel (Nat.le_mul_of_pos_left _ hdiv)]
      omega
    refine ⟨r / binade - 1, binade + r % binade, hsplit, ?_, by omega, Or.inr (by omega)⟩
    rw [hsplit, units_add _ (by omega) (by omega), ← hsplit]

theorem log2_mul_pow {q : Nat} (k : Nat) (hq : binade ≤ q) (hq' : q < 2 * binade) :
    Nat.log2 (q * 2 ^ k) = 52 + k := by
  have hlow : 2 ^ (52 + k) ≤ q * 2 ^ k := by
    rw [Nat.pow_add]
    exact Nat.mul_le_mul_right _ hq
  have hhigh : q * 2 ^ k < 2 ^ (52 + k + 1) := by
    have hsucc : 2 ^ (52 + k + 1) = 2 * binade * 2 ^ k := by
      rw [Nat.pow_succ, Nat.pow_add, binade_eq]
      ring
    rw [hsucc]
    exact Nat.mul_lt_mul_of_pos_right hq' (Nat.pow_pos (by decide))
  have hne : q * 2 ^ k ≠ 0 := by
    have := Nat.pow_pos (n := 52 + k) (show 0 < 2 by decide)
    omega
  exact (Nat.log2_eq_iff hne).2 ⟨hlow, hhigh⟩

theorem roundHalfEven_mul (q : Nat) {den : Nat} (h : 0 < den) :
    roundHalfEven (q * den) den = q := by
  unfold roundHalfEven
  simp only [Nat.mul_mod_left, Nat.mul_zero, if_pos h, Nat.mul_div_cancel _ h]

/-- A fraction that is worth just what a finite rank is worth is read as that rank. -/
theorem nearestRank_eq {num den r : Nat} (hden : 0 < den) (hr : r ≤ topRank)
    (h : num * unitsPerOne = units r * den) : nearestRank num den = r := by
  obtain ⟨k, q, hrank, hunits, hq, hfull⟩ := exists_significand r
  have hdrop : Nat.log2 (units r) - 52 = k := by
    rw [hunits]
    rcases hfull with rfl | hfull
    · rw [Nat.pow_zero, Nat.mul_one]
      by_cases hzero : q = 0
      · rw [hzero]
        rfl
      · have : Nat.log2 q < 53 := (Nat.log2_lt hzero).2 (by rw [binade_eq] at hq; omega)
        omega
    · rw [log2_mul_pow k hfull hq]
      omega
  have hscaled : units r * den = q * (den * 2 ^ k) := by
    rw [hunits]
    ring
  unfold nearestRank
  simp only [h, Nat.mul_div_cancel _ hden, hdrop]
  have hround : roundHalfEven (units r * den) (den * Nat.pow 2 k) = q := by
    rw [hscaled]
    exact roundHalfEven_mul q (Nat.mul_pos hden (Nat.pow_pos (by decide)))
  rw [hround, ← hrank, Nat.min_eq_left hr]

/-! ### Whole numbers -/

theorem two_pow_mul_two_pow {a b c : Nat} (h : a + b = c) : 2 ^ a * 2 ^ b = Nat.pow 2 c := by
  subst h
  exact (Nat.pow_add 2 a b).symm

theorem mul_unitsPerOne {a b : Nat} (h : a + b = places) (n : Nat) :
    n * 2 ^ a * 2 ^ b = n * unitsPerOne := by
  simp only [Nat.mul_assoc, two_pow_mul_two_pow h]

/-- Whole numbers up to `2 ^ 53` are worth what some rank is worth. -/
theorem exists_rank {n : Nat} (hn : n ≤ 2 ^ 53) : ∃ r, r < topRank ∧ units r = n * unitsPerOne := by
  by_cases hzero : n = 0
  · subst hzero
    exact ⟨0, by decide, by rw [Nat.zero_mul]; rfl⟩
  by_cases htop : n = 2 ^ 53
  · rw [htop]
    exact ⟨(places + 1) * binade + binade, by decide, by decide +kernel⟩
  · have hlow := Nat.log2_self_le hzero
    have hhigh := Nat.lt_log2_self (n := n)
    have hlog : Nat.log2 n < 53 := (Nat.log2_lt hzero).2 (by omega)
    generalize Nat.log2 n = b at hlow hhigh hlog
    have hq : binade ≤ n * 2 ^ (52 - b) := by
      calc binade = 2 ^ b * 2 ^ (52 - b) := (two_pow_mul_two_pow (by omega)).symm
        _ ≤ n * 2 ^ (52 - b) := Nat.mul_le_mul_right _ hlow
    have hq' : n * 2 ^ (52 - b) < 2 * binade := by
      calc n * 2 ^ (52 - b) < 2 ^ (b + 1) * 2 ^ (52 - b) :=
            Nat.mul_lt_mul_of_pos_right hhigh (Nat.pow_pos (by decide))
        _ = 2 * binade := two_pow_mul_two_pow (show b + 1 + (52 - b) = 53 by omega)
    refine ⟨(b + 1022) * binade + n * 2 ^ (52 - b), ?_, ?_⟩
    · have hk : (b + 1022) * binade ≤ places * binade :=
        Nat.mul_le_mul_right _ (show b + 1022 ≤ 1074 by omega)
      have htop : places * binade + 2 * binade < topRank := by decide
      exact Nat.lt_trans (Nat.add_lt_add_of_le_of_lt hk hq') htop
    · rw [units_add _ hq hq', mul_unitsPerOne (show 52 - b + (b + 1022) = 1074 by omega)]

variable {n : Nat}

theorem exists_ofNat (hn : n ≤ 2 ^ 53) :
    ∃ r : Fin (topRank + 1), ofNat n = .ranked false r ∧ r.val < topRank ∧
      units r = n * unitsPerOne := by
  obtain ⟨r, hr, hunits⟩ := exists_rank hn
  refine ⟨⟨r, by omega⟩, ?_, hr, hunits⟩
  have hrank : nearestRank n 1 = r :=
    nearestRank_eq Nat.one_pos (Nat.le_of_lt hr) (by rw [hunits, Nat.mul_one])
  unfold ofNat ofRank
  simp only [hrank, Nat.min_eq_left (Nat.le_of_lt hr)]

theorem isWhole_ofNat (hn : n ≤ 2 ^ 53) : (ofNat n).isWhole = true := by
  obtain ⟨r, hof, hr, hunits⟩ := exists_ofNat hn
  rw [hof, isWhole, hunits, Nat.mul_mod_left]
  simp [hr]

theorem wholePart_ofNat (hn : n ≤ 2 ^ 53) : (ofNat n).wholePart = n := by
  obtain ⟨r, hof, -, hunits⟩ := exists_ofNat hn
  rw [hof, wholePart, hunits, Nat.mul_div_cancel _ unitsPerOne_pos]

theorem zero_atMost_ofNat (n : Nat) : zero.atMost (ofNat n) = true := by
  simp [atMost, zero, ofNat, ofRank, place?]

/-- The whole number after `2 ^ 53` is not held exactly: it is a tie, and the even neighbour is
taken. -/
theorem ofNat_succ_top : ofNat (2 ^ 53 + 1) = ofNat (2 ^ 53) := by
  decide +kernel

end Double

namespace Elements

/-! ### Indices of lists -/

theorem ofNat_min_succ_top (i : Nat) :
    Double.ofNat (min i (2 ^ 53 + 1)) = .ofNat (min i (2 ^ 53)) := by
  by_cases hi : i ≤ 2 ^ 53
  · rw [Nat.min_eq_left (by omega), Nat.min_eq_left hi]
  · rw [Nat.min_eq_right (by omega), Nat.min_eq_right (by omega), Double.ofNat_succ_top]

theorem indexAfter?_ofNat {i : Nat} (hi : i ≤ 2 ^ 53) (l : Nat) :
    indexAfter? (.number (.ofNat i) l) = some (i + 1) := by
  have htop : i ≤ topIndex := Nat.le_trans hi (by decide)
  simp only [indexAfter?, Double.zero_atMost_ofNat, Double.isWhole_ofNat hi,
    Double.wholePart_ofNat hi, Nat.min_eq_left htop, Bool.and_self, if_true]

theorem nextIndex_append {es : Elements} {e : Expr × Expr} {i : Nat}
    (h : indexAfter? e.1 = some i) : nextIndex (es ++ [e]) = max es.nextIndex i := by
  unfold nextIndex
  rw [List.filterMap_append, List.foldl_append, List.filterMap_cons, h]
  rfl

/-- Adding a value to a list of which `i` entries are there counts up.  Past `2 ^ 53` it does not,
as the next whole number is no key of its own. -/
theorem nextIndex_add {es : Elements} {i : Nat} (h : es.nextIndex = min i (2 ^ 53 + 1))
    (value : Expr) : (es.add value none).nextIndex = min (i + 1) (2 ^ 53 + 1) := by
  have hkey := indexAfter?_ofNat (Nat.min_le_right i (2 ^ 53)) value.line
  rw [← ofNat_min_succ_top, ← h] at hkey
  have hadd : (es.add value none).nextIndex = max es.nextIndex (min i (2 ^ 53) + 1) :=
    nextIndex_append hkey
  rw [hadd, h, ← Nat.add_min_add_right]
  generalize (2 : Nat) ^ 53 + 1 = top
  omega

end Elements

end Phrasebook
