import Mathlib.Data.List.MinMax
import Phrasebook.Expr.Equality
import Phrasebook.Proofs.ExactNumbers

/-!
# The index that an entry without a key takes

The next index is counted exactly, and then put into a number, which holds every whole number only
up to `2 ^ 53`.

* `Double.IsNat` : numbers that are whole and not negative;
* `Double.isNat_ofNat_succ` : which number the whole number behind another one becomes,
  `Double.behind`;
* `Elements.indices` : the keys of this kind;
* `Elements.add_behind_largest` : which key an entry without one takes, and just when no other entry
  has it.
-/

namespace Phrasebook

namespace Double

variable {x y : Double} {k : Nat}

/-! ### Whole numbers that are not negative -/

/-- The number is the whole number `k`. -/
def IsNat (x : Double) (k : Nat) : Prop := zero.atMost x = true ∧ x.isWhole = true ∧ x.wholePart = k

/-- A whole number that is not negative stands at the finite rank that is worth it. -/
theorem isNat_iff :
    x.IsNat k ↔ ∃ r : Nat, x.place? = some (r : Int) ∧ r < topRank ∧ units r = k * unitsPerOne := by
  cases x with
  | nan =>
    constructor
    · rintro ⟨-, hwhole, -⟩
      cases hwhole
    · rintro ⟨r, hplace, -⟩
      cases hplace
  | ranked negative r =>
    have hwhole : (ranked negative r).isWhole = true ∧ (ranked negative r).wholePart = k ↔
        r.val < topRank ∧ units r.val = k * unitsPerOne := by
      simp only [isWhole, wholePart, Bool.and_eq_true, decide_eq_true_eq, beq_iff_eq, and_assoc]
      refine and_congr_right fun _ => ⟨fun h => ?_, fun h => ?_⟩
      · rw [← h.2, Nat.div_mul_cancel (Nat.dvd_of_mod_eq_zero h.1)]
      · rw [h]
        exact ⟨Nat.mul_mod_left .., Nat.mul_div_cancel _ unitsPerOne_pos⟩
    rw [IsNat, hwhole]
    cases negative with
    | false =>
      constructor
      · rintro ⟨-, h⟩
        exact ⟨r.val, rfl, h⟩
      · rintro ⟨r', hplace, h⟩
        obtain rfl : r.val = r' := Int.ofNat_inj.1 (Option.some.inj hplace)
        exact ⟨by simp [atMost, zero, ofRank, place?], h⟩
    | true =>
      constructor
      · rintro ⟨hpositive, h⟩
        have hzero : r.val = 0 := by
          simp only [atMost, zero, ofRank, place?, decide_eq_true_eq] at hpositive
          omega
        exact ⟨r.val, by simp [place?, hzero], h⟩
      · rintro ⟨r', hplace, h⟩
        have hzero : r.val = 0 ∧ r' = 0 := by
          have := Option.some.inj hplace
          omega
        rw [hzero.2, ← hzero.1] at h
        exact ⟨by simp [atMost, zero, ofRank, place?, hzero.1], h⟩

theorem equals_iff : x.equals y = true ↔ ∃ i, x.place? = some i ∧ y.place? = some i := by
  unfold equals
  cases hx : x.place? with
  | none => simp
  | some i =>
    cases hy : y.place? with
    | none => simp
    | some j =>
      exact ⟨fun h => ⟨i, rfl, congrArg some (beq_iff_eq.1 h).symm⟩,
        fun ⟨_, hi, hj⟩ => beq_iff_eq.2 (by cases hi; cases hj; rfl)⟩

/-- What equals a whole number is that whole number. -/
theorem IsNat.of_equals (h : x.IsNat k) (hxy : y.equals x = true) : y.IsNat k := by
  obtain ⟨r, hplace, hr⟩ := isNat_iff.1 h
  obtain ⟨i, hy, hx⟩ := equals_iff.1 hxy
  obtain rfl := Option.some.inj (hx.symm.trans hplace)
  exact isNat_iff.2 ⟨r, hy, hr⟩

/-- Numbers that are one whole number are equal. -/
theorem IsNat.equals (hx : x.IsNat k) (hy : y.IsNat k) : x.equals y = true := by
  obtain ⟨r, hplace, hr, hunits⟩ := isNat_iff.1 hx
  obtain ⟨r', hplace', hr', hunits'⟩ := isNat_iff.1 hy
  have hrank : nearestRank k 1 = r :=
    nearestRank_eq Nat.one_pos (Nat.le_of_lt hr) (by rw [hunits, Nat.mul_one])
  have hrank' : nearestRank k 1 = r' :=
    nearestRank_eq Nat.one_pos (Nat.le_of_lt hr') (by rw [hunits', Nat.mul_one])
  exact equals_iff.2 ⟨r, hplace, by rw [hplace', ← hrank', hrank]⟩

theorem isNat_ofNat_of_rank {n r : Nat} (hrank : nearestRank n 1 = r) (hr : r < topRank)
    (hunits : units r = k * unitsPerOne) : (ofNat n).IsNat k := by
  have hplace : (ofNat n).place? = some (r : Int) := by
    unfold ofNat ofRank place?
    simp only [hrank, Nat.min_eq_left (Nat.le_of_lt hr)]
  exact isNat_iff.2 ⟨r, hplace, hr, hunits⟩

theorem isNat_ofNat (hk : k ≤ 2 ^ 53) : (ofNat k).IsNat k :=
  ⟨zero_atMost_ofNat k, isWhole_ofNat hk, wholePart_ofNat hk⟩

/-! ### The whole number behind another one -/

/-- What a number holds in place of `k + 1`, where it holds `k`: from `2 ^ 53` on only every other
whole number is held, and a tie goes to the even significand; from `2 ^ 54` on `k + 1` is nearer to
`k` than to the next number. -/
def behind (k : Nat) : Nat :=
  if k < 2 ^ 53 then k + 1 else if k < 2 ^ 54 ∧ k % 4 = 2 then k + 2 else k

theorem le_behind (k : Nat) : k ≤ behind k := by
  unfold behind
  split
  · omega
  · split <;> omega

theorem lt_behind_iff : k < behind k ↔ k < 2 ^ 53 ∨ k < 2 ^ 54 ∧ k % 4 = 2 := by
  unfold behind
  split
  · simp_all
  · split <;> simp_all

/-- A full significand of up to the next power of two. -/
theorem units_add_le (j : Nat) {q : Nat} (hq : binade ≤ q) (hq' : q ≤ 2 * binade) :
    units (j * binade + q) = q * 2 ^ j := by
  rcases Nat.lt_or_eq_of_le hq' with hlt | rfl
  · exact units_add j hq hlt
  · have hsplit : j * binade + 2 * binade = (j + 1) * binade + binade := by ring
    have hpos : 0 < binade := Nat.pow_pos (by decide)
    rw [hsplit, units_add (j + 1) (Nat.le_refl _) (by omega)]
    ring

theorem roundHalfEven_add (q : Nat) {rest den : Nat} (h : rest < den) :
    roundHalfEven (q * den + rest) den =
    if 2 * rest < den then q else if den < 2 * rest then q + 1 else q + q % 2 := by
  have hdiv : (q * den + rest) / den = q := by
    rw [Nat.add_comm, Nat.add_mul_div_right _ _ (by omega), Nat.div_eq_of_lt h, Nat.zero_add]
  have hmod : (q * den + rest) % den = rest := by
    rw [Nat.add_comm, Nat.add_mul_mod_self_right, Nat.mod_eq_of_lt h]
  simp only [roundHalfEven, hdiv, hmod]

/-- The rank of a whole number that is worth a full significand and a rest. -/
theorem nearestRank_add {n j q rest : Nat} (hq : binade ≤ q) (hq' : q < 2 * binade)
    (hrest : rest < 2 ^ j) (h : n * unitsPerOne = q * 2 ^ j + rest) :
    nearestRank n 1 = min (j * binade + roundHalfEven (q * 2 ^ j + rest) (2 ^ j)) topRank := by
  have hlow : 2 ^ (52 + j) ≤ q * 2 ^ j + rest := by
    rw [Nat.pow_add, ← binade_eq]
    exact Nat.le_add_right_of_le (Nat.mul_le_mul_right _ hq)
  have hhigh : q * 2 ^ j + rest < 2 ^ (52 + j + 1) := by
    calc q * 2 ^ j + rest < q * 2 ^ j + 2 ^ j := Nat.add_lt_add_left hrest _
      _ = (q + 1) * 2 ^ j := by ring
      _ ≤ 2 * binade * 2 ^ j := Nat.mul_le_mul_right _ hq'
      _ = 2 ^ (52 + j + 1) := by rw [binade_eq]; ring
  have hne : q * 2 ^ j + rest ≠ 0 := by
    have := Nat.pow_pos (n := 52 + j) (show 0 < 2 by decide)
    omega
  have hlog : Nat.log2 (q * 2 ^ j + rest) = 52 + j := (Nat.log2_eq_iff hne).2 ⟨hlow, hhigh⟩
  unfold nearestRank
  simp only [h, Nat.div_one, hlog, Nat.add_sub_cancel_left, Nat.one_mul]
  rfl

/-- A rank that is worth a large whole number has a full significand, shifted beyond the point. -/
theorem exists_significand_of_large {r : Nat} (hlarge : 2 ^ 53 ≤ k)
    (hunits : units r = k * unitsPerOne) :
    ∃ i q, r = (places + (i + 1)) * binade + q ∧ binade ≤ q ∧ q < 2 * binade ∧
      k = q * 2 ^ (i + 1) := by
  obtain ⟨j, q, hrank, hsplit, hq', hfull⟩ := exists_significand r
  rw [hunits, unitsPerOne_eq] at hsplit
  have hj : places < j := by
    by_contra hj
    have hbelow : k * 2 ^ places < 2 ^ 53 * 2 ^ places := by
      calc k * 2 ^ places = q * 2 ^ j := hsplit
        _ < 2 * binade * 2 ^ j := Nat.mul_lt_mul_of_pos_right hq' (Nat.pow_pos (by decide))
        _ ≤ 2 ^ 53 * 2 ^ places :=
            Nat.mul_le_mul_left _ (Nat.pow_le_pow_right (by decide) (by omega))
    exact absurd (Nat.lt_of_mul_lt_mul_right hbelow) (Nat.not_lt.2 hlarge)
  obtain ⟨i, rfl⟩ : ∃ i, j = places + (i + 1) := ⟨j - (places + 1), by omega⟩
  refine ⟨i, q, hrank, hfull.resolve_left (by omega), hq', ?_⟩
  refine Nat.eq_of_mul_eq_mul_right (Nat.pow_pos (n := places) (show 0 < 2 by decide)) ?_
  rw [hsplit, Nat.pow_add, Nat.mul_assoc, Nat.mul_comm (2 ^ places)]

/-- Beyond `2 ^ 53` one more is a rest that rounding takes away, but in a tie with an odd
significand. -/
theorem isNat_ofNat_succ_of_large (hlarge : 2 ^ 53 ≤ k) (h : x.IsNat k) :
    (ofNat (k + 1)).IsNat (behind k) := by
  obtain ⟨r, -, hr, hunits⟩ := isNat_iff.1 h
  obtain ⟨i, q, hrank, hq, hq', hk⟩ := exists_significand_of_large hlarge hunits
  have hpow : 2 ^ (places + (i + 1)) = 2 ^ i * (2 * 2 ^ places) := by ring
  have hunit : 0 < 2 ^ places := Nat.pow_pos (by decide)
  have hworth : (k + 1) * unitsPerOne = q * 2 ^ (places + (i + 1)) + 2 ^ places := by
    rw [hk, unitsPerOne_eq, hpow]
    ring
  cases i with
  | zero =>
    -- the rest is half a step, which goes to the even significand
    have hround : roundHalfEven (q * 2 ^ (places + (0 + 1)) + 2 ^ places) (2 ^ (places + (0 + 1))) =
        q + q % 2 := by
      rw [roundHalfEven_add q (by omega), if_neg (by omega), if_neg (by omega)]
    have heven : q + q % 2 ≤ 2 * binade := by omega
    have htop : (places + (0 + 1)) * binade + (q + q % 2) < topRank :=
      Nat.lt_of_le_of_lt (Nat.add_le_add_left heven _) (by decide)
    have hrank' := nearestRank_add hq hq' (by omega) hworth
    rw [hround, Nat.min_eq_left (Nat.le_of_lt htop)] at hrank'
    refine isNat_ofNat_of_rank hrank' htop ?_
    have hbehind : behind k = (q + q % 2) * 2 := by
      rw [binade_eq] at hq'
      unfold behind
      rw [if_neg (by omega)]
      split <;> omega
    rw [units_add_le _ (Nat.le_add_right_of_le hq) heven, hbehind, unitsPerOne_eq, hpow]
    ring
  | succ i =>
    -- the rest is less than half a step
    have hone : 1 ≤ 2 ^ i := Nat.pow_pos (by decide)
    have hsmall : 2 * 2 ^ places < 2 ^ (places + (i + 1 + 1)) := by
      have htwo : 2 ≤ 2 ^ (i + 1) := by omega
      have hmul := Nat.mul_le_mul_right (2 * 2 ^ places) htwo
      rw [hpow]
      omega
    have hrank' := nearestRank_add hq hq' (by omega) hworth
    rw [roundHalfEven_add q (by omega), if_pos hsmall, ← hrank, Nat.min_eq_left (Nat.le_of_lt hr)]
      at hrank'
    refine isNat_ofNat_of_rank hrank' hr ?_
    have hbehind : behind k = k := by
      have hfour : k = 4 * (q * 2 ^ i) := by
        rw [hk]
        ring
      have hmul := Nat.mul_le_mul hq hone
      rw [binade_eq] at hmul
      unfold behind
      rw [if_neg (by omega), if_neg (by omega)]
    rw [hbehind, hunits]

/-- **The whole number behind another one.**  Where a number holds `k`, the number for `k + 1` is
the next one up to `2 ^ 53`, and from there on only where `k` is an odd multiple of two below
`2 ^ 54`. -/
theorem isNat_ofNat_succ (h : x.IsNat k) : (ofNat (k + 1)).IsNat (behind k) := by
  by_cases hsmall : k < 2 ^ 53
  · rw [behind, if_pos hsmall]
    exact isNat_ofNat hsmall
  · exact isNat_ofNat_succ_of_large (Nat.le_of_not_lt hsmall) h

end Double

namespace Elements

variable {es : Elements} {key : Expr} {x : Double} {k l : Nat}

/-! ### Keys that are indices -/

/-- The whole number that a key is, if it is a number constant that is whole and not negative. -/
def index? : Expr → Option Nat
  | .const (.number n) _ => if Double.zero.atMost n && n.isWhole then some n.wholePart else none
  | _ => none

def indices (es : Elements) : List Nat := es.filterMap fun e => index? e.1

theorem index?_eq_some_iff : index? key = some k ↔ ∃ x l, key = .number x l ∧ x.IsNat k := by
  unfold index?
  split
  · next x l =>
    simp only [Option.ite_none_right_eq_some, Bool.and_eq_true, Option.some.injEq, and_assoc]
    constructor
    · intro h
      exact ⟨x, l, rfl, h⟩
    · rintro ⟨_, _, ⟨⟩, h⟩
      exact h
  · next hnumber =>
    refine ⟨nofun, ?_⟩
    rintro ⟨x, l, rfl, -⟩
    exact absurd rfl (hnumber x l)

theorem mem_indices : k ∈ es.indices ↔ ∃ e ∈ es, ∃ x l, e.1 = .number x l ∧ x.IsNat k := by
  simp only [indices, List.mem_filterMap, index?_eq_some_iff]

theorem indexAfter?_eq (key : Expr) :
    indexAfter? key = (index? key).map fun k => min k topIndex + 1 := by
  cases key with
  | const v l =>
    cases v with
    | number n =>
      unfold indexAfter? index?
      dsimp only
      split <;> rfl
    | _ => rfl
  | _ => rfl

/-- The next index is the one behind the largest, as long as the indices are within the range. -/
theorem nextIndex_eq (hfits : ∀ k ∈ es.indices, k < 2 ^ 64) :
    es.nextIndex = (es.indices.max?.map (· + 1)).getD 0 := by
  have hafter : (es.filterMap fun e => indexAfter? e.1) = es.indices.map (· + 1) := by
    rw [indices, List.map_filterMap]
    refine List.filterMap_congr fun e he => ?_
    rw [indexAfter?_eq]
    refine Option.map_congr fun k hk => ?_
    have hbelow : k < 2 ^ 64 := hfits k (List.mem_filterMap.2 ⟨e, he, hk⟩)
    have htop : k ≤ topIndex := Nat.le_of_lt_succ hbelow
    rw [Nat.min_eq_left htop]
  rw [nextIndex, hafter, List.foldl_max]
  cases hmax : es.indices.max? with
  | none =>
    rw [List.max?_eq_none_iff.1 hmax]
    rfl
  | some k =>
    obtain ⟨hmem, hle⟩ := List.max?_eq_some_iff.1 hmax
    have hmax' : (es.indices.map (· + 1)).max? = some (k + 1) := by
      refine List.max?_eq_some_iff.2 ⟨List.mem_map_of_mem hmem, fun i hi => ?_⟩
      obtain ⟨j, hj, rfl⟩ := List.mem_map.1 hi
      exact Nat.succ_le_succ (hle j hj)
    rw [hmax']
    exact Nat.zero_max _

/-! ### Equal keys -/

theorem same_number_iff :
    Expr.same key (.number x l) = true ↔ ∃ y, key = .number y l ∧ y.equals x = true := by
  unfold Expr.same
  cases key with
  | const v l' =>
    cases v with
    | number y =>
      simp only [Expr.equalBy, Literal.same, Bool.and_eq_true, beq_iff_eq]
      constructor
      · rintro ⟨hequals, rfl⟩
        exact ⟨y, rfl, hequals⟩
      · rintro ⟨_, ⟨⟩, hequals⟩
        exact ⟨hequals, rfl⟩
    | _ => simp [Expr.equalBy, Literal.same]
  | _ => simp [Expr.equalBy]

/-- A whole number that no index exceeds is the key of no entry just if it exceeds all indices. -/
theorem forall_same_iff (hx : x.IsNat k) (hle : ∀ j ∈ es.indices, j ≤ k) :
    (∀ e ∈ es, ∀ l, Expr.same e.1 (.number x l) = false) ↔ ∀ j ∈ es.indices, j < k := by
  constructor
  · intro hfree j hj
    refine Nat.lt_of_le_of_ne (hle j hj) ?_
    rintro rfl
    obtain ⟨e, he, y, l, hkey, hy⟩ := mem_indices.1 hj
    have hsame : Expr.same e.1 (.number x l) = true := same_number_iff.2 ⟨y, hkey, hy.equals hx⟩
    rw [hfree e he l] at hsame
    cases hsame
  · intro hless e he l
    refine Bool.eq_false_iff.2 fun hsame => ?_
    obtain ⟨y, hkey, hequals⟩ := same_number_iff.1 hsame
    exact Nat.lt_irrefl k (hless k (mem_indices.2 ⟨e, he, y, l, hkey, hx.of_equals hequals⟩))

/-! ### Entries without a key -/

/-- **The key of an entry without one.**  The entries that are there stay, and the new one has a key
that is a whole number and not negative: zero if there is no index yet, and otherwise what a number
holds in place of the index behind the largest.  No index exceeds it.  It exceeds them all, so that
no other entry has the key, just if the largest is below `2 ^ 53`, or is an odd multiple of two
below `2 ^ 54`. -/
theorem add_behind_largest (es : Elements) (value : Expr) (hfits : ∀ k ∈ es.indices, k < 2 ^ 64) :
    ∃ x j, es.add value none = es ++ [(.number x value.line, value)] ∧ x.IsNat j ∧
      j = (es.indices.max?.map Double.behind).getD 0 ∧ (∀ k ∈ es.indices, k ≤ j) ∧
      ((∀ k ∈ es.indices, k < j) ↔ ∀ k ∈ es.indices.max?, k < 2 ^ 53 ∨ k < 2 ^ 54 ∧ k % 4 = 2) ∧
      ((∀ e ∈ es, ∀ l, Expr.same e.1 (.number x l) = false) ↔ ∀ k ∈ es.indices, k < j) := by
  have hnext := nextIndex_eq hfits
  cases hmax : es.indices.max? with
  | none =>
    have hnone : ∀ k, k ∉ es.indices := by
      rw [List.max?_eq_none_iff.1 hmax]
      exact fun k => List.not_mem_nil
    rw [hmax] at hnext
    have hzero : (Double.ofNat es.nextIndex).IsNat 0 := hnext ▸ Double.isNat_ofNat (Nat.zero_le _)
    have hle : ∀ k ∈ es.indices, k ≤ 0 := fun k hk => absurd hk (hnone k)
    refine ⟨_, 0, rfl, hzero, rfl, hle, ⟨fun _ => nofun, fun _ k hk => absurd hk (hnone k)⟩,
      forall_same_iff hzero hle⟩
  | some k =>
    obtain ⟨hmem, hlargest⟩ := List.max?_eq_some_iff.1 hmax
    obtain ⟨e, he, y, l, hkey, hy⟩ := mem_indices.1 hmem
    rw [hmax] at hnext
    have hbehind : (Double.ofNat es.nextIndex).IsNat (Double.behind k) :=
      hnext ▸ Double.isNat_ofNat_succ hy
    have hle : ∀ j ∈ es.indices, j ≤ Double.behind k :=
      fun j hj => Nat.le_trans (hlargest j hj) (Double.le_behind k)
    refine ⟨_, Double.behind k, rfl, hbehind, rfl, hle, ?_, forall_same_iff hbehind hle⟩
    constructor
    · rintro hless _ ⟨⟩
      exact Double.lt_behind_iff.1 (hless k hmem)
    · intro hroom j hj
      exact Nat.lt_of_le_of_lt (hlargest j hj) (Double.lt_behind_iff.2 (hroom k rfl))

/-- Behind a negative, a fractional and an infinite key, and behind `9007199254740994`, comes
`9007199254740996`. -/
theorem add_behind_largest_fractional :
    let key (x : Double) : Expr := .number x 1
    let es : Elements :=
      [(key (.ofInt (-3)), .string "a" 1),
        (key (.ofRank false (Double.nearestRank 7 2)), .string "b" 1),
        (key (.infinite false), .string "c" 1), (key (.ofNat 9007199254740994), .string "d" 1)]
    (∀ k ∈ es.indices, k < 2 ^ 64) ∧
      ∃ x, es.add (.string "e" 2) none = es ++ [(.number x 2, .string "e" 2)] ∧
        x.IsNat 9007199254740996 ∧
        ∀ e ∈ es, ∀ l, Expr.same e.1 (.number x l) = false := by
  intro key es
  have hindices : es.indices = [9007199254740994] := by decide +kernel
  have hfits : ∀ k ∈ es.indices, k < 2 ^ 64 := by
    rw [hindices]
    decide
  obtain ⟨x, j, hadd, hx, hj, -, hroom, hfree⟩ := add_behind_largest es (.string "e" 2) hfits
  rw [hindices] at hj hroom
  obtain rfl : j = 9007199254740996 := hj
  refine ⟨hfits, x, hadd, hx, hfree.2 ?_⟩
  rw [hindices]
  exact hroom.2 (by decide)

/-- Behind `2 ^ 53` the next index is not free: it is `2 ^ 53` again. -/
theorem next_index_taken :
    let es : Elements := [(.number (.ofNat 9007199254740992) 1, .string "a" 1)]
    es.add (.string "b" 1) none = es ++ [(.number (.ofNat 9007199254740992) 1, .string "b" 1)] := by
  decide +kernel

end Elements

end Phrasebook
