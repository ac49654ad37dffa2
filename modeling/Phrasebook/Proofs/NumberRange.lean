import Mathlib.Tactic.Ring
import Phrasebook.Proofs.ExactNumbers
import Phrasebook.Double.Decimal

/-!
# Where numbers end

A magnitude that is too large is read as infinity.

* `Double.limit` : the magnitude from which on this is so, half a step above the largest finite
  number;
* `Double.nearestRank_lt_topRank_iff` : fractions below it have a finite rank, and no others;
* `Decimal.rank_lt_topRank_iff` : so do decimals with a fraction.
-/

namespace Phrasebook

namespace Double

/-- Half a step above the largest finite number: `2 ^ 1024 - 2 ^ 970`. -/
def limit : Nat := (2 ^ 54 - 1) * Nat.pow 2 970

theorem limit_pos : 0 < limit := by decide +kernel

/-- The number of the last binade, that of the largest finite numbers. -/
def lastBinade : Nat := 2045

theorem topRank_eq : topRank = (lastBinade + 2) * binade := by decide

/-- The limit is half a step of the last binade below its end. -/
theorem limit_mul_unitsPerOne : 2 * (limit * unitsPerOne) = (4 * binade - 1) * 2 ^ lastBinade := by
  decide +kernel

variable {num den q k : Nat}

/-! ### Rounding -/

theorem le_roundHalfEven (num den : Nat) : num / den ≤ roundHalfEven num den := by
  unfold roundHalfEven
  dsimp only
  split
  · exact Nat.le_refl _
  · split
    · exact Nat.le_succ _
    · exact Nat.le_add_right _ _

theorem roundHalfEven_le (num den : Nat) : roundHalfEven num den ≤ num / den + 1 := by
  unfold roundHalfEven
  dsimp only
  split
  · exact Nat.le_succ _
  · split
    · exact Nat.le_refl _
    · omega

/-- Rounding stays at an odd number or below it just if the fraction is below the middle to the
next, as the tie goes up. -/
theorem roundHalfEven_le_iff (hden : 0 < den) :
    roundHalfEven num den ≤ 2 * k + 1 ↔ 2 * num < (4 * k + 3) * den := by
  have hsplit := Nat.div_add_mod num den
  have hmod := Nat.mod_lt num hden
  generalize hr : num % den = rest at hsplit hmod
  generalize hb : num / den = below at hsplit
  have hround : roundHalfEven num den = if 2 * rest < den then below else if den < 2 * rest
      then below + 1 else below + below % 2 := by
    simp only [roundHalfEven, hr, hb]
  have hlow : below ≤ 2 * k → den * below ≤ den * (2 * k) := Nat.mul_le_mul_left den
  have hhigh : 2 * k + 2 ≤ below → den * (2 * k + 2) ≤ den * below := Nat.mul_le_mul_left den
  have hmiddle : (4 * k + 3) * den = 2 * (den * (2 * k)) + 3 * den := by ring
  have htop : den * (2 * k + 2) = den * (2 * k) + 2 * den := by ring
  rw [hround, hmiddle]
  rcases Nat.lt_trichotomy below (2 * k + 1) with hless | heq | hmore
  · have := hlow (by omega)
    split
    · omega
    · split <;> omega
  · have hmid : den * below = den * (2 * k) + den := by
      rw [heq]
      ring
    split
    · omega
    · split <;> omega
  · have := hhigh (by omega)
    split
    · omega
    · split <;> omega

/-! ### Ranks -/

/-- A magnitude is scaled down until it lies below `2 ^ 53`, and no further than to `2 ^ 52`. -/
theorem scaled_bounds {s : Nat} (hden : 0 < den) :
    s < 2 * binade * (den * 2 ^ (Nat.log2 (s / den) - 52)) ∧
    (0 < Nat.log2 (s / den) - 52 → binade * (den * 2 ^ (Nat.log2 (s / den) - 52)) ≤ s) := by
  obtain ⟨d, hd⟩ : ∃ d, d = Nat.log2 (s / den) - 52 := ⟨_, rfl⟩
  rw [← hd, binade_eq]
  have hpow : ∀ e, 2 ^ (e + d) * den = 2 ^ e * (den * 2 ^ d) := fun e => by ring
  constructor
  · have hless : s / den < 2 ^ (53 + d) :=
      Nat.lt_of_lt_of_le Nat.lt_log2_self (Nat.pow_le_pow_right (by decide) (by omega))
    have hs := (Nat.div_lt_iff_lt_mul hden).1 hless
    rw [hpow] at hs
    exact hs
  · intro hpos
    have hne : s / den ≠ 0 := by
      intro hzero
      rw [hzero, Nat.log2_zero] at hd
      omega
    have hlow := Nat.log2_self_le hne
    rw [show Nat.log2 (s / den) = 52 + d by omega] at hlow
    have hs := (Nat.le_div_iff_mul_le hden).1 hlow
    rw [hpow] at hs
    exact hs

/-- A fraction has a finite rank just if it is below the limit. -/
theorem nearestRank_lt_topRank_iff (hden : 0 < den) :
    nearestRank num den < topRank ↔ num < limit * den := by
  have hworth : num < limit * den ↔
      2 * (num * unitsPerOne) < (4 * binade - 1) * (den * 2 ^ lastBinade) := by
    have hlimit : (4 * binade - 1) * (den * 2 ^ lastBinade) = 2 * (limit * den * unitsPerOne) := by
      calc (4 * binade - 1) * (den * 2 ^ lastBinade) =
            (4 * binade - 1) * 2 ^ lastBinade * den := by ring
        _ = 2 * (limit * den * unitsPerOne) := by
            rw [← limit_mul_unitsPerOne]
            ring
    rw [hlimit, Nat.mul_lt_mul_left Nat.two_pos, Nat.mul_lt_mul_right unitsPerOne_pos]
  rw [hworth, topRank_eq]
  unfold nearestRank
  dsimp only
  rw [topRank_eq]
  clear hworth
  generalize lastBinade = last
  generalize num * unitsPerOne = s
  obtain ⟨hupper, hlower⟩ := scaled_bounds (s := s) hden
  generalize Nat.log2 (s / den) - 52 = d at hupper hlower
  have hbinade : 0 < binade := Nat.pow_pos (by decide)
  generalize binade = b at *
  have hscale : ∀ e, 0 < den * 2 ^ e := fun e => Nat.mul_pos hden (Nat.pow_pos (by decide))
  have hround : roundHalfEven s (den * 2 ^ d) ≤ 2 * b :=
    Nat.le_trans (roundHalfEven_le _ _) ((Nat.div_lt_iff_lt_mul (hscale d)).2 hupper)
  have hsum : (last + 2) * b = last * b + 2 * b := Nat.add_mul ..
  rw [hsum, Nat.pow_eq]
  rcases Nat.lt_trichotomy d last with hless | rfl | hmore
  · -- below the last binade
    have hrank : (d + 1) * b ≤ last * b := Nat.mul_le_mul_right b hless
    have hstep : 2 * (den * 2 ^ d) ≤ den * 2 ^ last := by
      calc 2 * (den * 2 ^ d) = den * 2 ^ (d + 1) := by ring
        _ ≤ den * 2 ^ last := Nat.mul_le_mul_left _ (Nat.pow_le_pow_right (by decide) hless)
    have hsmall : 2 * s < (4 * b - 1) * (den * 2 ^ last) := by
      calc 2 * s < 2 * (2 * b * (den * 2 ^ d)) := by omega
        _ = 2 * b * (2 * (den * 2 ^ d)) := by ring
        _ ≤ (4 * b - 1) * (den * 2 ^ last) := Nat.mul_le_mul (by omega) hstep
    rw [Nat.add_mul] at hrank
    exact iff_of_true (by omega) hsmall
  · -- in the last binade all hangs on how the significand is rounded
    have hiff : roundHalfEven s (den * 2 ^ d) ≤ 2 * (b - 1) + 1 ↔
        2 * s < (4 * (b - 1) + 3) * (den * 2 ^ d) :=
      roundHalfEven_le_iff (hscale d)
    rw [show 4 * (b - 1) + 3 = 4 * b - 1 by omega] at hiff
    rw [← hiff]
    omega
  · -- beyond the last binade
    have hrank : (last + 1) * b ≤ d * b := Nat.mul_le_mul_right b hmore
    have hfull : b ≤ roundHalfEven s (den * 2 ^ d) :=
      Nat.le_trans ((Nat.le_div_iff_mul_le (hscale d)).2 (hlower (by omega))) (le_roundHalfEven _ _)
    have hstep : 2 * (den * 2 ^ last) ≤ den * 2 ^ d := by
      calc 2 * (den * 2 ^ last) = den * 2 ^ (last + 1) := by ring
        _ ≤ den * 2 ^ d := Nat.mul_le_mul_left _ (Nat.pow_le_pow_right (by decide) hmore)
    have hlarge : (4 * b - 1) * (den * 2 ^ last) ≤ 2 * s := by
      calc (4 * b - 1) * (den * 2 ^ last) ≤ 4 * b * (den * 2 ^ last) :=
            Nat.mul_le_mul_right _ (Nat.sub_le ..)
        _ = 2 * (b * (2 * (den * 2 ^ last))) := by ring
        _ ≤ 2 * s :=
            Nat.mul_le_mul_left 2 (Nat.le_trans (Nat.mul_le_mul_left _ hstep) (hlower (by omega)))
    rw [Nat.add_mul] at hrank
    exact iff_of_false (by omega) (by omega)

end Double

/-- A decimal with a fraction has a finite rank just if it is below the limit. -/
theorem Decimal.rank_lt_topRank_iff {coeff places : Nat} :
    (Decimal.mk coeff (0 - (places : Int))).rank < Double.topRank ↔
      coeff < Double.limit * 10 ^ places := by
  have hten : 0 < 10 ^ places := Nat.pow_pos (by decide)
  unfold rank
  dsimp only
  split
  · next hzero =>
    have htop : 0 < Double.topRank := by decide
    rw [hzero]
    exact iff_of_true htop (Nat.mul_pos Double.limit_pos hten)
  · next hne =>
    rw [if_neg (by omega)]
    split
    · next hsmall =>
      have hcoeff : coeff < 10 ^ places := by
        calc coeff < 2 ^ (Nat.log2 coeff + 1) := Nat.lt_log2_self
          _ ≤ 2 ^ places := Nat.pow_le_pow_right (by decide) (by omega)
          _ ≤ 10 ^ places := Nat.pow_le_pow_left (by decide) places
      have htop : 0 < Double.topRank := by decide
      exact iff_of_true htop (Nat.lt_of_lt_of_le hcoeff (Nat.le_mul_of_pos_left _ Double.limit_pos))
    · have hplaces : (-(0 - (places : Int))).toNat = places := by omega
      have hzero : (0 - (places : Int)).toNat = 0 := by omega
      have hone : coeff * Nat.pow 10 0 = coeff := Nat.mul_one coeff
      rw [hplaces, hzero, hone]
      exact Double.nearestRank_lt_topRank_iff hten

end Phrasebook
