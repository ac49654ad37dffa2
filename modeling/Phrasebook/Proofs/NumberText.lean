import Phrasebook.Expr.Token
import Phrasebook.Proofs.ExactNumbers
import Phrasebook.Value

/-!
# Number text reads back

* `Double.rank_shortest` : the shortest decimal of a rank is read as that rank;
* `Double.IsNumeral` : text that is read as a number, digits with or without a fraction;
* `Double.isNumeral_labelChars` : the text of a finite number without a sign is such text for the
  number;
* `Value.numberOfText?_label` : the label of any number spells a number, equal to it unless it is
  "not a number".
-/

namespace Phrasebook

/-! ### Characters -/

theorem isDigit_iff {c : Char} : c.isDigit = true ↔ 48 ≤ c.toNat ∧ c.toNat ≤ 57 := by
  simp only [Char.isDigit, ge_iff_le, Bool.and_eq_true, decide_eq_true_eq, UInt32.le_iff_toNat_le]
  rfl

theorem isAlpha_eq_false {c : Char} (h : c.toNat < 65 ∨ 122 < c.toNat) : c.isAlpha = false := by
  have hupper : c.isUpper = false := by
    refine decide_eq_false fun hc => ?_
    have hlow : 65 ≤ c.toNat := hc.1
    have hhigh : c.toNat ≤ 90 := hc.2
    omega
  have hlower : c.isLower = false := by
    by_contra hc
    obtain ⟨hlow, hhigh⟩ := Bool.and_eq_true_iff.1 (Bool.of_not_eq_false hc)
    have hlow : 97 ≤ c.toNat := of_decide_eq_true hlow
    have hhigh : c.toNat ≤ 122 := of_decide_eq_true hhigh
    omega
  show (c.isUpper || c.isLower) = false
  rw [hupper, hlower]
  rfl

theorem not_sign_of_isDigit {c : Char} (h : c.isDigit = true) :
    c.isAlpha = false ∧ c ≠ '+' ∧ c ≠ '-' := by
  have hbounds := isDigit_iff.1 h
  refine ⟨isAlpha_eq_false (by omega), ?_, ?_⟩
  · rintro rfl
    cases h
  · rintro rfl
    cases h

/-! ### Beginnings of text -/

theorem takeWhile_append {p : Char → Bool} {cs rest : List Char} (hcs : ∀ c ∈ cs, p c = true)
    (hrest : ∀ c ∈ rest.head?, p c = false) : (cs ++ rest).takeWhile p = cs := by
  rw [List.takeWhile_append_of_pos hcs]
  cases rest with
  | nil => rw [List.takeWhile_nil, List.append_nil]
  | cons c rest => rw [List.takeWhile_cons_of_neg (by simp [hrest c rfl]), List.append_nil]

theorem dropWhile_append {p : Char → Bool} {cs rest : List Char} (hcs : ∀ c ∈ cs, p c = true)
    (hrest : ∀ c ∈ rest.head?, p c = false) : (cs ++ rest).dropWhile p = rest := by
  rw [List.dropWhile_append_of_pos hcs]
  cases rest with
  | nil => rfl
  | cons c rest => rw [List.dropWhile_cons_of_neg (by simp [hrest c rfl])]

namespace Text

/-- Text without white space has none to trim. -/
theorem trim_eq_self {cs : List Char} (h : ∀ c ∈ cs, isSpace c = false) : trim cs = cs := by
  have hdrop : ∀ {ds : List Char}, (∀ c ∈ ds, isSpace c = false) → ds.dropWhile isSpace = ds := by
    intro ds hds
    cases ds with
    | nil => rfl
    | cons d ds => rw [List.dropWhile_cons, hds d (List.mem_cons_self ..)]; rfl
  unfold trim
  rw [hdrop h, hdrop fun c hc => h c (List.mem_reverse.1 hc), List.reverse_reverse]

end Text

namespace Double

/-! ### Decimals -/

theorem units_eq_zero {r : Nat} (h : units r = 0) : r = 0 := by
  obtain ⟨k, q, hrank, hunits, -, hfull⟩ := exists_significand r
  have hq : q = 0 := by
    rw [hunits] at h
    exact (Nat.mul_eq_zero.1 h).resolve_right (Nat.ne_of_gt (Nat.pow_pos (by decide)))
  rcases hfull with rfl | hfull
  · omega
  · have : 0 < binade := Nat.pow_pos (by decide)
    omega

/-- A grid is hit by decimals that read back only. -/
theorem rank_gridHit? {tie : TieRule} {r : Nat} {exp : Int} {d : Decimal}
    (h : gridHit? tie r exp = some d) : d.rank = r := by
  unfold gridHit? at h
  dsimp only at h
  split at h
  · cases h
  · next hlow _ => cases h; exact beq_iff_eq.1 hlow
  · next hhigh => cases h; exact beq_iff_eq.1 hhigh
  · next hlow hhigh =>
    have hlow := beq_iff_eq.1 hlow
    have hhigh := beq_iff_eq.1 hhigh
    split at h
    · cases h; exact hlow
    · split at h
      · cases h; exact hhigh
      · split at h
        · cases h; exact hhigh
        · cases h
          split
          · exact hlow
          · exact hhigh

theorem rank_firstHit? {tie : TieRule} {r : Nat} {steps : Nat} {exp : Int} {d : Decimal}
    (h : firstHit? tie r steps exp = some d) : d.rank = r := by
  induction steps generalizing exp with
  | zero => cases h
  | succ steps ih =>
    rw [firstHit?] at h
    cases hg : gridHit? tie r exp with
    | none =>
      rw [hg] at h
      exact ih h
    | some d' =>
      rw [hg] at h
      cases h
      exact rank_gridHit? hg

/-- All digits of the exact worth of a rank read back.  The number of places is kept apart from its
value, which is too large to be worked with. -/
theorem rank_exact {r places : Nat} (hplaces : unitsPerOne = 2 ^ places) (hr : r < topRank)
    (hne : r ≠ 0) : (Decimal.mk (units r * Nat.pow 5 places) (-(places : Int))).rank = r := by
  have hunits : 0 < units r := Nat.pos_of_ne_zero fun h => hne (units_eq_zero h)
  have hcoeff : 0 < units r * Nat.pow 5 places := Nat.mul_pos hunits (Nat.pow_pos (by decide))
  have hlog : places ≤ Nat.log2 (units r * Nat.pow 5 places) := by
    refine (Nat.le_log2 (Nat.ne_of_gt hcoeff)).2 ?_
    calc 2 ^ places ≤ 5 ^ places := Nat.pow_le_pow_left (by decide) places
      _ ≤ units r * 5 ^ places := Nat.le_mul_of_pos_left _ hunits
  unfold Decimal.rank
  dsimp only
  rw [if_neg (Nat.ne_of_gt hcoeff), if_neg (by omega), if_neg (by omega)]
  have hten : Nat.pow 10 (- -(places : Int)).toNat = Nat.pow 10 places := by
    rw [Int.neg_neg, Int.toNat_natCast]
  have hone : Nat.pow 10 (-(places : Int)).toNat = Nat.pow 10 0 := by
    rw [show (-(places : Int)).toNat = 0 by omega]
  rw [hten, hone]
  refine nearestRank_eq (Nat.pow_pos (by decide)) (Nat.le_of_lt hr) ?_
  calc units r * Nat.pow 5 places * Nat.pow 10 0 * unitsPerOne =
        units r * (5 ^ places * 2 ^ places) := by
        rw [hplaces, ← Nat.mul_assoc]
        exact congrArg (· * _) (Nat.mul_one _)
    _ = units r * Nat.pow 10 places := congrArg (units r * ·) (Nat.mul_pow 5 2 places).symm

/-- The shortest decimal of a finite rank reads back. -/
theorem rank_shortest {r : Nat} (hr : r < topRank) (tie : TieRule) : (shortest tie r).rank = r := by
  unfold shortest
  split
  · next h =>
    subst h
    rfl
  · next h =>
    dsimp only
    cases hhit :
      firstHit? tie r 24 (((Nat.log2 (units r) : Int) - places) * 30103 / 100000 + 2) with
    | none => exact rank_exact unitsPerOne_eq hr h
    | some d => exact rank_firstHit? hhit

/-! ### Numerals -/

/-- Digits, and after a point more digits, if there are any. -/
def numeral (whole fraction : List Char) : List Char :=
  if fraction.isEmpty then whole else whole ++ '.' :: fraction

/-- Text that is read as the number `x`. -/
def IsNumeral (x : Double) (cs : List Char) : Prop :=
  ∃ whole fraction : List Char, whole ≠ [] ∧ (∀ c ∈ whole, c.isDigit = true) ∧
    (∀ c ∈ fraction, c.isDigit = true) ∧
    cs = numeral whole fraction ∧ (Decimal.ofDigits whole fraction 0).toDouble false = x

theorem isDigit_toDigits {n : Nat} {c : Char} (h : c ∈ Nat.toDigits 10 n) : c.isDigit = true :=
  Nat.isDigit_of_mem_toDigits (by decide) (by decide) h

theorem isDigit_zeros {n : Nat} {c : Char} (h : c ∈ zeros n) : c.isDigit = true := by
  rw [List.eq_of_mem_replicate h]
  rfl

/-- A number on a grid of whole numbers may be written without an exponent. -/
theorem rank_mul_pow {coeff n : Nat} (h : (Decimal.mk coeff n).rank < topRank) :
    (Decimal.mk (coeff * 10 ^ n) 0).rank = (Decimal.mk coeff n).rank := by
  unfold Decimal.rank at *
  dsimp only at *
  by_cases hzero : coeff = 0
  · rw [if_pos hzero, hzero, Nat.zero_mul, if_pos rfl]
  · have hne : coeff * 10 ^ n ≠ 0 := Nat.mul_ne_zero hzero (Nat.ne_of_gt (Nat.pow_pos (by decide)))
    rw [if_neg hzero] at h ⊢
    by_cases hlarge : (400 : Int) < n
    · rw [if_pos hlarge] at h
      exact absurd h (Nat.lt_irrefl _)
    · rw [if_neg hlarge, if_neg hne, if_neg (by omega), if_neg (by omega), if_neg (by omega)]
      congr 1
      · exact Nat.mul_one _
      · rw [show (-(n : Int)).toNat = 0 by omega]
        rfl

/-- Digits without a fraction. -/
theorem isNumeral_whole {r : Nat} {cs : List Char} (hne : cs ≠ [])
    (hdigit : ∀ c ∈ cs, c.isDigit = true)
    (hrank : (Decimal.mk (Nat.ofDigitChars 10 cs 0) 0).rank = r) :
    IsNumeral (.ofRank false r) cs := by
  refine ⟨cs, [], hne, hdigit, nofun, rfl, ?_⟩
  unfold Decimal.ofDigits Decimal.toDouble
  rw [List.append_nil]
  exact congrArg (ofRank false) hrank

/-- Digits with zeros behind them. -/
theorem isNumeral_zeros {r coeff n : Nat} (hr : r < topRank)
    (hrank : (Decimal.mk coeff n).rank = r) :
    IsNumeral (.ofRank false r) (Nat.toDigits 10 coeff ++ zeros n) := by
  refine isNumeral_whole (List.append_ne_nil_of_left_ne_nil Nat.toDigits_ne_nil _)
    (fun c hc => ?_) ?_
  · rcases List.mem_append.1 hc with hc | hc
    · exact isDigit_toDigits hc
    · exact isDigit_zeros hc
  · have hzeros : Nat.ofDigitChars 10 (Nat.toDigits 10 coeff ++ zeros n) 0 = coeff * 10 ^ n := by
      rw [Nat.ofDigitChars_append, Nat.ofDigitChars_ten_toDigits, zeros,
        Nat.ofDigitChars_replicate_zero, Nat.mul_comm]
    rw [hzeros]
    exact (rank_mul_pow (hrank.trans_lt hr)).trans hrank

/-! ### Places behind the point -/

section Places

variable (coeff n : Nat)

/-- The digits of a coefficient, with zeros in front where one has to stand before `n + 1`
places. -/
def padded : List Char :=
  zeros (n + 1 + 1 - (Nat.toDigits 10 coeff).length) ++ Nat.toDigits 10 coeff

theorem length_padded : (padded coeff n).length = max (n + 2) (Nat.toDigits 10 coeff).length := by
  rw [padded, List.length_append, zeros, List.length_replicate]
  omega

theorem isDigit_padded {c : Char} (h : c ∈ padded coeff n) : c.isDigit = true := by
  rcases List.mem_append.1 h with h | h
  · exact isDigit_zeros h
  · exact isDigit_toDigits h

theorem ofDigitChars_padded : Nat.ofDigitChars 10 (padded coeff n) 0 = coeff := by
  rw [padded, Nat.ofDigitChars_append, zeros, Nat.ofDigitChars_replicate_zero, Nat.mul_zero,
    Nat.ofDigitChars_ten_toDigits]

def placesBefore : List Char := (padded coeff n).take ((padded coeff n).length - (n + 1))

def placesBehind : List Char := (padded coeff n).drop ((padded coeff n).length - (n + 1))

theorem length_placesBehind : (placesBehind coeff n).length = n + 1 := by
  rw [placesBehind, List.length_drop, length_padded]
  omega

theorem placesBefore_ne_nil : placesBefore coeff n ≠ [] := by
  rw [← List.length_pos_iff, placesBefore, List.length_take, length_padded]
  omega

theorem isDigit_placesBefore {c : Char} (h : c ∈ placesBefore coeff n) : c.isDigit = true :=
  isDigit_padded coeff n (List.mem_of_mem_take h)

theorem isDigit_placesBehind {c : Char} (h : c ∈ placesBehind coeff n) : c.isDigit = true :=
  isDigit_padded coeff n (List.mem_of_mem_drop h)

/-- A decimal with a fraction is written as a numeral, and no digit is lost. -/
theorem positional_negSucc :
    positional ⟨coeff, .negSucc n⟩ = numeral (placesBefore coeff n) (placesBehind coeff n) ∧
    Decimal.ofDigits (placesBefore coeff n) (placesBehind coeff n) 0 = ⟨coeff, .negSucc n⟩ := by
  have hne : ¬ (placesBehind coeff n).isEmpty = true := by
    intro h
    have hlength := length_placesBehind coeff n
    rw [List.isEmpty_iff.1 h] at hlength
    cases hlength
  have hsplit : placesBefore coeff n ++ placesBehind coeff n = padded coeff n :=
    List.take_append_drop _ _
  constructor
  · rw [numeral, if_neg hne]
    rfl
  · rw [Decimal.ofDigits, hsplit, ofDigitChars_padded, length_placesBehind]
    rfl

end Places

/-- A decimal written without an exponent is read as its rank. -/
theorem isNumeral_positional {r : Nat} (hr : r < topRank) {d : Decimal} (hd : d.rank = r) :
    IsNumeral (.ofRank false r) (positional d) := by
  obtain ⟨coeff, exp⟩ := d
  unfold positional
  cases exp with
  | ofNat n =>
    dsimp only
    split
    · next hzero =>
      refine isNumeral_whole Nat.toDigits_ne_nil (fun c hc => isDigit_toDigits hc) ?_
      rw [Nat.ofDigitChars_ten_toDigits, ← hd]
      unfold Decimal.rank
      dsimp only
      rw [if_pos hzero, if_pos hzero]
    · exact isNumeral_zeros hr hd
  | negSucc n =>
    obtain ⟨hnumeral, hvalue⟩ := positional_negSucc coeff n
    refine ⟨placesBefore coeff n, placesBehind coeff n, placesBefore_ne_nil coeff n,
      fun c => isDigit_placesBefore coeff n, fun c => isDigit_placesBehind coeff n, hnumeral, ?_⟩
    rw [hvalue, Decimal.toDouble, hd]

/-- The digits of a whole number are read as the rank that is worth it, where there is one. -/
theorem rank_whole {r w : Nat} (hr : r < topRank) (h : units r = w * unitsPerOne) :
    (Decimal.mk w 0).rank = r := by
  unfold Decimal.rank
  dsimp only
  split
  · next hzero =>
    rw [hzero, Nat.zero_mul] at h
    exact (units_eq_zero h).symm
  · rw [if_neg (by omega), if_neg (by omega)]
    refine nearestRank_eq (Nat.pow_pos (by decide)) (Nat.le_of_lt hr) ?_
    rw [h]
    exact (Nat.mul_right_comm ..).trans rfl

/-- The text of a finite number without a sign is read as the number. -/
theorem isNumeral_labelChars {x : Double} (hfinite : x.isFinite = true)
    (hsign : x.isNegative = false) : IsNumeral x x.labelChars := by
  cases x with
  | nan => cases hfinite
  | ranked negative r =>
    obtain rfl : negative = false := hsign
    have hr : r.val < topRank := by simpa [isFinite] using hfinite
    have hrank : ranked false r = ofRank false r.val := by
      unfold ofRank
      simp only [Nat.min_eq_left (Nat.le_of_lt hr)]
    unfold labelChars
    split
    · next hwhole =>
      have hunits : units r.val = (ranked false r).wholePart * unitsPerOne := by
        simp only [isShortWhole, isWhole, Bool.and_eq_true, beq_iff_eq] at hwhole
        exact (Nat.div_mul_cancel (Nat.dvd_of_mod_eq_zero hwhole.1.2)).symm
      have hchars : signChars ((ranked false r).isNegative && (ranked false r).wholePart != 0) ++
          Nat.toDigits 10 (ranked false r).wholePart = Nat.toDigits 10 (ranked false r).wholePart :=
        rfl
      rw [hchars, hrank]
      refine isNumeral_whole Nat.toDigits_ne_nil (fun c hc => isDigit_toDigits hc) ?_
      rw [Nat.ofDigitChars_ten_toDigits]
      refine rank_whole hr ?_
      rw [← hrank, hunits]
    · have hchars : (ranked false r).chars = positional (shortest .upward r.val) := by
        show (signChars false ++ if r.val = topRank then "inf".toList
          else positional (shortest .upward r.val)) = _
        rw [if_neg (Nat.ne_of_lt hr)]
        rfl
      rw [hchars, hrank]
      exact isNumeral_positional hr (rank_shortest hr .upward)

/-! ### Labels -/

theorem isSpace_of_isDigit {c : Char} (h : c.isDigit = true) : Text.isSpace c = false := by
  have hbounds := isDigit_iff.1 h
  simp only [Text.isSpace, Text.inRanges, Text.spaceRanges, List.any_cons, List.any_nil,
    Bool.or_eq_false_iff, Bool.and_eq_false_iff, decide_eq_false_iff_not, and_true]
  omega

theorem mem_numeral {whole fraction : List Char} {c : Char} (hwhole : ∀ c ∈ whole, c.isDigit = true)
    (hfraction : ∀ c ∈ fraction, c.isDigit = true) (h : c ∈ numeral whole fraction) :
    c.isDigit = true ∨ c = '.' := by
  unfold numeral at h
  split at h
  · exact .inl (hwhole c h)
  · rcases List.mem_append.1 h with h | h
    · exact .inl (hwhole c h)
    · rcases List.mem_cons.1 h with h | h
      · exact .inr h
      · exact .inl (hfraction c h)

def fractionChars (fraction : List Char) : List Char :=
  if fraction.isEmpty then [] else '.' :: fraction

theorem numeral_eq_append (whole fraction : List Char) :
    numeral whole fraction = whole ++ fractionChars fraction := by
  unfold numeral fractionChars
  split
  · exact (List.append_nil _).symm
  · rfl

theorem isDigit_head?_fractionChars {rest : List Char} (fraction : List Char)
    (hrest : ∀ c ∈ rest.head?, c.isDigit = false) :
    ∀ c ∈ (fractionChars fraction ++ rest).head?, c.isDigit = false := by
  unfold fractionChars
  split
  · exact hrest
  · intro c hc
    cases hc
    rfl

theorem splitFraction_append {fraction rest : List Char}
    (hfraction : ∀ c ∈ fraction, c.isDigit = true)
    (hrest : ∀ c ∈ rest.head?, c.isDigit = false ∧ c ≠ '.') :
    splitFraction (fractionChars fraction ++ rest) = (fraction, rest) := by
  have hdigit : ∀ c ∈ rest.head?, c.isDigit = false := fun c hc => (hrest c hc).1
  unfold fractionChars
  split
  · next hnil =>
    rw [List.isEmpty_iff.1 hnil, List.nil_append]
    unfold splitFraction
    split
    · exact absurd rfl (hrest '.' rfl).2
    · rfl
  · rw [List.cons_append, splitFraction, takeWhile_append hfraction hdigit,
      dropWhile_append hfraction hdigit]

/-- Digits and a fraction are read off the start of a text, and what follows is read as the
exponent. -/
theorem unsigned?_append {whole fraction rest : List Char} (hne : whole ≠ [])
    (hwhole : ∀ c ∈ whole, c.isDigit = true) (hfraction : ∀ c ∈ fraction, c.isDigit = true)
    (hrest : ∀ c ∈ rest.head?, c.isDigit = false ∧ c ≠ '.') :
    unsigned? (numeral whole fraction ++ rest) =
      (exponent? rest).map (Decimal.ofDigits whole fraction) := by
  have hempty : whole.isEmpty = false := List.isEmpty_eq_false_iff.2 hne
  have hpoint := isDigit_head?_fractionChars fraction fun c hc => (hrest c hc).1
  unfold unsigned?
  rw [numeral_eq_append, List.append_assoc, takeWhile_append hwhole hpoint,
    dropWhile_append hwhole hpoint, splitFraction_append hfraction hrest]
  simp only [hempty, Bool.false_and, Bool.false_eq_true, if_false]

/-- A numeral is read as the decimal with its digits. -/
theorem unsigned?_numeral {whole fraction : List Char} (hne : whole ≠ [])
    (hwhole : ∀ c ∈ whole, c.isDigit = true) (hfraction : ∀ c ∈ fraction, c.isDigit = true) :
    unsigned? (numeral whole fraction) = some (Decimal.ofDigits whole fraction 0) := by
  have h :=
    unsigned?_append hne hwhole hfraction (show ∀ c ∈ ([] : List Char).head?, c.isDigit = false ∧
      c ≠ '.' from nofun)
  rw [List.append_nil] at h
  exact h

theorem splitSign_append {c : Char} (negative : Bool) (hplus : c ≠ '+') (hminus : c ≠ '-')
    (rest : List Char) : splitSign (signChars negative ++ c :: rest) = (negative, c :: rest) := by
  cases negative with
  | true => rfl
  | false =>
    show splitSign (c :: rest) = _
    unfold splitSign
    split
    · next h => exact absurd (List.cons_eq_cons.1 h).1 hplus
    · next h => exact absurd (List.cons_eq_cons.1 h).1 hminus
    · rfl

/-- A text that starts with neither a sign nor a letter behind its own sign is read as an unsigned
decimal. -/
theorem ofChars?_eq_map_unsigned? {c : Char} (negative : Bool) (hletter : c.isAlpha = false)
    (hplus : c ≠ '+') (hminus : c ≠ '-') (rest : List Char) :
    ofChars? (signChars negative ++ c :: rest) =
      (unsigned? (c :: rest)).map (·.toDouble negative) := by
  have hlower : c.toLower = c := by
    unfold Char.toLower
    rw [dif_neg]
    intro hbetween
    have hupper : c.isUpper = true := decide_eq_true hbetween
    have halpha : (c.isUpper || c.isLower) = false := hletter
    rw [hupper] at halpha
    cases halpha
  have hword : ∀ d ds, d.isAlpha = true → (c :: rest).map Char.toLower ≠ d :: ds := by
    rintro d ds hd h
    obtain rfl : c = d := hlower.symm.trans (List.cons_eq_cons.1 h).1
    rw [hd] at hletter
    cases hletter
  have hinf : ¬ ((c :: rest).map Char.toLower = "inf".toList ∨ (c :: rest).map Char.toLower =
      "infinity".toList) := by
    rintro (h | h)
    · exact hword 'i' _ (by decide) h
    · exact hword 'i' _ (by decide) h
  have hnan : ¬ (c :: rest).map Char.toLower = "nan".toList := fun h => hword 'n' _ (by decide) h
  unfold ofChars?
  rw [splitSign_append negative hplus hminus]
  dsimp only
  rw [if_neg hinf, if_neg hnan]

/-- A numeral starts with a digit. -/
theorem exists_numeral_cons {whole : List Char} (hne : whole ≠ []) (fraction : List Char) :
    ∃ d ∈ whole, ∃ rest, numeral whole fraction = d :: rest := by
  cases whole with
  | nil => exact absurd rfl hne
  | cons d whole =>
    refine ⟨d, List.mem_cons_self, ?_⟩
    unfold numeral
    split
    · exact ⟨_, rfl⟩
    · exact ⟨_, rfl⟩

/-- Signed numerals spell numbers. -/
theorem ofChars?_signed {whole fraction : List Char} (negative : Bool) (hne : whole ≠ [])
    (hwhole : ∀ c ∈ whole, c.isDigit = true) (hfraction : ∀ c ∈ fraction, c.isDigit = true) :
    ofChars? (signChars negative ++ numeral whole fraction) =
      some ((Decimal.ofDigits whole fraction 0).toDouble negative) := by
  obtain ⟨d, hd, rest, hcons⟩ := exists_numeral_cons hne fraction
  obtain ⟨hletter, hplus, hminus⟩ := not_sign_of_isDigit (hwhole d hd)
  rw [hcons, ofChars?_eq_map_unsigned? negative hletter hplus hminus, ← hcons,
    unsigned?_numeral hne hwhole hfraction]
  rfl

/-- The label of a magnitude that is finite is a numeral. -/
theorem labelChars_magnitude (r : Fin (topRank + 1)) :
    (ranked false r).labelChars = "inf".toList ∧ r.val = topRank ∨
      IsNumeral (ranked false r) (ranked false r).labelChars := by
  by_cases htop : r.val = topRank
  · left
    have hless : decide (r.val < topRank) = false :=
      decide_eq_false (Nat.not_lt.2 (Nat.le_of_eq htop.symm))
    have hshort : (ranked false r).isShortWhole = false := by
      show (decide (r.val < topRank) && _ && _) = false
      rw [hless, Bool.false_and, Bool.false_and]
    have hword : (ranked false r).chars = "inf".toList := if_pos htop
    unfold labelChars
    rw [hshort, hword]
    exact ⟨rfl, htop⟩
  · right
    apply isNumeral_labelChars _ rfl
    have := r.isLt
    simp only [isFinite, decide_eq_true_eq]
    omega

/-- A sign stands before the label of a magnitude, but not before a zero. -/
theorem labelChars_ranked (negative : Bool) (r : Fin (topRank + 1)) :
    ∃ sign : Bool, (ranked negative r).labelChars = signChars sign ++ (ranked false r).labelChars ∧
      (sign = negative ∨ r.val = 0) := by
  unfold labelChars
  have hshort : (ranked negative r).isShortWhole = (ranked false r).isShortWhole := rfl
  rw [hshort]
  by_cases hwhole : (ranked false r).isShortWhole = true
  · rw [if_pos hwhole, if_pos hwhole]
    refine ⟨negative && (ranked false r).wholePart != 0, rfl, ?_⟩
    by_cases hzero : (ranked false r).wholePart = 0
    · right
      simp only [isShortWhole, isWhole, Bool.and_eq_true, beq_iff_eq] at hwhole
      have hunits : units r.val = (ranked false r).wholePart * unitsPerOne :=
        (Nat.div_mul_cancel (Nat.dvd_of_mod_eq_zero hwhole.1.2)).symm
      rw [hzero, Nat.zero_mul] at hunits
      exact units_eq_zero hunits
    · left
      rw [bne_iff_ne.2 hzero, Bool.and_true]
  · rw [if_neg hwhole, if_neg hwhole]
    exact ⟨negative, rfl, .inl rfl⟩

/-- Numbers of one magnitude are equal if they have one sign, or are zeros. -/
theorem equals_ofRank {sign negative : Bool} {r : Fin (topRank + 1)}
    (h : sign = negative ∨ r.val = 0) : (ofRank sign r.val).equals (ranked negative r) = true := by
  have hmin : min r.val topRank = r.val := Nat.min_eq_left (Nat.le_of_lt_succ r.isLt)
  rcases h with rfl | hzero
  · cases sign <;> simp [equals, place?, ofRank, hmin]
  · cases sign <;> cases negative <;> simp [equals, place?, ofRank, hzero]

/-- The label of a number spells a number, which equals it unless it is not a number. -/
theorem ofChars?_labelChars (x : Double) :
    ∃ y, ofChars? x.labelChars = some y ∧ (x ≠ .nan → y.equals x = true) := by
  cases x with
  | nan => exact ⟨.nan, rfl, fun h => absurd rfl h⟩
  | ranked negative r =>
    obtain ⟨sign, hlabel, hsign⟩ := labelChars_ranked negative r
    refine ⟨ofRank sign r.val, ?_, fun _ => equals_ofRank hsign⟩
    rw [hlabel]
    rcases labelChars_magnitude r with
      ⟨hchars, htop⟩ | ⟨whole, fraction, hne, hwhole, hfraction, hchars, hvalue⟩
    · rw [hchars, htop]
      cases sign <;> rfl
    · have hrank : min (Decimal.ofDigits whole fraction 0).rank topRank = r.val :=
        congrArg Fin.val (Double.ranked.inj hvalue).2
      rw [hchars, ofChars?_signed sign hne hwhole hfraction]
      unfold Decimal.toDouble ofRank
      simp only [hrank, Nat.min_eq_left (Nat.le_of_lt_succ r.isLt)]

theorem trim_labelChars (x : Double) : Text.trim x.labelChars = x.labelChars := by
  cases x with
  | nan => rfl
  | ranked negative r =>
    obtain ⟨sign, hlabel, -⟩ := labelChars_ranked negative r
    rw [hlabel]
    rcases labelChars_magnitude r with
      ⟨hchars, -⟩ | ⟨whole, fraction, -, hwhole, hfraction, hchars, -⟩
    · rw [hchars]
      cases sign <;> rfl
    · apply Text.trim_eq_self
      intro c hc
      rcases List.mem_append.1 hc with hc | hc
      · cases sign with
        | true => rw [List.mem_singleton.1 hc]; rfl
        | false => exact absurd hc List.not_mem_nil
      · rw [hchars] at hc
        rcases mem_numeral hwhole hfraction hc with hc | rfl
        · exact isSpace_of_isDigit hc
        · rfl

end Double

/-- The text of a number spells a number, which equals it unless it is not a number. -/
theorem Value.numberOfText?_label (x : Double) :
    ∃ y, numberOfText? x.label = some y ∧ (x ≠ .nan → y.equals x = true) := by
  obtain ⟨y, hy, hequal⟩ := x.ofChars?_labelChars
  refine ⟨y, ?_, hequal⟩
  unfold numberOfText? Double.label
  rw [String.toList_ofList, Double.trim_labelChars, hy]

end Phrasebook
