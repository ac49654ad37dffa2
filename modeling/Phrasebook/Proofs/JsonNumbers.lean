import Phrasebook.Json.Decode
import Phrasebook.Json.Parser
import Phrasebook.Proofs.NumberText

/-!
# Numbers in JSON

* `Json.IsWhole` : the digits that may stand before a point;
* `Json.SpelledAs` : digits, a fraction and an exponent, and the decimal that they spell;
* `Json.number?_append` : the spelling of a number is read off the start of a text, whole;
* `Json.exists_spelledAs_pointed` : a number is written as the spelling of a decimal that has its
  rank;
* `Json.finite?_ofDouble_iff`, `Json.nat?_ofNat_iff` : a number is read back if it is finite, a line
  if it fits in a word.
-/

namespace Phrasebook

namespace Double

/-! ### Decimals of one rank -/

theorem nearestRank_mul_right {num den k : Nat} (hk : 0 < k) :
    nearestRank (num * k) (den * k) = nearestRank num den := by
  have hround : ∀ n d : Nat, roundHalfEven (n * k) (d * k) = roundHalfEven n d := by
    intro n d
    have hrest : 2 * (n * k % (d * k)) = 2 * (n % d) * k := by
      rw [Nat.mul_mod_mul_right, Nat.mul_assoc]
    simp only [roundHalfEven, Nat.mul_div_mul_right n d hk, hrest, Nat.mul_lt_mul_right hk]
  have hscaled : num * k * unitsPerOne = num * unitsPerOne * k := Nat.mul_right_comm ..
  have hden : ∀ p : Nat, den * k * p = den * p * k := fun p => Nat.mul_right_comm ..
  simp only [nearestRank, hscaled, Nat.mul_div_mul_right _ den hk, hden, hround]

/-- A zero behind the point changes nothing. -/
theorem rank_mul_ten (coeff : Nat) :
    (Decimal.mk (coeff * 10) (-1)).rank = (Decimal.mk coeff 0).rank := by
  unfold Decimal.rank
  dsimp only
  by_cases hzero : coeff = 0
  · rw [hzero, Nat.zero_mul, if_pos rfl, if_pos rfl]
  · have hne : coeff * 10 ≠ 0 := by omega
    rw [if_neg hne, if_neg (by decide), if_neg (by omega), if_neg hzero, if_neg (by decide),
      if_neg (by omega)]
    have hnum : coeff * 10 * Nat.pow 10 (-1 : Int).toNat = coeff * 10 := Nat.mul_one _
    have hone : coeff * Nat.pow 10 (0 : Int).toNat = coeff := Nat.mul_one _
    rw [hnum, hone]
    exact nearestRank_mul_right (by decide)

/-! ### Exponents -/

/-- The mark of an exponent and the exponent, if there is one. -/
def exponentChars : Option Int → List Char
  | none => []
  | some exp => 'e' :: intChars exp

theorem exponent?_exponentChars (exp : Option Int) :
    exponent? (exponentChars exp) = some (exp.getD 0) := by
  cases exp with
  | none => rfl
  | some i =>
    have hdigits : ∀ c ∈ Nat.toDigits 10 i.natAbs, c.isDigit = true :=
      fun c hc => isDigit_toDigits hc
    have hvalue : Nat.ofDigitChars 10 (Nat.toDigits 10 i.natAbs) 0 = i.natAbs :=
      Nat.ofDigitChars_ten_toDigits
    obtain ⟨d, ds, hcons⟩ :=
      List.exists_cons_of_ne_nil (Nat.toDigits_ne_nil (n := i.natAbs) (b := 10))
    rw [hcons] at hdigits hvalue
    obtain ⟨-, hplus, hminus⟩ := not_sign_of_isDigit (hdigits d List.mem_cons_self)
    have hsign : (if decide (i < 0) then -(i.natAbs : Int) else i.natAbs) = i := by
      by_cases hneg : i < 0
      · simp only [hneg, decide_true, if_true]
        omega
      · simp only [hneg, decide_false, Bool.false_eq_true, if_false]
        omega
    rw [exponentChars, exponent?, intChars, hcons, splitSign_append _ hplus hminus]
    dsimp only
    rw [if_pos ⟨.inl rfl, List.cons_ne_nil _ _, List.all_eq_true.2 hdigits⟩, hvalue, hsign]
    rfl

theorem head?_exponentChars {rest : List Char} (exp : Option Int) {c : Char}
    (h : c ∈ (exponentChars exp ++ rest).head?) : c = 'e' ∨ c ∈ rest.head? := by
  cases exp with
  | none => exact .inr h
  | some i =>
    cases h
    exact .inl rfl

/-! ### Leading zeros -/

/-- No zero stands in front of the digits of a number. -/
theorem head?_toDigits (n : Nat) : (Nat.toDigits 10 n).head? = some '0' → n = 0 := by
  induction n using Nat.strongRecOn with
  | ind n ih =>
    by_cases hn : n < 10
    · rw [Nat.toDigits_of_lt_base hn]
      intro h
      exact Nat.digitChar_eq_zero.1 (Option.some.inj h)
    · obtain ⟨c, cs, hcons⟩ :=
        List.exists_cons_of_ne_nil (Nat.toDigits_ne_nil (n := n / 10) (b := 10))
      have hhead : (Nat.toDigits 10 n).head? = (Nat.toDigits 10 (n / 10)).head? := by
        rw [Nat.toDigits_of_base_le (by decide) (by omega), hcons]
        rfl
      intro h
      have := ih (n / 10) (by omega) (hhead.symm.trans h)
      omega

end Double

namespace Json

open Double (numeral fractionChars exponentChars signChars)

variable {whole fraction cs rest : List Char} {d : Decimal}

/-! ### Spellings -/

/-- Digits that may stand before a point: no zero stands in front of others. -/
structure IsWhole (cs : List Char) : Prop where
  nonempty : cs ≠ []
  digits : ∀ c ∈ cs, c.isDigit = true
  plain : cs.head? = some '0' → cs = ['0']

/-- Digits, a fraction and an exponent, and the decimal that they spell. -/
inductive SpelledAs : List Char → Decimal → Prop where
  | intro {whole fraction : List Char} (hwhole : IsWhole whole)
      (hfraction : ∀ c ∈ fraction, c.isDigit = true)
      (exp : Option Int) :
    SpelledAs (numeral whole fraction ++ exponentChars exp)
      (Decimal.ofDigits whole fraction (exp.getD 0))

/-- A sign, digits, a fraction and an exponent. -/
def IsSpelling (cs : List Char) : Prop :=
  ∃ negative body d, SpelledAs body d ∧ cs = signChars negative ++ body

/-- A text that does not go on with a number. -/
def EndsNumber (rest : List Char) : Prop :=
  ∀ c ∈ rest.head?, c.isDigit = false ∧ c ≠ '.' ∧ c ≠ 'e' ∧ c ≠ 'E'

theorem IsWhole.exists_cons (h : IsWhole cs) : ∃ c ds, cs = c :: ds ∧ c.isDigit = true := by
  obtain ⟨c, ds, rfl⟩ := List.exists_cons_of_ne_nil h.nonempty
  exact ⟨c, ds, rfl, h.digits c List.mem_cons_self⟩

theorem isWhole_toDigits (n : Nat) : IsWhole (Nat.toDigits 10 n) where
  nonempty := Nat.toDigits_ne_nil
  digits _ hc := Double.isDigit_toDigits hc
  plain h := by
    rw [Double.head?_toDigits n h]
    rfl

/-- A spelling starts with a digit. -/
theorem SpelledAs.exists_cons (h : SpelledAs cs d) : ∃ c ds, cs = c :: ds ∧ c.isDigit = true := by
  cases h with
  | intro hwhole hfraction exp =>
    obtain ⟨c, ds, rfl, hc⟩ := hwhole.exists_cons
    rw [Double.numeral_eq_append]
    exact ⟨c, _, rfl, hc⟩

/-! ### Reading a spelling -/

theorem wholeDigits?_append (h : IsWhole whole) (hrest : ∀ c ∈ rest.head?, c.isDigit = false) :
    wholeDigits? (whole ++ rest) = some (whole, rest) := by
  obtain ⟨c, ds, rfl⟩ := List.exists_cons_of_ne_nil h.nonempty
  rw [List.cons_append, wholeDigits?]
  by_cases hzero : c = '0'
  · subst hzero
    obtain rfl : ds = [] := (List.cons_eq_cons.1 (h.plain rfl)).2
    rfl
  · have hds : ∀ x ∈ ds, x.isDigit = true := fun x hx => h.digits x (List.mem_cons_of_mem _ hx)
    rw [if_neg hzero, if_pos (h.digits c List.mem_cons_self), takeWhile_append hds hrest,
      dropWhile_append hds hrest]

theorem fractionDigits?_append (hfraction : ∀ c ∈ fraction, c.isDigit = true)
    (hrest : ∀ c ∈ rest.head?, c.isDigit = false ∧ c ≠ '.') :
    fractionDigits? (fractionChars fraction ++ rest) = some (fractionChars fraction, rest) := by
  have hdigit : ∀ c ∈ rest.head?, c.isDigit = false := fun c hc => (hrest c hc).1
  unfold fractionChars
  split
  · rw [List.nil_append]
    unfold fractionDigits?
    split
    · exact absurd rfl (hrest '.' rfl).2
    · rfl
  · next hne =>
    rw [List.cons_append, fractionDigits?, takeWhile_append hfraction hdigit,
      dropWhile_append hfraction hdigit]
    exact if_neg hne

theorem exponentDigits?_signed {digits : List Char} (negative : Bool) (hne : digits ≠ [])
    (hdigits : ∀ c ∈ digits, c.isDigit = true) (hrest : ∀ c ∈ rest.head?, c.isDigit = false) :
    exponentDigits? ('e' :: (signChars negative ++ (digits ++ rest))) =
      some ('e' :: (signChars negative ++ digits), rest) := by
  have htake := takeWhile_append hdigits hrest
  have hdrop := dropWhile_append hdigits hrest
  have hsome : ¬ digits.isEmpty = true := fun h => hne (List.isEmpty_iff.1 h)
  cases negative with
  | true =>
    show exponentDigits? ('e' :: '-' :: (digits ++ rest)) = some ('e' :: '-' :: digits, rest)
    rw [exponentDigits?, if_pos (.inl rfl), htake, hdrop]
    exact if_neg hsome
  | false =>
    show exponentDigits? ('e' :: (digits ++ rest)) = some ('e' :: digits, rest)
    have hsign : ∀ c cs, c.isDigit = false → digits ++ rest ≠ c :: cs := by
      rintro c cs hc h
      obtain ⟨d, ds, rfl⟩ := List.exists_cons_of_ne_nil hne
      rw [← (List.cons_eq_cons.1 h).1, hdigits d List.mem_cons_self] at hc
      cases hc
    rw [exponentDigits?, if_pos (.inl rfl), htake, hdrop]
    · exact if_neg hsome
    · exact fun cs => hsign '+' cs rfl
    · exact fun cs => hsign '-' cs rfl

theorem exponentDigits?_append (exp : Option Int) (hrest : EndsNumber rest) :
    exponentDigits? (exponentChars exp ++ rest) = some (exponentChars exp, rest) := by
  cases exp with
  | none =>
    rw [exponentChars, List.nil_append]
    cases rest with
    | nil => rfl
    | cons c rest =>
      obtain ⟨-, -, hlower, hupper⟩ := hrest c rfl
      rw [exponentDigits?.eq_def]
      exact if_neg (not_or.2 ⟨hlower, hupper⟩)
  | some i =>
    rw [exponentChars, Double.intChars, List.cons_append, List.append_assoc]
    exact exponentDigits?_signed _ Nat.toDigits_ne_nil (fun c hc => Double.isDigit_toDigits hc)
      fun c hc => (hrest c hc).1

theorem minus_append {c : Char} (negative : Bool) (hc : c.isDigit = true) (cs : List Char) :
    minus (signChars negative ++ c :: cs) = (signChars negative, c :: cs) := by
  cases negative with
  | true => rfl
  | false =>
    show minus (c :: cs) = ([], c :: cs)
    unfold minus
    split
    · next h => exact absurd (List.cons_eq_cons.1 h).1 (not_sign_of_isDigit hc).2.2
    · rfl

/-- The spelling of a number is read off the start of a text, whole. -/
theorem number?_append (h : IsSpelling cs) (hrest : EndsNumber rest) :
    number? (cs ++ rest) = some (cs, rest) := by
  obtain ⟨negative, body, d, hbody, rfl⟩ := h
  cases hbody with
  | @intro whole fraction hwhole hfraction exp =>
    have hexponent : ∀ c ∈ (exponentChars exp ++ rest).head?, c.isDigit = false ∧ c ≠ '.' := by
      intro c hc
      rcases Double.head?_exponentChars exp hc with rfl | hc
      · decide
      · exact ⟨(hrest c hc).1, (hrest c hc).2.1⟩
    have hpoint := Double.isDigit_head?_fractionChars fraction fun c hc => (hexponent c hc).1
    have hminus :
        ∀ cs, minus (signChars negative ++ (whole ++ cs)) = (signChars negative, whole ++ cs) := by
      obtain ⟨c, ds, rfl, hc⟩ := hwhole.exists_cons
      exact fun cs => minus_append negative hc _
    rw [Double.numeral_eq_append]
    simp only [List.append_assoc]
    rw [number?, hminus]
    simp only [wholeDigits?_append hwhole hpoint, fractionDigits?_append hfraction hexponent,
      exponentDigits?_append exp hrest, Option.bind_eq_bind, Option.bind_some, Option.pure_def,
      List.append_assoc]

/-! ### Writing a number -/

theorem SpelledAs.numeral (hwhole : IsWhole whole) (hfraction : ∀ c ∈ fraction, c.isDigit = true) :
    SpelledAs (Double.numeral whole fraction) (Decimal.ofDigits whole fraction 0) := by
  have h := SpelledAs.intro hwhole hfraction none
  rw [exponentChars, List.append_nil] at h
  exact h

theorem isSpelling_toDigits (n : Nat) : IsSpelling (Nat.toDigits 10 n) := by
  have hfraction : ∀ c ∈ ([] : List Char), c.isDigit = true :=
    fun _ hc => absurd hc List.not_mem_nil
  exact ⟨false, _, _, .numeral (isWhole_toDigits n) hfraction, rfl⟩

/-- Where zeros are put in front of a decimal with a fraction, just one stands before the point. -/
theorem isWhole_placesBefore (coeff n : Nat) : IsWhole (Double.placesBefore coeff n) where
  nonempty := Double.placesBefore_ne_nil coeff n
  digits _ := Double.isDigit_placesBefore coeff n
  plain hzero := by
    have hlength := Double.length_padded coeff n
    obtain ⟨k, hk⟩ : ∃ k, (Double.padded coeff n).length - (n + 1) = k + 1 :=
      ⟨(Double.padded coeff n).length - (n + 2), by omega⟩
    obtain ⟨c, cs, hcons⟩ :=
      List.exists_cons_of_length_pos (show 0 < (Double.padded coeff n).length by omega)
    rw [Double.placesBefore, hk, hcons, List.take_succ_cons] at hzero ⊢
    obtain rfl : c = '0' := Option.some.inj hzero
    by_cases hlong : n + 2 < (Nat.toDigits 10 coeff).length
    · have hhead : (Nat.toDigits 10 coeff).head? = some '0' := by
        rw [Double.padded, show n + 1 + 1 - (Nat.toDigits 10 coeff).length = 0 by omega] at hcons
        exact congrArg List.head? hcons
      rw [Double.head?_toDigits coeff hhead, Nat.toDigits_zero, List.length_singleton] at hlong
      omega
    · obtain rfl : k = 0 := by omega
      rfl

/-- Digits with a point before the last `n + 1` of them. -/
theorem spelledAs_positional (coeff n : Nat) :
    SpelledAs (Double.positional ⟨coeff, .negSucc n⟩) ⟨coeff, .negSucc n⟩ := by
  obtain ⟨hnumeral, hvalue⟩ := Double.positional_negSucc coeff n
  have hspelled :=
    SpelledAs.numeral (isWhole_placesBefore coeff n) fun c => Double.isDigit_placesBehind coeff n
  rw [hnumeral]
  rw [hvalue] at hspelled
  exact hspelled

theorem isDigit_zero : ∀ c ∈ ['0'], c.isDigit = true := fun _ hc => Double.isDigit_zeros (n := 1) hc

/-- Digits before a point that only a zero stands behind. -/
theorem spelledAs_point_zero {coeff n : Nat} (hne : coeff ≠ 0)
    (hfinite : (Decimal.mk coeff n).rank < Double.topRank) :
    ∃ d, SpelledAs (Double.positional ⟨coeff, n⟩ ++ ".0".toList) d ∧
      d.rank = (Decimal.mk coeff n).rank := by
  have hpositional : Double.positional ⟨coeff, n⟩ = Nat.toDigits 10 coeff ++ Double.zeros n :=
    if_neg hne
  have hwhole : IsWhole (Nat.toDigits 10 coeff ++ Double.zeros n) := by
    refine ⟨List.append_ne_nil_of_left_ne_nil Nat.toDigits_ne_nil _, fun c hc => ?_,
      fun hzero => absurd ?_ hne⟩
    · rcases List.mem_append.1 hc with hc | hc
      · exact Double.isDigit_toDigits hc
      · exact Double.isDigit_zeros hc
    · obtain ⟨c, cs, hcons⟩ :=
        List.exists_cons_of_ne_nil (Nat.toDigits_ne_nil (n := coeff) (b := 10))
      rw [hcons] at hzero
      exact Double.head?_toDigits coeff (by rw [hcons]; exact hzero)
  have hspelled := SpelledAs.numeral hwhole isDigit_zero
  refine ⟨_, by rw [hpositional]; exact hspelled, ?_⟩
  have hcoeff : Nat.ofDigitChars 10 (Nat.toDigits 10 coeff ++ Double.zeros n ++ ['0']) 0 =
      coeff * 10 ^ n * 10 := by
    rw [List.append_assoc, Nat.ofDigitChars_append, Nat.ofDigitChars_ten_toDigits, Double.zeros,
      ← List.replicate_succ', Nat.ofDigitChars_replicate_zero]
    ring
  rw [Decimal.ofDigits, hcoeff]
  exact (Double.rank_mul_ten _).trans (Double.rank_mul_pow hfinite)

/-- One digit before the point and an exponent. -/
theorem spelledAs_scientific {coeff : Nat} (exp : Int) {c : Char} {cs : List Char}
    (hdigits : Nat.toDigits 10 coeff = c :: cs) :
    SpelledAs (Double.numeral [c] cs ++ exponentChars (some (cs.length + exp))) ⟨coeff, exp⟩ := by
  have hall : ∀ x ∈ c :: cs, x.isDigit = true :=
    fun x hx => Double.isDigit_toDigits (hdigits.symm ▸ hx)
  have hwhole : IsWhole [c] := by
    refine ⟨List.cons_ne_nil _ _, fun x hx => ?_, fun hzero => ?_⟩
    · rw [List.mem_singleton.1 hx]
      exact hall c List.mem_cons_self
    · rw [Option.some.inj hzero]
  have hvalue : Nat.ofDigitChars 10 ([c] ++ cs) 0 = coeff := by
    rw [List.singleton_append, ← hdigits, Nat.ofDigitChars_ten_toDigits]
  have hspelled :=
    SpelledAs.intro hwhole (fun x hx => hall x (List.mem_cons_of_mem _ hx)) (some (cs.length + exp))
  have hexp : (some ((cs.length : Int) + exp)).getD 0 - cs.length = exp := by
    rw [Option.getD_some]
    omega
  rw [Decimal.ofDigits, hvalue, hexp] at hspelled
  exact hspelled

/-- A decimal is written as the spelling of one that has its rank. -/
theorem exists_spelledAs_pointed {d : Decimal} (hfinite : d.rank < Double.topRank) :
    ∃ d', SpelledAs (Double.pointed d) d' ∧ d'.rank = d.rank := by
  obtain ⟨coeff, exp⟩ := d
  unfold Double.pointed
  dsimp only
  split
  · next hzero =>
    subst hzero
    have hwhole : IsWhole ['0'] := isWhole_toDigits 0
    have hrank : (Decimal.mk 0 exp).rank = 0 := by
      unfold Decimal.rank
      exact if_pos rfl
    exact ⟨_, .numeral hwhole isDigit_zero, hrank.symm⟩
  · next hne =>
    split
    · cases exp with
      | ofNat n => exact spelledAs_point_zero hne hfinite
      | negSucc n => exact ⟨_, spelledAs_positional coeff n, rfl⟩
    · obtain ⟨c, cs, hcons⟩ :=
        List.exists_cons_of_ne_nil (Nat.toDigits_ne_nil (n := coeff) (b := 10))
      refine ⟨⟨coeff, exp⟩, ?_, rfl⟩
      have hspelled := spelledAs_scientific exp hcons
      have hpoint : ((c :: cs).length : Int) + exp - 1 = cs.length + exp := by
        rw [List.length_cons]
        omega
      rw [hcons, hpoint]
      cases cs with
      | nil => exact hspelled
      | cons c' cs => exact hspelled

/-! ### Numbers and lines -/

/-- A spelling is read as the number of its decimal. -/
theorem ofChars?_spelling {body : List Char} (negative : Bool) (h : SpelledAs body d) :
    Double.ofChars? (signChars negative ++ body) = some (d.toDouble negative) := by
  obtain ⟨c, ds, hcons, hc⟩ := h.exists_cons
  obtain ⟨hletter, hplus, hminus⟩ := not_sign_of_isDigit hc
  rw [hcons, Double.ofChars?_eq_map_unsigned? negative hletter hplus hminus, ← hcons]
  cases h with
  | intro hwhole hfraction exp =>
    have hexponent : ∀ c ∈ (exponentChars exp).head?, c.isDigit = false ∧ c ≠ '.' := by
      cases exp with
      | none => exact nofun
      | some i =>
        intro c hc
        cases hc
        decide
    rw [Double.unsigned?_append hwhole.nonempty hwhole.digits hfraction hexponent,
      Double.exponent?_exponentChars]
    rfl

theorem exists_ofDouble {x : Double} (hfinite : x.isFinite = true) :
    ∃ spelling, ofDouble x = .number spelling ∧ IsSpelling spelling ∧
      double? spelling = some x := by
  cases x with
  | nan => cases hfinite
  | ranked negative r =>
    have hr : r.val < Double.topRank := of_decide_eq_true hfinite
    have hrank := Double.rank_shortest hr .toEven
    obtain ⟨d, hspelled, hd⟩ := exists_spelledAs_pointed (hrank.trans_lt hr)
    refine ⟨Double.pointedChars negative r, if_neg (Nat.ne_of_lt hr),
      ⟨negative, _, d, hspelled, rfl⟩, ?_⟩
    have hvalue : d.toDouble negative = .ranked negative r := by
      unfold Decimal.toDouble Double.ofRank
      simp only [hd, hrank, Nat.min_eq_left (Nat.le_of_lt hr)]
    unfold double? Double.pointedChars
    rw [ofChars?_spelling negative hspelled, hvalue]
    exact if_pos hfinite

/-- What is not finite is written as null. -/
theorem ofDouble_eq_null {x : Double} (hinfinite : x.isFinite = false) : ofDouble x = .null := by
  cases x with
  | nan => rfl
  | ranked negative r =>
    have htop : r.val = Double.topRank := by
      have hnot : ¬ r.val < Double.topRank := of_decide_eq_false hinfinite
      have := r.isLt
      omega
    exact if_pos htop

/-- A number is read back if it is finite. -/
theorem finite?_ofDouble_iff {x : Double} : finite? (ofDouble x) = some x ↔ x.isFinite = true := by
  constructor
  · intro h
    by_contra hinfinite
    rw [ofDouble_eq_null (Bool.eq_false_iff.2 hinfinite)] at h
    cases h
  · intro hfinite
    obtain ⟨spelling, hof, -, hdouble⟩ := exists_ofDouble hfinite
    rw [hof]
    exact hdouble

/-- A line is read back if it fits in a word. -/
@[simp] theorem nat?_ofNat_iff {n : Nat} : nat? (ofNat n) = some n ↔ n < UInt64.size := by
  have hdigits : (Nat.toDigits 10 n).all Char.isDigit = true :=
    List.all_eq_true.2 fun c hc => Double.isDigit_toDigits hc
  unfold nat? ofNat
  simp only [Nat.ofDigitChars_ten_toDigits, hdigits, Bool.true_and, decide_eq_true_eq,
    Option.ite_none_right_eq_some, and_true]

end Json

end Phrasebook
