import Phrasebook.Proofs.NumberRange
import Phrasebook.Proofs.PluralChoice

/-!
# The numbers in pins

The patterns of pins take the digits of any script, but numbers are read from the digits `0` to `9`
only.

* `Plural.ofChars?_eq_none` : a number with any other digit is not read;
* `Plural.ReadIfPlain` : how a captured number is read;
* `Plural.TakenFor` : what the end of an interval is taken for;
* `Plural.pins_read_if_plain` : so which pinned forms of a message are taken for a count.
-/

namespace Phrasebook

namespace Text

/-- Decimal digits are neither letters nor signs, and they are no points. -/
theorem not_sign_of_isDecimalDigit {c : Char} (h : isDecimalDigit c = true) :
    c.isAlpha = false ∧ c ≠ '+' ∧ c ≠ '-' ∧ c ≠ '.' := by
  have hne : ∀ d : Char, isDecimalDigit d = false → c ≠ d := by
    rintro d hd rfl
    rw [hd] at h
    cases h
  have hletters : inRanges [(65, 122)] c = false := inRanges_apart (by decide +kernel) h
  simp only [inRanges, List.any_cons, List.any_nil, Bool.or_false, Bool.and_eq_false_iff,
    decide_eq_false_iff_not] at hletters
  exact ⟨isAlpha_eq_false (by omega), hne '+' (by decide +kernel), hne '-' (by decide +kernel),
    hne '.' (by decide +kernel)⟩

end Text

namespace Plural

open Pattern
open Text (isSpace isDecimalDigit trim)
open Double (signChars numeral)

variable {cs text part : List Char} {count x : Double}

/-! ### Numbers in other digits -/

theorem exponent?_eq_none {c : Char} (h : c.isAlpha = false) (rest : List Char) :
    Double.exponent? (c :: rest) = none := by
  have hne : ¬ (c = 'e' ∨ c = 'E') := by
    rintro (rfl | rfl) <;> cases h
  unfold Double.exponent?
  dsimp only
  rw [if_neg fun hc => hne hc.1]

/-- What is left behind the digits `0` to `9` of digits that are not all among them starts with
another digit. -/
theorem exists_dropWhile_isDigit {digits : List Char}
    (hdigits : ∀ c ∈ digits, isDecimalDigit c = true) (h : ¬ ∀ c ∈ digits, c.isDigit = true) :
    ∃ c rest, digits.dropWhile Char.isDigit = c :: rest ∧ isDecimalDigit c = true := by
  cases hdrop : digits.dropWhile Char.isDigit with
  | nil => exact absurd (List.dropWhile_eq_nil_iff.1 hdrop) h
  | cons c rest =>
    refine ⟨c, rest, rfl, hdigits c ?_⟩
    exact (List.dropWhile_sublist _).subset (hdrop ▸ List.mem_cons_self)

/-- A numeral with other digits is followed, where reading it ends, by a character that is no part
of a number. -/
theorem unsigned?_eq_none {whole fraction : List Char}
    (hwhole : ∀ c ∈ whole, isDecimalDigit c = true)
    (hfraction : ∀ c ∈ fraction, isDecimalDigit c = true)
    (hforeign : ¬ ((∀ c ∈ whole, c.isDigit = true) ∧ ∀ c ∈ fraction, c.isDigit = true)) :
    Double.unsigned? (numeral whole fraction) = none := by
  have hnone : ∀ {w f : List Char} {rest : List Char}, Double.exponent? rest = none →
      (if (w.isEmpty && f.isEmpty) = true then none
        else (Double.exponent? rest).map (Decimal.ofDigits w f)) = none := by
    intro w f rest hrest
    rw [hrest]
    split <;> rfl
  unfold Double.unsigned?
  dsimp only
  by_cases hplain : ∀ c ∈ whole, c.isDigit = true
  · obtain ⟨c, rest, hdrop, hc⟩ := exists_dropWhile_isDigit hfraction fun h => hforeign ⟨hplain, h⟩
    have hne : ¬ fraction.isEmpty = true := by
      rintro hnil
      rw [List.isEmpty_iff.1 hnil] at hdrop
      cases hdrop
    have hbehind : (numeral whole fraction).dropWhile Char.isDigit = '.' :: fraction := by
      rw [numeral, if_neg hne]
      refine dropWhile_append hplain ?_
      rintro c ⟨⟩
      rfl
    rw [hbehind]
    refine hnone ?_
    rw [Double.splitFraction, hdrop]
    exact exponent?_eq_none (Text.not_sign_of_isDecimalDigit hc).1 rest
  · obtain ⟨c, rest, hdrop, hc⟩ := exists_dropWhile_isDigit hwhole hplain
    obtain ⟨hletter, -, -, hpoint⟩ := Text.not_sign_of_isDecimalDigit hc
    have hbehind : ∃ rest, (numeral whole fraction).dropWhile Char.isDigit = c :: rest := by
      have happend : ∀ more, ∃ rest, (whole ++ more).dropWhile Char.isDigit = c :: rest := by
        intro more
        refine ⟨rest ++ more, ?_⟩
        rw [List.dropWhile_append, hdrop]
        rfl
      unfold numeral
      split
      · exact ⟨rest, hdrop⟩
      · exact happend _
    obtain ⟨rest, hbehind⟩ := hbehind
    have hsplit : Double.splitFraction (c :: rest) = ([], c :: rest) := by
      unfold Double.splitFraction
      split
      · next h => exact absurd (List.cons_eq_cons.1 h).1 hpoint
      · rfl
    rw [hbehind, hsplit]
    exact hnone (exponent?_eq_none hletter rest)

theorem Spells.plainDigits {digit : Char → Bool} {negative : Bool} {whole fraction : List Char}
    (h : Spells digit negative whole fraction cs) (hwhole : ∀ c ∈ whole, c.isDigit = true)
    (hfraction : ∀ c ∈ fraction, c.isDigit = true) : PlainDigits cs := by
  intro c hc hdigit
  rw [h.text, List.mem_append] at hc
  rcases hc with hc | hc
  · cases negative with
    | true =>
      obtain rfl := List.mem_singleton.1 hc
      exact absurd hdigit (by decide +kernel)
    | false => exact absurd hc List.not_mem_nil
  · rcases Double.mem_numeral hwhole hfraction hc with hc | rfl
    · exact hc
    · exact absurd hdigit (by decide +kernel)

/-- A number with digits beyond `0` to `9` is not read. -/
theorem ofChars?_eq_none (h : IsNumber cs) (hforeign : ¬ PlainDigits cs) :
    Double.ofChars? cs = none := by
  obtain ⟨negative, whole, fraction, hspells⟩ := h
  obtain ⟨d, hd, rest, hcons⟩ := Double.exists_numeral_cons hspells.whole_ne_nil fraction
  obtain ⟨hletter, hplus, hminus, -⟩ := Text.not_sign_of_isDecimalDigit (hspells.whole_digits d hd)
  have hunsigned : Double.unsigned? (numeral whole fraction) = none :=
    unsigned?_eq_none hspells.whole_digits hspells.fraction_digits fun h =>
      hforeign (hspells.plainDigits h.1 h.2)
  rw [hspells.text, hcons, Double.ofChars?_eq_map_unsigned? negative hletter hplus hminus,
    ← hcons, hunsigned]
  rfl

/-! ### Captured numbers -/

/-- The written magnitude is below the one from which on numbers are infinite. -/
def BelowLimit (cs : List Char) : Prop :=
  ∃ negative whole fraction, Spells Char.isDigit negative whole fraction cs ∧
    Nat.ofDigitChars 10 (whole ++ fraction) 0 < Double.limit * 10 ^ fraction.length

theorem Reads.isFinite_iff (h : Reads cs x) : x.isFinite = true ↔ BelowLimit cs := by
  have hiff : ∀ {negative whole fraction}, Spells Char.isDigit negative whole fraction cs →
      (x.isFinite = true ↔
        Nat.ofDigitChars 10 (whole ++ fraction) 0 < Double.limit * 10 ^ fraction.length) := by
    intro negative whole fraction hspells
    obtain rfl : (Decimal.ofDigits whole fraction 0).toDouble negative = x :=
      Option.some.inj ((Reads.ofChars?_eq ⟨negative, whole, fraction, hspells, rfl⟩).symm.trans
        h.ofChars?_eq)
    have hmin : ∀ a b : Nat, min a b < b ↔ a < b := by omega
    have hfinite : (Decimal.ofDigits whole fraction 0).rank < Double.topRank ↔ _ :=
      Decimal.rank_lt_topRank_iff
    rw [← hfinite, ← hmin]
    exact decide_eq_true_iff
  constructor
  · intro hfinite
    obtain ⟨negative, whole, fraction, hspells, -⟩ := h
    exact ⟨negative, whole, fraction, hspells, (hiff hspells).1 hfinite⟩
  · rintro ⟨negative, whole, fraction, hspells, hbelow⟩
    exact (hiff hspells).2 hbelow

/-- How a captured number is read: if its digits are all plain, as the number nearest to it, which
is finite as long as the magnitude is below the limit; and otherwise not at all. -/
structure ReadIfPlain (cs : List Char) : Prop where
  plain : PlainDigits cs → ∃ x, Reads cs x ∧ Double.ofChars? cs = some x ∧
      (x.isFinite = true ↔ BelowLimit cs)
  foreign : ¬ PlainDigits cs → Double.ofChars? cs = none

theorem IsNumber.readIfPlain (h : IsNumber cs) : ReadIfPlain cs := by
  refine ⟨fun hplain => ?_, ofChars?_eq_none h⟩
  obtain ⟨x, hx⟩ := h.exists_reads hplain
  exact ⟨x, hx, hx.ofChars?_eq, hx.isFinite_iff⟩

theorem IsNumber.ofChars?_eq_some_iff (h : IsNumber cs) :
    Double.ofChars? cs = some x ↔ Reads cs x := by
  refine ⟨fun hx => ?_, Reads.ofChars?_eq⟩
  by_cases hplain : PlainDigits cs
  · exact (Plural.ofChars?_eq_some_iff h hplain).1 hx
  · rw [ofChars?_eq_none h hplain] at hx
    cases hx

/-! ### Ends of intervals -/

/-- What a written end of an interval is taken for: its number, or infinity if the end is open or
its digits are not all plain. -/
def TakenFor (left : Bool) (cs : List Char) (x : Double) : Prop :=
  Reads cs x ∨ (cs ∈ openEnds left ∨ ¬ PlainDigits cs) ∧ x = .infinite left

theorem bound_eq_iff_takenFor {left : Bool} (h : IsEnd left cs) :
    bound left cs = x ↔ TakenFor left cs x := by
  by_cases hplain : PlainDigits cs
  · rw [bound_eq_iff h hplain, BoundAt, TakenFor, or_comm]
    simp only [hplain, not_true, or_false]
  · have hopen : ∀ ds ∈ openEnds left, PlainDigits ds := by
      have hall : (openEnds left).all (fun ds => ds.all fun c => !isDecimalDigit c) = true := by
        cases left <;> decide +kernel
      intro ds hds c hc hdigit
      have := List.all_eq_true.1 (List.all_eq_true.1 hall ds hds) c hc
      rw [hdigit] at this
      cases this
    have hnumber : IsNumber cs := h.resolve_left fun hmem => hplain (hopen cs hmem)
    have hnone := ofChars?_eq_none hnumber hplain
    have hreads : ¬ Reads cs x := fun hx => nomatch hnone.symm.trans hx.ofChars?_eq
    rw [bound, hnone, TakenFor]
    simp only [hreads, hplain, not_false_eq_true, or_true, true_and, false_or]
    exact eq_comm

/-! ### Pinned parts -/

variable {locale : String}

theorem captures?_countsPattern_eq_some {list : List Char}
    (h : captures? countsPattern part = some [list, text]) :
    PinnedToCounts ((list.splitOn ',').map trim) text part := by
  rcases captures?_countsPattern part with ⟨hnone, -⟩ | ⟨list', text', hsome, hcounts⟩
  · cases hnone.symm.trans h
  · cases hsome.symm.trans h
    exact counts?_eq_some_iff.1 hcounts

theorem captures?_intervalPattern_eq_some {opening left right closing : List Char}
    (h : captures? intervalPattern part = some [opening, left, right, closing, text]) :
    ∃ o c, opening = [o] ∧ closing = [c] ∧ PinnedToInterval o left right c text part := by
  rcases captures?_intervalPattern part with
    ⟨hnone, -⟩ | ⟨o, left', right', c, text', hsome, hinterval⟩
  · cases hnone.symm.trans h
  · cases hsome.symm.trans h
    exact ⟨o, c, rfl, rfl, interval?_eq_some_iff.1 hinterval⟩

/-- A form pinned to counts is passed over just if none of those that are read equals the count. -/
theorem pinned?_counts_eq_none_iff {numbers : List (List Char)}
    (h : PinnedToCounts numbers text part) :
    (Form.ofChars part).pinned? count = none ↔
      ∀ n ∈ numbers, ∀ x, Reads n x → x.equals count = false := by
  have hform : Form.ofChars part = .pinned (.counts (numbers.filterMap Double.ofChars?)) text := by
    rw [Form.ofChars, counts?_eq_some_iff.2 h]
  have hread : ∀ n ∈ numbers, ∀ x, Double.ofChars? n = some x ↔ Reads n x := fun n hn _ =>
    (h.isNumber n hn).ofChars?_eq_some_iff
  rw [hform, Form.pinned?, ite_eq_right_iff]
  simp only [reduceCtorEq, imp_false, Pin.admits, Bool.not_eq_true, List.any_eq_false,
    List.mem_filterMap]
  constructor
  · intro hnone n hn x hx
    exact hnone x ⟨n, hn, (hread n hn x).2 hx⟩
  · rintro hnone x ⟨n, hn, hx⟩
    exact hnone n hn x ((hread n hn x).1 hx)

/-- A form pinned to an interval is taken just for the counts between what its ends are taken
for. -/
theorem pinned?_interval_eq_some_iff {opening closing : Char} {left right : List Char}
    (h : PinnedToInterval opening left right closing text part) :
    (Form.ofChars part).pinned? count = some text ↔
      ∃ a b, TakenFor true left a ∧ TakenFor false right b ∧
      (if opening = '[' then a.atMost count else a.below count) = true ∧
      (if closing = ']' then count.atMost b else count.below b) = true := by
  have hcounts : counts? part = none :=
    Option.eq_none_iff_forall_ne_some.2 fun found hfound =>
      (counts?_eq_some_iff.1 hfound).not_pinnedToInterval h
  have hform : Form.ofChars part =
      .pinned (.interval (opening == '[') (bound true left) (bound false right) (closing == ']'))
        text := by
    rw [Form.ofChars, hcounts]
    dsimp only
    rw [interval?_eq_some_iff.2 h]
  rw [hform, Form.pinned?]
  simp only [Option.ite_none_right_eq_some, and_true, Pin.admits, Bool.and_eq_true, beq_iff_eq,
    ← bound_eq_iff_takenFor h.isEnd.1, ← bound_eq_iff_takenFor h.isEnd.2, exists_and_left,
    exists_eq_left']

/-- **Pins are read where their digits are plain.**  A message with bars gives the text of the first
part whose form is pinned to the count, if there is one.  The numbers that the pattern of counts
captures in a part, and the ends of intervals that are not open, are read if all their digits are
plain, and then as what is nearest to them, and otherwise not at all.  A form pinned to counts is
passed over just if none of the numbers that are read equals the count; one pinned to an interval is
taken just for the counts between what its ends are taken for. -/
theorem pins_read_if_plain (message : String) (count : Double) (locale : String)
    (hbar : '|' ∈ message.toList) :
    (∀ text,
      FirstOf (fun p t => (Form.ofChars p).pinned? count = some t)
        (message.toList.splitOn '|') text →
      choose message count locale = .ofList text) ∧
    ∀ part ∈ message.toList.splitOn '|',
      (∀ list text, captures? countsPattern part = some [list, text] →
        (∀ n ∈ (list.splitOn ',').map trim, ReadIfPlain n) ∧
        ((Form.ofChars part).pinned? count = none ↔
          ∀ n ∈ (list.splitOn ',').map trim, ∀ x, Reads n x → x.equals count = false)) ∧
      ∀ opening left right closing text,
        captures? intervalPattern part = some [opening, left, right, closing, text] →
        (left ∉ openEnds true → ReadIfPlain left) ∧ (right ∉ openEnds false → ReadIfPlain right) ∧
        ((Form.ofChars part).pinned? count = some text ↔
          ∃ a b, TakenFor true left a ∧ TakenFor false right b ∧
            (if opening = ['['] then a.atMost count else a.below count) = true ∧
            (if closing = [']'] then count.atMost b else count.below b) = true) := by
  refine ⟨fun text hfirst => ?_,
    fun part _ => ⟨fun list text hcaptures => ?_,
      fun opening left right closing text hcaptures => ?_⟩⟩
  · have hfound : ((message.toList.splitOn '|').map Form.ofChars).findSome? (Form.pinned? count) =
        some text := by
      rw [List.findSome?_map]
      exact firstOf_iff_findSome?.1 hfirst
    refine String.toList_inj.1 ?_
    rw [toList_choose hbar, hfound, String.toList_ofList]
  · have hpinned := captures?_countsPattern_eq_some hcaptures
    exact ⟨fun n hn => (hpinned.isNumber n hn).readIfPlain, pinned?_counts_eq_none_iff hpinned⟩
  · obtain ⟨o, c, rfl, rfl, hpinned⟩ := captures?_intervalPattern_eq_some hcaptures
    have hsingle : ∀ d e : Char, [d] = [e] ↔ d = e := fun d e => by simp
    simp only [hsingle]
    exact ⟨fun hopen => (hpinned.isEnd.1.resolve_left hopen).readIfPlain,
      fun hopen => (hpinned.isEnd.2.resolve_left hopen).readIfPlain,
      pinned?_interval_eq_some_iff hpinned⟩

/-- Twelve is none of the listed numbers, and within the interval. -/
theorem pins_read_if_plain_dozen :
    let message := "\x7b0, 2.5\x7d some|[3,1000[ many|all"
    let parts := message.toList.splitOn '|'
    '|' ∈ message.toList ∧
      FirstOf (fun p t => (Form.ofChars p).pinned? (.ofNat 12) = some t) parts "many".toList ∧
      captures? countsPattern "\x7b0, 2.5\x7d some".toList = some ["0, 2.5".toList, "some".toList] ∧
      captures? intervalPattern "[3,1000[ many".toList =
        some ["[".toList, "3".toList, "1000".toList, "[".toList, "many".toList] ∧
      choose message (.ofNat 12) "en" = "many" ∧ ReadIfPlain "2.5".toList ∧
      ∃ a b, TakenFor true "3".toList a ∧ TakenFor false "1000".toList b ∧
        a.atMost (.ofNat 12) = true ∧ Double.below (.ofNat 12) b = true := by
  intro message parts
  have hbar : '|' ∈ message.toList := by decide
  have hfirst :
      FirstOf (fun p t => (Form.ofChars p).pinned? (.ofNat 12) = some t) parts "many".toList :=
    firstOf_iff_findSome?.2 (by decide +kernel)
  have hcounts : captures? countsPattern "\x7b0, 2.5\x7d some".toList =
      some ["0, 2.5".toList, "some".toList] := by decide +kernel
  have hinterval : captures? intervalPattern "[3,1000[ many".toList =
      some ["[".toList, "3".toList, "1000".toList, "[".toList, "many".toList] := by decide +kernel
  obtain ⟨hchosen, hpins⟩ := pins_read_if_plain message (.ofNat 12) "en" hbar
  have hnumbers := ((hpins "\x7b0, 2.5\x7d some".toList (by decide +kernel)).1 _ _ hcounts).1
  have htaken := ((hpins "[3,1000[ many".toList (by decide +kernel)).2 _ _ _ _ _ hinterval).2.2
  refine ⟨hbar, hfirst, hcounts, hinterval, (hchosen _ hfirst).trans String.ofList_toList,
    hnumbers _ (by decide +kernel), ?_⟩
  exact htaken.1 (by decide +kernel)

/-- Digits that are not plain: a number that is listed is passed over, and bounds that are written
are not kept to. -/
theorem foreign_digits_unread :
    captures? countsPattern "\x7b\u0663\x7d three".toList = some ["\u0663".toList, "three".toList] ∧
      Double.ofChars? "\u0663".toList = none ∧
      choose "\x7b\u0663\x7d three|other" (.ofNat 3) "en" = "other" ∧
      captures? intervalPattern "[\u0663,\u0665] a few".toList =
        some ["[".toList, "\u0663".toList, "\u0665".toList, "]".toList, "a few".toList] ∧
      choose "[\u0663,\u0665] a few|other" (.ofNat 10) "en" = "a few" := by
  decide +kernel

end Plural

end Phrasebook
