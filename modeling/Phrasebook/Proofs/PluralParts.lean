import Mathlib.Data.List.TakeWhile
import Phrasebook.Message.Plural
import Phrasebook.Proofs.NumberText

/-!
# Parts of plural messages as they are written

What a part of a message looks like that is pinned to counts, pinned to an interval, or labelled,
said without a scanner; and the scanners find just these.

* `Plural.Divides` : the parts of a text between marks;
* `Plural.PinnedToCounts`, `Plural.PinnedToInterval`, `Plural.Labelled` : the written forms of
  parts;
* `Plural.counts?_eq_some_iff`, `Plural.interval?_eq_some_iff`, `Plural.dropLabel_eq_iff` : the
  scanners find them.
-/

namespace Phrasebook

/-! ### Classes of characters -/

namespace Text

/-- Ranges that lie apart have no character in common. -/
theorem inRanges_apart {rs ss : List (Nat × Nat)}
    (happart : rs.all (fun r => ss.all fun s => r.2 < s.1 || s.2 < r.1) = true) {c : Char}
    (hc : inRanges rs c = true) : inRanges ss c = false := by
  simp only [inRanges, List.any_eq_true, List.any_eq_false, List.all_eq_true, Bool.and_eq_true,
    Bool.or_eq_true, decide_eq_true_eq] at hc happart ⊢
  obtain ⟨r, hr, hlow, hhigh⟩ := hc
  intro s hs
  have := happart r hr s hs
  omega

theorem isSpace_of_isDecimalDigit {c : Char} (hc : isDecimalDigit c = true) : isSpace c = false :=
  inRanges_apart (by decide +kernel) hc

theorem isSpace_of_isWordChar {c : Char} (hc : isWordChar c = true) : isSpace c = false :=
  inRanges_apart (by decide +kernel) hc

end Text

namespace Plural

open Text (isSpace isDecimalDigit isWordChar trim)
open Double (signChars numeral)

variable {mark c : Char} {cs padded text part : List Char} {parts numbers : List (List Char)}

/-! ### Division at a mark -/

/-- Put together with the mark between them the parts give the text, and the mark is in none of
them. -/
structure Divides (mark : Char) (parts : List (List Char)) (cs : List Char) : Prop where
  ne_nil : parts ≠ []
  unmarked : ∀ p ∈ parts, mark ∉ p
  joined : [mark].intercalate parts = cs

theorem not_mem_of_mem_splitOn {p : List Char} (hp : p ∈ cs.splitOn mark) : mark ∉ p := by
  induction cs generalizing p with
  | nil =>
    rw [List.splitOn_nil] at hp
    rw [List.mem_singleton.1 hp]
    exact List.not_mem_nil
  | cons c cs ih =>
    rw [List.splitOn_cons_eq_if_modifyHead] at hp
    split at hp
    · rcases List.mem_cons.1 hp with rfl | hp
      · exact List.not_mem_nil
      · exact ih hp
    · next hc =>
      obtain ⟨q, qs, hparts⟩ := List.exists_cons_of_ne_nil (List.splitOn_ne_nil mark cs)
      rw [hparts] at hp ih
      rcases List.mem_cons.1 hp with rfl | hp
      · exact List.not_mem_cons_of_ne_of_not_mem (fun h => hc (beq_iff_eq.2 h.symm))
          (ih List.mem_cons_self)
      · exact ih (List.mem_cons_of_mem q hp)

/-- A text is divided at a mark in one way. -/
theorem divides_iff : Divides mark parts cs ↔ cs.splitOn mark = parts := by
  constructor
  · rintro ⟨hne, hunmarked, rfl⟩
    exact List.splitOn_intercalate mark hunmarked hne
  · rintro rfl
    exact ⟨List.splitOn_ne_nil mark cs, fun p hp => not_mem_of_mem_splitOn hp,
      List.intercalate_splitOn mark⟩

/-! ### White space around text -/

/-- Nothing but white space. -/
def Blank (cs : List Char) : Prop := ∀ c ∈ cs, isSpace c = true

/-- The text with nothing but white space around it. -/
def Padded (cs padded : List Char) : Prop :=
  ∃ before after, Blank before ∧ Blank after ∧ padded = before ++ (cs ++ after)

theorem blank_takeWhile (cs : List Char) : Blank (cs.takeWhile isSpace) :=
  fun _ hc => List.mem_takeWhile_imp hc

theorem padded_trim (cs : List Char) : Padded (trim cs) cs := by
  refine ⟨cs.takeWhile isSpace, ((cs.dropWhile isSpace).reverse.takeWhile isSpace).reverse,
    blank_takeWhile cs, ?_, ?_⟩
  · exact fun c hc => blank_takeWhile _ c (List.mem_reverse.1 hc)
  · rw [trim, ← List.reverse_append, List.takeWhile_append_dropWhile, List.reverse_reverse,
      List.takeWhile_append_dropWhile]

theorem Padded.trim_eq (h : Padded cs padded) (hcs : ∀ c ∈ cs, isSpace c = false) :
    trim padded = cs := by
  obtain ⟨before, after, hbefore, hafter, rfl⟩ := h
  have hafter' : ∀ c ∈ after.reverse, isSpace c = true :=
    fun c hc => hafter c (List.mem_reverse.1 hc)
  rw [trim, List.dropWhile_append_of_pos hbefore]
  cases cs with
  | nil =>
    have hnil : after.dropWhile isSpace = [] := List.dropWhile_eq_nil_iff.2 hafter
    rw [List.nil_append, hnil]
    rfl
  | cons c cs =>
    have hrest : (c :: cs).reverse.dropWhile isSpace = (c :: cs).reverse := by
      cases hreverse : (c :: cs).reverse with
      | nil => rfl
      | cons d ds =>
        have hd : d ∈ c :: cs := List.mem_reverse.1 (hreverse ▸ List.mem_cons_self)
        rw [List.dropWhile_cons_of_neg (by simp [hcs d hd])]
    rw [List.cons_append, List.dropWhile_cons_of_neg (by simp [hcs c List.mem_cons_self]),
      ← List.cons_append, List.reverse_append, List.dropWhile_append_of_pos hafter', hrest,
      List.reverse_reverse]

/-- What is left of a text behind a pin: at most one white-space character is passed over. -/
inductive AfterPin : List Char → List Char → Prop where
  | space {c : Char} {text : List Char} (hc : isSpace c = true) : AfterPin (c :: text) text
  | none {text : List Char} (htext : ∀ c ∈ text.head?, isSpace c = false) : AfterPin text text

theorem afterPin_iff {rest : List Char} : AfterPin rest text ↔ dropOneSpace rest = text := by
  constructor
  · rintro (hc | htext)
    · rw [dropOneSpace, if_pos hc]
    · cases text with
      | nil => rfl
      | cons c cs => rw [dropOneSpace, if_neg (by simp [htext c rfl])]
  · rintro rfl
    cases rest with
    | nil => exact .none nofun
    | cons c cs =>
      rw [dropOneSpace]
      split
      · next hc => exact .space hc
      · next hc =>
        refine .none fun d hd => ?_
        obtain rfl : c = d := by simpa using hd
        exact Bool.eq_false_iff.2 hc

/-! ### Numbers -/

/-- An optional minus, digits, and optionally a point and more digits. -/
structure Spells (digit : Char → Bool) (negative : Bool) (whole fraction cs : List Char) :
    Prop where
  whole_ne_nil : whole ≠ []
  whole_digits : ∀ c ∈ whole, digit c = true
  fraction_digits : ∀ c ∈ fraction, digit c = true
  text : cs = signChars negative ++ numeral whole fraction

/-- A number as pins write it, in the digits of any script. -/
def IsNumber (cs : List Char) : Prop :=
  ∃ negative whole fraction, Spells isDecimalDigit negative whole fraction cs

/-- A number in the digits `0` to `9`, and the number that is nearest to it. -/
def Reads (cs : List Char) (x : Double) : Prop :=
  ∃ negative whole fraction, Spells Char.isDigit negative whole fraction cs ∧
    (Decimal.ofDigits whole fraction 0).toDouble negative = x

/-- Whether a text is digits, and optionally a point and more digits. -/
def isUnsigned (cs : List Char) : Bool :=
  !(cs.takeWhile isDecimalDigit).isEmpty &&
    match cs.dropWhile isDecimalDigit with
    | [] => true
    | '.' :: fraction => !fraction.isEmpty && fraction.all isDecimalDigit
    | _ => false

theorem isUnsigned_iff :
    isUnsigned cs = true ↔ ∃ whole fraction, Spells isDecimalDigit false whole fraction cs := by
  constructor
  · intro h
    obtain ⟨hwhole, hrest⟩ := Bool.and_eq_true_iff.1 h
    have hdigits : ∀ c ∈ cs.takeWhile isDecimalDigit, isDecimalDigit c = true :=
      fun c hc => List.mem_takeWhile_imp hc
    have hcut : cs.takeWhile isDecimalDigit ++ cs.dropWhile isDecimalDigit = cs :=
      List.takeWhile_append_dropWhile
    have hne : cs.takeWhile isDecimalDigit ≠ [] := by simpa using hwhole
    split at hrest
    · next hdrop =>
      refine ⟨cs.takeWhile isDecimalDigit, [], hne, hdigits, nofun, ?_⟩
      rw [hdrop, List.append_nil] at hcut
      exact hcut.symm
    · next fraction hdrop =>
      obtain ⟨hfraction, hall⟩ := Bool.and_eq_true_iff.1 hrest
      refine ⟨cs.takeWhile isDecimalDigit, fraction, hne, hdigits, List.all_eq_true.1 hall, ?_⟩
      rw [numeral, if_neg (by simpa using hfraction), ← hdrop, hcut]
      rfl
    · cases hrest
  · rintro ⟨whole, fraction, hne, hwhole, hfraction, rfl⟩
    have hempty : whole.isEmpty = false := List.isEmpty_eq_false_iff.2 hne
    show isUnsigned (numeral whole fraction) = true
    unfold numeral isUnsigned
    by_cases hf : fraction.isEmpty
    · have hdrop : whole.dropWhile isDecimalDigit = [] := List.dropWhile_eq_nil_iff.2 hwhole
      rw [if_pos hf, List.takeWhile_eq_self_iff.2 hwhole, hdrop, hempty]
      rfl
    · have hpoint : ∀ c ∈ ('.' :: fraction).head?, isDecimalDigit c = false := by
        rintro c ⟨⟩
        decide +kernel
      rw [if_neg hf, takeWhile_append hwhole hpoint, dropWhile_append hwhole hpoint, hempty]
      simpa [List.isEmpty_iff.not.1 hf] using hfraction

theorem isPinNumber_of_head (h : cs.head? ≠ some '-') : isPinNumber cs = isUnsigned cs := by
  unfold isPinNumber
  split
  · exact absurd rfl h
  · rfl

theorem Spells.head {negative : Bool} {whole fraction : List Char}
    (h : Spells isDecimalDigit negative whole fraction cs) :
    (numeral whole fraction).head? ≠ some '-' := by
  intro hminus
  cases hwhole : whole with
  | nil => exact h.whole_ne_nil hwhole
  | cons c whole' =>
    have hhead : (numeral whole fraction).head? = some c := by
      rw [hwhole, numeral]
      split <;> rfl
    obtain rfl : c = '-' := Option.some.inj (hhead.symm.trans hminus)
    have hdigit : isDecimalDigit '-' = true := h.whole_digits '-' (hwhole ▸ List.mem_cons_self)
    exact absurd hdigit (by decide +kernel)

theorem isPinNumber_iff : isPinNumber cs = true ↔ IsNumber cs := by
  constructor
  · intro h
    by_cases hminus : cs.head? = some '-'
    · obtain ⟨ds, rfl⟩ := List.head?_eq_some_iff.1 hminus
      obtain ⟨whole, fraction, hspells⟩ := isUnsigned_iff.1 h
      exact ⟨true, whole, fraction, { hspells with text := congrArg ('-' :: ·) hspells.text }⟩
    · obtain ⟨whole, fraction, hspells⟩ := isUnsigned_iff.1 (isPinNumber_of_head hminus ▸ h)
      exact ⟨false, whole, fraction, hspells⟩
  · rintro ⟨negative, whole, fraction, hspells⟩
    have hunsigned : isUnsigned (numeral whole fraction) = true :=
      isUnsigned_iff.2 ⟨whole, fraction, { hspells with text := rfl }⟩
    rw [hspells.text]
    cases negative with
    | true => exact hunsigned
    | false => exact (isPinNumber_of_head hspells.head).trans hunsigned

/-! ### The ends of intervals -/

/-- How an end without a bound is written, on the left or on the right. -/
def openEnds (left : Bool) : List (List Char) :=
  if left then ["-Inf".toList, "*".toList] else ["Inf".toList, "+Inf".toList, "*".toList]

/-- The left or the right end of an interval as it is written. -/
def IsEnd (left : Bool) (cs : List Char) : Prop := cs ∈ openEnds left ∨ IsNumber cs

theorem isLeftEnd_iff : isLeftEnd cs = true ↔ IsEnd true cs := by
  simp only [isLeftEnd, IsEnd, openEnds, Bool.or_eq_true, beq_iff_eq, isPinNumber_iff, if_true,
    List.mem_cons, List.not_mem_nil, or_false, or_assoc]

theorem isRightEnd_iff : isRightEnd cs = true ↔ IsEnd false cs := by
  simp only [isRightEnd, IsEnd, openEnds, Bool.or_eq_true, beq_iff_eq, isPinNumber_iff,
    Bool.false_eq_true, if_false, List.mem_cons, List.not_mem_nil, or_false, or_assoc]

/-! ### What separates the items of pins -/

/-- Whether a character separates the items of a pin or ends it. -/
def isDelimiter (c : Char) : Bool := isSpace c || c == ',' || c == '\x7d' || isBracket c

theorem isDelimiter_of_isDecimalDigit (hc : isDecimalDigit c = true) : isDelimiter c = false := by
  have hne : ∀ {d : Char}, isDecimalDigit d = false → (c == d) = false := by
    intro d hd
    rw [beq_eq_false_iff_ne]
    rintro rfl
    rw [hc] at hd
    cases hd
  simp only [isDelimiter, isBracket, Bool.or_eq_false_iff]
  exact ⟨⟨⟨Text.isSpace_of_isDecimalDigit hc, hne (by decide +kernel)⟩, hne (by decide +kernel)⟩,
    hne (by decide +kernel), hne (by decide +kernel)⟩

theorem IsNumber.isDelimiter (h : IsNumber cs) : ∀ c ∈ cs, isDelimiter c = false := by
  obtain ⟨negative, whole, fraction, hspells⟩ := h
  intro c hc
  rw [hspells.text, List.mem_append] at hc
  rcases hc with hc | hc
  · cases negative with
    | true =>
      rw [List.mem_singleton.1 hc]
      rfl
    | false => exact absurd hc List.not_mem_nil
  · unfold numeral at hc
    split at hc
    · exact isDelimiter_of_isDecimalDigit (hspells.whole_digits c hc)
    · rcases List.mem_append.1 hc with hc | hc
      · exact isDelimiter_of_isDecimalDigit (hspells.whole_digits c hc)
      · rcases List.mem_cons.1 hc with rfl | hc
        · rfl
        · exact isDelimiter_of_isDecimalDigit (hspells.fraction_digits c hc)

theorem IsEnd.isDelimiter {left : Bool} (h : IsEnd left cs) : ∀ c ∈ cs, isDelimiter c = false := by
  rcases h with h | h
  · have hopen : (openEnds left).all (fun ds => ds.all fun c => !Plural.isDelimiter c) = true := by
      cases left <;> decide +kernel
    intro c hc
    simpa using List.all_eq_true.1 (List.all_eq_true.1 hopen cs h) c hc
  · exact h.isDelimiter

/-- The inside of a pin: the items, with white space around each and a comma between two of them. -/
inductive Items : List (List Char) → List Char → Prop where
  | last {item padded : List Char} (hitem : Padded item padded) : Items [item] padded
  | cons {item padded : List Char} {items : List (List Char)} {inner : List Char}
      (hitem : Padded item padded)
      (hitems : Items items inner) : Items (item :: items) (padded ++ ',' :: inner)

variable {items : List (List Char)} {inner : List Char}

theorem items_trim (inner : List Char) : Items ((inner.splitOn ',').map trim) inner := by
  obtain ⟨hne, -, hjoined⟩ := divides_iff.2 (Eq.refl (inner.splitOn ','))
  have hmap : ∀ ps : List (List Char), ps ≠ [] → Items (ps.map trim) ([','].intercalate ps) := by
    intro ps hps
    induction ps with
    | nil => exact absurd rfl hps
    | cons p ps ih =>
      cases ps with
      | nil =>
        rw [List.intercalate_singleton]
        exact .last (padded_trim p)
      | cons q qs =>
        rw [List.intercalate_cons_cons, List.append_assoc, List.singleton_append]
        exact .cons (padded_trim p) (ih (List.cons_ne_nil q qs))
  exact (congrArg (Items _) hjoined).mp (hmap (inner.splitOn ',') hne)

theorem Padded.mem (h : Padded cs padded) (hc : c ∈ padded) : isSpace c = true ∨ c ∈ cs := by
  obtain ⟨before, after, hbefore, hafter, rfl⟩ := h
  rcases List.mem_append.1 hc with hc | hc
  · exact .inl (hbefore c hc)
  · exact (List.mem_append.1 hc).symm.imp_left (hafter c)

/-- Items without delimiters are separated by white space and commas only. -/
theorem Items.mem (h : Items items inner) (hitems : ∀ i ∈ items, ∀ c ∈ i, isDelimiter c = false)
    (hc : c ∈ inner) : isSpace c = true ∨ c = ',' ∨ isDelimiter c = false := by
  induction h with
  | last hitem => exact (hitem.mem hc).imp_right fun hc => .inr (hitems _ List.mem_cons_self c hc)
  | cons hitem _ ih =>
    obtain ⟨hfirst, hrest⟩ := List.forall_mem_cons.1 hitems
    rcases List.mem_append.1 hc with hc | hc
    · exact (hitem.mem hc).imp_right fun hc => .inr (hfirst c hc)
    · rcases List.mem_cons.1 hc with hc | hc
      · exact .inr (.inl hc)
      · exact ih hrest hc

theorem Items.mem_inner (h : Items items inner) {item : List Char} (hitem : item ∈ items)
    (hc : c ∈ item) : c ∈ inner := by
  induction h with
  | last hpadded =>
    obtain ⟨before, after, -, -, rfl⟩ := hpadded
    rw [List.mem_singleton.1 hitem] at hc
    simp [hc]
  | cons hpadded _ ih =>
    rcases List.mem_cons.1 hitem with rfl | hitem
    · obtain ⟨before, after, -, -, rfl⟩ := hpadded
      simp [hc]
    · simp [ih hitem]

theorem not_isSpace_of_not_isDelimiter (hc : isDelimiter c = false) : isSpace c = false := by
  simp only [isDelimiter, Bool.or_eq_false_iff] at hc
  exact hc.1.1.1

theorem Padded.not_mem_comma (h : Padded cs padded) (hcs : ∀ c ∈ cs, isDelimiter c = false) :
    ',' ∉ padded := by
  intro hcomma
  rcases h.mem hcomma with hspace | hmem
  · exact absurd hspace (by decide +kernel)
  · exact absurd (hcs ',' hmem) (by decide +kernel)

/-- A pin whose items have no delimiters in them is cut into just these. -/
theorem Items.trim_splitOn (h : Items items inner)
    (hitems : ∀ i ∈ items, ∀ c ∈ i, isDelimiter c = false) :
    (inner.splitOn ',').map trim = items := by
  induction h with
  | last hitem =>
    have hfirst := hitems _ List.mem_cons_self
    rw [List.splitOn_eq_singleton (hitem.not_mem_comma hfirst), List.map_singleton,
      hitem.trim_eq fun c hc => not_isSpace_of_not_isDelimiter (hfirst c hc)]
  | cons hitem _ ih =>
    obtain ⟨hfirst, hrest⟩ := List.forall_mem_cons.1 hitems
    rw [List.splitOn_append_cons_self_of_not_mem (hitem.not_mem_comma hfirst), List.map_cons,
      ih hrest, hitem.trim_eq fun c hc => not_isSpace_of_not_isDelimiter (hfirst c hc)]

/-! ### Pinned parts -/

/-- A part pinned to counts: the written numbers in braces, and behind them the text. -/
def PinnedToCounts (numbers : List (List Char)) (text part : List Char) : Prop :=
  ∃ before inner rest, Blank before ∧ Items numbers inner ∧ (∀ n ∈ numbers, IsNumber n) ∧
    part = before ++ '\x7b' :: (inner ++ '\x7d' :: rest) ∧ AfterPin rest text

/-- A part pinned to an interval: the two written ends in brackets, and behind them the text. -/
def PinnedToInterval (opening : Char) (left right : List Char) (closing : Char)
    (text part : List Char) : Prop :=
  ∃ before inner rest, Blank before ∧ isBracket opening = true ∧ isBracket closing = true ∧
    Items [left, right] inner ∧ IsEnd true left ∧ IsEnd false right ∧
    part = before ++ opening :: (inner ++ closing :: rest) ∧ AfterPin rest text

theorem PinnedToCounts.isNumber (h : PinnedToCounts numbers text part) :
    ∀ n ∈ numbers, IsNumber n := by
  obtain ⟨_, _, _, _, _, hnumbers, _⟩ := h
  exact hnumbers

theorem PinnedToInterval.isEnd {opening closing : Char} {left right : List Char}
    (h : PinnedToInterval opening left right closing text part) :
    IsEnd true left ∧ IsEnd false right := by
  obtain ⟨_, _, _, _, _, _, _, hleft, hright, _⟩ := h
  exact ⟨hleft, hright⟩

theorem cutAt?_eq_some_iff {p : Char → Bool} {before rest : List Char} :
    cutAt? p cs = some (before, c, rest) ↔
    cs = before ++ c :: rest ∧ (∀ d ∈ before, p d = false) ∧ p c = true := by
  constructor
  · intro h
    unfold cutAt? at h
    split at h
    · cases h
    · next d ds hdrop =>
      cases h
      have hcut : cs.takeWhile (fun c => !p c) ++ cs.dropWhile (fun c => !p c) = cs :=
        List.takeWhile_append_dropWhile
      have hstop := List.head?_dropWhile_not (fun c => !p c) cs
      rw [hdrop] at hcut hstop
      exact ⟨hcut.symm, fun d hd => by simpa using List.mem_takeWhile_imp hd, by simpa using hstop⟩
  · rintro ⟨rfl, hbefore, hc⟩
    have hpass : ∀ d ∈ before, (!p d) = true := fun d hd => by rw [hbefore d hd]; rfl
    have hstop : ∀ d ∈ (c :: rest).head?, (!p d) = false := by
      rintro d ⟨⟩
      rw [hc]
      rfl
    unfold cutAt?
    rw [takeWhile_append hpass hstop, dropWhile_append hpass hstop]

theorem blank_takeWhile_append (cs : List Char) :
    ∃ before, Blank before ∧ cs = before ++ cs.dropWhile isSpace :=
  ⟨cs.takeWhile isSpace, blank_takeWhile cs, List.takeWhile_append_dropWhile.symm⟩

theorem isSpace_head?_dropWhile (cs : List Char) :
    ∀ c ∈ (cs.dropWhile isSpace).head?, isSpace c = false := by
  intro c hc
  have hnot := List.head?_dropWhile_not isSpace cs
  rw [hc] at hnot
  exact hnot

theorem dropWhile_blank {before : List Char} (hbefore : Blank before) (hc : isSpace c = false) :
    (before ++ c :: cs).dropWhile isSpace = c :: cs := by
  refine dropWhile_append hbefore ?_
  rintro d ⟨⟩
  exact hc

/-- Braces with numbers in them at the start of a part are found, and nothing else is. -/
theorem counts?_eq_some_iff :
    counts? part = some (numbers, text) ↔ PinnedToCounts numbers text part := by
  constructor
  · intro h
    obtain ⟨before, hbefore, hpart⟩ := blank_takeWhile_append part
    unfold counts? at h
    split at h
    · next cs hdrop =>
      split at h
      · next inner closing rest hcut =>
        dsimp only at h
        split at h
        · next hnumbers =>
          cases h
          obtain ⟨rfl, -, hclosing⟩ := cutAt?_eq_some_iff.1 hcut
          rw [hdrop, beq_iff_eq.1 hclosing] at hpart
          have hall : ∀ n ∈ (inner.splitOn ',').map trim, IsNumber n := fun n hn =>
            isPinNumber_iff.1 (List.all_eq_true.1 hnumbers n hn)
          exact ⟨before, inner, rest, hbefore, items_trim inner, hall, hpart, afterPin_iff.2 rfl⟩
        · cases h
      · cases h
    · cases h
  · rintro ⟨before, inner, rest, hbefore, hitems, hnumbers, rfl, hrest⟩
    have hdelimiter : ∀ n ∈ numbers, ∀ c ∈ n, isDelimiter c = false :=
      fun n hn => (hnumbers n hn).isDelimiter
    have hopen : ∀ c ∈ inner, (c == '\x7d') = false := by
      intro c hc
      rw [beq_eq_false_iff_ne]
      rintro rfl
      rcases hitems.mem hdelimiter hc with hc | hc | hc <;> exact absurd hc (by decide +kernel)
    have hall : numbers.all isPinNumber = true :=
      List.all_eq_true.2 fun n hn => isPinNumber_iff.2 (hnumbers n hn)
    have hcut : cutAt? (· == '\x7d') (inner ++ '\x7d' :: rest) = some (inner, '\x7d', rest) :=
      cutAt?_eq_some_iff.2 ⟨rfl, hopen, rfl⟩
    unfold counts?
    rw [dropWhile_blank hbefore (by decide +kernel)]
    simp only [hcut, hitems.trim_splitOn hdelimiter, hall, if_true, afterPin_iff.1 hrest]

theorem isBracket_iff : isBracket c = true ↔ c = '[' ∨ c = ']' := by
  rw [isBracket, Bool.or_eq_true, beq_iff_eq, beq_iff_eq]

variable {opening closing : Char} {left right : List Char}

/-- Brackets with two ends in them at the start of a part are found, and nothing else is. -/
theorem interval?_eq_some_iff :
    interval? part = some (opening, left, right, closing, text) ↔
      PinnedToInterval opening left right closing text part := by
  constructor
  · intro h
    obtain ⟨before, hbefore, hpart⟩ := blank_takeWhile_append part
    unfold interval? at h
    split at h
    · next o cs hdrop =>
      split at h
      · next hopening =>
        split at h
        · next inner c rest hcut =>
          split at h
          · next l r hparts =>
            split at h
            · next hends =>
              cases h
              obtain ⟨rfl, -, hclosing⟩ := cutAt?_eq_some_iff.1 hcut
              obtain ⟨hleft, hright⟩ := Bool.and_eq_true_iff.1 hends
              rw [hdrop] at hpart
              exact ⟨before, inner, rest, hbefore, hopening, hclosing, hparts ▸ items_trim inner,
                isLeftEnd_iff.1 hleft, isRightEnd_iff.1 hright, hpart, afterPin_iff.2 rfl⟩
            · cases h
          · cases h
        · cases h
      · cases h
    · cases h
  · rintro ⟨before, inner, rest, hbefore, hopening, hclosing, hitems, hleft, hright, rfl, hrest⟩
    have hdelimiter : ∀ i ∈ [left, right], ∀ c ∈ i, isDelimiter c = false := by
      simp only [List.forall_mem_cons, List.not_mem_nil, false_implies, implies_true, and_true]
      exact ⟨hleft.isDelimiter, hright.isDelimiter⟩
    have hopen : ∀ c ∈ inner, isBracket c = false := by
      intro c hc
      rw [← Bool.not_eq_true, isBracket_iff]
      rintro (rfl | rfl) <;> rcases hitems.mem hdelimiter hc with hc | hc | hc <;>
        exact absurd hc (by decide +kernel)
    have hspace : isSpace opening = false := by
      rcases isBracket_iff.1 hopening with rfl | rfl <;> decide +kernel
    have hcut : cutAt? isBracket (inner ++ closing :: rest) = some (inner, closing, rest) :=
      cutAt?_eq_some_iff.2 ⟨rfl, hopen, hclosing⟩
    have hends : (isLeftEnd left && isRightEnd right) = true :=
      Bool.and_eq_true_iff.2 ⟨isLeftEnd_iff.2 hleft, isRightEnd_iff.2 hright⟩
    unfold interval?
    rw [dropWhile_blank hbefore hspace]
    dsimp only
    rw [if_pos hopening, hcut]
    dsimp only
    rw [hitems.trim_splitOn hdelimiter]
    dsimp only
    rw [if_pos hends, afterPin_iff.1 hrest]

/-! ### Labelled parts -/

/-- A part with a word and a colon before its text, and with white space around these. -/
def Labelled (text part : List Char) : Prop :=
  ∃ before word after, Blank before ∧ word ≠ [] ∧ (∀ c ∈ word, isWordChar c = true) ∧ Blank after ∧
    (∀ c ∈ text.head?, isSpace c = false) ∧ part = before ++ (word ++ ':' :: (after ++ text))

theorem Labelled.dropLabel_eq (h : Labelled text part) : dropLabel part = text := by
  obtain ⟨before, word, after, hbefore, hne, hword, hafter, htext, rfl⟩ := h
  have hcolon : ∀ c ∈ (':' :: (after ++ text)).head?, isWordChar c = false := by
    rintro c ⟨⟩
    decide +kernel
  have hhead : ∀ c ∈ (word ++ ':' :: (after ++ text)).head?, isSpace c = false := by
    cases word with
    | nil => exact absurd rfl hne
    | cons d ds =>
      rintro c ⟨⟩
      exact Text.isSpace_of_isWordChar (hword d List.mem_cons_self)
  unfold dropLabel
  dsimp only
  rw [dropWhile_append hbefore hhead, dropWhile_append hword hcolon, takeWhile_append hword hcolon]
  simp only [List.isEmpty_iff, hne, if_false, dropWhile_append hafter htext]

theorem labelled_or_dropLabel_eq (part : List Char) :
    Labelled (dropLabel part) part ∨ dropLabel part = part := by
  obtain ⟨before, hbefore, hpart⟩ := blank_takeWhile_append part
  have hword : ∀ c ∈ (part.dropWhile isSpace).takeWhile isWordChar, isWordChar c = true :=
    fun c hc => List.mem_takeWhile_imp hc
  have hcut : (part.dropWhile isSpace).takeWhile isWordChar ++
      (part.dropWhile isSpace).dropWhile isWordChar =
      part.dropWhile isSpace := List.takeWhile_append_dropWhile
  unfold dropLabel
  dsimp only
  split
  · next rest hdrop =>
    split
    · exact .inr rfl
    · next hne =>
      obtain ⟨after, hafter, hrest⟩ := blank_takeWhile_append rest
      refine .inl ⟨before, _, after,
        hbefore, by simpa using hne, hword, hafter, isSpace_head?_dropWhile rest, ?_⟩
      rw [← hrest, ← hdrop, hcut]
      exact hpart
  · exact .inr rfl

/-- A label is taken off with the white space around it, and a part without one is left as it is. -/
theorem dropLabel_eq_iff :
    dropLabel part = text ↔ Labelled text part ∨ text = part ∧ ∀ t, ¬ Labelled t part := by
  constructor
  · rintro rfl
    rcases labelled_or_dropLabel_eq part with h | h
    · exact .inl h
    · by_cases hlabel : ∃ t, Labelled t part
      · obtain ⟨t, ht⟩ := hlabel
        exact .inl (ht.dropLabel_eq ▸ ht)
      · exact .inr ⟨h, not_exists.1 hlabel⟩
  · rintro (h | ⟨rfl, hnone⟩)
    · exact h.dropLabel_eq
    · exact (labelled_or_dropLabel_eq text).resolve_left (hnone _)

end Plural

end Phrasebook
