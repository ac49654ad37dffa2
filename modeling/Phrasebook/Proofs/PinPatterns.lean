import Phrasebook.Proofs.Patterns
import Phrasebook.Proofs.PluralParts

/-!
# The patterns of pins and labels

The three patterns by which the parts of a message are told apart, matched in the order of trial,
and the scanners agree on every part.

* `Plural.countsPattern`, `Plural.intervalPattern`, `Plural.labelPattern` : the patterns;
* `Plural.Form.byPatterns` : a part as a form, read by the patterns;
* `Plural.Form.ofChars_eq_byPatterns` : it is the form that the scanners find.
-/

namespace Phrasebook

namespace Plural

open Pattern
open Text (isSpace isDecimalDigit isWordChar trim)
open Double (signChars numeral)

/-! ### The patterns -/

/-- White space or none: `\s*`. -/
def spaces : Pattern := .many (.one isSpace)

/-- Digits: `\d+`. -/
def digits : Pattern := atLeastOne (.one isDecimalDigit)

/-- A number: `-?\d+(?:\.\d+)?`. -/
def numberPattern : Pattern :=
  concat [.maybe (char '-'), digits, .maybe (concat [char '.', digits])]

/-- A comma and a number: `\s*,\s*number`. -/
def nextPattern : Pattern := concat [spaces, char ',', spaces, numberPattern]

/-- Numbers with commas between them: `number(?:next)*`. -/
def listPattern : Pattern := concat [numberPattern, .many nextPattern]

/-- Numbers in braces: `\s*\{\s*(list)\s*\}`. -/
def countsHead : List Pattern :=
  [spaces, char '\x7b', spaces, .group listPattern, spaces, char '\x7d']

/-- The left end of an interval: `-Inf|\*|number`. -/
def leftPattern : Pattern := .either (literal "-Inf".toList) (.either (char '*') numberPattern)

/-- The right end of an interval: `\+?Inf|\*|number`. -/
def rightPattern : Pattern :=
  .either (concat [.maybe (char '+'), literal "Inf".toList]) (.either (char '*') numberPattern)

/-- Two ends in brackets: `\s*([\[\]])\s*(left)\s*,\s*(right)\s*([\[\]])`. -/
def intervalHead : List Pattern :=
  spaces :: .group (.one isBracket) ::
    ([spaces, .group leftPattern, spaces, char ',', spaces, .group rightPattern, spaces] ++
      [.group (.one isBracket)])

/-- The text behind a pin: `\s?(.*)`. -/
def pinTail : List Pattern := [.maybe (.one isSpace), .group anything]

/-- A word and a colon: `\s*\w+:`. -/
def labelHead : List Pattern := [spaces, atLeastOne (.one isWordChar), char ':']

/-- The text behind a label: `\s*(.*)`. -/
def labelTail : List Pattern := [spaces, .group anything]

def countsPattern : Pattern := concat (countsHead ++ pinTail)

def intervalPattern : Pattern := concat (intervalHead ++ pinTail)

def labelPattern : Pattern := concat (labelHead ++ labelTail)

/-- A part as a form: pinned if it is matched by the pattern of counts, else by the pattern of
intervals, and otherwise with the text behind its label. -/
def Form.byPatterns (part : List Char) : Form :=
  match captures? countsPattern part with
  | some [list, text] =>
    .pinned (.counts ((list.splitOn ',').filterMap fun n => Double.ofChars? (trim n))) text
  | _ =>
    match captures? intervalPattern part with
    | some [opening, left, right, closing, text] =>
      .pinned (.interval (opening == ['[']) (bound true left) (bound false right)
        (closing == [']'])) text
    | _ =>
      match captures? labelPattern part with
      | some [text] => .unpinned text
      | _ => .unpinned part

variable {t rest text part inner before : List Char} {g items numbers : List (List Char)} {c : Char}
    {p : Pattern}
  {ps : List Pattern}

/-! ### White space and marks -/

theorem takes_spaces_iff :
    Takes (concat (spaces :: ps)) t g ↔ ∃ u v, Blank u ∧ Takes (concat ps) v g ∧ t = u ++ v := by
  have hblank : ∀ u, Takes spaces u [] ↔ Blank u :=
    fun u => takes_many_one_iff.trans (and_iff_left rfl)
  rw [takes_concat_plain_iff rfl]
  simp only [hblank]

theorem takes_mark_iff :
    Takes (concat (char c :: ps)) t g ↔ ∃ v, Takes (concat ps) v g ∧ t = c :: v := by
  rw [takes_concat_plain_iff rfl]
  simp only [takes_char_iff, and_true, exists_and_left, exists_eq_left, List.singleton_append]

theorem takes_last_mark_iff : Takes (concat [char c]) t g ↔ t = [c] ∧ g = [] := by
  rw [takes_concat_singleton_iff, takes_char_iff]

/-- A group with white space on both sides. -/
theorem takes_padded_group_iff (hp : groupless p = true) :
    Takes (concat (spaces :: .group p :: spaces :: ps)) t g ↔
    ∃ item padded v k, Takes p item [] ∧ Padded item padded ∧ Takes (concat ps) v k ∧
    t = padded ++ v ∧ g = item :: k := by
  simp only [takes_spaces_iff, takes_concat_group_iff hp]
  constructor
  · rintro ⟨before, _, hbefore, ⟨item, _, k, hitem, ⟨after, v, hafter, hrest, rfl⟩, rfl, rfl⟩, rfl⟩
    refine ⟨item, before ++ (item ++ after), v, k, hitem, ⟨before, after, hbefore, hafter, rfl⟩,
      hrest, ?_, rfl⟩
    simp only [List.append_assoc]
  · rintro ⟨item, _, v, k, hitem, ⟨before, after, hbefore, hafter, rfl⟩, hrest, rfl, rfl⟩
    refine ⟨before, _, hbefore, ⟨item, _, k, hitem, ⟨after, v, hafter, hrest, rfl⟩, rfl, rfl⟩, ?_⟩
    simp only [List.append_assoc]

/-! ### Numbers -/

theorem takes_digits_iff : Takes digits t g ↔
    t ≠ [] ∧ (∀ c ∈ t, isDecimalDigit c = true) ∧ g = [] := takes_atLeastOne_one_iff

theorem takes_fraction_iff : Takes (.maybe (concat [char '.', digits])) t [] ↔
    ∃ fraction, (∀ c ∈ fraction, isDecimalDigit c = true) ∧ t = if fraction.isEmpty then []
    else '.' :: fraction := by
  simp only [takes_maybe_iff, takes_mark_iff, takes_concat_singleton_iff,
    takes_digits_iff, and_true]
  constructor
  · rintro (⟨fraction, ⟨hne, hfraction⟩, rfl⟩ | rfl)
    · exact ⟨fraction, hfraction, (if_neg (by simpa using hne)).symm⟩
    · exact ⟨[], nofun, rfl⟩
  · rintro ⟨fraction, hfraction, rfl⟩
    by_cases hne : fraction.isEmpty
    · exact .inr (if_pos hne)
    · exact .inl ⟨fraction, ⟨by simpa using hne, hfraction⟩, if_neg hne⟩

theorem takes_number_iff : Takes numberPattern t [] ↔ IsNumber t := by
  have hsign : ∀ u, Takes (.maybe (char '-')) u [] ↔ ∃ negative, u = signChars negative := by
    intro u
    simp only [takes_maybe_iff, takes_char_iff, and_true, Bool.exists_bool, or_comm]
    rfl
  have hnumeral : ∀ whole fraction, whole ++ (if fraction.isEmpty then [] else '.' :: fraction) =
      numeral whole fraction := by
    intro whole fraction
    rw [numeral]
    split
    · exact List.append_nil whole
    · rfl
  simp only [numberPattern, takes_concat_plain_iff (p := .maybe (char '-')) rfl,
    takes_concat_plain_iff (p := digits) rfl, takes_concat_singleton_iff, hsign, takes_digits_iff,
    takes_fraction_iff, and_true]
  constructor
  · rintro ⟨_, _, ⟨negative, rfl⟩, ⟨whole, _, ⟨hne, hwhole⟩, ⟨fraction, hfraction, rfl⟩, rfl⟩, rfl⟩
    exact ⟨negative, whole, fraction, hne, hwhole, hfraction, by rw [hnumeral]⟩
  · rintro ⟨negative, whole, fraction, hne, hwhole, hfraction, rfl⟩
    exact ⟨_, _, ⟨negative, rfl⟩,
      ⟨whole, _, ⟨hne, hwhole⟩, ⟨fraction, hfraction, rfl⟩, rfl⟩, by rw [hnumeral]⟩

/-! ### Lists of numbers -/

theorem padded_self (cs : List Char) : Padded cs cs :=
  ⟨[], [], nofun, nofun, (List.append_nil cs).symm⟩

theorem Blank.append {cs ds : List Char} (hcs : Blank cs) (hds : Blank ds) : Blank (cs ++ ds) := by
  intro c hc
  exact (List.mem_append.1 hc).elim (hcs c) (hds c)

theorem Padded.pad_left {item padded : List Char} (h : Padded item padded)
    (hbefore : Blank before) : Padded item (before ++ padded) := by
  obtain ⟨b, a, hb, ha, rfl⟩ := h
  exact ⟨before ++ b, a, hbefore.append hb, ha, (List.append_assoc ..).symm⟩

theorem Padded.pad_right {item padded after : List Char} (h : Padded item padded)
    (hafter : Blank after) : Padded item (padded ++ after) := by
  obtain ⟨b, a, hb, ha, rfl⟩ := h
  exact ⟨b, a ++ after, hb, ha.append hafter, by simp only [List.append_assoc]⟩

theorem Items.pad_left (h : Items items inner) (hbefore : Blank before) :
    Items items (before ++ inner) := by
  cases h with
  | last hitem => exact .last (hitem.pad_left hbefore)
  | cons hitem hitems =>
    rw [← List.append_assoc]
    exact .cons (hitem.pad_left hbefore) hitems

theorem Items.pad_right {after : List Char} (h : Items items inner) (hafter : Blank after) :
    Items items (inner ++ after) := by
  induction h with
  | last hitem => exact .last (hitem.pad_right hafter)
  | cons hitem _ ih =>
    rw [List.append_assoc, List.cons_append]
    exact .cons hitem ih

/-- White space around all items is white space around the first and the last. -/
theorem Items.pad {padded : List Char} (h : Items items inner) (hpadded : Padded inner padded) :
    Items items padded := by
  obtain ⟨before, after, hbefore, hafter, rfl⟩ := hpadded
  exact (h.pad_right hafter).pad_left hbefore

theorem takes_next_iff : Takes nextPattern t [] ↔
    ∃ before after n, Blank before ∧ Blank after ∧ IsNumber n ∧
    t = before ++ ',' :: (after ++ n) := by
  simp only [nextPattern, takes_spaces_iff, takes_mark_iff, takes_concat_singleton_iff,
    takes_number_iff]
  constructor
  · rintro ⟨before, _, hbefore, ⟨_, ⟨after, n, hafter, hn, rfl⟩, rfl⟩, rfl⟩
    exact ⟨before, after, n, hbefore, hafter, hn, rfl⟩
  · rintro ⟨before, after, n, hbefore, hafter, hn, rfl⟩
    exact ⟨before, _, hbefore, ⟨_, ⟨after, n, hafter, hn, rfl⟩, rfl⟩, rfl⟩

theorem takes_list_iff :
    Takes listPattern t [] ↔ ∃ n u, IsNumber n ∧ Takes (.many nextPattern) u [] ∧ t = n ++ u := by
  rw [listPattern, takes_concat_plain_iff rfl]
  simp only [takes_number_iff, takes_concat_singleton_iff]

/-- Behind a number the pattern takes more items of a list of numbers. -/
theorem items_of_takes_many (h : Takes (.many nextPattern) t []) {n : List Char} (hn : IsNumber n) :
    ∃ numbers, Items numbers (n ++ t) ∧ ∀ m ∈ numbers, IsNumber m := by
  generalize hpattern : Pattern.many nextPattern = pattern at h
  generalize hgroups : ([] : List (List Char)) = g at h
  induction h generalizing n with
  | stop =>
    rw [List.append_nil]
    exact ⟨[n], .last (padded_self n), List.forall_mem_singleton.2 hn⟩
  | more hinner _ _ _ ih =>
    cases hpattern
    obtain ⟨rfl, rfl⟩ := List.append_eq_nil_iff.1 hgroups.symm
    obtain ⟨before, after, m, hbefore, hafter, hm, rfl⟩ := takes_next_iff.1 hinner
    obtain ⟨numbers, hitems, hnumbers⟩ := ih hm rfl rfl
    -- white space before the comma stands behind `n`, and white space behind the comma before the
    -- number that follows
    refine ⟨n :: numbers, ?_, List.forall_mem_cons.2 ⟨hn, hnumbers⟩⟩
    have hcons := Items.cons ((padded_self n).pad_right hbefore) (hitems.pad_left hafter)
    simpa only [List.append_assoc, List.cons_append] using hcons
  | _ => cases hpattern

/-- A list of numbers is taken, but for the white space around the whole. -/
theorem exists_takes_of_items (h : Items items inner) (hnumbers : ∀ n ∈ items, IsNumber n) :
    ∃ list, Padded list inner ∧ Takes listPattern list [] := by
  induction h with
  | @last n _ hitem =>
    have hn : IsNumber n := hnumbers n List.mem_cons_self
    exact ⟨n, hitem, takes_list_iff.2 ⟨n, [], hn, .stop, (List.append_nil n).symm⟩⟩
  | @cons n _ _ _ hitem _ ih =>
    obtain ⟨hn, hnumbers⟩ := List.forall_mem_cons.1 hnumbers
    obtain ⟨before, gap, hbefore, hgap, rfl⟩ := hitem
    obtain ⟨_, ⟨gap', after, hgap', hafter, rfl⟩, hlist⟩ := ih hnumbers
    obtain ⟨m, u, hm, hu, rfl⟩ := takes_list_iff.1 hlist
    have hnext : Takes nextPattern (gap ++ ',' :: (gap' ++ m)) [] :=
      takes_next_iff.2 ⟨gap, gap', m, hgap, hgap', hm, rfl⟩
    have hmore : Takes (.many nextPattern) ((gap ++ ',' :: (gap' ++ m)) ++ u) [] :=
      .more hnext (by simp) hu
    refine ⟨_, ⟨before, after, hbefore, hafter, ?_⟩, takes_list_iff.2 ⟨n, _, hn, hmore, rfl⟩⟩
    simp only [List.append_assoc, List.cons_append]

/-! ### Pins -/

theorem takes_countsHead_iff :
    Takes (concat countsHead) t g ↔ ∃ before inner list, Blank before ∧ Padded list inner ∧
    Takes listPattern list [] ∧ t = before ++ '\x7b' :: (inner ++ ['\x7d']) ∧ g = [list] := by
  have hinside : ∀ v, Takes (concat [spaces, .group listPattern, spaces, char '\x7d']) v g ↔
      ∃ list inner, Takes listPattern list [] ∧ Padded list inner ∧ v = inner ++ ['\x7d'] ∧
      g = [list] := by
    intro v
    simp only [takes_padded_group_iff (p := listPattern) rfl, takes_last_mark_iff]
    constructor
    · rintro ⟨list, inner, _, _, hlist, hinner, ⟨rfl, rfl⟩, rfl, rfl⟩
      exact ⟨list, inner, hlist, hinner, rfl, rfl⟩
    · rintro ⟨list, inner, hlist, hinner, rfl, rfl⟩
      exact ⟨list, inner, _, _, hlist, hinner, ⟨rfl, rfl⟩, rfl, rfl⟩
  rw [countsHead, takes_spaces_iff]
  simp only [takes_mark_iff, hinside]
  constructor
  · rintro ⟨before, _, hbefore, ⟨_, ⟨list, inner, hlist, hinner, rfl, rfl⟩, rfl⟩, rfl⟩
    exact ⟨before, inner, list, hbefore, hinner, hlist, rfl, rfl⟩
  · rintro ⟨before, inner, list, hbefore, hinner, hlist, rfl, rfl⟩
    exact ⟨before, _, hbefore, ⟨_, ⟨list, inner, hlist, hinner, rfl, rfl⟩, rfl⟩, rfl⟩

theorem pinnedToCounts_of_takes (h : Takes (concat countsHead) t g) (rest : List Char) :
    ∃ list, g = [list] ∧ PinnedToCounts ((list.splitOn ',').map trim) (dropOneSpace rest)
      (t ++ rest) := by
  obtain ⟨before, inner, list, hbefore, hinner, hlist, rfl, rfl⟩ := takes_countsHead_iff.1 h
  obtain ⟨n, u, hn, hu, rfl⟩ := takes_list_iff.1 hlist
  obtain ⟨numbers, hitems, hnumbers⟩ := items_of_takes_many hu hn
  have hcut : ((n ++ u).splitOn ',').map trim = numbers :=
    hitems.trim_splitOn fun m hm => (hnumbers m hm).isDelimiter
  refine ⟨n ++ u, rfl, ?_⟩
  rw [hcut]
  refine ⟨before, inner, rest, hbefore, hitems.pad hinner, hnumbers, ?_, afterPin_iff.2 rfl⟩
  simp only [List.append_assoc, List.cons_append, List.nil_append]

theorem exists_takes_of_pinnedToCounts (h : PinnedToCounts numbers text part) :
    ∃ t rest g, part = t ++ rest ∧ Takes (concat countsHead) t g := by
  obtain ⟨before, inner, rest, hbefore, hitems, hnumbers, rfl, -⟩ := h
  obtain ⟨list, hinner, hlist⟩ := exists_takes_of_items hitems hnumbers
  refine ⟨_, rest, _, ?_, takes_countsHead_iff.2 ⟨before, inner, list, hbefore, hinner,
    hlist, rfl, rfl⟩⟩
  simp only [List.append_assoc, List.cons_append, List.nil_append]

theorem takes_left_iff : Takes leftPattern t [] ↔ IsEnd true t := by
  simp only [leftPattern, takes_either_iff, takes_literal_iff, takes_char_iff, takes_number_iff,
    IsEnd, openEnds, if_true, List.mem_cons, List.not_mem_nil, or_false, and_true, or_assoc]
  rfl

theorem takes_right_iff : Takes rightPattern t [] ↔ IsEnd false t := by
  have hword : Takes (concat [.maybe (char '+'), literal "Inf".toList]) t [] ↔
      t = "Inf".toList ∨ t = "+Inf".toList := by
    simp only [takes_concat_plain_iff (p := .maybe (char '+')) rfl, takes_concat_singleton_iff,
      takes_maybe_iff, takes_char_iff, takes_literal_iff, and_true]
    constructor
    · rintro ⟨_, _, rfl | rfl, rfl, rfl⟩
      · exact .inr rfl
      · exact .inl rfl
    · rintro (rfl | rfl)
      · exact ⟨[], _, .inr rfl, rfl, rfl⟩
      · exact ⟨['+'], _, .inl rfl, rfl, rfl⟩
  simp only [rightPattern, takes_either_iff, hword, takes_char_iff, takes_number_iff, IsEnd,
    openEnds, Bool.false_eq_true, if_false, List.mem_cons, List.not_mem_nil, or_false,
    and_true, or_assoc]
  rfl

variable {opening closing : Char} {left right : List Char}

theorem items_pair_iff :
    Items [left, right] inner ↔ ∃ u v, Padded left u ∧ Padded right v ∧ inner = u ++ ',' :: v := by
  constructor
  · intro h
    cases h with
    | cons hleft hlast =>
      cases hlast with
      | last hright => exact ⟨_, _, hleft, hright, rfl⟩
      | cons _ hnone => cases hnone
  · rintro ⟨u, v, hleft, hright, rfl⟩
    exact .cons hleft (.last hright)

/-- The two ends of an interval, behind which the other patterns follow. -/
theorem takes_ends_iff :
    Takes (concat ([spaces, .group leftPattern, spaces, char ',', spaces, .group rightPattern,
      spaces] ++ ps)) t g ↔
    ∃ left right inner v k, IsEnd true left ∧ IsEnd false right ∧ Items [left, right] inner ∧
      Takes (concat ps) v k ∧ t = inner ++ v ∧ g = left :: right :: k := by
  simp only [List.cons_append, List.nil_append, takes_padded_group_iff (p := leftPattern) rfl,
    takes_padded_group_iff (p := rightPattern) rfl, takes_mark_iff, takes_left_iff, takes_right_iff,
    items_pair_iff]
  constructor
  · rintro ⟨left, u, _, _, hleft, hu, ⟨_, ⟨right, v, w, k, hright, hv, hrest, rfl, rfl⟩, rfl⟩, rfl,
      rfl⟩
    refine ⟨left, right, _, w, k, hleft, hright, ⟨u, v, hu, hv, rfl⟩, hrest, ?_, rfl⟩
    rw [List.append_assoc, List.cons_append]
  · rintro ⟨left, right, _, w, k, hleft, hright, ⟨u, v, hu, hv, rfl⟩, hrest, rfl, rfl⟩
    refine ⟨left, u, _, _, hleft, hu, ⟨_, ⟨right, v, w, k, hright, hv, hrest, rfl, rfl⟩, rfl⟩, ?_,
      rfl⟩
    rw [List.append_assoc, List.cons_append]

theorem takes_bracket_iff : Takes (concat (.group (.one isBracket) :: ps)) t g ↔
    ∃ c v k, isBracket c = true ∧ Takes (concat ps) v k ∧ t = c :: v ∧ g = [c] :: k := by
  rw [takes_concat_group_iff rfl]
  constructor
  · rintro ⟨u, v, k, hbracket, hrest, rfl, rfl⟩
    obtain ⟨c, hc, rfl, -⟩ := takes_one_iff.1 hbracket
    exact ⟨c, v, k, hc, hrest, rfl, rfl⟩
  · rintro ⟨c, v, k, hc, hrest, rfl, rfl⟩
    exact ⟨[c], v, k, .one hc, hrest, rfl, rfl⟩

theorem takes_intervalHead_iff :
    Takes (concat intervalHead) t g ↔ ∃ before opening inner left right closing,
      Blank before ∧ isBracket opening = true ∧ Items [left, right] inner ∧ IsEnd true left ∧
      IsEnd false right ∧ isBracket closing = true ∧
      t = before ++ opening :: (inner ++ [closing]) ∧
      g = [[opening], left, right, [closing]] := by
  rw [intervalHead, takes_spaces_iff]
  simp only [takes_bracket_iff, takes_ends_iff, takes_concat_nil_iff]
  constructor
  · rintro ⟨before, _, hbefore,
      ⟨opening, _, _, hopening,
        ⟨left, right, inner, _, _, hleft, hright, hinner,
          ⟨closing, _, _, hclosing, ⟨rfl, rfl⟩, rfl, rfl⟩, rfl, rfl⟩, rfl, rfl⟩, rfl⟩
    exact ⟨before, opening, inner, left, right, closing, hbefore, hopening, hinner, hleft, hright,
      hclosing, rfl, rfl⟩
  · rintro ⟨before, opening, inner, left, right, closing, hbefore, hopening, hinner, hleft, hright,
      hclosing, rfl, rfl⟩
    exact ⟨before, _, hbefore,
      ⟨opening, _, _, hopening,
        ⟨left, right, inner, _, _, hleft, hright, hinner,
          ⟨closing, _, _, hclosing, ⟨rfl, rfl⟩, rfl, rfl⟩, rfl, rfl⟩, rfl, rfl⟩, rfl⟩

theorem pinnedToInterval_of_takes (h : Takes (concat intervalHead) t g) (rest : List Char) :
    ∃ opening left right closing, g = [[opening], left, right, [closing]] ∧
      PinnedToInterval opening left right closing (dropOneSpace rest) (t ++ rest) := by
  obtain ⟨before, opening, inner, left, right, closing, hbefore, hopening, hitems, hleft, hright,
      hclosing, rfl, rfl⟩ :=
    takes_intervalHead_iff.1 h
  refine ⟨opening, left, right, closing, rfl, before, inner, rest, hbefore, hopening, hclosing,
    hitems, hleft, hright, ?_, afterPin_iff.2 rfl⟩
  simp only [List.append_assoc, List.cons_append, List.nil_append]

theorem exists_takes_of_pinnedToInterval
    (h : PinnedToInterval opening left right closing text part) :
    ∃ t rest g, part = t ++ rest ∧ Takes (concat intervalHead) t g := by
  obtain ⟨before, inner, rest, hbefore, hopening, hclosing, hitems, hleft, hright, rfl, -⟩ := h
  refine ⟨_, rest, _, ?_, takes_intervalHead_iff.2 ⟨before, opening, inner, left, right, closing,
    hbefore, hopening, hitems, hleft, hright, hclosing, rfl, rfl⟩⟩
  simp only [List.append_assoc, List.cons_append, List.nil_append]

theorem takes_labelHead_iff : Takes (concat labelHead) t g ↔
    ∃ before word, Blank before ∧ word ≠ [] ∧ (∀ c ∈ word, isWordChar c = true) ∧
    t = before ++ (word ++ [':']) ∧ g = [] := by
  simp only [labelHead, takes_spaces_iff, takes_mark_iff,
    takes_concat_plain_iff (p := atLeastOne (.one isWordChar)) rfl, takes_atLeastOne_one_iff,
    takes_concat_nil_iff, and_true]
  constructor
  · rintro ⟨before, _, hbefore, ⟨word, _, ⟨hne, hword⟩, ⟨_, ⟨rfl, rfl⟩, rfl⟩, rfl⟩, rfl⟩
    exact ⟨before, word, hbefore, hne, hword, rfl, rfl⟩
  · rintro ⟨before, word, hbefore, hne, hword, rfl, rfl⟩
    exact ⟨before, _, hbefore, ⟨word, _, ⟨hne, hword⟩, ⟨_, ⟨rfl, rfl⟩, rfl⟩, rfl⟩, rfl⟩

theorem labelled_of_takes (h : Takes (concat labelHead) t g) (rest : List Char) :
    g = [] ∧ Labelled (rest.dropWhile isSpace) (t ++ rest) := by
  obtain ⟨before, word, hbefore, hne, hword, rfl, rfl⟩ := takes_labelHead_iff.1 h
  obtain ⟨after, hafter, hrest⟩ := blank_takeWhile_append rest
  refine ⟨rfl, before, word, after, hbefore, hne, hword, hafter, isSpace_head?_dropWhile rest, ?_⟩
  rw [← hrest]
  simp only [List.append_assoc, List.cons_append, List.nil_append]

theorem exists_takes_of_labelled (h : Labelled text part) :
    ∃ t rest g, part = t ++ rest ∧ Takes (concat labelHead) t g := by
  obtain ⟨before, word, after, hbefore, hne, hword, -, -, rfl⟩ := h
  refine ⟨_, after ++ text, _, ?_,
    takes_labelHead_iff.2 ⟨before, word, hbefore, hne, hword, rfl, rfl⟩⟩
  simp only [List.append_assoc, List.cons_append, List.nil_append]

/-! ### The text behind -/

theorem captures?_pinTail (cs : List Char) :
    captures? (concat pinTail) cs = some [dropOneSpace cs] := by
  cases cs with
  | nil => exact captures?_before_rest (t := []) rfl
  | cons c cs =>
    rw [dropOneSpace]
    by_cases hc : isSpace c = true
    · rw [if_pos hc]
      refine captures?_before_rest (t := [c]) ?_
      rw [ways, ways, if_pos hc]
      rfl
    · rw [if_neg hc]
      refine captures?_before_rest (t := []) ?_
      rw [ways, ways, if_neg hc]
      rfl

theorem captures?_labelTail (cs : List Char) :
    captures? (concat labelTail) cs = some [cs.dropWhile isSpace] :=
  captures?_before_rest head?_ways_many_one

/-! ### Parts as forms -/

theorem captures?_countsPattern (part : List Char) :
    (captures? countsPattern part = none ∧ counts? part = none) ∨
    ∃ list text, captures? countsPattern part = some [list, text] ∧
      counts? part = some ((list.splitOn ',').map trim, text) := by
  rcases captures?_of_tail captures?_pinTail part with
    ⟨hnone, hhead⟩ | ⟨t, rest, g, rfl, htakes, hsome⟩
  · refine .inl ⟨hnone, Option.eq_none_iff_forall_ne_some.2 fun found hfound => ?_⟩
    obtain ⟨t, rest, g, hpart, htakes⟩ :=
      exists_takes_of_pinnedToCounts (counts?_eq_some_iff.1 hfound)
    exact hhead t rest g hpart htakes
  · obtain ⟨list, rfl, hpinned⟩ := pinnedToCounts_of_takes htakes rest
    exact .inr ⟨list, dropOneSpace rest, hsome, counts?_eq_some_iff.2 hpinned⟩

theorem captures?_intervalPattern (part : List Char) :
    (captures? intervalPattern part = none ∧ interval? part = none) ∨
    ∃ opening left right closing text,
      captures? intervalPattern part = some [[opening], left, right, [closing], text] ∧
      interval? part = some (opening, left, right, closing, text) := by
  rcases captures?_of_tail captures?_pinTail part with
    ⟨hnone, hhead⟩ | ⟨t, rest, g, rfl, htakes, hsome⟩
  · refine .inl ⟨hnone, Option.eq_none_iff_forall_ne_some.2 fun found hfound => ?_⟩
    obtain ⟨t, rest, g, hpart, htakes⟩ :=
      exists_takes_of_pinnedToInterval (interval?_eq_some_iff.1 hfound)
    exact hhead t rest g hpart htakes
  · obtain ⟨opening, left, right, closing, rfl, hpinned⟩ := pinnedToInterval_of_takes htakes rest
    exact .inr ⟨opening, left, right, closing, dropOneSpace rest, hsome,
      interval?_eq_some_iff.2 hpinned⟩

theorem captures?_labelPattern (part : List Char) :
    (captures? labelPattern part = none ∧ dropLabel part = part) ∨
    ∃ text, captures? labelPattern part = some [text] ∧ dropLabel part = text := by
  rcases captures?_of_tail captures?_labelTail part with
    ⟨hnone, hhead⟩ | ⟨t, rest, g, rfl, htakes, hsome⟩
  · refine .inl ⟨hnone, dropLabel_eq_iff.2 (.inr ⟨rfl, fun text hlabel => ?_⟩)⟩
    obtain ⟨t, rest, g, hpart, htakes⟩ := exists_takes_of_labelled hlabel
    exact hhead t rest g hpart htakes
  · obtain ⟨rfl, hlabel⟩ := labelled_of_takes htakes rest
    exact .inr ⟨rest.dropWhile isSpace, hsome, hlabel.dropLabel_eq⟩

/-- **The scanners find the form that the patterns read.** -/
theorem Form.ofChars_eq_byPatterns (part : List Char) : ofChars part = byPatterns part := by
  unfold ofChars byPatterns
  rcases captures?_countsPattern part with ⟨hcaptures, hcounts⟩ | ⟨list, text, hcaptures, hcounts⟩
  · rw [hcaptures, hcounts]
    dsimp only
    rcases captures?_intervalPattern part with
      ⟨hcaptures, hinterval⟩ | ⟨opening, left, right, closing, text, hcaptures, hinterval⟩
    · rw [hcaptures, hinterval]
      dsimp only
      rcases captures?_labelPattern part with ⟨hcaptures, hlabel⟩ | ⟨text, hcaptures, hlabel⟩
      · rw [hcaptures, hlabel]
      · rw [hcaptures, hlabel]
    · have hsingle : ∀ c d : Char, ([c] == [d]) = (c == d) := fun c d => Bool.and_true (c == d)
      rw [hcaptures, hinterval]
      dsimp only
      rw [hsingle, hsingle]
  · rw [hcaptures, hcounts]
    dsimp only
    rw [List.filterMap_map]
    rfl

end Plural

end Phrasebook
