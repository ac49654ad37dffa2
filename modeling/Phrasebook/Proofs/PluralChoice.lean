import Phrasebook.Proofs.Lists
import Phrasebook.Proofs.PinPatterns

/-!
# The choice of a plural form

Which text a message gives for a count, said of its written parts.

* `Plural.Reads`, `Plural.BoundAt` : the numbers that written numbers and ends of intervals stand
  for;
* `Plural.Admits` : a part is pinned to the count;
* `Plural.Selected` : the text of the first part that is pinned to the count, else of the unpinned
  part in its place, else all;
* `Plural.choose_follows_rule` : this is what is chosen.
-/

namespace Phrasebook

namespace Plural

open Text (isSpace isDecimalDigit)
open Double (numeral)

variable {cs text part : List Char} {numbers parts : List (List Char)} {count x : Double}

/-! ### Numbers -/

/-- All digits are among `0` to `9`. -/
def PlainDigits (cs : List Char) : Prop := ∀ c ∈ cs, isDecimalDigit c = true → c.isDigit = true

theorem Reads.ofChars?_eq (h : Reads cs x) : Double.ofChars? cs = some x := by
  obtain ⟨negative, whole, fraction, hspells, rfl⟩ := h
  rw [hspells.text]
  exact Double.ofChars?_signed negative hspells.whole_ne_nil hspells.whole_digits
    hspells.fraction_digits

theorem IsNumber.exists_reads (h : IsNumber cs) (hplain : PlainDigits cs) : ∃ x, Reads cs x := by
  obtain ⟨negative, whole, fraction, hspells⟩ := h
  have hwhole : ∀ c ∈ whole, c ∈ cs := by
    intro c hc
    rw [hspells.text, numeral]
    split <;> simp [hc]
  have hfraction : ∀ c ∈ fraction, c ∈ cs := by
    intro c hc
    have hne : ¬ fraction.isEmpty = true := by simpa using List.ne_nil_of_mem hc
    rw [hspells.text, numeral, if_neg hne]
    simp [hc]
  refine ⟨_, negative, whole, fraction, ⟨hspells.whole_ne_nil, ?_, ?_, hspells.text⟩, rfl⟩
  · exact fun c hc => hplain c (hwhole c hc) (hspells.whole_digits c hc)
  · exact fun c hc => hplain c (hfraction c hc) (hspells.fraction_digits c hc)

/-- What a written number of plain digits stands for. -/
theorem ofChars?_eq_some_iff (h : IsNumber cs) (hplain : PlainDigits cs) :
    Double.ofChars? cs = some x ↔ Reads cs x := by
  obtain ⟨y, hy⟩ := h.exists_reads hplain
  refine ⟨fun hx => ?_, Reads.ofChars?_eq⟩
  have hxy : x = y := Option.some.inj (hx.symm.trans hy.ofChars?_eq)
  exact hxy ▸ hy

/-- The bound at a written end of an interval: infinity if the end is open, and otherwise its
number. -/
def BoundAt (left : Bool) (cs : List Char) (x : Double) : Prop :=
  cs ∈ openEnds left ∧ x = .infinite left ∨ Reads cs x

theorem bound_eq_iff {left : Bool} (h : IsEnd left cs) (hplain : PlainDigits cs) :
    bound left cs = x ↔ BoundAt left cs x := by
  have hopen : ∀ ds ∈ openEnds left, bound left ds = .infinite left := by
    cases left <;> decide +kernel
  constructor
  · rintro rfl
    rcases h with h | h
    · exact .inl ⟨h, hopen cs h⟩
    · obtain ⟨y, hy⟩ := h.exists_reads hplain
      rw [bound, hy.ofChars?_eq]
      exact .inr hy
  · rintro (⟨h, rfl⟩ | h)
    · exact hopen cs h
    · rw [bound, h.ofChars?_eq]
      rfl

/-! ### Parts that admit a count -/

/-- The part is pinned to the count, with the text behind its pin: one of the listed numbers equals
the count, or the count lies within the bounds, where a bracket that is turned outward leaves its
bound out. -/
inductive Admits (count : Double) : List Char → List Char → Prop where
  | counts {numbers : List (List Char)} {text part n : List Char} {x : Double}
      (hpinned : PinnedToCounts numbers text part)
      (hn : n ∈ numbers) (hx : Reads n x) (hcount : x.equals count = true) : Admits count part text
  | interval {opening closing : Char} {left right text part : List Char} {a b : Double}
      (hpinned : PinnedToInterval opening left right closing text part) (ha : BoundAt true left a)
        (hb : BoundAt false right b)
      (hleft : (if opening = '[' then a.atMost count else a.below count) = true)
      (hright : (if closing = ']' then count.atMost b else count.below b) = true) :
        Admits count part text

/-- All digits in the pin of a part are plain. -/
structure PlainPin (part : List Char) : Prop where
  counts : ∀ numbers text, PinnedToCounts numbers text part → ∀ n ∈ numbers, PlainDigits n
  interval : ∀ opening left right closing text,
      PinnedToInterval opening left right closing text part →
    PlainDigits left ∧ PlainDigits right

theorem plainPin_of_plainDigits (h : PlainDigits part) : PlainPin part := by
  refine ⟨fun numbers text hpinned n hn c hc => h c ?_,
    fun opening left right closing text hpinned => ?_⟩
  · obtain ⟨before, inner, rest, -, hitems, -, rfl, -⟩ := hpinned
    have hinner := hitems.mem_inner hn hc
    simp [hinner]
  · obtain ⟨before, inner, rest, -, -, -, hitems, -, -, rfl, -⟩ := hpinned
    refine ⟨fun c hc => h c ?_, fun c hc => h c ?_⟩
    · have hinner := hitems.mem_inner (List.mem_cons_self) hc
      simp [hinner]
    · have hinner := hitems.mem_inner (List.mem_cons_of_mem left List.mem_cons_self) hc
      simp [hinner]

/-- A part is pinned to counts or to an interval, not to both. -/
theorem PinnedToCounts.not_pinnedToInterval (h : PinnedToCounts numbers text part)
    {opening closing : Char} {left right t : List Char} :
    ¬ PinnedToInterval opening left right closing t part := by
  obtain ⟨before, inner, rest, hbefore, -, -, rfl, -⟩ := h
  rintro ⟨before', inner', rest', hbefore', hopening, -, -, -, -, heq, -⟩
  have hspace : isSpace opening = false := by
    rcases isBracket_iff.1 hopening with rfl | rfl <;> decide +kernel
  have hdrop := congrArg (List.dropWhile isSpace) heq
  rw [dropWhile_blank hbefore (by decide +kernel), dropWhile_blank hbefore' hspace] at hdrop
  obtain rfl := (List.cons_eq_cons.1 hdrop).1
  exact absurd hopening (by decide +kernel)

theorem admits_counts_iff (hnumbers : ∀ n ∈ numbers, IsNumber n)
    (hplain : ∀ n ∈ numbers, PlainDigits n) :
    (Pin.counts (numbers.filterMap Double.ofChars?)).admits count = true ↔
      ∃ n ∈ numbers, ∃ x, Reads n x ∧ x.equals count = true := by
  have hread : ∀ n ∈ numbers, ∀ x, Double.ofChars? n = some x ↔ Reads n x := fun n hn x =>
    ofChars?_eq_some_iff (hnumbers n hn) (hplain n hn)
  rw [Pin.admits, List.any_eq_true]
  simp only [List.mem_filterMap]
  constructor
  · rintro ⟨x, ⟨n, hn, hx⟩, hcount⟩
    exact ⟨n, hn, x, (hread n hn x).1 hx, hcount⟩
  · rintro ⟨n, hn, x, hx, hcount⟩
    exact ⟨x, ⟨n, hn, (hread n hn x).2 hx⟩, hcount⟩

theorem admits_interval_iff {opening closing : Char} {left right : List Char}
    (hleft : IsEnd true left) (hright : IsEnd false right)
    (hplain : PlainDigits left ∧ PlainDigits right) :
    (Pin.interval (opening == '[') (bound true left) (bound false right) (closing == ']')).admits
      count = true ↔
      ∃ a b, BoundAt true left a ∧ BoundAt false right b ∧
        (if opening = '[' then a.atMost count else a.below count) = true ∧
        (if closing = ']' then count.atMost b else count.below b) = true := by
  simp only [Pin.admits, Bool.and_eq_true, beq_iff_eq, ← bound_eq_iff hleft hplain.1,
    ← bound_eq_iff hright hplain.2, exists_eq_left', exists_and_left]

/-- A pinned form whose pin admits the count has the text of the part. -/
theorem pinned?_eq_some_iff (hplain : PlainPin part) :
    (Form.ofChars part).pinned? count = some text ↔ Admits count part text := by
  have hform : ∀ pin t, (Form.pinned pin t).pinned? count = some text ↔
      pin.admits count = true ∧ t = text := by
    intro pin t
    rw [Form.pinned?, Option.ite_none_right_eq_some, Option.some.injEq]
  unfold Form.ofChars
  cases hcounts : counts? part with
  | some found =>
    obtain ⟨numbers, t⟩ := found
    have hpinned := counts?_eq_some_iff.1 hcounts
    dsimp only
    rw [hform, admits_counts_iff hpinned.isNumber (hplain.counts numbers t hpinned)]
    constructor
    · rintro ⟨⟨n, hn, x, hx, hcount⟩, rfl⟩
      exact .counts hpinned hn hx hcount
    · intro h
      cases h with
      | counts hpinned' hn hx hcount =>
        obtain ⟨rfl, rfl⟩ :=
          Prod.mk.inj (Option.some.inj (hcounts.symm.trans (counts?_eq_some_iff.2 hpinned')))
        exact ⟨⟨_, hn, _, hx, hcount⟩, rfl⟩
      -- the scanner of counts comes first, but a part with braces has no interval for the other one
      -- to find
      | interval hinterval => exact absurd hinterval hpinned.not_pinnedToInterval
  | none =>
    have hnot : ∀ numbers t, ¬ PinnedToCounts numbers t part := fun numbers t h =>
      Option.some_ne_none _ ((counts?_eq_some_iff.2 h).symm.trans hcounts)
    dsimp only
    cases hinterval : interval? part with
    | some found =>
      obtain ⟨opening, left, right, closing, t⟩ := found
      have hpinned := interval?_eq_some_iff.1 hinterval
      dsimp only
      rw [hform, admits_interval_iff hpinned.isEnd.1 hpinned.isEnd.2
        (hplain.interval opening left right closing t hpinned)]
      constructor
      · rintro ⟨⟨a, b, ha, hb, hleft, hright⟩, rfl⟩
        exact .interval hpinned ha hb hleft hright
      · intro h
        cases h with
        | counts hcounts' => exact absurd hcounts' (hnot _ _)
        | interval hpinned' ha hb hleft hright =>
          have hsame := Option.some.inj (hinterval.symm.trans (interval?_eq_some_iff.2 hpinned'))
          simp only [Prod.mk.injEq] at hsame
          obtain ⟨rfl, rfl, rfl, rfl, rfl⟩ := hsame
          exact ⟨⟨_, _, ha, hb, hleft, hright⟩, rfl⟩
    | none =>
      refine ⟨nofun, fun h => ?_⟩
      cases h with
      | counts hcounts' => exact absurd hcounts' (hnot _ _)
      | interval hpinned =>
        exact absurd (interval?_eq_some_iff.2 hpinned) (hinterval ▸ nofun)

/-! ### Unpinned parts -/

def Unpinned (part : List Char) : Prop :=
  (∀ numbers text, ¬ PinnedToCounts numbers text part) ∧
    ∀ opening left right closing text, ¬ PinnedToInterval opening left right closing text part

theorem unpinned_iff : Unpinned part ↔ counts? part = none ∧ interval? part = none := by
  simp only [Unpinned, Option.eq_none_iff_forall_ne_some, Prod.forall, ne_eq, counts?_eq_some_iff,
    interval?_eq_some_iff]

instance (part : List Char) : Decidable (Unpinned part) := decidable_of_iff _ unpinned_iff.symm

/-- The text of an unpinned part, without its label if it has one. -/
def Bare (text part : List Char) : Prop := Labelled text part ∨ text = part ∧ ∀ t, ¬ Labelled t part

theorem unpinned?_ofChars (part : List Char) :
    (Form.ofChars part).unpinned? = if Unpinned part then some (dropLabel part) else none := by
  unfold Form.ofChars
  rw [if_congr unpinned_iff rfl rfl]
  cases counts? part with
  | some found => rfl
  | none =>
    cases interval? part with
    | some found => rfl
    | none => rfl

/-! ### The rule -/

def unpinnedParts (parts : List (List Char)) : List (List Char) := parts.filter fun p => Unpinned p

/-- What the rule selects for a count: the text of the first part that admits it; if none does, that
of the unpinned part in the place of the count, or of the last one; and if there is none, the
message. -/
inductive Selected (count : Double) (locale : String) (message : List Char)
    (parts : List (List Char)) : List Char → Prop where
  | pinned {text : List Char} (hfirst : FirstOf (Admits count) parts text) :
      Selected count locale message parts text
  | unpinned {part text : List Char} (hnone : ∀ p ∈ parts, ∀ t, ¬ Admits count p t)
      (hpart : (unpinnedParts parts)[min (index count locale) ((unpinnedParts parts).length - 1)]? =
        some part)
      (htext : Bare text part) : Selected count locale message parts text
  | message (hnone : ∀ p ∈ parts, ∀ t, ¬ Admits count p t) (hpinned : unpinnedParts parts = []) :
      Selected count locale message parts message

variable {locale : String} {message : String}

theorem firstOf_admits_iff (hplain : ∀ p ∈ parts, PlainPin p) :
    FirstOf (Admits count) parts text ↔
      (parts.map Form.ofChars).findSome? (Form.pinned? count) = some text := by
  rw [List.findSome?_map, ← firstOf_iff_findSome?]
  exact firstOf_congr fun p hp t => (pinned?_eq_some_iff (hplain p hp)).symm

theorem filterMap_unpinned? (parts : List (List Char)) :
    (parts.map Form.ofChars).filterMap Form.unpinned? = (unpinnedParts parts).map dropLabel := by
  induction parts with
  | nil => rfl
  | cons p ps ih =>
    rw [List.map_cons, List.filterMap_cons, unpinned?_ofChars, ih, unpinnedParts, unpinnedParts,
      List.filter_cons]
    by_cases hp : Unpinned p <;> simp [hp]

theorem toList_choose (hbar : '|' ∈ message.toList) : (choose message count locale).toList =
    match ((message.toList.splitOn '|').map Form.ofChars).findSome? (Form.pinned? count) with
    | some text => text
    | none =>
      match (unpinnedParts (message.toList.splitOn '|'))[min (index count locale)
        ((unpinnedParts (message.toList.splitOn '|')).length - 1)]? with
      | some part => dropLabel part
      | none => message.toList := by
  have hcontains : (!message.toList.contains '|') = false := by simpa using hbar
  unfold choose
  dsimp only
  rw [hcontains, filterMap_unpinned?, List.length_map, List.getElem?_map]
  simp only [Bool.false_eq_true, if_false]
  cases List.findSome? (Form.pinned? count) ((message.toList.splitOn '|').map Form.ofChars) with
  | some text => exact String.toList_ofList
  | none =>
    dsimp only
    cases (unpinnedParts (message.toList.splitOn '|'))[min (index count locale)
        ((unpinnedParts (message.toList.splitOn '|')).length - 1)]? with
    | some part => exact String.toList_ofList
    | none => rfl

theorem not_admits_of_findSome? (hplain : ∀ p ∈ parts, PlainPin p)
    (hnone : (parts.map Form.ofChars).findSome? (Form.pinned? count) = none) :
    ∀ p ∈ parts, ∀ t, ¬ Admits count p t := by
  intro p hp t h
  have hpinned := List.findSome?_eq_none_iff.1 hnone (Form.ofChars p) (List.mem_map_of_mem hp)
  exact Option.some_ne_none t (((pinned?_eq_some_iff (hplain p hp)).2 h).symm.trans hpinned)

theorem eq_nil_of_getElem?_min {ps : List (List Char)} {i : Nat}
    (h : ps[min i (ps.length - 1)]? = none) : ps = [] := by
  rw [List.getElem?_eq_none_iff] at h
  exact List.length_eq_zero_iff.1 (by omega)

/-- The rule selects one text. -/
theorem selected_iff {whole : List Char} (hplain : ∀ p ∈ parts, PlainPin p) :
    Selected count locale whole parts text ↔
    text = match (parts.map Form.ofChars).findSome? (Form.pinned? count) with
      | some t => t
      | none =>
        match (unpinnedParts parts)[min (index count locale)
          ((unpinnedParts parts).length - 1)]? with
        | some part => dropLabel part
        | none => whole := by
  cases hfirst : (parts.map Form.ofChars).findSome? (Form.pinned? count) with
  | some t =>
    have hpinned : FirstOf (Admits count) parts t := (firstOf_admits_iff hplain).2 hfirst
    have hsome : ¬ ∀ p ∈ parts, ∀ t, ¬ Admits count p t := by
      obtain ⟨before, p, behind, rfl, hp, -⟩ := hpinned
      exact fun hnone => hnone p (by simp) t hp
    constructor
    · intro h
      cases h with
      | pinned h => exact Option.some.inj (((firstOf_admits_iff hplain).1 h).symm.trans hfirst)
      | unpinned hnone => exact absurd hnone hsome
      | message hnone => exact absurd hnone hsome
    · rintro rfl
      exact .pinned hpinned
  | none =>
    have hnone := not_admits_of_findSome? hplain hfirst
    have hfirst' : ¬ FirstOf (Admits count) parts text := by
      rintro ⟨before, p, behind, rfl, hp, -⟩
      exact hnone p (by simp) text hp
    dsimp only
    cases hpart :
      (unpinnedParts parts)[min (index count locale) ((unpinnedParts parts).length - 1)]? with
    | some part =>
      constructor
      · intro h
        cases h with
        | pinned h => exact absurd h hfirst'
        | unpinned _ hpart' htext =>
          obtain rfl := Option.some.inj (hpart.symm.trans hpart')
          exact (dropLabel_eq_iff.2 htext).symm
        | message _ hnil =>
          rw [hnil] at hpart
          cases hpart
      · rintro rfl
        exact .unpinned hnone hpart (dropLabel_eq_iff.1 rfl)
    | none =>
      constructor
      · intro h
        cases h with
        | pinned h => exact absurd h hfirst'
        | unpinned _ hpart' _ => exact absurd (hpart'.symm.trans hpart) (Option.some_ne_none _)
        | message => rfl
      · rintro rfl
        exact .message hnone (eq_nil_of_getElem?_min hpart)

/-- **The choice of a plural form follows its rule.**  A message without bars is used as it is.  A
message with bars is divided into parts in one way, and every part is the form that the patterns of
pins and labels read in it; and if all digits in the pins are plain, the text that is chosen for a
count is the one that the rule selects, and no other. -/
theorem choose_follows_rule (message : String) (count : Double) (locale : String) :
    ('|' ∉ message.toList → choose message count locale = message) ∧
    ('|' ∈ message.toList → ∃ parts, (∀ ps, Divides '|' ps message.toList ↔ ps = parts) ∧
      (∀ p ∈ parts, Form.ofChars p = Form.byPatterns p) ∧
      ((∀ p ∈ parts, PlainPin p) → ∀ chosen,
        choose message count locale = chosen ↔
          Selected count locale message.toList parts chosen.toList)) := by
  refine ⟨fun hbar => ?_,
    fun hbar => ⟨message.toList.splitOn '|', fun ps => ?_, fun p _ => Form.ofChars_eq_byPatterns p,
    fun hplain chosen => ?_⟩⟩
  · have hcontains : (!message.toList.contains '|') = true := by simpa using hbar
    exact if_pos hcontains
  · exact divides_iff.trans eq_comm
  · rw [selected_iff hplain, ← toList_choose hbar, String.toList_inj, eq_comm]

/-- Zero apples are pinned, and so are more than one; one apple has a label. -/
theorem choose_follows_rule_apples :
    let message := "\x7b0\x7d No apples|one: An apple|]1,Inf[ Many apples"
    '|' ∉ "An apple".toList ∧ choose "An apple" .nan "en" = "An apple" ∧
      ∃ parts, Divides '|' parts message.toList ∧ (∀ p ∈ parts, PlainPin p) ∧
        choose message (.ofNat 5) "en" = "Many apples" ∧
          Selected (.ofNat 5) "en" message.toList parts "Many apples".toList := by
  intro message
  have hwhole : '|' ∉ "An apple".toList := by decide
  have hbar : '|' ∈ message.toList := by decide
  have hdigits : (message.toList.splitOn '|').all
      (fun p => p.all fun c => !isDecimalDigit c || c.isDigit) = true := by
    decide +kernel
  have hchosen : choose message (.ofNat 5) "en" = "Many apples" := by decide +kernel
  refine ⟨hwhole, (choose_follows_rule "An apple" .nan "en").1 hwhole, ?_⟩
  obtain ⟨parts, hparts, -, hselected⟩ := (choose_follows_rule message (.ofNat 5) "en").2 hbar
  obtain rfl : message.toList.splitOn '|' = parts := (hparts _).1 (divides_iff.2 rfl)
  have hplain : ∀ p ∈ message.toList.splitOn '|', PlainPin p := by
    refine fun p hp => plainPin_of_plainDigits fun c hc hdigit => ?_
    simpa [hdigit] using List.all_eq_true.1 (List.all_eq_true.1 hdigits p hp) c hc
  exact ⟨_, divides_iff.2 rfl, hplain, hchosen, (hselected hplain _).1 hchosen⟩

end Plural

end Phrasebook
