import Phrasebook.Proofs.TokenLayout
import Phrasebook.Template

/-!
# The text of tags

The reader of templates follows quotation marks character by character, the one of expressions token
by token.

* `Tag.Mode.after` : where in a tag the characters after a text stand;
* `Tag.exists_splitClose`, `Tag.of_splitClose` : a tag is cut at the first closing that stands
  outside quoted text;
* `Template.segments_of_tag` : the segments of a text by its first tag;
* `Template.tag_induction`, `Template.segments_induction` : induction over a text tag by tag;
* `Token.Layout.after_outside` : a text without lexical faults ends outside quoted text;
* `Token.Layout.outside_iff` : punctuation outside quoted text is a token, and no other is;
* `Token.Layout.countP_punct` : so there are as many tokens of a punctuation mark as it stands
  outside quoted text.
-/

namespace Phrasebook

namespace Tag

/-! ### Modes -/

def Mode.after (m : Mode) (cs : List Char) : Mode := cs.foldl Mode.next m

namespace Mode

theorem inside_ne_outside (q : Char) : inside q ≠ outside := fun h => by cases h

theorem escaped_ne_outside (q : Char) : escaped q ≠ outside := fun h => by cases h

theorem after_append (m : Mode) (as bs : List Char) : m.after (as ++ bs) = (m.after as).after bs :=
  List.foldl_append

theorem after_cons (m : Mode) (c : Char) (cs : List Char) : m.after (c :: cs) =
    (m.next c).after cs := rfl

/-- No character but a quotation mark begins quoted text. -/
theorem next_plain {c : Char} (h : isQuote c = false) : outside.next c = outside := by
  simp [next, h]

theorem next_quote {q : Char} (h : isQuote q = true) : outside.next q = inside q := if_pos h

theorem next_inside {q c : Char} (hc : c ≠ '\x5c') (hq : c ≠ q) : (inside q).next c = inside q := by
  simp [next, hc, hq]

theorem next_mark {q : Char} (hq : q ≠ '\x5c') : (inside q).next q = outside := by simp [next, hq]

/-- Without quotation marks there is no quoted text. -/
theorem after_of_noQuote {cs : List Char} (h : ∀ c ∈ cs, isQuote c = false) :
    outside.after cs = outside := by
  induction cs with
  | nil => rfl
  | cons c cs ih =>
    rw [after_cons, next_plain (h c (List.mem_cons_self ..)),
      ih fun d hd => h d (List.mem_cons_of_mem _ hd)]

/-- Every character of the text stands in quoted text. -/
def Quoted : Mode → List Char → Prop
  | _, [] => True
  | m, c :: cs => m ≠ outside ∧ Quoted (m.next c) cs

/-- How often a character stands outside quoted text. -/
def countOutside (d : Char) : Mode → List Char → Nat
  | _, [] => 0
  | m, c :: cs => (if m = outside ∧ c = d then 1 else 0) + countOutside d (m.next c) cs

theorem Quoted.not_outside {m : Mode} {as bs : List Char} {c : Char}
    (h : Quoted m (as ++ c :: bs)) : m.after as ≠ outside := by
  induction as generalizing m with
  | nil => exact h.1
  | cons a as ih => exact ih h.2

theorem countOutside_append (d : Char) (m : Mode) (as bs : List Char) :
    countOutside d m (as ++ bs) = countOutside d m as + countOutside d (m.after as) bs := by
  induction as generalizing m with
  | nil => exact (Nat.zero_add _).symm
  | cons a as ih =>
    show _ + countOutside d (m.next a) (as ++ bs) = _ + countOutside d (m.next a) as + _
    rw [ih, Nat.add_assoc]
    rfl

theorem countOutside_of_not_mem {d : Char} {cs : List Char} (m : Mode) (h : d ∉ cs) :
    countOutside d m cs = 0 := by
  induction cs generalizing m with
  | nil => rfl
  | cons c cs ih =>
    have hne : c ≠ d := fun hc => h (hc ▸ List.mem_cons_self ..)
    show (if m = outside ∧ c = d then 1 else 0) + countOutside d (m.next c) cs = 0
    rw [if_neg fun hand => hne hand.2, ih _ fun hd => h (List.mem_cons_of_mem _ hd)]

theorem countOutside_of_quoted {d : Char} {m : Mode} {cs : List Char} (h : Quoted m cs) :
    countOutside d m cs = 0 := by
  induction cs generalizing m with
  | nil => rfl
  | cons c cs ih =>
    show (if m = outside ∧ c = d then 1 else 0) + countOutside d (m.next c) cs = 0
    rw [if_neg fun hand => h.1 hand.1, ih h.2]

end Mode

/-- The inside of a string is quoted text, and ends where the mode goes back outside. -/
theorem after_inside {q : Char} (hq : q ≠ '\x5c') {cs value raw rest : List Char} :
    Lexeme.scanQuoted q cs = .closed value raw rest →
      (Mode.inside q).after raw = .outside ∧ Mode.Quoted (.inside q) raw := by
  fun_induction Lexeme.scanQuoted q cs generalizing value raw with
  | case1 | case2 | case3 =>
    intro h
    cases h
  | case4 c cs _ ih =>
    intro h
    obtain ⟨v, r, hs, -, rfl⟩ := Lexeme.push_eq_closed h
    exact ⟨(ih hs).1, Mode.inside_ne_outside q, Mode.escaped_ne_outside q, (ih hs).2⟩
  | case5 cs =>
    rintro ⟨⟩
    exact ⟨Mode.next_mark hq, Mode.inside_ne_outside q, trivial⟩
  | case6 c cs hlast hpair hc ih =>
    intro h
    obtain ⟨v, r, hs, -, rfl⟩ := Lexeme.push_eq_closed h
    have hplain : c ≠ '\x5c' := by
      rintro rfl
      cases cs with
      | nil => exact hlast rfl rfl
      | cons d cs => exact hpair d cs rfl rfl
    have hnext := Mode.next_inside hplain hc
    refine ⟨?_, Mode.inside_ne_outside q, ?_⟩
    · show ((Mode.inside q).next c).after r = .outside
      rw [hnext]
      exact (ih hs).1
    · show Mode.Quoted ((Mode.inside q).next c) r
      rw [hnext]
      exact (ih hs).2

/-! ### Where tags close -/

theorem splitClose_cons {m : Mode} {c : Char} {as : List Char}
    (h : ¬(m = .outside ∧ c = '\x7d' ∧ as.head? = some '\x7d')) :
    splitClose m (c :: as) = (splitClose (m.next c) as).map fun p => (c :: p.1, p.2) := by
  rw [splitClose.eq_def]
  split
  · next heq => cases heq
  · next heq =>
    obtain ⟨rfl, rfl⟩ := List.cons.inj heq
    exact absurd ⟨rfl, rfl, rfl⟩ h
  · next heq =>
    obtain ⟨rfl, rfl⟩ := List.cons.inj heq
    rfl

/-- A tag is cut at a closing that stands outside quoted text. -/
theorem of_splitClose {m : Mode} {cs inner rest : List Char} :
    splitClose m cs = some (inner, rest) → cs = inner ++ '\x7d' :: '\x7d' :: rest ∧
      m.after inner = .outside := by
  fun_induction splitClose m cs generalizing inner with
  | case1 =>
    intro h
    cases h
  | case2 cs =>
    rintro ⟨⟩
    exact ⟨rfl, rfl⟩
  | case3 m c cs _ ih =>
    intro h
    obtain ⟨⟨inner', rest'⟩, hsplit, he⟩ := Option.map_eq_some_iff.1 h
    cases he
    obtain ⟨rfl, hafter⟩ := ih hsplit
    exact ⟨rfl, hafter⟩

/-- A tag is cut no later than at the first closing outside quoted text. -/
theorem exists_splitClose {m : Mode} {before : List Char} (after : List Char)
    (h : m.after before = .outside) :
    ∃ inner rest, splitClose m (before ++ '\x7d' :: '\x7d' :: after) = some (inner, rest) ∧
      inner <+: before := by
  induction before generalizing m with
  | nil =>
    obtain rfl : m = .outside := h
    exact ⟨[], after, rfl, List.prefix_refl _⟩
  | cons c before ih =>
    rw [List.cons_append, splitClose.eq_def]
    split
    · next heq => cases heq
    · next => exact ⟨[], _, rfl, List.nil_prefix⟩
    · next heq =>
      obtain ⟨rfl, rfl⟩ := List.cons.inj heq
      obtain ⟨inner, rest, hsplit, hprefix⟩ := ih h
      refine ⟨c :: inner, rest, by rw [hsplit]; rfl, ?_⟩
      exact (List.prefix_append_right_inj [c]).2 hprefix

theorem splitOpen_cons {c : Char} {as : List Char} (h : ¬(c = '\x7b' ∧ as.head? = some '\x7b')) :
    splitOpen (c :: as) = (splitOpen as).map fun p => (c :: p.1, p.2) := by
  rw [splitOpen.eq_def]
  split
  · next heq => cases heq
  · next heq =>
    obtain ⟨rfl, rfl⟩ := List.cons.inj heq
    exact absurd ⟨rfl, rfl⟩ h
  · next heq =>
    obtain ⟨rfl, rfl⟩ := List.cons.inj heq
    rfl

theorem of_splitOpen {cs text rest : List Char} :
    splitOpen cs = some (text, rest) → cs = text ++ '\x7b' :: '\x7b' :: rest := by
  fun_induction splitOpen cs generalizing text with
  | case1 =>
    intro h
    cases h
  | case2 cs =>
    rintro ⟨⟩
    rfl
  | case3 c cs _ ih =>
    intro h
    obtain ⟨⟨text', rest'⟩, hsplit, he⟩ := Option.map_eq_some_iff.1 h
    cases he
    rw [ih hsplit]
    rfl

/-- A text has the line ends before the opening of a tag and those behind it. -/
theorem lineEnds_of_splitOpen {cs text rest : List Char} (h : splitOpen cs = some (text, rest)) :
    lineEnds cs = lineEnds text + lineEnds rest := by
  rw [of_splitOpen h]
  simp

/-- A text has the line ends before the closing of a tag and those behind it. -/
theorem lineEnds_of_splitClose {m : Mode} {cs inner rest : List Char}
    (h : splitClose m cs = some (inner, rest)) : lineEnds cs = lineEnds inner + lineEnds rest := by
  rw [(of_splitClose h).1]
  simp

end Tag

/-! ### Segments, tag by tag -/

namespace Template

theorem segments_of_text {cs : List Char} (h : Tag.splitOpen cs = none) (line : Nat) :
    segments line cs = .ok (textSegments cs line) := by
  rw [segments]
  split
  · rfl
  · next ho => rw [h] at ho; cases ho

theorem segments_of_open {cs text rest : List Char} (ho : Tag.splitOpen cs = some (text, rest))
    (hc : Tag.splitClose .outside rest = none) (line : Nat) :
    segments line cs = .error (.parse .unclosedTag "" (line + lineEnds text)) := by
  rw [segments]
  split
  · next h => rw [ho] at h; cases h
  · next h =>
    rw [ho] at h
    cases h
    dsimp only
    split
    · rfl
    · next h => rw [hc] at h; cases h

theorem segments_of_tag {cs text rest inner after : List Char}
    (ho : Tag.splitOpen cs = some (text, rest))
    (hc : Tag.splitClose .outside rest = some (inner, after)) (line : Nat) :
    segments line cs = Expr.parse (.ofList inner) (line + lineEnds text) >>= fun e =>
      segments (line + lineEnds text + lineEnds inner) after >>= fun more =>
        .ok (textSegments text line ++ .print e (line + lineEnds text) :: more) := by
  rw [segments]
  split
  · next h => rw [ho] at h; cases h
  · next h =>
    rw [ho] at h
    cases h
    dsimp only
    split
    · next h => rw [hc] at h; cases h
    · next h =>
      rw [hc] at h
      cases h
      rfl

/-- Induction over a text tag by tag: what holds of texts without a tag and of texts with a tag that
does not close, and of a text with a tag whenever it holds of what follows the tag, holds of every
text. -/
theorem tag_induction {P : List Char → Prop} (text : ∀ cs, Tag.splitOpen cs = none → P cs)
    (unclosed : ∀ cs text rest, Tag.splitOpen cs = some (text, rest) →
      Tag.splitClose .outside rest = none → P cs)
    (tag : ∀ cs text rest inner after, Tag.splitOpen cs = some (text, rest) →
      Tag.splitClose .outside rest = some (inner, after) → P after → P cs)
    (cs : List Char) : P cs := by
  obtain ⟨n, hn⟩ : ∃ n, cs.length = n := ⟨_, rfl⟩
  induction n using Nat.strong_induction_on generalizing cs with
  | _ n ih =>
    cases ho : Tag.splitOpen cs with
    | none => exact text cs ho
    | some split =>
      obtain ⟨before, rest⟩ := split
      cases hc : Tag.splitClose .outside rest with
      | none => exact unclosed cs before rest ho hc
      | some cut =>
        obtain ⟨inner, after⟩ := cut
        have hlength := Nat.lt_trans (Tag.length_splitClose_lt hc) (Tag.length_splitOpen_lt ho)
        exact tag cs before rest inner after ho hc (ih _ (hn ▸ hlength) after rfl)

/-- Induction over an accepted text tag by tag: what holds of texts without a tag, and of a text
whose first tag is an expression whenever it holds of what follows the tag, holds of every text that
has segments. -/
theorem segments_induction {P : ∀ {line : Nat} {cs : List Char} {segs : List Segment},
    segments line cs = .ok segs → Prop}
    (text : ∀ line cs (ho : Tag.splitOpen cs = none), P (segments_of_text ho line))
    (tag : ∀ line cs text rest inner after e more, Tag.splitOpen cs = some (text, rest) →
      Tag.splitClose .outside rest = some (inner, after) →
      Expr.parse (.ofList inner) (line + lineEnds text) = .ok e →
      ∀ hmore : segments (line + lineEnds text + lineEnds inner) after = .ok more, P hmore →
        ∀ h : segments line cs =
        .ok (textSegments text line ++ .print e (line + lineEnds text) :: more), P h) {line : Nat}
        {cs : List Char} {segs : List Segment} (h : segments line cs = .ok segs) : P h := by
  induction cs using tag_induction generalizing line segs with
  | text cs ho =>
    obtain rfl : textSegments cs line = segs :=
      Except.ok.inj ((segments_of_text ho line).symm.trans h)
    exact text line cs ho
  | unclosed cs before rest ho hc =>
    rw [segments_of_open ho hc] at h
    cases h
  | tag cs before rest inner after ho hc ih =>
    obtain ⟨e, he, hrest⟩ := Outcome.bind_eq_ok.1 ((segments_of_tag ho hc line).symm.trans h)
    obtain ⟨more, hmore, hsegs⟩ := Outcome.bind_eq_ok.1 hrest
    cases hsegs
    exact tag line cs before rest inner after e more ho hc he hmore (ih hmore) h

end Template

/-! ### Tokens and quoted text -/

namespace Lexeme

open Tag

variable {x : Lexeme} {raw : List Char} {d : Char}

theorem isQuote_ne_backslash {q : Char} (h : isQuote q = true) : q ≠ '\x5c' := by
  rintro rfl
  revert h
  decide

/-- Punctuation is no quotation mark. -/
theorem isQuote_of_isPunctuation {c : Char} (h : isPunctuation c = true) : isQuote c = false := by
  rw [isPunctuation_iff] at h
  simp only [List.mem_cons, List.not_mem_nil, or_false] at h
  rcases h with rfl | rfl | rfl | rfl | rfl | rfl | rfl | rfl | rfl <;> rfl

theorem isQuote_of_isBlank {c : Char} (h : isBlank c = true) : isQuote c = false := by
  rw [← Bool.not_eq_true, isQuote_iff]
  rintro (rfl | rfl) <;> revert h <;> decide

theorem isPunctuation_of_isBlank {c : Char} (h : isBlank c = true) : isPunctuation c = false := by
  rw [← Bool.not_eq_true, isPunctuation_iff]
  intro hp
  simp only [List.mem_cons, List.not_mem_nil, or_false] at hp
  rcases hp with rfl | rfl | rfl | rfl | rfl | rfl | rfl | rfl | rfl <;> revert h <;> decide

/-- Outside quoted text, a string is quoted text behind its first mark. -/
theorem after_quote {q : Char} (hq : isQuote q = true) (body : List Char) :
    Mode.outside.after (q :: body) = (Mode.inside q).after body := by
  show (if isQuote q = true then Mode.inside q else Mode.outside).after body = _
  rw [if_pos hq]

/-- Every lexeme ends outside quoted text. -/
theorem Spelt.after_outside (h : x.Spelt raw) : Mode.outside.after raw = .outside := by
  cases x with
  | fault f => exact h.elim
  | string s =>
    obtain ⟨q, body, rest, hq, rfl, hbody⟩ := h
    rw [after_quote hq]
    exact (after_inside (isQuote_ne_backslash hq) hbody).1
  | punct c =>
    obtain ⟨hc, rfl⟩ := h
    refine Mode.after_of_noQuote fun d hd => ?_
    rw [List.mem_singleton.1 hd]
    exact isQuote_of_isPunctuation hc
  | _ => exact Mode.after_of_noQuote fun d hd => (h.2.2 d hd).1

/-- A punctuation mark other than the point that stands outside quoted text is a lexeme by
itself. -/
theorem Spelt.punct_of_outside {as bs : List Char} (h : x.Spelt raw) (hraw : raw = as ++ d :: bs)
    (hd : isPunctuation d = true) (hpoint : d ≠ '.') (hout : Mode.outside.after as = .outside) :
    x = .punct d ∧ as = [] := by
  have hplain : (∀ c ∈ raw, isQuote c = false ∧ (isPunctuation c = true → c = '.')) →
      False := fun hall =>
    hpoint ((hall d (by rw [hraw]; simp)).2 hd)
  cases x with
  | fault f => exact h.elim
  | string s =>
    obtain ⟨q, body, rest, hq, rfl, hbody⟩ := h
    cases as with
    | nil =>
      obtain ⟨rfl, -⟩ := List.cons.inj hraw
      rw [isQuote_of_isPunctuation hd] at hq
      cases hq
    | cons a as =>
      obtain ⟨rfl, rfl⟩ := List.cons.inj hraw
      rw [after_quote hq] at hout
      exact absurd hout (after_inside (isQuote_ne_backslash hq) hbody).2.not_outside
  | punct c =>
    obtain ⟨-, rfl⟩ := h
    cases as with
    | nil =>
      obtain ⟨rfl, -⟩ := List.cons.inj hraw
      exact ⟨rfl, rfl⟩
    | cons a as => simp at hraw
  | _ => exact (hplain h.2.2).elim

/-- As often as a punctuation mark stands outside quoted text in a lexeme, so often the lexeme is
that mark. -/
theorem Spelt.countOutside (h : x.Spelt raw) (hd : isPunctuation d = true) (hpoint : d ≠ '.') :
    Mode.countOutside d .outside raw = if x = .punct d then 1 else 0 := by
  have hplain : (∀ c ∈ raw, isQuote c = false ∧ (isPunctuation c = true → c = '.')) →
      Mode.countOutside d .outside raw = 0 := fun hall =>
    Mode.countOutside_of_not_mem _ fun hmem => hpoint ((hall d hmem).2 hd)
  cases x with
  | fault f => exact h.elim
  | string s =>
    obtain ⟨q, body, rest, hq, rfl, hbody⟩ := h
    have hne : q ≠ d := by
      rintro rfl
      rw [isQuote_of_isPunctuation hd] at hq
      cases hq
    rw [if_neg (by simp)]
    show (if Mode.outside = .outside ∧ q = d then 1 else 0) +
      Mode.countOutside d (Mode.outside.next q) body = 0
    rw [if_neg fun hand => hne hand.2, Mode.next_quote hq,
      Mode.countOutside_of_quoted (after_inside (isQuote_ne_backslash hq) hbody).2]
  | punct c =>
    obtain ⟨-, rfl⟩ := h
    show (if Mode.outside = .outside ∧ c = d then 1 else 0) + 0 = _
    simp
  | _ =>
    rw [if_neg (by simp)]
    exact hplain h.2.2

end Lexeme

namespace Token.Layout

open Tag

variable {line pos : Nat} {cs : List Char} {ts : List Token} {d : Char}

theorem after_blanks {bs : List Char} (h : ∀ b ∈ bs, isBlank b = true) :
    Mode.outside.after bs = .outside :=
  Mode.after_of_noQuote fun b hb => Lexeme.isQuote_of_isBlank (h b hb)

/-- Among blanks stands no punctuation. -/
theorem not_mem_blanks {bs : List Char} (h : ∀ b ∈ bs, isBlank b = true)
    (hd : isPunctuation d = true) : d ∉ bs := by
  intro hmem
  have hplain := Lexeme.isPunctuation_of_isBlank (h d hmem)
  rw [hd] at hplain
  cases hplain

/-- A text without lexical faults ends outside quoted text. -/
theorem after_outside (h : Layout line pos cs ts) (hclean : ∀ t ∈ ts, t.lexeme.isFault = false) :
    Mode.outside.after cs = .outside := by
  induction h with
  | blanks hbs => exact after_blanks hbs
  | fault => cases hclean _ (List.mem_singleton_self _)
  | token hbs hraw h ih =>
    rw [Mode.after_append, Mode.after_append, after_blanks hbs, hraw.after_outside]
    exact ih fun t ht => hclean t (List.mem_cons_of_mem _ ht)

/-- There are as many tokens of a punctuation mark as it stands outside quoted text. -/
theorem countP_punct (h : Layout line pos cs ts) (hclean : ∀ t ∈ ts, t.lexeme.isFault = false)
    (hd : isPunctuation d = true) (hpoint : d ≠ '.') :
    ts.countP (fun t => t.lexeme = .punct d) = Mode.countOutside d .outside cs := by
  have hblanks : ∀ bs : List Char, (∀ b ∈ bs, isBlank b = true) → Mode.countOutside d .outside bs =
      0 := fun bs hbs =>
    Mode.countOutside_of_not_mem _ (not_mem_blanks hbs hd)
  induction h with
  | blanks hbs => exact (hblanks _ hbs).symm
  | fault => cases hclean _ (List.mem_singleton_self _)
  | token hbs hraw h ih =>
    rw [Mode.countOutside_append, Mode.countOutside_append, hblanks _ hbs, after_blanks hbs,
      hraw.after_outside, hraw.countOutside hd hpoint, List.countP_cons,
      ih fun t ht => hclean t (List.mem_cons_of_mem _ ht)]
    simp only [decide_eq_true_eq]
    omega

/-- A punctuation mark other than the point that stands outside quoted text is a token. -/
theorem exists_punct (h : Layout line pos cs ts) (hclean : ∀ t ∈ ts, t.lexeme.isFault = false)
    (hd : isPunctuation d = true) (hpoint : d ≠ '.') {before after : List Char}
    (hcs : cs = before ++ d :: after) (hout : Mode.outside.after before = .outside) :
    ∃ ts₁ t ts₂, ts = ts₁ ++ t :: ts₂ ∧ t.lexeme = .punct d ∧
      t.start = pos + byteLength before := by
  induction h generalizing before with
  | blanks hbs => exact absurd (by rw [hcs]; simp) (not_mem_blanks hbs hd)
  | fault => cases hclean _ (List.mem_singleton_self _)
  | @token line pos bs raw rest x ts hbs hraw h ih =>
    rcases append_eq_append_cons hcs with ⟨bs', rfl⟩ | ⟨before', rfl, hbehind⟩
    · exact absurd (by simp) (not_mem_blanks hbs hd)
    rw [Mode.after_append, after_blanks hbs] at hout
    rcases append_eq_append_cons hbehind with ⟨raw', hraw'⟩ | ⟨before'', rfl, hrest⟩
    · obtain ⟨rfl, rfl⟩ := hraw.punct_of_outside hraw' hd hpoint hout
      exact ⟨[], _, ts, rfl, rfl, by rw [List.append_nil]⟩
    · rw [Mode.after_append, hraw.after_outside] at hout
      obtain ⟨ts₁, t, ts₂, rfl, hlexeme, hstart⟩ :=
        ih (fun t ht => hclean t (List.mem_cons_of_mem _ ht)) hrest hout
      refine ⟨_ :: ts₁, t, ts₂, rfl, hlexeme, ?_⟩
      simp [hstart, Nat.add_assoc]

/-- A punctuation mark other than the point is a token where it stands outside quoted text, and only
there. -/
theorem outside_iff (h : Layout line pos cs ts) (hclean : ∀ t ∈ ts, t.lexeme.isFault = false)
    (hd : isPunctuation d = true) (hpoint : d ≠ '.') {before after : List Char}
    (hcs : cs = before ++ d :: after) :
    Mode.outside.after before = .outside ↔
      ∃ t ∈ ts, t.lexeme = .punct d ∧ t.start = pos + byteLength before := by
  constructor
  · intro hout
    obtain ⟨ts₁, t, ts₂, rfl, hlexeme, hstart⟩ := h.exists_punct hclean hd hpoint hcs hout
    exact ⟨t, by simp, hlexeme, hstart⟩
  · rintro ⟨t, ht, hlexeme, hstart⟩
    obtain ⟨ts₁, ts₂, rfl⟩ := List.append_of_mem ht
    obtain ⟨before', raw, after', rfl, -, hstart', -, hbefore, -⟩ := h.cut (hclean t ht)
    obtain rfl : before = before' := eq_of_byteLength hcs.symm (by omega)
    exact hbefore.after_outside h.clean_of_append

end Token.Layout

end Phrasebook
