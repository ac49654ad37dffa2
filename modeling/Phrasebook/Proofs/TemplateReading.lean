import Phrasebook.Proofs.LeafLines
import Phrasebook.Proofs.RelinedReading
import Phrasebook.Proofs.StringEnds

/-!
# How sources are divided

A source can be divided into text and tags in at most one way, and the template that it spells has
the parts of this division in their order, each on its line.

* `Tag.Closed` : text in which all quoted literals are closed;
* `Tag.splitOpen_eq_some_iff`, `Tag.splitClose_eq_some_iff` : where the first tag opens and where it
  closes, said without the search for it;
* `Tag.Division` : a division of a source into text and tags; there is at most one;
* `Template.Piece`, `Template.Reads` : the segments of a piece of text, and of a division;
* `Template.parse_divides` : a source is accepted with the segments of its division, and refused if
  it has no division in which all tags are expressions.
-/

namespace Phrasebook

open Outcome

namespace Tag

/-! ### Closed literals -/

/-- All quoted literals that begin in the text are closed in it. -/
inductive Closed : List Char → Prop
  | nil : Closed []
  | plain {c : Char} {cs : List Char} (hc : isQuote c = false) (h : Closed cs) : Closed (c :: cs)
  | literal {q : Char} {body cs : List Char} (hq : isQuote q = true) (hbody : Lexeme.Inside q body)
      (h : Closed cs) :
      Closed (q :: (body ++ q :: cs))

theorem after_body {q : Char} {body : List Char} (h : Lexeme.Inside q body) :
    (Mode.inside q).after body = .inside q := by
  induction h with
  | nil => rfl
  | plain hc hq h ih =>
    rw [Mode.after_cons, Mode.next_inside hc hq, ih]
  | escaped c h ih => exact ih

theorem after_literal {q : Char} {body : List Char} (hq : isQuote q = true)
    (h : Lexeme.Inside q body) (cs : List Char) :
    Mode.outside.after (q :: (body ++ q :: cs)) = Mode.outside.after cs := by
  rw [Lexeme.after_quote hq, Mode.after_append, after_body h, Mode.after_cons,
    Mode.next_mark (Lexeme.isQuote_ne_backslash hq)]

/-- A text with closed literals is one that ends outside quoted text. -/
theorem closed_iff {cs : List Char} : Closed cs ↔ Mode.outside.after cs = .outside := by
  constructor
  · intro h
    induction h with
    | nil => rfl
    | plain hc h ih => rw [Mode.after_cons, Mode.next_plain hc, ih]
    | literal hq hbody h ih => rw [after_literal hq hbody, ih]
  · obtain ⟨n, hn⟩ : ∃ n, cs.length = n := ⟨_, rfl⟩
    induction n using Nat.strong_induction_on generalizing cs with
    | _ n ih =>
      intro hout
      cases cs with
      | nil => exact .nil
      | cons c cs =>
        cases hc : isQuote c with
        | false =>
          rw [Mode.after_cons, Mode.next_plain hc] at hout
          exact .plain hc (ih _ (by rw [← hn]; simp) rfl hout)
        | true =>
          -- behind a mark the text goes on to the mark that closes it; otherwise it would end
          -- inside
          rcases Lexeme.closes_or_runs_on c cs with
              ⟨body, rest, rfl, hbody⟩ | hbody | ⟨body, rfl, hbody⟩
          · rw [after_literal hc hbody] at hout
            refine .literal hc hbody (ih _ ?_ rfl hout)
            simp only [List.length_cons, List.length_append] at hn
            omega
          · rw [Lexeme.after_quote hc, after_body hbody] at hout
            exact absurd hout (Mode.inside_ne_outside c)
          · rw [Lexeme.after_quote hc, Mode.after_append, after_body hbody] at hout
            exact absurd hout (Mode.escaped_ne_outside c)

/-! ### The first opening -/

/-- No tag opens in the text. -/
def NoOpening (cs : List Char) : Prop := ¬['\x7b', '\x7b'] <:+: cs

theorem NoOpening.nil : NoOpening [] := fun h => by simpa using h.length_le

theorem noOpening_cons {c : Char} {cs : List Char} :
    NoOpening (c :: cs) ↔ ¬(c = '\x7b' ∧ cs.head? = some '\x7b') ∧ NoOpening cs := by
  have hhead : ['\x7b', '\x7b'] <+: c :: cs ↔ c = '\x7b' ∧ cs.head? = some '\x7b' := by
    rw [List.cons_prefix_cons, eq_comm]
    cases cs with
    | nil => simp
    | cons d cs => simp [List.cons_prefix_cons, eq_comm]
  unfold NoOpening
  rw [List.infix_cons_iff, not_or, hhead]

/-- A left brace behind a text opens a tag together with a left brace at its end. -/
theorem noOpening_append_brace {cs : List Char} :
    NoOpening (cs ++ ['\x7b']) ↔ NoOpening cs ∧ cs.getLast? ≠ some '\x7b' := by
  induction cs with
  | nil =>
    have hbrace : NoOpening ['\x7b'] := noOpening_cons.2 ⟨by simp, .nil⟩
    simp [hbrace, NoOpening.nil]
  | cons c cs ih =>
    rw [List.cons_append, noOpening_cons, noOpening_cons, ih]
    cases cs with
    | nil => simp [NoOpening.nil]
    | cons d cs =>
      rw [List.getLast?_cons_cons]
      simp only [List.cons_append, List.head?_cons]
      tauto

theorem splitOpen_eq_none_iff {cs : List Char} : splitOpen cs = none ↔ NoOpening cs := by
  induction cs with
  | nil => exact ⟨fun _ => .nil, fun _ => rfl⟩
  | cons c cs ih =>
    rw [noOpening_cons]
    by_cases hopen : c = '\x7b' ∧ cs.head? = some '\x7b'
    · obtain ⟨rfl, hhead⟩ := hopen
      obtain ⟨cs, rfl⟩ : ∃ cs', cs = '\x7b' :: cs' := List.head?_eq_some_iff.1 hhead
      simp [splitOpen]
    · rw [splitOpen_cons hopen, Option.map_eq_none_iff, ih]
      exact ⟨fun h => ⟨hopen, h⟩, And.right⟩

/-- Where the first tag opens: no tag opens before it, not even with the first of its braces. -/
theorem splitOpen_eq_some_iff {cs text rest : List Char} :
    splitOpen cs = some (text, rest) ↔
      cs = text ++ '\x7b' :: '\x7b' :: rest ∧ NoOpening (text ++ ['\x7b']) := by
  induction cs generalizing text with
  | nil =>
    constructor
    · intro h
      cases h
    · rintro ⟨h, -⟩
      cases text <;> cases h
  | cons c cs ih =>
    by_cases hopen : c = '\x7b' ∧ cs.head? = some '\x7b'
    · obtain ⟨rfl, hhead⟩ := hopen
      obtain ⟨cs, rfl⟩ : ∃ cs', cs = '\x7b' :: cs' := List.head?_eq_some_iff.1 hhead
      constructor
      · rintro ⟨⟩
        exact ⟨rfl, noOpening_cons.2 ⟨by simp, .nil⟩⟩
      · rintro ⟨hcs, hno⟩
        cases text with
        | nil =>
          cases hcs
          rfl
        | cons d text =>
          obtain ⟨rfl, htail⟩ := List.cons.inj hcs
          rw [List.cons_append] at hno
          refine absurd ⟨rfl, ?_⟩ (noOpening_cons.1 hno).1
          cases text with
          | nil => rfl
          | cons e text =>
            obtain ⟨rfl, -⟩ := List.cons.inj htail
            rfl
    · rw [splitOpen_cons hopen]
      constructor
      · intro h
        obtain ⟨⟨text', rest'⟩, hsplit, he⟩ := Option.map_eq_some_iff.1 h
        cases he
        obtain ⟨rfl, hno⟩ := ih.1 hsplit
        refine ⟨rfl, noOpening_cons.2 ⟨fun hand => hopen ⟨hand.1, ?_⟩, hno⟩⟩
        rw [← hand.2]
        cases text' <;> rfl
      · rintro ⟨hcs, hno⟩
        cases text with
        | nil =>
          cases hcs
          exact absurd ⟨rfl, rfl⟩ hopen
        | cons d text =>
          obtain ⟨rfl, rfl⟩ := List.cons.inj hcs
          rw [ih.2 ⟨rfl, (noOpening_cons.1 hno).2⟩]
          rfl

/-! ### The first closing -/

/-- Where a tag closes: its text ends outside quoted text, and no closing before that one stands
outside quoted text, not even one with the first of its braces. -/
theorem splitClose_eq_some_iff {m : Mode} {cs inner rest : List Char} :
    splitClose m cs = some (inner, rest) ↔
      cs = inner ++ '\x7d' :: '\x7d' :: rest ∧ m.after inner = .outside ∧
      ∀ before after, inner ++ ['\x7d'] = before ++ '\x7d' :: '\x7d' :: after →
      m.after before ≠ .outside := by
  constructor
  · intro h
    obtain ⟨rfl, hout⟩ := of_splitClose h
    refine ⟨rfl, hout, fun before after hcut hbefore => ?_⟩
    obtain ⟨inner', rest', hsplit, hprefix⟩ := exists_splitClose (after ++ '\x7d' :: rest) hbefore
    have hsame : before ++ '\x7d' :: '\x7d' :: (after ++ '\x7d' :: rest) =
        inner ++ '\x7d' :: '\x7d' :: rest := by
      have := congrArg (· ++ '\x7d' :: rest) hcut
      simpa using this.symm
    rw [hsame, h] at hsplit
    cases hsplit
    have hlength := congrArg List.length hcut
    have hle := hprefix.length_le
    simp only [List.length_append, List.length_cons, List.length_nil] at hlength
    omega
  · rintro ⟨rfl, hout, hfirst⟩
    obtain ⟨inner', rest', hsplit, more, rfl⟩ := exists_splitClose rest hout
    obtain ⟨hcs, hout'⟩ := of_splitClose hsplit
    rw [List.append_assoc] at hcs
    have hmore := List.append_cancel_left hcs
    cases more with
    | nil =>
      cases hmore
      rw [hsplit, List.append_nil]
    | cons c more =>
      obtain ⟨rfl, htail⟩ := List.cons.inj hmore
      refine absurd hout' (hfirst inner' (more ++ ['\x7d']).tail ?_)
      cases more with
      | nil => simp
      | cons d more =>
        obtain ⟨rfl, -⟩ := List.cons.inj htail
        simp

/-! ### Divisions -/

/-- A stretch of a source: text, and the tag that follows it.  The tag is the first one, and it ends
at its first closing that stands outside quoted literals. -/
@[ext]
structure Stretch where
  text : List Char
  inner : List Char
  noOpening : NoOpening text
  seam : text.getLast? ≠ some '\x7b'
  closed : Closed inner
  first : ∀ before after, inner ++ ['\x7d'] = before ++ '\x7d' :: '\x7d' :: after → ¬Closed before

namespace Stretch

def opening (s : Stretch) : List Char := s.text ++ ['\x7b', '\x7b']

def spelling (s : Stretch) : List Char := s.opening ++ (s.inner ++ ['\x7d', '\x7d'])

theorem spelling_append (s : Stretch) (rest : List Char) :
    s.spelling ++ rest = s.text ++ '\x7b' :: '\x7b' :: (s.inner ++ '\x7d' :: '\x7d' :: rest) := by
  simp [spelling, opening]

/-- What a source begins with is found again. -/
theorem splitOpen_eq (s : Stretch) (rest : List Char) :
    splitOpen (s.spelling ++ rest) = some (s.text, s.inner ++ '\x7d' :: '\x7d' :: rest) :=
  splitOpen_eq_some_iff.2 ⟨s.spelling_append rest, noOpening_append_brace.2 ⟨s.noOpening, s.seam⟩⟩

theorem splitClose_eq (s : Stretch) (rest : List Char) :
    splitClose .outside (s.inner ++ '\x7d' :: '\x7d' :: rest) = some (s.inner, rest) :=
  splitClose_eq_some_iff.2 ⟨rfl, closed_iff.1 s.closed,
    fun before after h => closed_iff.not.1 (s.first before after h)⟩

/-- What is cut off a source is a stretch of it. -/
theorem exists_of_split {cs text rest inner after : List Char}
    (ho : splitOpen cs = some (text, rest)) (hc : splitClose .outside rest = some (inner, after)) :
    ∃ s : Stretch, s.text = text ∧ s.inner = inner ∧ cs = s.spelling ++ after := by
  obtain ⟨rfl, hno⟩ := splitOpen_eq_some_iff.1 ho
  obtain ⟨rfl, hout, hfirst⟩ := splitClose_eq_some_iff.1 hc
  obtain ⟨htext, hseam⟩ := noOpening_append_brace.1 hno
  let s : Stretch :=
    ⟨text, inner, htext, hseam, closed_iff.2 hout,
      fun before after h => closed_iff.not.2 (hfirst before after h)⟩
  exact ⟨s, rfl, rfl, (s.spelling_append after).symm⟩

theorem lineEnds_opening (s : Stretch) : lineEnds s.opening = lineEnds s.text := by
  simp [opening]

theorem lineEnds_spelling (s : Stretch) :
    lineEnds s.spelling = lineEnds s.text + lineEnds s.inner := by
  simp [spelling, lineEnds_opening]

end Stretch

/-- A division of a source: stretches, and text without a tag behind them. -/
structure Division (source : List Char) where
  stretches : List Stretch
  last : List Char
  noOpening : NoOpening last
  spelt : stretches.flatMap Stretch.spelling ++ last = source

theorem stretches_unique {ss ss' : List Stretch} {last last' : List Char} (hlast : NoOpening last)
    (hlast' : NoOpening last')
    (h : ss.flatMap Stretch.spelling ++ last = ss'.flatMap Stretch.spelling ++ last') :
    ss = ss' ∧ last = last' := by
  have hnone : ∀ (s : Stretch) (rest : List Char) {cs : List Char}, NoOpening cs →
      s.spelling ++ rest ≠ cs := by
    rintro s rest _ hno rfl
    have hopen := splitOpen_eq_none_iff.2 hno
    rw [s.splitOpen_eq rest] at hopen
    cases hopen
  induction ss generalizing ss' with
  | nil =>
    cases ss' with
    | nil => exact ⟨rfl, h⟩
    | cons s' ss' =>
      rw [List.flatMap_cons, List.append_assoc] at h
      exact absurd h.symm (hnone s' _ hlast)
  | cons s ss ih =>
    cases ss' with
    | nil =>
      rw [List.flatMap_cons, List.append_assoc] at h
      exact absurd h (hnone s _ hlast')
    | cons s' ss' =>
      rw [List.flatMap_cons, List.flatMap_cons, List.append_assoc, List.append_assoc] at h
      have hopen := s.splitOpen_eq (ss.flatMap Stretch.spelling ++ last)
      rw [h, s'.splitOpen_eq] at hopen
      obtain ⟨htext, hbehind⟩ := Prod.mk.inj (Option.some.inj hopen)
      have hclose := s.splitClose_eq (ss.flatMap Stretch.spelling ++ last)
      rw [← hbehind, s'.splitClose_eq] at hclose
      obtain ⟨hinner, hrest⟩ := Prod.mk.inj (Option.some.inj hclose)
      obtain ⟨rfl, rfl⟩ := ih hrest.symm
      rw [Stretch.ext htext hinner]
      exact ⟨rfl, rfl⟩

/-- A source is divided in at most one way. -/
instance (source : List Char) : Subsingleton (Division source) where
  allEq := by
    rintro ⟨ss, last, hlast, rfl⟩ ⟨ss', last', hlast', hsource⟩
    obtain ⟨rfl, rfl⟩ := stretches_unique hlast hlast' hsource.symm
    rfl

end Tag

/-! ### The segments of a division -/

namespace Template

open Tag

/-- The segments of a piece of literal text: none if it is empty, else the one that holds it. -/
inductive Piece : List Char → Nat → List Segment → Prop
  | empty (line : Nat) : Piece [] line []
  | text {cs : List Char} (h : cs ≠ []) (line : Nat) : Piece cs line [.text (.ofList cs) line]

theorem piece_iff {cs : List Char} {line : Nat} {segs : List Segment} :
    Piece cs line segs ↔ textSegments cs line = segs := by
  constructor
  · rintro (_ | ⟨h, _⟩)
    · rfl
    · exact if_neg (by simpa using h)
  · rintro rfl
    cases cs with
    | nil => exact .empty line
    | cons c cs => exact .text (List.cons_ne_nil c cs) line

/-- The segments of stretches that stand behind the text `before`, and of the text behind them.
Every segment stands on the line that it starts on, and so do the constants and names of every
expression. -/
inductive Reads : List Char → List Stretch → List Char → List Segment → Prop
  | last {before last : List Char} {text : List Segment}
      (h : Piece last (1 + lineEnds before) text) :
      Reads before [] last text
  | stretch {before last : List Char} {s : Stretch} {ss : List Stretch} {text more : List Segment}
      {e : Expr}
      (htext : Piece s.text (1 + lineEnds before) text)
      (he : Expr.parse (.ofList s.inner) (1 + lineEnds (before ++ s.text)) = .ok e)
      (hleaves : e.LeavesIn (before ++ s.opening) s.inner)
        (h : Reads (before ++ s.spelling) ss last more) :
      Reads before (s :: ss) last (text ++ .print e (1 + lineEnds (before ++ s.text)) :: more)

variable {before cs last : List Char} {segs : List Segment}

theorem leavesIn_stretch {s : Stretch} {e : Expr}
    (he : Expr.parse (.ofList s.inner) (1 + lineEnds (before ++ s.text)) = .ok e) :
    e.LeavesIn (before ++ s.opening) s.inner := by
  apply Expr.leavesIn_of_parse
  rw [lineEnds_append, s.lineEnds_opening, ← lineEnds_append]
  exact he

theorem segments_stretch (before : List Char) (s : Stretch) (rest : List Char) :
    segments (1 + lineEnds before) (s.spelling ++ rest) =
      Expr.parse (.ofList s.inner) (1 + lineEnds (before ++ s.text)) >>= fun e =>
        segments (1 + lineEnds (before ++ s.spelling)) rest >>= fun more =>
          .ok (textSegments s.text (1 + lineEnds before) ++
            .print e (1 + lineEnds (before ++ s.text)) :: more) := by
  rw [segments_of_tag (s.splitOpen_eq rest) (s.splitClose_eq rest), lineEnds_append,
    lineEnds_append, s.lineEnds_spelling]
  simp only [Nat.add_assoc]

/-- The segments of an accepted text are those of its division. -/
theorem exists_reads_of_segments {line : Nat} (h : segments line cs = .ok segs)
    (hline : line = 1 + lineEnds before) :
    ∃ d : Division cs, Reads before d.stretches d.last segs := by
  induction h using segments_induction generalizing before with
  | text line cs ho =>
    subst hline
    exact ⟨⟨[], cs, splitOpen_eq_none_iff.1 ho, rfl⟩, .last (piece_iff.2 rfl)⟩
  | tag line cs text rest inner after e more ho hc he _ ih =>
    subst hline
    obtain ⟨s, rfl, rfl, rfl⟩ := Stretch.exists_of_split ho hc
    rw [Nat.add_assoc, ← lineEnds_append] at he ⊢
    obtain ⟨d, hd⟩ : ∃ d : Division after, Reads (before ++ s.spelling) d.stretches d.last more :=
      ih (by simp [s.lineEnds_spelling, Nat.add_assoc])
    have hspelt : (s :: d.stretches).flatMap Stretch.spelling ++ d.last = s.spelling ++ after := by
      rw [List.flatMap_cons, List.append_assoc, d.spelt]
    exact ⟨⟨s :: d.stretches, d.last, d.noOpening, hspelt⟩,
      .stretch (piece_iff.2 rfl) he (leavesIn_stretch he) hd⟩

/-- A divided text is accepted with the segments of its division. -/
theorem Reads.segments_eq {ss : List Stretch} (h : Reads before ss last segs)
    (hlast : NoOpening last) :
    segments (1 + lineEnds before) (ss.flatMap Stretch.spelling ++ last) = .ok segs := by
  induction h with
  | last htext =>
    rw [← piece_iff.1 htext]
    exact segments_of_text (splitOpen_eq_none_iff.2 hlast) _
  | stretch htext he hleaves h ih =>
    rw [← piece_iff.1 htext, List.flatMap_cons, List.append_assoc, segments_stretch, he, ok_bind,
      ih hlast, ok_bind]

/-- Every tag of a division that has segments is an expression. -/
theorem Reads.exists_parse {ss : List Stretch} (h : Reads before ss last segs) :
    ∀ s ∈ ss, ∃ l e, Expr.parse (.ofList s.inner) l = .ok e := by
  induction h with
  | last => exact nofun
  | stretch htext he hleaves h ih =>
    intro s hs
    rcases List.mem_cons.1 hs with rfl | hs
    · exact ⟨_, _, he⟩
    · exact ih s hs

/-- A division has segments if every tag is an expression, on whatever line. -/
theorem exists_reads (ss : List Stretch)
    (h : ∀ s ∈ ss, ∃ l e, Expr.parse (.ofList s.inner) l = .ok e) (before last : List Char) :
    ∃ segs, Reads before ss last segs := by
  induction ss generalizing before with
  | nil => exact ⟨_, .last (piece_iff.2 rfl)⟩
  | cons s ss ih =>
    obtain ⟨l, e, he⟩ := h s (List.mem_cons_self ..)
    obtain ⟨more, hmore⟩ :=
      ih (fun s' hs' => h s' (List.mem_cons_of_mem _ hs')) (before ++ s.spelling)
    obtain ⟨e', he'⟩ := Expr.exists_parse_of_parse he (1 + lineEnds (before ++ s.text))
    exact ⟨_, .stretch (piece_iff.2 rfl) he' (leavesIn_stretch he') hmore⟩

/-- **How a source is read.**  A source is accepted exactly if it can be divided into text and tags
such that every tag is an expression; its template has the parts of the division in their order, the
text that is not empty and the expressions, each on its line.  It is refused exactly if it has no
such division. -/
theorem parse_divides (source name : String) :
    (∀ t, parse source name = .ok t ↔
      t.name = name ∧ ∃ d : Division source.toList, Reads [] d.stretches d.last t.body) ∧
      ((∃ err, parse source name = .error err) ↔
        ¬∃ d : Division source.toList,
          ∀ s ∈ d.stretches, ∃ l e, Expr.parse (.ofList s.inner) l = .ok e) := by
  have hok : ∀ t, parse source name = .ok t ↔
      t.name = name ∧ ∃ d : Division source.toList, Reads [] d.stretches d.last t.body := by
    rintro ⟨x, body⟩
    unfold parse
    constructor
    · intro h
      obtain ⟨segs, hsegs, ht⟩ := bind_eq_ok.1 h
      cases ht
      exact ⟨rfl, exists_reads_of_segments hsegs rfl⟩
    · rintro ⟨rfl, d, hd⟩
      have hsegs := hd.segments_eq d.noOpening
      rw [d.spelt] at hsegs
      rw [show segments 1 source.toList = .ok body from hsegs]
      rfl
  refine ⟨hok, ?_⟩
  constructor
  · rintro ⟨err, herr⟩ ⟨d, hd⟩
    obtain ⟨body, hbody⟩ := exists_reads d.stretches hd [] d.last
    have h := (hok ⟨name, body⟩).2 ⟨rfl, d, hbody⟩
    rw [herr] at h
    cases h
  · intro hnone
    cases h : parse source name with
    | error err => exact ⟨err, rfl⟩
    | ok t =>
      obtain ⟨-, d, hd⟩ := (hok t).1 h
      exact absurd ⟨d, hd.exists_parse⟩ hnone

-- a line end in the text, one in a string, and one between tokens
example : parse "Hi\n\x7b\x7b ['a\nb',\n x] \x7d\x7d\n!" "page" =
    .ok ⟨"page", [.text "Hi\n" 1,
      .print (.array
        [(.number (.ofNat 0) 2, .string "a\nb" 2), (.number (.ofNat 1) 4, .name "x" 4)] 2) 2,
      .text "\n!" 4]⟩ := by
  decide +kernel

end Template

end Phrasebook
