import Phrasebook.Proofs.DebugRefinement
import Phrasebook.Proofs.DefaultsPutIn
import Phrasebook.Proofs.RelinedReading
import Phrasebook.Proofs.TagText

/-!
# Templates one after another

A source put behind another one is read and rendered as it is by itself, unless two left braces meet
at the seam.

* `Tag.splitOpen_append`, `Tag.splitClose_append` : cutting at tags looks no further than the tag;
* `Segment.join` : segments one after another, where two texts that meet are one text;
* `Template.segments_append` : the segments of two sources one after another;
* `Engine.renderTemplate_relined` : lines play no part in compiling, nor in rendering;
* `Engine.renderSource_append` : two sources one after another render as the one text after the
  other.
-/

namespace Phrasebook

open Outcome

/-! ### Cutting at tags -/

namespace Tag

/-- Two left braces meet where the second text is put behind the first. -/
def Opens (as bs : List Char) : Prop := as.getLast? = some '\x7b' ∧ bs.head? = some '\x7b'

instance (as bs : List Char) : Decidable (Opens as bs) := inferInstanceAs (Decidable (_ ∧ _))

variable {as bs : List Char}

/-- At the end of a text that is not empty the same braces meet. -/
theorem Opens.of_suffix {zs : List Char} (h : Opens as bs) (hsuffix : as <:+ zs) : Opens zs bs := by
  obtain ⟨ys, rfl⟩ := hsuffix
  refine ⟨?_, h.2⟩
  rw [List.getLast?_append, h.1]
  rfl

/-- The opening of a tag is found in a text as it is in the text by itself. -/
theorem splitOpen_append {text rest : List Char} (h : splitOpen as = some (text, rest))
    (bs : List Char) : splitOpen (as ++ bs) = some (text, rest ++ bs) := by
  induction as generalizing text with
  | nil => cases h
  | cons c as ih =>
    by_cases hopen : c = '\x7b' ∧ as.head? = some '\x7b'
    · obtain ⟨rfl, hhead⟩ := hopen
      cases as with
      | nil => cases hhead
      | cons d as =>
        cases hhead
        cases h
        rfl
    · rw [splitOpen_cons hopen] at h
      obtain ⟨⟨text', rest'⟩, hsplit, he⟩ := Option.map_eq_some_iff.1 h
      cases he
      have hnot : ¬(c = '\x7b' ∧ (as ++ bs).head? = some '\x7b') := by
        cases as with
        | nil => cases hsplit
        | cons d as => exact hopen
      rw [List.cons_append, splitOpen_cons hnot, ih hsplit]
      rfl

/-- A text without the opening of a tag hides none that follows. -/
theorem splitOpen_append_of_none (h : splitOpen as = none) (hseam : ¬Opens as bs) :
    splitOpen (as ++ bs) = (splitOpen bs).map fun p => (as ++ p.1, p.2) := by
  induction as with
  | nil => simp
  | cons c as ih =>
    have hnot : ¬(c = '\x7b' ∧ (as ++ bs).head? = some '\x7b') := by
      rintro ⟨rfl, hhead⟩
      cases as with
      | nil => exact hseam ⟨rfl, hhead⟩
      | cons d as =>
        cases hhead
        cases h
    have hnone : splitOpen as = none := by
      rw [splitOpen_cons fun hopen => hnot ⟨hopen.1, by rw [List.head?_append, hopen.2]; rfl⟩] at h
      exact Option.map_eq_none_iff.1 h
    rw [List.cons_append, splitOpen_cons hnot,
      ih hnone fun hopens => hseam (hopens.of_suffix (List.suffix_cons c as)), Option.map_map]
    rfl

/-- The closing of a tag is found in a text as it is in the text by itself. -/
theorem splitClose_append {m : Mode} {inner rest : List Char}
    (h : splitClose m as = some (inner, rest)) (bs : List Char) :
    splitClose m (as ++ bs) = some (inner, rest ++ bs) := by
  induction as generalizing m inner with
  | nil => cases m <;> cases h
  | cons c as ih =>
    by_cases hclose : m = .outside ∧ c = '\x7d' ∧ as.head? = some '\x7d'
    · obtain ⟨rfl, rfl, hhead⟩ := hclose
      cases as with
      | nil => cases hhead
      | cons d as =>
        cases hhead
        cases h
        rfl
    · rw [splitClose_cons hclose] at h
      obtain ⟨⟨inner', rest'⟩, hsplit, he⟩ := Option.map_eq_some_iff.1 h
      cases he
      have hnot : ¬(m = .outside ∧ c = '\x7d' ∧ (as ++ bs).head? = some '\x7d') := by
        cases as with
        | nil =>
          rw [splitClose.eq_def] at hsplit
          cases hsplit
        | cons d as => exact hclose
      rw [List.cons_append, splitClose_cons hnot, ih hsplit]
      rfl

end Tag

/-! ### Segments one after another -/

namespace Segment

/-- A segment before others; two texts that meet are one text. -/
def before : Segment → List Segment → List Segment
  | .text data line, .text data' _ :: bs => .text (data ++ data') line :: bs
  | a, bs => a :: bs

/-- Segments one after another; two texts that meet are one text. -/
def join : List Segment → List Segment → List Segment
  | [], bs => bs
  | [a], bs => a.before bs
  | a :: b :: as, bs => a :: join (b :: as) bs

theorem join_print (e : Expr) (l : Nat) (as bs : List Segment) :
    join (.print e l :: as) bs = .print e l :: join as bs := by
  cases as <;> rfl

theorem join_text (text : List Char) (line : Nat) (e : Expr) (l : Nat) (as bs : List Segment) :
    join (Template.textSegments text line ++ .print e l :: as) bs =
      Template.textSegments text line ++ .print e l :: join as bs := by
  unfold Template.textSegments
  by_cases hempty : text.isEmpty = true
  · rw [if_pos hempty]
    exact join_print e l as bs
  · rw [if_neg hempty]
    exact congrArg _ (join_print e l as bs)

end Segment

namespace Template

/-- A text before segments is one text with the text that they begin with. -/
theorem join_textSegments (as bs : List Char) (line : Nat) {more : List Segment}
    (hmore : ∀ data l rest, more ≠ .text data l :: rest) :
    Segment.join (textSegments as line) (textSegments bs (line + lineEnds as) ++ more) =
      textSegments (as ++ bs) line ++ more := by
  cases as with
  | nil => rfl
  | cons a as =>
    cases bs with
    | nil =>
      rw [List.append_nil]
      show (Segment.text (.ofList (a :: as)) line).before more =
        .text (.ofList (a :: as)) line :: more
      cases more with
      | nil => rfl
      | cons b more =>
        cases b with
        | text data l => exact absurd rfl (hmore data l more)
        | print e l => rfl
    | cons b bs =>
      show Segment.text (.ofList (a :: as) ++ .ofList (b :: bs)) line :: more = _
      rw [← String.ofList_append]
      rfl

/-- The segments of a source that stands behind another one are those that it has on the lines where
it stands. -/
theorem segments_append {as bs : List Char} {line : Nat} {body : List Segment}
    (h : segments line as = .ok body) (hseam : ¬Tag.Opens as bs) :
    segments line (as ++ bs) = segments (line + lineEnds as) bs >>= fun more =>
      .ok (Segment.join body more) := by
  induction h using segments_induction with
  | text line as ho =>
    have happend := Tag.splitOpen_append_of_none ho hseam
    cases hob : Tag.splitOpen bs with
    | none =>
      rw [hob] at happend
      have hempty : ∀ data l rest, ([] : List Segment) ≠ .text data l :: rest := nofun
      have hjoin := join_textSegments as bs line hempty
      rw [List.append_nil, List.append_nil] at hjoin
      rw [segments_of_text happend, segments_of_text hob, ok_bind, hjoin]
    | some p =>
      obtain ⟨text, rest⟩ := p
      rw [hob] at happend
      have hline : line + lineEnds (as ++ text) = line + lineEnds as + lineEnds text := by
        simp [Nat.add_assoc]
      cases hc : Tag.splitClose .outside rest with
      | none =>
        rw [segments_of_open happend hc, segments_of_open hob hc, hline]
        rfl
      | some q =>
        obtain ⟨inner, after⟩ := q
        rw [segments_of_tag happend hc, segments_of_tag hob hc, hline]
        simp only [bind_assoc, ok_bind]
        exact bind_congr fun e => bind_congr fun more =>
          congrArg Except.ok (join_textSegments as text line fun _ _ _ h => by cases h).symm
  | tag line as text rest inner after e more ho hc he _ ih =>
    have hsource := Tag.of_splitOpen ho
    have htag := (Tag.of_splitClose hc).1
    have hsuffix : after <:+ as :=
      ⟨text ++ '\x7b' :: '\x7b' :: (inner ++ ['\x7d', '\x7d']), by rw [hsource, htag]; simp⟩
    have hline : line + lineEnds text + lineEnds inner + lineEnds after = line + lineEnds as := by
      rw [Tag.lineEnds_of_splitOpen ho, Tag.lineEnds_of_splitClose hc]
      omega
    rw [segments_of_tag (Tag.splitOpen_append ho bs) (Tag.splitClose_append hc bs), he, ok_bind,
      ih fun hopens => hseam (hopens.of_suffix hsuffix), hline]
    cases segments (line + lineEnds as) bs with
    | error err => rfl
    | ok sb => exact congrArg Except.ok (Segment.join_text text line e _ more sb).symm

end Template

/-! ### Moved segments -/

namespace Segment

def relined (f : Nat → Nat) : Segment → Segment
  | .text data l => .text data (f l)
  | .print e l => .print (e.relined f) (f l)

def unlined : Segment → Segment
  | .text data _ => .text data 0
  | .print e _ => .print e.unlined 0

theorem relined_zero (a : Segment) : a.relined (fun _ => 0) = a.unlined := by
  cases a with
  | text data l => rfl
  | print e l => rw [relined, unlined, Expr.relined_zero]

variable (f : Nat → Nat) (s : Scope)

theorem render_relined (a : Segment) : Moved f id (a.render s) ((a.relined f).render s) := by
  cases a with
  | text data l => rfl
  | print e l => exact (Expr.eval_relined f s e).bind fun _ => rfl

theorem renderAll_relined (body : List Segment) :
    Moved f id (renderAll s body) (renderAll s (body.map (relined f))) := by
  induction body with
  | nil => rfl
  | cons a body ih => exact (render_relined f s a).bind fun _ => ih.bind fun _ => rfl

end Segment

theorem Segment.expressions_relined (f : Nat → Nat) (body : List Segment) :
    (body.map (relined f)).filterMap expr? = (body.filterMap expr?).map (Expr.relined f) := by
  rw [List.filterMap_map, List.map_filterMap]
  congr 1
  funext a
  cases a <;> rfl

theorem Template.textSegments_relined {f : Nat → Nat} {line line' : Nat} (h : f line = line')
    (text : List Char) :
    (textSegments text line).map (Segment.relined f) = textSegments text line' := by
  unfold textSegments
  by_cases hempty : text.isEmpty = true
  · rw [if_pos hempty, if_pos hempty, List.map_nil]
  · rw [if_neg hempty, if_neg hempty, List.map_singleton, Segment.relined, h]

/-- A source that has segments has the same ones, moved, on every line. -/
theorem Template.segments_relined {f : Nat → Nat} {cs : List Char} {line line' : Nat}
    {body : List Segment} (hf : Shifts f line line') (h : segments line cs = .ok body) :
    segments line' cs = .ok (body.map (Segment.relined f)) := by
  induction h using segments_induction generalizing line' with
  | text line cs ho => rw [segments_of_text ho, textSegments_relined hf.start]
  | tag line cs text rest inner after e more ho hc he _ ih =>
    have htag := hf.add (lineEnds text)
    rw [segments_of_tag ho hc, Expr.parse_relined htag he, ok_bind,
      ih (htag.add (lineEnds inner)), ok_bind, List.map_append, List.map_cons,
      textSegments_relined hf.start, Segment.relined, htag.start]

theorem Template.parse_of_segments {source : String} {body : List Segment}
    (h : segments 1 source.toList = .ok body) (name : String) :
    parse source name = .ok ⟨name, body⟩ := by
  unfold parse
  rw [h]
  rfl

/-! ### Compiling and rendering -/

namespace Segment

variable (l : Pipeline (Except Error)) (s : Scope)

theorem mapM_cons_eq_ok {a : Segment} {as as' : List Segment}
    (h : (a :: as).mapM l.runSegment = .ok as') :
    ∃ b bs, as' = b :: bs ∧ l.runSegment a = .ok b ∧ as.mapM l.runSegment = .ok bs := by
  rw [List.mapM_cons] at h
  obtain ⟨b, hb, h⟩ := bind_eq_ok.1 h
  obtain ⟨bs, hbs, h⟩ := bind_eq_ok.1 h
  cases h
  exact ⟨b, bs, rfl, hb, hbs⟩

theorem mapM_cons_of_ok {a b : Segment} {as bs : List Segment} (ha : l.runSegment a = .ok b)
    (has : as.mapM l.runSegment = .ok bs) : (a :: as).mapM l.runSegment = .ok (b :: bs) := by
  rw [List.mapM_cons, ha, has]
  rfl

/-- Passes keep texts, and so two texts that meet still do. -/
theorem mapM_before {a a' : Segment} {bs bs' : List Segment} (ha : l.runSegment a = .ok a')
    (hbs : bs.mapM l.runSegment = .ok bs') :
    (a.before bs).mapM l.runSegment = .ok (a'.before bs') := by
  cases a with
  | print e line =>
    obtain ⟨e', -, h⟩ := bind_eq_ok.1 (show (l.run e >>= fun e' => _) = _ from ha)
    cases h
    exact mapM_cons_of_ok l ha hbs
  | text data line =>
    cases ha
    cases bs with
    | nil =>
      cases hbs
      rfl
    | cons b bs =>
      obtain ⟨b', cs, rfl, hb, hcs⟩ := mapM_cons_eq_ok l hbs
      cases b with
      | print e line' =>
        obtain ⟨e', -, h⟩ := bind_eq_ok.1 (show (l.run e >>= fun e' => _) = _ from hb)
        cases h
        exact mapM_cons_of_ok l rfl hbs
      | text data' line' =>
        cases hb
        exact mapM_cons_of_ok l rfl hcs

/-- Passes run over segments one after another as they run over either. -/
theorem mapM_join {as bs as' bs' : List Segment} (has : as.mapM l.runSegment = .ok as')
    (hbs : bs.mapM l.runSegment = .ok bs') :
    (join as bs).mapM l.runSegment = .ok (join as' bs') := by
  induction as generalizing as' with
  | nil =>
    cases has
    exact hbs
  | cons a as ih =>
    obtain ⟨a', cs, rfl, ha, hcs⟩ := mapM_cons_eq_ok l has
    cases as with
    | nil =>
      cases hcs
      exact mapM_before l ha hbs
    | cons b as =>
      obtain ⟨b', ds, rfl, -, -⟩ := mapM_cons_eq_ok l hcs
      exact mapM_cons_of_ok l ha (ih hcs)

theorem expressions_join (as bs : List Segment) :
    (join as bs).filterMap expr? = as.filterMap expr? ++ bs.filterMap expr? := by
  have hbefore : ∀ a : Segment, (a.before bs).filterMap expr? = [a].filterMap expr? ++
      bs.filterMap expr? := by
    intro a
    cases a with
    | print e line => rfl
    | text data line =>
      cases bs with
      | nil => rfl
      | cons b bs => cases b <;> rfl
  induction as with
  | nil => rfl
  | cons a as ih =>
    cases as with
    | nil => exact hbefore a
    | cons b as =>
      show (a :: join (b :: as) bs).filterMap expr? = _
      rw [List.filterMap_cons, ih, List.filterMap_cons (l := b :: as)]
      cases a.expr? <;> rfl

theorem renderAll_before (a : Segment) (bs : List Segment) :
    renderAll s (a.before bs) = a.render s >>= fun x => renderAll s bs >>= fun y =>
      .ok (x ++ y) := by
  cases a with
  | print e line => rfl
  | text data line =>
    cases bs with
    | nil => rfl
    | cons b bs =>
      cases b with
      | print e line' => rfl
      | text data' line' =>
        show (renderAll s bs >>= fun y => Except.ok (data ++ data' ++ y)) =
          ((renderAll s bs >>= fun y => Except.ok (data' ++ y)) >>= fun y => Except.ok (data ++ y))
        simp only [bind_assoc, ok_bind, String.append_assoc]

/-- Segments one after another are rendered as the text of either. -/
theorem renderAll_join (as bs : List Segment) :
    renderAll s (join as bs) = renderAll s as >>= fun x => renderAll s bs >>= fun y =>
      .ok (x ++ y) := by
  induction as with
  | nil =>
    show renderAll s bs = (renderAll s bs >>= fun y => Except.ok ("" ++ y))
    cases renderAll s bs with
    | error err => rfl
    | ok y => exact congrArg Except.ok String.empty_append.symm
  | cons a as ih =>
    cases as with
    | nil =>
      show renderAll s (a.before bs) =
        ((a.render s >>= fun x => Except.ok (x ++ "")) >>=
          fun x => renderAll s bs >>= fun y => Except.ok (x ++ y))
      rw [renderAll_before]
      simp only [bind_assoc, ok_bind, String.append_empty]
    | cons b as =>
      show (a.render s >>= fun x => renderAll s (join (b :: as) bs) >>= fun y =>
        Except.ok (x ++ y)) =
        ((a.render s >>= fun x => renderAll s (b :: as) >>= fun y => Except.ok (x ++ y)) >>=
          fun x => renderAll s bs >>= fun y => Except.ok (x ++ y))
      rw [ih]
      simp only [bind_assoc, ok_bind]
      exact bind_congr fun x => bind_congr fun y => bind_congr fun z => congrArg Except.ok
        String.append_assoc.symm

end Segment

namespace Engine

variable (config : Config) (translator : Translator)

/-- What an engine compiles an expression to moves with the expression. -/
theorem run_relined (f : Nat → Nat) (e : Expr) :
    Moved f (Expr.relined f) ((make config translator).pipeline.run e)
      ((make config translator).pipeline.run (e.relined f)) := by
  have hpasses : (make config translator).pipeline =
      .ofList (if config.debug then [DefaultPass.toPass ⟨true⟩] else []) := rfl
  rw [hpasses]
  cases config.debug with
  | false => rfl
  | true =>
    have hrun : ∀ e, Pipeline.run (.ofList [DefaultPass.toPass ⟨true⟩]) e =
        DefaultPass.pass.run e :=
      DefaultPass.run_pipeline true
    rw [if_pos rfl, hrun, hrun]
    exact DefaultPass.run_relined f e

theorem mapM_relined (f : Nat → Nat) (body : List Segment) :
    Moved f (List.map (Segment.relined f)) (body.mapM (make config translator).pipeline.runSegment)
      ((body.map (Segment.relined f)).mapM (make config translator).pipeline.runSegment) := by
  refine Moved.mapM fun a _ => ?_
  cases a with
  | text data l => rfl
  | print e l => exact (run_relined config translator f e).bind fun _ => rfl

/-- The text of a template that has been read, compiled and rendered. -/
def renderTemplate (g : Engine) (t : Template) (context : Context) : Except Error String := do
  let t ← g.pipeline.runTemplate t
  g.render t context

theorem renderTemplate_eq (g : Engine) (t : Template) (context : Context) :
    g.renderTemplate t context = t.body.mapM g.pipeline.runSegment >>=
      Segment.renderAll (g.scope context) := by
  unfold renderTemplate Pipeline.runTemplate
  cases t.body.mapM g.pipeline.runSegment <;> rfl

theorem renderSource_eq (g : Engine) (source name : String) (context : Context) :
    g.renderSource source name context =
      Template.segments 1 source.toList >>= fun body => g.renderTemplate ⟨name, body⟩ context := by
  unfold renderSource compile parse Template.parse
  cases Template.segments 1 source.toList <;> rfl

/-- Lines play no part in what a template is rendered as. -/
theorem renderTemplate_relined (f : Nat → Nat) (t : Template) (name : String) (context : Context) :
    Moved f id ((make config translator).renderTemplate t context)
      ((make config translator).renderTemplate ⟨name, t.body.map (Segment.relined f)⟩ context) := by
  rw [renderTemplate_eq, renderTemplate_eq]
  exact (mapM_relined config translator f t.body).bind fun body =>
    Segment.renderAll_relined f _ body

/-- Templates that are alike but for their lines are rendered alike. -/
theorem renderTemplate_congr {t t' : Template}
    (h : t.body.map Segment.unlined = t'.body.map Segment.unlined) (context : Context)
    (z : String) :
    (make config translator).renderTemplate t context = .ok z ↔
      (make config translator).renderTemplate t' context = .ok z := by
  have hunlined : ∀ t : Template, (make config translator).renderTemplate t context = .ok z ↔
      (make config translator).renderTemplate ⟨"", t.body.map Segment.unlined⟩ context = .ok z := by
    intro t
    have hmoved := renderTemplate_relined config translator (fun _ => 0) t "" context
    rw [show Segment.relined (fun _ => 0) = Segment.unlined from funext Segment.relined_zero]
      at hmoved
    exact hmoved.ok_iff z
  rw [hunlined t, hunlined t', h]

/-- **Rendering takes one source after another to one text after another.**  Let the sources `a` and
`b` be rendered, with no two left braces that meet where `b` is put behind `a`.  Then `a ++ b` is
rendered as the text of `a` and the text of `b`.  It prints the expressions of `a` and those of `b`,
the latter further down by the lines of `a`, whatever stands in the text between the tags; and lines
play no part in what a template is rendered as. -/
theorem renderSource_append (config : Config) (translator : Translator) (a b name : String)
    (context : Context) (x y : String) (hseam : ¬Tag.Opens a.toList b.toList)
    (ha : (make config translator).renderSource a name context = .ok x)
    (hb : (make config translator).renderSource b name context = .ok y) :
    (make config translator).renderSource (a ++ b) name context = .ok (x ++ y) ∧
      (∃ ta tb t, Template.parse a name = .ok ta ∧ Template.parse b name = .ok tb ∧
        Template.parse (a ++ b) name = .ok t ∧
        t.expressions =
          ta.expressions ++ tb.expressions.map (Expr.relined (· + lineEnds a.toList))) ∧
      ∀ t t' : Template, t.body.map Segment.unlined = t'.body.map Segment.unlined → ∀ z,
        ((make config translator).renderTemplate t context = .ok z ↔
          (make config translator).renderTemplate t' context = .ok z) := by
  rw [renderSource_eq] at ha hb ⊢
  obtain ⟨as, has, ha⟩ := bind_eq_ok.1 ha
  obtain ⟨bs, hbs, hb⟩ := bind_eq_ok.1 hb
  -- the segments of `b` on the lines where it stands behind `a`
  have hmoved := Template.segments_relined (Shifts.of_add (lineEnds a.toList) 1) hbs
  have hsegments : Template.segments 1 (a ++ b).toList =
      .ok (Segment.join as (bs.map (Segment.relined (· + lineEnds a.toList)))) := by
    rw [String.toList_append, Template.segments_append has hseam, hmoved, ok_bind]
  refine ⟨?_, ⟨⟨name, as⟩, ⟨name, bs⟩, ⟨name, _⟩, Template.parse_of_segments has name,
    Template.parse_of_segments hbs name, Template.parse_of_segments hsegments name, ?_⟩,
    fun t t' h z => renderTemplate_congr config translator h context z⟩
  · rw [renderTemplate_eq] at ha hb
    obtain ⟨as', has', hx⟩ := bind_eq_ok.1 ha
    obtain ⟨bs', hbs', hy⟩ := bind_eq_ok.1 hb
    have hbs'' := (mapM_relined config translator (· + lineEnds a.toList) bs).of_ok hbs'
    have hy' := (Segment.renderAll_relined (· + lineEnds a.toList) _ bs').of_ok hy
    rw [hsegments, ok_bind, renderTemplate_eq, Segment.mapM_join _ has' hbs'', ok_bind,
      Segment.renderAll_join, hx, hy']
    rfl
  · show (Segment.join as _).filterMap Segment.expr? = _
    rw [Segment.expressions_join, Segment.expressions_relined]
    rfl

/-- A source with a tag between an odd number of quotation marks, which ends in a left brace. -/
def oddSource : String := "Don't \x7b \x7b\x7b 'who'|trans|desc('you') \x7d\x7d \x22\n\x7b"

/-- A source that begins with a mark, with the closing of a tag in a string. -/
def markedSource : String :=
  "' \x7b\x7b 'greet'|trans(\x7b'%n%': 'it\x7d\x7ds'\x7d)|desc('Hey %n%') \x7d\x7d!"

/-- The second source is rendered as it is by itself, whatever marks and braces there are in the
first. -/
theorem renderSource_append_odd :
    ¬Tag.Opens oddSource.toList markedSource.toList ∧
      (make { debug := true } greetings.toTranslator).renderSource oddSource "page" .empty =
        .ok "Don't \x7b world \x22\n\x7b" ∧
      (make { debug := true } greetings.toTranslator).renderSource markedSource "page" .empty =
        .ok "' Hello it\x7d\x7ds!" ∧
      (make { debug := true } greetings.toTranslator).renderSource (oddSource ++ markedSource)
          "page" .empty =
        .ok ("Don't \x7b world \x22\n\x7b" ++ "' Hello it\x7d\x7ds!") := by
  have hseam : ¬Tag.Opens oddSource.toList markedSource.toList := by decide
  have hodd : (make { debug := true } greetings.toTranslator).renderSource oddSource "page" .empty =
      .ok "Don't \x7b world \x22\n\x7b" := by decide +kernel
  have hmarked :
      (make { debug := true } greetings.toTranslator).renderSource markedSource "page" .empty =
      .ok "' Hello it\x7d\x7ds!" := by decide +kernel
  obtain ⟨hboth, -, -⟩ :=
    renderSource_append { debug := true } greetings.toTranslator oddSource markedSource "page"
      .empty _ _ hseam hodd hmarked
  exact ⟨hseam, hodd, hmarked, hboth⟩

end Engine

end Phrasebook
