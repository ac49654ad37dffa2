import Phrasebook.Engine
import Phrasebook.Proofs.NodeLines
import Phrasebook.Proofs.ParserCompleteness
import Phrasebook.Proofs.RefusalLines
import Phrasebook.Proofs.TagText

/-!
# Where diagnostics point

Every error of rendering a source points at a line of the source.

* `Template.HasTag` : the tags of a text, with the line that each opens on;
* `Template.NameOn`, `Template.FilterOn` : an identifier, or a bar before one, that is a token of a
  tag and stands on a line of the source;
* `Template.fits_tag` : what the tokens of a tag say of their lines holds of the source;
* `Engine.meets_renderSource` : so do the errors of all stages;
* `Engine.line_of_error` : where an error points, read off.
-/

namespace Phrasebook

open Outcome

namespace Template

/-! ### Tags -/

/-- The tags of a text that starts on the line `line`: in one that opens on the line `tagLine`
stands `inner`. -/
inductive HasTag : Nat → List Char → Nat → List Char → Prop
  | first {line : Nat} {cs text rest inner after : List Char}
      (ho : Tag.splitOpen cs = some (text, rest))
      (hc : Tag.splitClose .outside rest = some (inner, after)) :
        HasTag line cs (line + lineEnds text) inner
  | later {line tagLine : Nat} {cs text rest inner after inner' : List Char}
      (ho : Tag.splitOpen cs = some (text, rest))
      (hc : Tag.splitClose .outside rest = some (inner, after))
      (h : HasTag (line + lineEnds text + lineEnds inner) after tagLine inner') :
        HasTag line cs tagLine inner'

/-- The text before and after a tag. -/
theorem HasTag.exists_text {line tagLine : Nat} {cs inner : List Char}
    (h : HasTag line cs tagLine inner) :
    ∃ before after, cs = before ++ '\x7b' :: '\x7b' :: (inner ++ '\x7d' :: '\x7d' :: after) ∧
      tagLine = line + lineEnds before := by
  induction h with
  | @first line cs text rest inner after ho hc =>
    obtain ⟨rfl, -⟩ := Tag.of_splitClose hc
    exact ⟨text, after, Tag.of_splitOpen ho, rfl⟩
  | @later line tagLine cs text rest inner after inner' ho hc h ih =>
    obtain ⟨rfl, -⟩ := Tag.of_splitClose hc
    obtain ⟨before, after', rfl, rfl⟩ := ih
    refine ⟨text ++ '\x7b' :: '\x7b' :: (inner ++ '\x7d' :: '\x7d' :: before), after', ?_, ?_⟩
    · rw [Tag.of_splitOpen ho]
      simp
    · simp
      omega

/-- The printed expressions of a text are those that its tags spell, and a text is refused on one of
its lines. -/
theorem meets_segments (line : Nat) (cs : List Char) :
    Meets (fun segs => ∀ e l, Segment.print e l ∈ segs →
        ∃ tagLine inner, HasTag line cs tagLine inner ∧ Expr.parse (.ofList inner) tagLine = .ok e)
      (fun err => ∃ cause input l, err = .parse cause input l ∧ line ≤ l ∧ l ≤ line + lineEnds cs)
      (segments line cs) := by
  have htext : ∀ (text : List Char) (line : Nat) (e : Expr) (l : Nat),
      Segment.print e l ∉ textSegments text line := by
    intro text line e l h
    unfold textSegments at h
    split at h
    · cases h
    · cases List.mem_singleton.1 h
  induction cs using tag_induction generalizing line with
  | text cs ho =>
    rw [segments_of_text ho]
    exact fun e l h => absurd h (htext cs line e l)
  | unclosed cs text rest ho hc =>
    have hlines := Tag.lineEnds_of_splitOpen ho
    rw [segments_of_open ho hc]
    exact ⟨_, _, _, rfl, by omega, by omega⟩
  | tag cs text rest inner after ho hc ih =>
    have hlines := Tag.lineEnds_of_splitOpen ho
    have hrest := Tag.lineEnds_of_splitClose hc
    rw [segments_of_tag ho hc]
    have hparse := Expr.parse_line_bounds (.ofList inner) (line + lineEnds text)
    rw [String.toList_ofList] at hparse
    cases he : Expr.parse (.ofList inner) (line + lineEnds text) with
    | error err =>
      rw [he] at hparse
      obtain ⟨cause, l, rfl, hle⟩ := hparse
      exact ⟨cause, _, l, rfl, by omega, by omega⟩
    | ok e =>
      rw [ok_bind]
      refine ((ih (line + lineEnds text + lineEnds inner)).mono (fun _ h => h) ?_).bind ?_
      · rintro err ⟨cause, input, l, rfl, hle⟩
        exact ⟨cause, input, l, rfl, by omega, by omega⟩
      · intro more hmore e' l h
        rcases List.mem_append.1 h with h | h
        · exact absurd h (htext text line e' l)
        · rcases List.mem_cons.1 h with h | h
          · cases h
            exact ⟨_, inner, .first ho hc, he⟩
          · obtain ⟨tagLine, inner', htag, hparse'⟩ := hmore e' l h
            exact ⟨tagLine, inner', .later ho hc htag, hparse'⟩

/-! ### Tokens of tags -/

/-- An identifier is a token of a tag, and stands on a line of the source. -/
structure NameOn (source x : String) (l : Nat) : Prop where
  token : ∃ tagLine inner, HasTag 1 source.toList tagLine inner ∧
    ∃ t ∈ Token.ofText (.ofList inner) tagLine, t.lexeme = .ident x ∧ t.line = l
  text : ∃ before after, source.toList = before ++ (x.toList ++ after) ∧ l = 1 + lineEnds before

/-- A bar and an identifier are tokens of a tag, one after the other, and the bar stands on a line
of the source. -/
structure FilterOn (source x : String) (l : Nat) : Prop where
  token : ∃ tagLine inner, HasTag 1 source.toList tagLine inner ∧
    ∃ ts₁ bar t ts₂, Token.ofText (.ofList inner) tagLine = ts₁ ++ bar :: t :: ts₂ ∧
      bar.lexeme = .operator .bar ∧ t.lexeme = .ident x ∧ bar.line = l
  text : ∃ before gap after, source.toList = before ++ '|' :: (gap ++ (x.toList ++ after)) ∧
    (∀ b ∈ gap, isBlank b = true) ∧ l = 1 + lineEnds before

/-- A line of the source. -/
def IsLineOf (source : String) (l : Nat) : Prop := 1 ≤ l ∧ l ≤ 1 + lineEnds source.toList

/-- The lines of the tokens of a tag are lines of the source. -/
theorem fits_tag {source : String} {tagLine : Nat} {inner : List Char}
    (h : HasTag 1 source.toList tagLine inner)
    (hclean : ∀ t ∈ Token.ofText (.ofList inner) tagLine, t.lexeme.isFault = false) :
    Grammar.Fits (NameOn source) (FilterOn source) (IsLineOf source)
      (Token.ofText (.ofList inner) tagLine) := by
  obtain ⟨before, after, hsource, rfl⟩ := h.exists_text
  have hlayout := Token.layout_ofText (.ofList inner) (1 + lineEnds before)
  rw [String.toList_ofList] at hlayout
  have hopen : ∀ cs, lineEnds (before ++ '\x7b' :: '\x7b' :: cs) =
      lineEnds before + lineEnds cs := fun cs => by
    simp
  refine ⟨fun t ht => ?_, fun t ht x hx => ?_, fun b t x hbt hb hx => ?_⟩
  · have hbounds := hlayout.line_bounds t ht
    have hlines : lineEnds source.toList = lineEnds before + (lineEnds inner + lineEnds after) := by
      rw [hsource, hopen]
      simp
    unfold IsLineOf
    omega
  · obtain ⟨ts₁, ts₂, hts⟩ := List.append_of_mem ht
    obtain ⟨before', raw, after', rfl, hraw, -, hline, -⟩ := (hts ▸ hlayout).cut (hclean t ht)
    rw [hx] at hraw
    obtain ⟨rfl, -⟩ := hraw
    refine ⟨⟨_, _, h, t, ht, hx, rfl⟩, before ++ '\x7b' :: '\x7b' :: before',
      after' ++ '\x7d' :: '\x7d' :: after, ?_, ?_⟩
    · rw [hsource]
      simp [Lexeme.text]
    · rw [hopen, hline]
      omega
  · obtain ⟨ts₁, ts₂, hts⟩ := hbt
    have hts : Token.ofText (.ofList inner) (1 + lineEnds before) = ts₁ ++ b :: t :: ts₂ := by
      rw [← hts]
      simp
    have hcleanb := hclean b (by rw [hts]; simp)
    have hcleant := hclean t (by rw [hts]; simp)
    obtain ⟨before', raw, gap, raw', after', rfl, hgap, hraw, hraw', -, hline⟩ :=
      (hts ▸ hlayout).gap hcleanb hcleant
    rw [hb] at hraw
    rw [hx] at hraw'
    obtain ⟨rfl, -⟩ := hraw
    obtain ⟨rfl, -⟩ := hraw'
    refine ⟨⟨_, _, h, ts₁, b, t, ts₂, hts, hb, hx, rfl⟩, before ++ '\x7b' :: '\x7b' :: before', gap,
      after' ++ '\x7d' :: '\x7d' :: after, ?_, hgap, ?_⟩
    · rw [hsource]
      simp [Lexeme.text, Operator.text]
    · rw [hopen, hline]
      omega

/-- The nodes of the expression in a tag stand where its tokens do. -/
theorem placed_tag {source : String} {tagLine : Nat} {inner : List Char} {e : Expr}
    (h : HasTag 1 source.toList tagLine inner) (he : Expr.parse (.ofList inner) tagLine = .ok e) :
    e.AllPlaced (NameOn source) (FilterOn source) (IsLineOf source) := by
  obtain ⟨hclean, d, hd, rfl⟩ := Expr.exists_derivation he
  exact d.placed (hd ▸ fits_tag h hclean)

end Template

/-! ### All stages -/

namespace Engine

section Stages

variable {N F : String → Nat → Prop} {L : Nat → Prop}

/-- All printed expressions of a template are placed. -/
def Placed (N F : String → Nat → Prop) (L : Nat → Prop) (body : List Segment) : Prop :=
  ∀ e l, Segment.print e l ∈ body → e.AllPlaced N F L

theorem meets_run (config : Config) (translator : Translator) (context : Context) {e : Expr}
    (he : e.AllPlaced N F L) :
    Meets (Expr.AllPlaced N F L) (Error.Grounded N F L context)
      ((make config translator).pipeline.run e) := by
  have hpasses : (make config translator).pipeline =
      .ofList (if config.debug then [DefaultPass.toPass ⟨true⟩] else []) := rfl
  rw [hpasses]
  cases config.debug with
  | false => exact he
  | true =>
    have hrun : Pipeline.run (.ofList [DefaultPass.toPass ⟨true⟩]) e = DefaultPass.pass.run e :=
      DefaultPass.run_pipeline true e
    rw [if_pos rfl, hrun]
    exact DefaultPass.meets_run_placed context he

theorem meets_runTemplate (config : Config) (translator : Translator) (context : Context)
    {t : Template} (ht : Placed N F L t.body) :
    Meets (fun t' => Placed N F L t'.body) (Error.Grounded N F L context)
      ((make config translator).pipeline.runTemplate t) := by
  have hsegment : ∀ a ∈ t.body, Meets (fun a' => Placed N F L [a']) (Error.Grounded N F L context)
      ((make config translator).pipeline.runSegment a) := by
    intro a ha
    cases a with
    | text data line => exact fun e l h => by cases List.mem_singleton.1 h
    | print e line =>
      refine (meets_run config translator context (ht e line ha)).bind fun e' he' e'' l h => ?_
      cases List.mem_singleton.1 h
      exact he'
  refine ((Expr.meets_mapM _ t.body).mono (fun _ h => h) ?_).bind fun body hbody e l h => ?_
  · rintro err ⟨a, ha, herr⟩
    have := hsegment a ha
    rw [herr] at this
    exact this
  · obtain ⟨a, ha, hrun⟩ := exists_of_mem_forall₂ hbody h
    have := hsegment a ha
    rw [hrun] at this
    exact this e l (List.mem_singleton_self _)

theorem meets_renderAll {s : Scope} {body : List Segment} (h : Placed N F L body) :
    Meets (fun _ => True) (Error.Grounded N F L s.context) (Segment.renderAll s body) := by
  induction body with
  | nil => trivial
  | cons a body ih =>
    have ha : Meets (fun _ => True) (Error.Grounded N F L s.context) (a.render s) := by
      cases a with
      | text data line => trivial
      | print e line =>
        exact (Expr.meets_eval s e (h e line (List.mem_cons_self ..))).bind fun _ _ => trivial
    exact ha.bind fun _ _ => (ih fun e l he => h e l (List.mem_cons_of_mem _ he)).bind
      fun _ _ => trivial

end Stages

/-- The errors of all stages are grounded in the source. -/
theorem meets_renderSource (config : Config) (translator : Translator) (source name : String)
    (context : Context) :
    Meets (fun _ => True)
      (Error.Grounded (Template.NameOn source) (Template.FilterOn source)
        (Template.IsLineOf source) context)
      ((make config translator).renderSource source name context) := by
  have hparse :
      Meets (fun t => Placed (Template.NameOn source) (Template.FilterOn source)
        (Template.IsLineOf source) t.body)
      (Error.Grounded (Template.NameOn source) (Template.FilterOn source)
        (Template.IsLineOf source) context)
      (Template.parse source name) := by
    refine ((Template.meets_segments 1 source.toList).mono (fun _ h => h) ?_).bind
      fun segs hsegs e l h => ?_
    · rintro err ⟨cause, input, l, rfl, hle⟩
      exact hle
    · obtain ⟨tagLine, inner, htag, he⟩ := hsegs e l h
      exact Template.placed_tag htag he
  have hcompile := hparse.bind fun t ht => meets_runTemplate config translator context ht
  exact hcompile.bind fun t ht => meets_renderAll ht

/-- **Every diagnostic points into the source.**  Whichever stage fails, its error has a line, and
that is a line of the source.  A variable that does not exist is missing in the context, and its
name is an identifier on that line; a filter that is not known is applied by a bar on that line. -/
theorem line_of_error (config : Config) (translator : Translator) (source name : String)
    (context : Context) (err : Error)
    (h : (make config translator).renderSource source name context = .error err) :
    ∃ l, err.line? = some l ∧ 1 ≤ l ∧ l ≤ 1 + lineEnds source.toList ∧
      (∀ x, err = .undefinedVariable x l → context.get? x = none ∧ Template.NameOn source x l) ∧
      (∀ x, err = .unknownFilter x l → Template.FilterOn source x l) := by
  have hgrounded := meets_renderSource config translator source name context
  rw [h] at hgrounded
  cases err with
  | missingTrans l => exact ⟨l, rfl, hgrounded.1, hgrounded.2, nofun, nofun⟩
  | missingDefault l => exact ⟨l, rfl, hgrounded.1, hgrounded.2, nofun, nofun⟩
  | parse cause input l => exact ⟨l, rfl, hgrounded.1, hgrounded.2, nofun, nofun⟩
  | argument cause l => exact ⟨l, rfl, hgrounded.1, hgrounded.2, nofun, nofun⟩
  | unknownFilter x l =>
    refine ⟨l, rfl, hgrounded.1.1, hgrounded.1.2, nofun, fun y hy => ?_⟩
    cases hy
    exact hgrounded.2
  | undefinedVariable x l =>
    refine ⟨l, rfl, hgrounded.1.1, hgrounded.1.2, fun y hy => ?_, nofun⟩
    cases hy
    exact ⟨hgrounded.2.2, hgrounded.2.1⟩
  | configuration => exact hgrounded.elim
  | runaway l => exact hgrounded.elim

/-- A default message that is put in and that is not in the context: the error points to the line of
its name, past the line end that a string holds. -/
theorem line_of_error_nickname :
    (make { debug := true } (CatalogueStore.empty "en").toTranslator).renderSource
        "Hi\n\x7b\x7b 'a\nb'|trans|desc(\n  nickname) \x7d\x7d" "page" .empty =
          .error (.undefinedVariable "nickname" 4) ∧
      (.empty : Context).get? "nickname" = none ∧
      Template.NameOn "Hi\n\x7b\x7b 'a\nb'|trans|desc(\n  nickname) \x7d\x7d" "nickname" 4 := by
  have hrender : (make { debug := true } (CatalogueStore.empty "en").toTranslator).renderSource
      "Hi\n\x7b\x7b 'a\nb'|trans|desc(\n  nickname) \x7d\x7d" "page" .empty =
        .error (.undefinedVariable "nickname" 4) := by
    decide +kernel
  obtain ⟨l, hl, -, -, hname, -⟩ := line_of_error _ _ _ _ _ _ hrender
  cases hl
  exact ⟨hrender, hname "nickname" rfl⟩

end Engine

end Phrasebook
