import Phrasebook.Proofs.Annotations
import Phrasebook.Proofs.NumberText

/-!
# When a chain takes its default

A message without plural forms takes its default where the text found for it stands for the message
itself.  The test is the equality of templates, which goes by the kind of the value that the message
has.

* `Value.StandsFor` : the texts that stand for a value, kind by kind;
* `Value.looseEq_string_iff` : they are those that templates take to be equal to it;
* `Value.standsFor_iff_text_iff` : the text of a value is the only one that stands for it just if
  the value is a string;
* `Chain.takes_default_iff_standsFor` : what stands in for a chain renders its default just if the
  text that was found stands for the message;
* `Engine.default_against_text` : messages that are not strings take their default, or do not,
  against their text.
-/

namespace Phrasebook

open Outcome

/-! ### Texts that stand for a value -/

namespace Value

/-- Whether a text stands for a value: the text of a string only; every way to spell a number,
except one that is not a number; no text, or zero, for null; and for a truth value every text that
is as true. -/
def StandsFor (text : String) : Value → Prop
  | .null => text = "" ∨ ∃ x, numberOfText? text = some x ∧ x.equals .zero = true
  | .bool b => (text ≠ "" ∧ text ≠ "0") ↔ b = true
  | .number n => ∃ x, numberOfText? text = some x ∧ x.equals n = true
  | .string s => text = s
  | .map _ => False

/-- A text is equal to a value as templates see it if it stands for it. -/
theorem looseEq_string_iff (text : String) (v : Value) :
    looseEq (.string text) v = true ↔ StandsFor text v := by
  cases v with
  | null =>
    simp only [looseEq, looseScalarEq, number?, StandsFor]
    cases hx : numberOfText? text with
    | none => simp [Value.text]
    | some x =>
      simp only [Option.some.injEq, exists_eq_left']
      refine ⟨.inr, ?_⟩
      rintro (rfl | hzero)
      · cases hx
      · exact hzero
  | bool b =>
    simp only [looseEq, looseScalarEq, truthy, StandsFor]
    cases b with
    | false => simp only [Bool.false_eq_true, iff_false, not_and_or, not_not]; simp
    | true => simp
  | number n =>
    simp only [looseEq, looseScalarEq, number?, StandsFor]
    cases hx : numberOfText? text with
    | none =>
      -- the label of a number is no text that spells none
      have hne : text ≠ n.label := by
        rintro rfl
        obtain ⟨y, hy, -⟩ := numberOfText?_label n
        rw [hx] at hy
        cases hy
      simp [Value.text, hne]
    | some x => simp
  | string s => exact beq_iff_eq
  | map es => exact ⟨Bool.noConfusion, False.elim⟩

instance (text : String) (v : Value) : Decidable (StandsFor text v) :=
  decidable_of_iff _ (looseEq_string_iff text v)

/-- The text of a scalar stands for it, unless it is not a number. -/
theorem standsFor_text {v : Value} (hmap : ∀ es, v ≠ .map es) (hnan : v ≠ .number .nan) :
    StandsFor v.text v := by
  cases v with
  | null => exact .inl rfl
  | bool b => cases b <;> simp [StandsFor, text]
  | number n =>
    obtain ⟨y, hy, hequal⟩ := numberOfText?_label n
    exact ⟨y, hy, hequal fun h => hnan (congrArg _ h)⟩
  | string s => rfl
  | map es => exact absurd rfl (hmap es)

/-- A space before a text does not change the number that it spells. -/
theorem numberOfText?_space (text : String) : numberOfText? (" " ++ text) = numberOfText? text := by
  unfold numberOfText? Text.trim
  rw [String.toList_append]
  rfl

/-- The text of a value is the only one that stands for it just if the value is a string. -/
theorem standsFor_iff_text_iff (v : Value) :
    (∀ text, StandsFor text v ↔ text = v.text) ↔ ∃ s, v = .string s := by
  refine ⟨fun h => ?_, ?_⟩
  · cases v with
    | null =>
      exact absurd ((h "0").1 (.inr ⟨.zero, by decide +kernel, by decide +kernel⟩)) (by decide)
    | bool b =>
      cases b with
      | false => exact absurd ((h "0").1 (by simp [StandsFor])) (by decide)
      | true => exact absurd ((h "Yes").1 (by simp [StandsFor])) (by decide)
    | number n =>
      -- a space more, and the text spells the same number
      obtain ⟨x, hx, hequal⟩ := (h n.label).2 rfl
      have hspace := (h (" " ++ n.label)).1 ⟨x, by rw [numberOfText?_space, hx], hequal⟩
      have hlength := congrArg String.length hspace
      simp [text] at hlength
    | string s => exact ⟨s, rfl⟩
    | map es => exact ((h "Array").2 rfl).elim
  · rintro ⟨s, rfl⟩ text
    rfl

end Value

/-! ### The conditional in place of a chain -/

namespace Chain

/-- **A chain takes its default by the equality of templates.**  Let the message of a chain be no
hash and have no plural forms, and let its arguments name a domain and a locale.  What stands in for
the chain renders the default if the text found for the message stands for the value that the
message has, and the message looked up if it does not.  A message that comes back unchanged takes
its default, unless it is not a number; but its text is the only one that makes it do so just if the
message is a string. -/
theorem takes_default_iff_standsFor (s : Scope) (m default : Expr) (args more : List Expr)
    (l₂ l₃ : Nat) (v : Value) (vs : List Value) (domain named : Option String)
    (hcount : args.any countsAmong = false) (hm : m.eval s = .ok v) (hmap : ∀ es, v ≠ .map es)
    (hargs : Expr.evalList s args = .ok vs) (hdomain : Filter.stringAt vs 1 l₂ = .ok domain)
    (hnamed : Filter.stringAt vs 2 l₂ = .ok named) :
    let c := onMessage m args default more l₂ l₃
    let found := s.localizer.trans v.text .empty domain (named.or s.locale)
    ofFilter? c.desc = .ok (some c) ∧
      (∃ test, c.replacement = .cond test c.filledDefault c.trans.toExpr l₂ ∧
        test.eval s = .ok (.bool (decide (v.StandsFor found)))) ∧
      c.replacement.eval s =
        (if v.StandsFor found then c.filledDefault.eval s else c.trans.toExpr.eval s) ∧
      (∀ store config context, s = CatalogueStore.scope store config context →
        found = (store.lookup? (domain.getD config.defaultDomain) v.text
          (store.localeFor config named)).getD v.text) ∧
      (found = v.text → v ≠ .number .nan → v.StandsFor found) ∧
      ((∀ text, v.StandsFor text ↔ text = v.text) ↔ ∃ t, v = .string t) := by
  intro c found
  -- the values of the arguments behind the parameters
  have htail : ∃ ws, Expr.evalList s args.tail = .ok ws ∧ ∀ i,
      Filter.stringAt ws i l₂ = Filter.stringAt vs (i + 1) l₂ := by
    cases args with
    | nil =>
      cases hargs
      exact ⟨[], rfl, fun _ => rfl⟩
    | cons p rest =>
      obtain ⟨w, ws, rfl, -, hws⟩ := Expr.of_evalList_cons hargs
      exact ⟨ws, hws, fun _ => rfl⟩
  obtain ⟨ws, hws, hstring⟩ := htail
  have htest : (Expr.binary .equal (.filter m transFilter c.testArgs l₂) m l₂).eval s =
      .ok (.bool (decide (v.StandsFor found))) := by
    rw [eval_test hcount hm hws ((hstring 0).trans hdomain) ((hstring 1).trans hnamed)]
    congr 2
    exact Bool.eq_iff_iff.2 ((Value.looseEq_string_iff found v).trans decide_eq_true_iff.symm)
  have hreplacement : c.replacement =
      .cond (.binary .equal (.filter m transFilter c.testArgs l₂) m l₂) c.filledDefault
      c.trans.toExpr l₂ := replacement_of_noCount hcount
  refine ⟨rfl, ⟨_, hreplacement, htest⟩, ?_, ?_, ?_, Value.standsFor_iff_text_iff v⟩
  · rw [hreplacement, Expr.eval_cond, htest, ok_bind, Value.truthy]
    by_cases hstands : v.StandsFor found
    · rw [if_pos hstands, if_pos (decide_eq_true hstands)]
    · rw [if_neg hstands, if_neg (by simpa using hstands)]
  · rintro store config context rfl
    show (store.scope config context).localizer.trans _ _ _ _ = _
    rw [CatalogueStore.scope_trans, Parameters.render_empty]
  · intro hsame hnan
    rw [hsame]
    exact Value.standsFor_text hmap hnan

def numerals : CatalogueStore :=
  (CatalogueStore.empty "en").add
    (((Catalogue.empty "en").set "messages" "1" "Yes").set "messages" "3" "3.0")

/-- A scope with a number, a truth value, and what is not a number. -/
def numeralScope : Scope :=
  numerals.scope {}
    (.ofList [("three", .number (.ofNat 3)), ("yes", .bool true), ("odd", .number .nan)])

/-- Three comes back as `3.0`, which is another text for the same number, and so the default is
rendered. -/
theorem takes_default_iff_standsFor_three :
    let m := Expr.name "three" 1
    let args := [Expr.array [(.string "%x%" 1, .string "of" 1)] 1, .const .null 1]
    args.any countsAmong = false ∧ m.eval numeralScope = .ok (.number (.ofNat 3)) ∧
      Expr.evalList numeralScope args = .ok [.map [("%x%", .string "of")], .null] ∧
      Value.StandsFor "3.0" (.number (.ofNat 3)) ∧
      (onMessage m args (.string "Many %x%" 1) [] 1 1).replacement.eval numeralScope =
        .ok (.string "Many of") := by
  intro m args
  have hcount : args.any countsAmong = false := by decide
  have hm : m.eval numeralScope = .ok (.number (.ofNat 3)) := by decide +kernel
  have hargs : Expr.evalList numeralScope args = .ok [.map [("%x%", .string "of")], .null] := by
    decide +kernel
  have hstands : Value.StandsFor "3.0" (.number (.ofNat 3)) := by decide +kernel
  have hfound : numeralScope.localizer.trans (Value.number (.ofNat 3)).text .empty none
      ((none : Option String).or numeralScope.locale) = "3.0" := by decide +kernel
  obtain ⟨-, -, heval, -⟩ :=
    takes_default_iff_standsFor numeralScope m (.string "Many %x%" 1) args [] 1 1 _ _ none none
    hcount hm nofun hargs rfl rfl
  rw [hfound, if_pos hstands] at heval
  refine ⟨hcount, hm, hargs, hstands, heval.trans ?_⟩
  decide +kernel

end Chain

namespace Engine

/-- Messages that are not strings go against their text.  A truth value and a number have a text of
their own, and it is not rendered; what is not a number has none, and the default is not
rendered. -/
theorem default_against_text :
    ((Value.bool true).text = "1" ∧ Chain.numerals.lookup? "messages" "1" "en" = some "Yes" ∧
      (make { debug := true } Chain.numerals.toTranslator).renderSource
        "\x7b\x7b yes|trans|desc('Default') \x7d\x7d" "page" Chain.numeralScope.context =
          .ok "Default") ∧
    ((Value.number (.ofNat 3)).text = "3" ∧
      Chain.numerals.lookup? "messages" "3" "en" = some "3.0" ∧
      (make { debug := true } Chain.numerals.toTranslator).renderSource
        "\x7b\x7b three|trans|desc('Many') \x7d\x7d" "page" Chain.numeralScope.context =
          .ok "Many") ∧
    ((Value.number .nan).text = "NaN" ∧ Chain.numerals.lookup? "messages" "NaN" "en" = none ∧
      (make { debug := true } Chain.numerals.toTranslator).renderSource
        "\x7b\x7b odd|trans|desc('None') \x7d\x7d" "page" Chain.numeralScope.context =
          .ok "NaN") := by
  refine ⟨⟨?_, ?_, ?_⟩, ⟨?_, ?_, ?_⟩, ⟨?_, ?_, ?_⟩⟩ <;> decide +kernel

end Engine

end Phrasebook
