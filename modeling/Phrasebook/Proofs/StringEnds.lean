import Phrasebook.Proofs.TagText
import Phrasebook.Proofs.TokenSpans

/-!
# Where strings end

The reader of templates and the one of expressions each follow quotation marks by a rule of their
own.  Both end a string at the first mark that no backslash takes, with one exception: to the reader
of expressions a null character behind a backslash is the end of the text.

* `Lexeme.Inside`, `Lexeme.closes_or_runs_on` : text inside quotation marks, and where it ends;
* `Lexeme.Inside.scanQuoted_append`, `Lexeme.Inside.splitClose_append` : both readers pass over such
  text;
* `Token.string_ends` : where both take a string to end;
* `Token.null_breaks_string` : where they do not agree.
-/

namespace Phrasebook

namespace Lexeme

/-! ### Text inside quotation marks -/

/-- Text inside quotation marks `q`: a backslash takes the character after it, whatever that is, and
no mark stands there otherwise. -/
inductive Inside (q : Char) : List Char → Prop
  | nil : Inside q []
  | plain {c : Char} {cs : List Char} (hc : c ≠ '\x5c') (hq : c ≠ q) (h : Inside q cs) :
      Inside q (c :: cs)
  | escaped (c : Char) {cs : List Char} (h : Inside q cs) : Inside q ('\x5c' :: c :: cs)

/-- A backslash takes the null character. -/
def escapesNull : List Char → Bool
  | '\x5c' :: c :: cs => c == '\x00' || escapesNull cs
  | _ :: cs => escapesNull cs
  | [] => false

/-- Behind an opening mark the text goes on to a mark that closes it, or to the end of the text,
where a backslash may be left with nothing to take. -/
theorem closes_or_runs_on (q : Char) : ∀ cs : List Char,
    (∃ body rest, cs = body ++ q :: rest ∧ Inside q body) ∨ Inside q cs ∨ ∃ body,
    cs = body ++ ['\x5c'] ∧ Inside q body
  | [] => Or.inr (Or.inl .nil)
  | [c] => by
    by_cases hq : c = q
    · exact Or.inl ⟨[], [], by rw [hq]; rfl, .nil⟩
    by_cases hc : c = '\x5c'
    · exact Or.inr (Or.inr ⟨[], by rw [hc]; rfl, .nil⟩)
    · exact Or.inr (Or.inl (.plain hc hq .nil))
  | c :: d :: cs => by
    by_cases hq : c = q
    · exact Or.inl ⟨[], d :: cs, by rw [hq]; rfl, .nil⟩
    by_cases hc : c = '\x5c'
    · subst hc
      rcases closes_or_runs_on q cs with ⟨body, rest, rfl, h⟩ | h | ⟨body, rfl, h⟩
      · exact Or.inl ⟨_, rest, rfl, .escaped d h⟩
      · exact Or.inr (Or.inl (.escaped d h))
      · exact Or.inr (Or.inr ⟨_, rfl, .escaped d h⟩)
    · rcases closes_or_runs_on q (d :: cs) with ⟨body, rest, hcs, h⟩ | h | ⟨body, hcs, h⟩
      · exact Or.inl ⟨c :: body, rest, by rw [hcs]; rfl, .plain hc hq h⟩
      · exact Or.inr (Or.inl (.plain hc hq h))
      · exact Or.inr (Or.inr ⟨c :: body, by rw [hcs]; rfl, .plain hc hq h⟩)

theorem escapesNull_plain {c : Char} (hc : c ≠ '\x5c') (cs : List Char) :
    escapesNull (c :: cs) = escapesNull cs := by
  cases cs with
  | nil => simp [escapesNull]
  | cons d cs => rw [escapesNull.eq_2 _ _ fun c' cs' h _ => hc h]

/-! ### The reader of expressions -/

/-- More of a string in front, with what it stands for. -/
def Quoted.prepend (front spelling : List Char) : Quoted → Quoted
  | .closed value raw rest => .closed (front ++ value) (spelling ++ raw) rest
  | .broken raw => .broken (spelling ++ raw)

theorem Quoted.push_prepend (c : Char) (spelling front raw : List Char) (s : Quoted) :
    (s.prepend front raw).push c spelling = s.prepend (c :: front) (spelling ++ raw) := by
  cases s <;> simp [prepend, push]

variable {q : Char} {body : List Char}

/-- The reader of expressions passes over text inside quotation marks. -/
theorem Inside.scanQuoted_append (h : Inside q body) (hnull : escapesNull body = false)
    (rest : List Char) :
    ∃ front, scanQuoted q (body ++ rest) = (scanQuoted q rest).prepend front body := by
  induction h with
  | nil =>
    refine ⟨[], ?_⟩
    cases hrest : scanQuoted q rest <;> simp [Quoted.prepend, hrest]
  | @plain c cs hc hq h ih =>
    rw [escapesNull_plain hc] at hnull
    obtain ⟨front, hfront⟩ := ih hnull
    refine ⟨c :: front, ?_⟩
    rw [List.cons_append, scanQuoted_plain hc hq, hfront, Quoted.push_prepend]
    rfl
  | @escaped c cs h ih =>
    simp only [escapesNull, Bool.or_eq_false_iff, beq_eq_false_iff_ne] at hnull
    obtain ⟨front, hfront⟩ := ih hnull.2
    refine ⟨unescape c :: front, ?_⟩
    rw [List.cons_append, List.cons_append, scanQuoted_backslash hnull.1, hfront,
      Quoted.push_prepend]
    rfl

/-- It breaks off at a null character that a backslash takes. -/
theorem Inside.scanQuoted_null (h : Inside q body) (hnull : escapesNull body = true)
    (rest : List Char) : ∃ raw, scanQuoted q (body ++ rest) = .broken raw := by
  induction h with
  | nil => cases hnull
  | @plain c cs hc hq h ih =>
    rw [escapesNull_plain hc] at hnull
    obtain ⟨raw, hraw⟩ := ih hnull
    refine ⟨c :: raw, ?_⟩
    rw [List.cons_append, scanQuoted_plain hc hq, hraw]
    rfl
  | @escaped c cs h ih =>
    simp only [escapesNull, Bool.or_eq_true, beq_iff_eq] at hnull
    by_cases hc : c = '\x00'
    · exact ⟨['\x5c'], by rw [List.cons_append, List.cons_append, scanQuoted, if_pos hc]⟩
    · obtain ⟨raw, hraw⟩ := ih (hnull.resolve_left hc)
      refine ⟨'\x5c' :: c :: raw, ?_⟩
      rw [List.cons_append, List.cons_append, scanQuoted_backslash hc, hraw]
      rfl

/-- A string ends right behind the mark that closes it. -/
theorem scanQuoted_of_closed (h : Inside q body) (hq : q ≠ '\x5c')
    (hnull : escapesNull body = false) (rest : List Char) :
    ∃ value, scanQuoted q (body ++ q :: rest) = .closed value (body ++ [q]) rest := by
  obtain ⟨front, hfront⟩ := h.scanQuoted_append hnull (q :: rest)
  have hclose : scanQuoted q (q :: rest) = .closed [] [q] rest := by
    rw [scanQuoted.eq_def]
    split
    · next heq => cases heq
    · next heq => exact absurd (List.cons.inj heq).1 hq
    · next heq => exact absurd (List.cons.inj heq).1 hq
    · next heq =>
      obtain ⟨rfl, rfl⟩ := List.cons.inj heq
      rw [if_pos rfl]
  refine ⟨front, ?_⟩
  rw [hfront, hclose, Quoted.prepend, List.append_nil]

/-- A string without a mark that closes it breaks off. -/
theorem scanQuoted_of_open {cs : List Char}
    (hopen : ¬∃ body rest, cs = body ++ q :: rest ∧ Inside q body) :
    ∃ raw, scanQuoted q cs = .broken raw := by
  have hbreaks : ∀ body rest raw, Inside q body → scanQuoted q rest = .broken raw →
      ∃ raw', scanQuoted q (body ++ rest) = .broken raw' := by
    intro body rest raw h hrest
    cases hnull : escapesNull body with
    | true => exact h.scanQuoted_null hnull rest
    | false =>
      obtain ⟨front, hfront⟩ := h.scanQuoted_append hnull rest
      exact ⟨body ++ raw, by rw [hfront, hrest, Quoted.prepend]⟩
  rcases closes_or_runs_on q cs with hclosed | h | ⟨body, rfl, h⟩
  · exact absurd hclosed hopen
  · obtain ⟨raw, hraw⟩ := hbreaks cs [] [] h (by simp [scanQuoted])
    exact ⟨raw, by rw [← hraw, List.append_nil]⟩
  · exact hbreaks body ['\x5c'] ['\x5c'] h (by simp [scanQuoted])

/-! ### The reader of templates -/

open Tag in
/-- The reader of templates passes over text inside quotation marks. -/
theorem Inside.splitClose_append (h : Inside q body) (rest : List Char) :
    splitClose (.inside q) (body ++ rest) =
      (splitClose (.inside q) rest).map fun p => (body ++ p.1, p.2) := by
  induction h with
  | nil => simp
  | @plain c cs hc hq h ih =>
    rw [List.cons_append, splitClose_cons fun hand => Mode.inside_ne_outside q hand.1,
      Mode.next_inside hc hq, ih, Option.map_map]
    rfl
  | @escaped c cs h ih =>
    have hnext : (Mode.inside q).next '\x5c' = .escaped q := rfl
    have hback : (Mode.escaped q).next c = .inside q := rfl
    rw [List.cons_append, List.cons_append,
      splitClose_cons fun hand => Mode.inside_ne_outside q hand.1, hnext,
      splitClose_cons fun hand => Mode.escaped_ne_outside q hand.1, hback, ih, Option.map_map,
      Option.map_map]
    rfl

open Tag in
/-- Behind an opening mark the search for the closing of a tag stands inside quotation marks. -/
theorem splitClose_quote (hq : isQuote q = true) (cs : List Char) :
    splitClose .outside (q :: cs) = (splitClose (.inside q) cs).map fun p => (q :: p.1, p.2) := by
  have hbrace : q ≠ '\x7d' := by
    rintro rfl
    cases hq
  rw [splitClose_cons fun hand => hbrace hand.2.1, Mode.next_quote hq]

open Tag in
/-- The search goes on right behind the mark that closes a string. -/
theorem splitClose_of_closed (hq : isQuote q = true) (h : Inside q body) (rest : List Char) :
    splitClose .outside (q :: (body ++ q :: rest)) =
      (splitClose .outside rest).map fun p => (q :: (body ++ q :: p.1), p.2) := by
  rw [splitClose_quote hq, h.splitClose_append,
    splitClose_cons fun hand => Mode.inside_ne_outside q hand.1,
    Mode.next_mark (isQuote_ne_backslash hq), Option.map_map, Option.map_map]
  rfl

open Tag in
/-- Without a mark that closes a string the tag is not closed. -/
theorem splitClose_of_open {cs : List Char} (hq : isQuote q = true)
    (hopen : ¬∃ body rest, cs = body ++ q :: rest ∧ Inside q body) :
    splitClose .outside (q :: cs) = none := by
  have hnone : ∀ m, splitClose m [] = none := fun m => by rw [splitClose.eq_def]
  rw [splitClose_quote hq, Option.map_eq_none_iff]
  rcases closes_or_runs_on q cs with hclosed | h | ⟨body, rfl, h⟩
  · exact absurd hclosed hopen
  · have happend := h.splitClose_append []
    rw [List.append_nil, hnone] at happend
    exact happend
  · rw [h.splitClose_append, splitClose_cons fun hand => Mode.inside_ne_outside q hand.1, hnone]
    rfl

end Lexeme

/-! ### Strings as tokens -/

namespace Token

open Lexeme

variable {q : Char}

theorem scan_of_isQuote (hq : isQuote q = true) (cs : List Char) :
    Lexeme.scan q cs = scanString q cs := by
  rw [isQuote_iff] at hq
  rcases hq with rfl | rfl <;> rfl

theorem isBlank_of_isQuote (hq : isQuote q = true) : isBlank q = false := by
  rw [isQuote_iff] at hq
  rcases hq with rfl | rfl <;> decide

/-- The first token of a text that starts with a string. -/
theorem ofText_string (hq : isQuote q = true) {cs value raw rest : List Char}
    (h : scanQuoted q cs = .closed value raw rest) (line : Nat) :
    ofText (.ofList (q :: cs)) line = ⟨.string (.ofList value), 0, byteLength (q :: raw), line⟩ ::
      scan (line + lineEnds (q :: raw)) (byteLength (q :: raw)) rest := by
  have hnone : ∀ b ∈ ([] : List Char), isBlank b = true := nofun
  have hstep := scan_append hnone (isBlank_of_isQuote hq) line 0 cs
  have hscan : Lexeme.scan q cs = ⟨.string (.ofList value), q :: raw, rest⟩ := by
    rw [scan_of_isQuote hq, scanString, h]
  unfold ofText
  rw [String.toList_ofList, ← List.nil_append (q :: cs), hstep, hscan]
  simp [isFault]

/-- The only token of a text that starts with a string that breaks off. -/
theorem ofText_unterminated (hq : isQuote q = true) {cs raw : List Char}
    (h : scanQuoted q cs = .broken raw) (line : Nat) :
    ∃ stop, ofText (.ofList (q :: cs)) line = [⟨.fault .unterminated, 0, stop, line⟩] := by
  have hnone : ∀ b ∈ ([] : List Char), isBlank b = true := nofun
  have hstep := scan_append hnone (isBlank_of_isQuote hq) line 0 cs
  have hscan : Lexeme.scan q cs = ⟨.fault .unterminated, q :: raw, []⟩ := by
    rw [scan_of_isQuote hq, scanString, h]
  refine ⟨byteLength (q :: raw), ?_⟩
  unfold ofText
  rw [String.toList_ofList, ← List.nil_append (q :: cs), hstep, hscan]
  simp [isFault]

/-- **Where a string ends.**  Behind an opening mark, if some mark closes the string, the search for
the closing of a tag goes on right behind it; there the token of the string ends as well, unless a
backslash before it takes a null character: then the string is an unterminated one.  If no mark
closes the string, the tag is not closed and the string is unterminated. -/
theorem string_ends (hq : isQuote q = true) (cs : List Char) (line : Nat) :
    (∀ body rest, cs = body ++ q :: rest → Inside q body →
      Tag.splitClose .outside (q :: cs) =
        (Tag.splitClose .outside rest).map (fun p => (q :: (body ++ q :: p.1), p.2)) ∧
        (escapesNull body = false → ∃ value, ofText (.ofList (q :: cs)) line =
          ⟨.string value, 0, byteLength (q :: (body ++ [q])), line⟩ ::
            scan (line + lineEnds (q :: (body ++ [q]))) (byteLength (q :: (body ++ [q]))) rest) ∧
        (escapesNull body = true →
          ∃ stop, ofText (.ofList (q :: cs)) line = [⟨.fault .unterminated, 0, stop, line⟩])) ∧
      ((¬∃ body rest, cs = body ++ q :: rest ∧ Inside q body) →
        Tag.splitClose .outside (q :: cs) = none ∧
          ∃ stop, ofText (.ofList (q :: cs)) line = [⟨.fault .unterminated, 0, stop, line⟩]) := by
  constructor
  · rintro body rest rfl hbody
    refine ⟨splitClose_of_closed hq hbody rest, fun hnull => ?_, fun hnull => ?_⟩
    · obtain ⟨value, hvalue⟩ := scanQuoted_of_closed hbody (isQuote_ne_backslash hq) hnull rest
      exact ⟨_, ofText_string hq hvalue line⟩
    · obtain ⟨raw, hraw⟩ := hbody.scanQuoted_null hnull (q :: rest)
      exact ofText_unterminated hq hraw line
  · intro hopen
    obtain ⟨raw, hraw⟩ := scanQuoted_of_open hopen
    exact ⟨splitClose_of_open hq hopen, ofText_unterminated hq hraw line⟩

/-- A string with an escaped mark and two right braces in it, and one that no mark closes. -/
theorem string_ends_escaped :
    isQuote '\x27' = true ∧ Inside '\x27' "it\\'s \x7d\x7d".toList ∧
      Tag.splitClose .outside "'it\\'s \x7d\x7d'|trans \x7d\x7d!".toList =
        some ("'it\\'s \x7d\x7d'|trans ".toList, "!".toList) ∧
      (∃ value ts, ofText "'it\\'s \x7d\x7d'|trans \x7d\x7d!" 1 = ⟨.string value, 0, 10, 1⟩ :: ts) ∧
      Tag.splitClose .outside "'it is \x7d\x7d".toList = none ∧
      ∃ stop, ofText "'it is \x7d\x7d" 1 = [⟨.fault .unterminated, 0, stop, 1⟩] := by
  have hmark : isQuote '\x27' = true := rfl
  have hbody : Inside '\x27' "it\\'s \x7d\x7d".toList :=
    .plain (by decide) (by decide) <| .plain (by decide) (by decide) <| .escaped _ <|
      .plain (by decide) (by decide) <|
      .plain (by decide) (by decide) <| .plain (by decide) (by decide) <|
      .plain (by decide) (by decide) .nil
  obtain ⟨hclosed, -⟩ := string_ends hmark "it\\'s \x7d\x7d'|trans \x7d\x7d!".toList 1
  obtain ⟨hsplit, htoken, -⟩ := hclosed _ "|trans \x7d\x7d!".toList rfl hbody
  obtain ⟨-, hopen⟩ := string_ends hmark "it is \x7d\x7d".toList 1
  obtain ⟨hnone, hbroken⟩ := hopen (by
    rintro ⟨body, rest, hcs, -⟩
    have hmem : '\x27' ∈ "it is \x7d\x7d".toList := by
      rw [hcs]
      simp
    revert hmem
    decide)
  obtain ⟨value, hvalue⟩ := htoken rfl
  exact ⟨hmark, hbody, hsplit, ⟨value, _, hvalue⟩, hnone, hbroken⟩

/-- To the reader of expressions a string does not end at its closing mark if a backslash before it
takes a null character. -/
theorem null_breaks_string :
    ¬∀ (q : Char) (body rest : List Char) (line : Nat), isQuote q = true → Inside q body →
      ∃ value ts, ofText (.ofList (q :: (body ++ q :: rest))) line =
        ⟨.string value, 0, byteLength (q :: (body ++ [q])), line⟩ :: ts := by
  intro h
  obtain ⟨value, ts, htoken⟩ := h '\x27' ['\x5c', '\x00'] [] 1 rfl (.escaped _ .nil)
  have hfault : ofText (.ofList ['\x27', '\x5c', '\x00', '\x27']) 1 =
      [⟨.fault .unterminated, 0, 2, 1⟩] := by
    decide +kernel
  rw [List.cons_append, List.cons_append, List.nil_append, hfault] at htoken
  cases htoken

end Token

end Phrasebook
