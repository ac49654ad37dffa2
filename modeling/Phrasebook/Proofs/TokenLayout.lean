import Phrasebook.Proofs.Lexing

/-!
# Where tokens stand in a text

* `Lexeme.Spelt` : the characters that a lexeme is written with;
* `Token.Layout` : tokens of a text one after another, with blanks between them, each at its byte
  and line;
* `Token.layout_scan` : so the tokens of a text stand;
* `Token.Layout.cut` : the text before, of and after a token;
* `Token.Layout.gap` : between two tokens in a row stand blanks only.
-/

namespace Phrasebook

/-! ### Lengths of texts -/

theorem byteLength_pos {cs : List Char} (h : cs ≠ []) : 0 < byteLength cs := by
  obtain ⟨c, cs, rfl⟩ := List.exists_cons_of_ne_nil h
  have := c.utf8Size_pos
  rw [byteLength_cons]
  omega

/-- Two beginnings of a text with the same length in bytes are the same. -/
theorem eq_of_byteLength {as as' bs bs' : List Char} (h : as ++ bs = as' ++ bs')
    (hlength : byteLength as = byteLength as') : as = as' := by
  rcases List.append_eq_append_iff.1 h with ⟨cs, rfl, -⟩ | ⟨cs, rfl, -⟩
  all_goals
    cases cs with
    | nil => simp
    | cons c cs =>
      have := byteLength_pos (List.cons_ne_nil c cs)
      rw [byteLength_append] at hlength
      omega

/-- A character of two texts in a row stands in the first or in the second. -/
theorem append_eq_append_cons {as bs before after : List Char} {d : Char}
    (h : as ++ bs = before ++ d :: after) :
    (∃ as', as = before ++ d :: as') ∨ ∃ before', before = as ++ before' ∧
      bs = before' ++ d :: after := by
  rcases List.append_eq_append_iff.1 h with ⟨before', rfl, hbs⟩ | ⟨as', rfl, hafter⟩
  · exact Or.inr ⟨before', rfl, hbs⟩
  · cases as' with
    | nil => exact Or.inr ⟨[], by simp, hafter.symm⟩
    | cons a as' =>
      obtain ⟨rfl, -⟩ := List.cons.inj hafter
      exact Or.inl ⟨as', rfl⟩

/-! ### Spellings -/

namespace Lexeme

/-- The characters that a lexeme is written with.  A string may be written in several ways; no
lexeme but a string has quotation marks, and none but a punctuation mark has punctuation, the point
of a number aside. -/
def Spelt : Lexeme → List Char → Prop
  | .fault _, _ => False
  | .string s, raw => ∃ q body rest, isQuote q = true ∧ raw = q :: body ∧
      scanQuoted q (body ++ rest) = .closed s.toList body rest
  | .punct c, raw => isPunctuation c = true ∧ raw = [c]
  | x, raw =>
    raw = x.text.toList ∧ raw ≠ [] ∧ ∀ c ∈ raw, isQuote c = false ∧
      (isPunctuation c = true → c = '.')

theorem push_eq_closed {c : Char} {spelling value raw rest : List Char} {q : Quoted} :
    q.push c spelling = .closed value raw rest → ∃ v r, q = .closed v r rest ∧ value = c :: v ∧
      raw = spelling ++ r := by
  intro h
  cases q with
  | closed v r t =>
    cases h
    exact ⟨v, r, rfl, rfl, rfl⟩
  | broken r => cases h

/-- The inside of a string and what follows it are the text it was read from. -/
theorem eq_append_of_closed {q : Char} {cs value raw rest : List Char} :
    scanQuoted q cs = .closed value raw rest → cs = raw ++ rest := by
  fun_induction scanQuoted q cs generalizing value raw with
  | case1 | case2 | case3 =>
    intro h
    cases h
  | case4 c cs _ ih =>
    intro h
    obtain ⟨v, r, hs, -, rfl⟩ := push_eq_closed h
    rw [ih hs]
    rfl
  | case5 =>
    rintro ⟨⟩
    rfl
  | case6 c cs _ _ _ ih =>
    intro h
    obtain ⟨v, r, hs, -, rfl⟩ := push_eq_closed h
    rw [ih hs]
    rfl

/-! ### Characters of lexemes -/

theorem isPunctuation_iff {c : Char} :
    isPunctuation c = true ↔ c ∈ ['(', ')', '[', ']', '\x7b', '\x7d', ',', ':', '.'] := by
  simp [isPunctuation]

theorem isQuote_iff {c : Char} : isQuote c = true ↔ c = '\x27' ∨ c = '\x22' := by
  simp [isQuote]

/-- Characters of words and numbers are neither quotation marks nor punctuation. -/
theorem plain_of_isIdentPart {c : Char} (h : isIdentPart c = true) :
    isQuote c = false ∧ isPunctuation c = false := by
  constructor
  · by_contra hq
    rw [Bool.not_eq_false, isQuote_iff] at hq
    rcases hq with rfl | rfl <;> revert h <;> decide
  · by_contra hp
    rw [Bool.not_eq_false, isPunctuation_iff] at hp
    simp only [List.mem_cons, List.not_mem_nil, or_false] at hp
    rcases hp with rfl | rfl | rfl | rfl | rfl | rfl | rfl | rfl | rfl <;> revert h <;> decide

theorem isIdentPart_of_isIdentStart {c : Char} (h : isIdentStart c = true) :
    isIdentPart c = true := by
  unfold isIdentPart
  rw [h, Bool.true_or]

/-- A reserved word is found by its spelling. -/
theorem text_of_ofText? {s : String} {k : Keyword} (h : Keyword.ofText? s = some k) :
    k.text = s := by
  have hk := List.find?_some h
  exact beq_iff_eq.1 hk

variable {c : Char} {cs : List Char}

theorem spelt_word (hc : isIdentStart c = true) :
    Spelt (scanWord c cs).lexeme (scanWord c cs).raw ∧ (scanWord c cs).raw ++
      (scanWord c cs).rest = c :: cs := by
  have hraw : ∀ d ∈ c :: cs.takeWhile isIdentPart, isQuote d = false ∧
      (isPunctuation d = true → d = '.') := by
    intro d hd
    have hpart : isIdentPart d = true := by
      rcases List.mem_cons.1 hd with rfl | hd
      · exact isIdentPart_of_isIdentStart hc
      · exact List.mem_takeWhile_imp hd
    obtain ⟨hquote, hpunct⟩ := plain_of_isIdentPart hpart
    exact ⟨hquote, fun h => by rw [hpunct] at h; cases h⟩
  refine ⟨?_, by simp [scanWord, List.takeWhile_append_dropWhile]⟩
  unfold scanWord
  dsimp only
  cases hk : Keyword.ofText? (String.ofList (c :: cs.takeWhile isIdentPart)) with
  | none => exact ⟨String.toList_ofList.symm, List.cons_ne_nil _ _, hraw⟩
  | some k =>
    have htext : c :: cs.takeWhile isIdentPart = (Lexeme.keyword k).text.toList := by
      rw [Lexeme.text, text_of_ofText? hk, String.toList_ofList]
    exact ⟨htext, List.cons_ne_nil _ _, hraw⟩

theorem splitPoint_eq (cs : List Char) :
    (splitPoint cs = ([], cs)) ∨ ∃ fraction rest, splitPoint cs = (fraction, rest) ∧ fraction ≠ [] ∧
      (∀ d ∈ fraction, d.isDigit = true) ∧ cs = '.' :: (fraction ++ rest) := by
  unfold splitPoint
  split
  · next d cs =>
    by_cases hd : d.isDigit = true
    · rw [if_pos hd]
      refine Or.inr ⟨_, _, rfl, List.cons_ne_nil _ _,
        fun x hx => ?_, by simp [List.takeWhile_append_dropWhile]⟩
      rcases List.mem_cons.1 hx with rfl | hx
      · exact hd
      · exact List.mem_takeWhile_imp hx
    · rw [if_neg hd]
      exact Or.inl rfl
  · exact Or.inl rfl

theorem spelt_number (hc : c.isDigit = true) :
    Spelt (scanNumber c cs).lexeme (scanNumber c cs).raw ∧ (scanNumber c cs).raw ++
      (scanNumber c cs).rest = c :: cs := by
  have hdigit : ∀ d : Char, d.isDigit = true → isQuote d = false ∧
      (isPunctuation d = true → d = '.') := by
    intro d hd
    obtain ⟨hquote, hpunct⟩ := plain_of_isIdentPart (isIdentPart_of_isDigit hd)
    exact ⟨hquote, fun h => by rw [hpunct] at h; cases h⟩
  have hwhole : ∀ d ∈ c :: cs.takeWhile Char.isDigit, isQuote d = false ∧
      (isPunctuation d = true → d = '.') := by
    intro d hd
    rcases List.mem_cons.1 hd with rfl | hd
    · exact hdigit _ hc
    · exact hdigit d (List.mem_takeWhile_imp hd)
  have hcut : c :: cs = (c :: cs.takeWhile Char.isDigit) ++ cs.dropWhile Char.isDigit := by
    simp [List.takeWhile_append_dropWhile]
  unfold scanNumber
  rcases splitPoint_eq (cs.dropWhile Char.isDigit) with
    hsplit | ⟨fraction, rest, hsplit, hne, hfraction, hrest⟩
  · simp only [hsplit, List.isEmpty_nil, if_true]
    exact ⟨⟨String.toList_ofList.symm, List.cons_ne_nil _ _, hwhole⟩, hcut.symm⟩
  · have hempty : fraction.isEmpty = false := List.isEmpty_eq_false_iff.2 hne
    simp only [hsplit, hempty, Bool.false_eq_true, if_false]
    refine ⟨⟨String.toList_ofList.symm, List.cons_ne_nil _ _, fun d hd => ?_⟩,
      by rw [hcut, hrest]; simp⟩
    rcases List.mem_append.1 hd with hd | hd
    · exact hwhole d hd
    · rcases List.mem_cons.1 hd with rfl | hd
      · exact ⟨rfl, fun _ => rfl⟩
      · exact hdigit d (hfraction d hd)

theorem spelt_string (hc : isQuote c = true) (hclean : (scanString c cs).lexeme.isFault = false) :
    Spelt (scanString c cs).lexeme (scanString c cs).raw ∧ (scanString c cs).raw ++
      (scanString c cs).rest = c :: cs := by
  unfold scanString at hclean ⊢
  split at hclean
  · next value raw rest h =>
    have heq := eq_append_of_closed h
    exact ⟨⟨c, raw, rest, hc, rfl, by rw [← heq, h, String.toList_ofList]⟩, by rw [heq]; rfl⟩
  · cases hclean

theorem spelt_operator (op : Operator) : Spelt (.operator op) op.text.toList :=
  ⟨rfl, by cases op <;> decide, by cases op <;> simp [Operator.text, isQuote, isPunctuation]⟩

theorem spelt_symbol (hclean : (scanSymbol c cs).lexeme.isFault = false) :
    Spelt (scanSymbol c cs).lexeme (scanSymbol c cs).raw ∧ (scanSymbol c cs).raw ++
      (scanSymbol c cs).rest = c :: cs := by
  unfold scanSymbol at hclean ⊢
  split at hclean
  · exact ⟨spelt_operator .bar, rfl⟩
  · exact ⟨spelt_operator .tilde, rfl⟩
  · exact ⟨spelt_operator .question, rfl⟩
  · exact ⟨spelt_operator .equal, rfl⟩
  · exact ⟨spelt_operator .notEqual, rfl⟩
  · cases hclean

/-- A lexeme that is no fault is written with the characters it was made of, and these stand before
the rest. -/
theorem spelt_scan (c : Char) (cs : List Char) (hclean : (scan c cs).lexeme.isFault = false) :
    Spelt (scan c cs).lexeme (scan c cs).raw ∧ (scan c cs).raw ++ (scan c cs).rest = c :: cs := by
  unfold scan at hclean ⊢
  split
  · next hc => exact spelt_word hc
  split
  · next hc => exact spelt_number hc
  split
  · next hc => exact ⟨⟨hc, rfl⟩, rfl⟩
  split
  · next h₁ h₂ h₃ hc =>
    rw [if_neg h₁, if_neg h₂, if_neg h₃, if_pos hc] at hclean
    exact spelt_string hc hclean
  · next h₁ h₂ h₃ h₄ =>
    rw [if_neg h₁, if_neg h₂, if_neg h₃, if_neg h₄] at hclean
    exact spelt_symbol hclean

end Lexeme

/-! ### Layouts -/

namespace Token

/-- The tokens of a text that starts at the byte `pos` of the line `line`, one after another with
the blanks between them; a fault is the last one. -/
inductive Layout : Nat → Nat → List Char → List Token → Prop
  | blanks {line pos : Nat} {bs : List Char} (hbs : ∀ b ∈ bs, isBlank b = true) :
      Layout line pos bs []
  | fault {line pos : Nat} {bs cs : List Char} {f : LexFault} (hbs : ∀ b ∈ bs, isBlank b = true)
      (hcs : cs ≠ [])
      (stop : Nat) : Layout line pos (bs ++ cs)
        [⟨.fault f, pos + byteLength bs, stop, line + lineEnds bs⟩]
  | token {line pos : Nat} {bs raw rest : List Char} {x : Lexeme} {ts : List Token}
      (hbs : ∀ b ∈ bs, isBlank b = true)
      (hraw : x.Spelt raw)
      (h : Layout (line + lineEnds (bs ++ raw)) (pos + byteLength (bs ++ raw)) rest ts) :
      Layout line pos (bs ++ (raw ++ rest))
        (⟨x, pos + byteLength bs, pos + byteLength (bs ++ raw), line + lineEnds bs⟩ :: ts)

/-- So the tokens of a text stand. -/
theorem layout_scan (line pos : Nat) (cs : List Char) : Layout line pos cs (scan line pos cs) := by
  obtain ⟨n, hn⟩ : ∃ n, cs.length = n := ⟨_, rfl⟩
  induction n using Nat.strong_induction_on generalizing line pos cs with
  | _ n ih =>
    have hcut : cs = cs.takeWhile isBlank ++ cs.dropWhile isBlank :=
      List.takeWhile_append_dropWhile.symm
    have hbs : ∀ b ∈ cs.takeWhile isBlank, isBlank b = true := fun b hb => List.mem_takeWhile_imp hb
    rw [scan]
    split
    · next hd =>
      rw [hd, List.append_nil] at hcut
      rw [hcut]
      exact .blanks hbs
    · next c rest hd =>
      rw [hd] at hcut
      dsimp only
      split
      · next hfault =>
        cases hx : (Lexeme.scan c rest).lexeme with
        | fault f =>
          have hlast : Layout line pos (cs.takeWhile isBlank ++ c :: rest) [⟨.fault f, _, _, _⟩] :=
            .fault hbs (List.cons_ne_nil c rest)
              (pos + byteLength (cs.takeWhile isBlank) + byteLength (Lexeme.scan c rest).raw)
          rw [← hcut] at hlast
          exact hlast
        | _ => rw [hx] at hfault; cases hfault
      · next hclean =>
        obtain ⟨hraw, hrest⟩ := Lexeme.spelt_scan c rest (Bool.not_eq_true _ ▸ hclean)
        have hlength := Lexeme.length_rest_scan_le c rest
        have hcs : cs.length = (cs.takeWhile isBlank).length + (rest.length + 1) := by
          conv_lhs => rw [hcut]
          simp
        have htoken := Layout.token hbs hraw (ih _ (by omega)
          (line + lineEnds (cs.takeWhile isBlank ++ (Lexeme.scan c rest).raw))
          (pos + byteLength (cs.takeWhile isBlank ++ (Lexeme.scan c rest).raw))
            (Lexeme.scan c rest).rest rfl)
        rw [hrest, ← hcut] at htoken
        simp only [lineEnds_append, byteLength_append, ← Nat.add_assoc] at htoken
        exact htoken

theorem layout_ofText (input : String) (line : Nat) :
    Layout line 0 input.toList (ofText input line) :=
  layout_scan line 0 input.toList

namespace Layout

variable {line pos : Nat} {cs : List Char} {ts : List Token}

/-- Every token stands on a line of the text. -/
theorem line_bounds (h : Layout line pos cs ts) :
    ∀ t ∈ ts, line ≤ t.line ∧ t.line ≤ line + lineEnds cs := by
  induction h with
  | blanks hbs => exact nofun
  | @fault line pos bs cs f hbs hcs stop =>
    intro t ht
    rw [List.mem_singleton.1 ht]
    simp
  | @token line pos bs raw rest x ts hbs hraw h ih =>
    intro t ht
    rcases List.mem_cons.1 ht with rfl | ht
    · simp
    · have := ih t ht
      simp only [lineEnds_append] at this ⊢
      omega

/-- The text can be cut at any token: the tokens before it are those of the text before it, and
those behind it are those of the text that follows. -/
theorem cut {ts₁ ts₂ : List Token} {t : Token} (h : Layout line pos cs (ts₁ ++ t :: ts₂))
    (hclean : t.lexeme.isFault = false) :
    ∃ before raw after, cs = before ++ (raw ++ after) ∧ t.lexeme.Spelt raw ∧
      t.start = pos + byteLength before ∧
      t.line = line + lineEnds before ∧ Layout line pos before ts₁ ∧
      Layout (line + lineEnds (before ++ raw)) (pos + byteLength (before ++ raw)) after ts₂ := by
  induction ts₁ generalizing line pos cs with
  | nil =>
    cases h with
    | fault => cases hclean
    | @token _ _ bs raw rest x _ hbs hraw h =>
      exact ⟨bs, raw, rest, rfl, hraw, rfl, rfl, .blanks hbs, h⟩
  | cons s ts₁ ih =>
    generalize hus : (s :: ts₁) ++ t :: ts₂ = us at h
    cases h with
    | blanks hbs => cases hus
    | fault hbs hcs stop => simp at hus
    | @token _ _ bs raw₀ rest x _ hbs hraw₀ h =>
      obtain ⟨rfl, rfl⟩ := List.cons.inj hus
      obtain ⟨before, raw, after, rfl, hraw, hstart, hline, hbefore, hafter⟩ := ih h
      refine ⟨bs ++ (raw₀ ++ before), raw,
        after, by simp, hraw, ?_, ?_, .token hbs hraw₀ hbefore, ?_⟩
      · simp [hstart, Nat.add_assoc]
      · simp [hline, Nat.add_assoc]
      · simp only [lineEnds_append, byteLength_append, Nat.add_assoc] at hafter ⊢
        exact hafter

/-- A fault is the last token. -/
theorem clean_of_append {ts₁ ts₂ : List Token} {t : Token}
    (h : Layout line pos cs (ts₁ ++ t :: ts₂)) : ∀ s ∈ ts₁, s.lexeme.isFault = false := by
  induction ts₁ generalizing line pos cs with
  | nil => exact nofun
  | cons s ts₁ ih =>
    generalize hus : (s :: ts₁) ++ t :: ts₂ = us at h
    cases h with
    | blanks hbs => cases hus
    | fault hbs hcs stop => simp at hus
    | @token _ _ bs raw rest x _ hbs hraw h =>
      obtain ⟨rfl, rfl⟩ := List.cons.inj hus
      intro u hu
      rcases List.mem_cons.1 hu with rfl | hu
      · cases x with
        | fault f => exact hraw.elim
        | _ => rfl
      · exact ih h u hu

/-- Between two tokens in a row stand blanks only. -/
theorem gap {ts₁ ts₂ : List Token} {t u : Token} (h : Layout line pos cs (ts₁ ++ t :: u :: ts₂))
    (ht : t.lexeme.isFault = false) (hu : u.lexeme.isFault = false) :
    ∃ before raw between raw' after, cs = before ++ (raw ++ (between ++ (raw' ++ after))) ∧
      (∀ b ∈ between, isBlank b = true) ∧ t.lexeme.Spelt raw ∧ u.lexeme.Spelt raw' ∧
      t.start = pos + byteLength before ∧
      t.line = line + lineEnds before := by
  obtain ⟨before, raw, _, rfl, hraw, hstart, hline, -, hafter⟩ := h.cut ht
  have hnext : Layout _ _ _ ([] ++ u :: ts₂) := hafter
  obtain ⟨between, raw', after, rfl, hraw', -, -, hbetween, -⟩ := hnext.cut hu
  cases hbetween with
  | blanks hbs => exact ⟨before, raw, between, raw', after, rfl, hbs, hraw, hraw', hstart, hline⟩

end Layout

end Token

end Phrasebook
