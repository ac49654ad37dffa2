import Mathlib.Data.List.TakeWhile
import Phrasebook.Expr.Printer
import Phrasebook.Proofs.NumberText

/-!
# Cutting written text into tokens

* `Lexes` : a text is cut into tokens with given lexemes, wherever it stands;
* `Ends` : what may follow a word or a number, so that it ends there;
* `LexedAs` : a text is cut into given lexemes whatever follows, if words and numbers end there, so
  that texts with given lexemes can be put together.
-/

namespace Phrasebook

/-! ### The scan of a text -/

/-- The text is cut into tokens with the given lexemes, wherever it stands. -/
def Lexes (cs : List Char) (xs : List Lexeme) : Prop :=
  ∀ line pos, (Token.scan line pos cs).map (·.lexeme) = xs

namespace Token

theorem scan_eq_nil {cs : List Char} (h : cs.dropWhile isBlank = []) (line pos : Nat) :
    scan line pos cs = [] := by
  rw [scan]
  split
  · rfl
  · next hd => rw [h] at hd; cases hd

theorem scan_eq_cons {cs : List Char} {c : Char} {rest : List Char}
    (h : cs.dropWhile isBlank = c :: rest) (hfault : (Lexeme.scan c rest).lexeme.isFault = false)
    (line pos : Nat) :
    ∃ line' pos', (scan line pos cs).map (·.lexeme) =
      (Lexeme.scan c rest).lexeme :: (scan line' pos' (Lexeme.scan c rest).rest).map
      (·.lexeme) := by
  rw [scan]
  split
  · next hd => rw [h] at hd; cases hd
  · next hd =>
    rw [h] at hd
    cases hd
    simp only [hfault, Bool.false_eq_true, if_false, List.map_cons]
    exact ⟨_, _, rfl⟩

/-- Blanks at the beginning only move what follows. -/
theorem scan_blank {c : Char} (hc : isBlank c = true) (cs : List Char) (line pos : Nat) :
    scan line pos (c :: cs) = scan (line + lineEnds [c]) (pos + byteLength [c]) cs := by
  have htake : (c :: cs).takeWhile isBlank = c :: cs.takeWhile isBlank :=
    List.takeWhile_cons_of_pos hc
  have hdrop : (c :: cs).dropWhile isBlank = cs.dropWhile isBlank := List.dropWhile_cons_of_pos hc
  have hlines : lineEnds (c :: cs.takeWhile isBlank) =
      lineEnds [c] + lineEnds (cs.takeWhile isBlank) := by
    simp only [lineEnds, ← List.count_append, List.singleton_append]
  have hbytes : byteLength (c :: cs.takeWhile isBlank) =
      byteLength [c] + byteLength (cs.takeWhile isBlank) := by
    simp
  cases hd : cs.dropWhile isBlank with
  | nil => rw [scan_eq_nil (hdrop.trans hd), scan_eq_nil hd]
  | cons d rest =>
    rw [scan.eq_def line, scan.eq_def (line + _)]
    split
    · next h => rw [hdrop, hd] at h; cases h
    · next h =>
      rw [hdrop, hd] at h
      cases h
      split
      · next h => rw [hd] at h; cases h
      · next h =>
        rw [hd] at h
        cases h
        simp only [htake, hlines, hbytes, Nat.add_assoc]

end Token

namespace Lexes

theorem nil : Lexes [] [] := fun line pos => by rw [Token.scan_eq_nil rfl, List.map_nil]

theorem blank {c : Char} {cs : List Char} {xs : List Lexeme} (hc : isBlank c = true)
    (h : Lexes cs xs) : Lexes (c :: cs) xs := by
  intro line pos
  rw [Token.scan_blank hc]
  exact h _ _

theorem cons {c : Char} {cs raw rest : List Char} {x : Lexeme} {xs : List Lexeme}
    (hc : isBlank c = false) (hscan : Lexeme.scan c cs = ⟨x, raw, rest⟩)
    (hfault : x.isFault = false) (h : Lexes rest xs) : Lexes (c :: cs) (x :: xs) := by
  intro line pos
  have hdrop : (c :: cs).dropWhile isBlank = c :: cs := by
    rw [List.dropWhile_cons_of_neg (by simp [hc])]
  obtain ⟨line', pos', htokens⟩ := Token.scan_eq_cons hdrop (by rw [hscan]; exact hfault) line pos
  rw [htokens, hscan, h]

end Lexes

/-! ### Characters -/

theorem isIdentStart_iff {c : Char} : isIdentStart c = true ↔
    (65 ≤ c.toNat ∧ c.toNat ≤ 90) ∨ (97 ≤ c.toNat ∧ c.toNat ≤ 122) ∨ c.toNat = 95 := by
  delta isIdentStart Char.isAlpha Char.isUpper Char.isLower
  simp only [ge_iff_le, Bool.or_eq_true, Bool.and_eq_true, decide_eq_true_eq,
    UInt32.le_iff_toNat_le, beq_iff_eq, or_assoc, Char.ext_iff, ← UInt32.toNat_inj]
  rfl

theorem isBlank_iff {c : Char} : isBlank c = true ↔ c.toNat ≤ 32 ∨ c.toNat = 160 := by
  simp only [isBlank, Bool.or_eq_true, decide_eq_true_eq, Char.le_def, UInt32.le_iff_toNat_le,
    beq_iff_eq, Char.ext_iff, ← UInt32.toNat_inj]
  rfl

theorem isBlank_of_isIdentStart {c : Char} (h : isIdentStart c = true) : isBlank c = false := by
  rw [isIdentStart_iff] at h
  rw [← Bool.not_eq_true, isBlank_iff]
  omega

theorem isBlank_of_isDigit {c : Char} (h : c.isDigit = true) : isBlank c = false := by
  rw [isDigit_iff] at h
  rw [← Bool.not_eq_true, isBlank_iff]
  omega

theorem isIdentStart_of_isDigit {c : Char} (h : c.isDigit = true) : isIdentStart c = false := by
  rw [isDigit_iff] at h
  rw [← Bool.not_eq_true, isIdentStart_iff]
  omega

theorem isIdentPart_of_isDigit {c : Char} (h : c.isDigit = true) : isIdentPart c = true := by
  unfold isIdentPart
  rw [h, Bool.or_true]

/-! ### Where words and numbers end -/

/-- What may follow a word or a number, so that it ends there. -/
def Ends (cs : List Char) : Prop := ∀ c ∈ cs.head?, isIdentPart c = false ∧ c ≠ '.'

theorem ends_nil : Ends [] := nofun

theorem ends_cons {c : Char} (cs : List Char) (hc : isIdentPart c = false ∧ c ≠ '.') :
    Ends (c :: cs) := by
  rintro d ⟨⟩
  exact hc

theorem Ends.isIdentPart {cs : List Char} (h : Ends cs) : ∀ c ∈ cs.head?, isIdentPart c = false :=
  fun c hc => (h c hc).1

theorem Ends.isDigit {cs : List Char} (h : Ends cs) : ∀ c ∈ cs.head?, c.isDigit = false := by
  intro c hc
  cases hd : c.isDigit with
  | false => rfl
  | true =>
    have := (h c hc).1
    rw [isIdentPart_of_isDigit hd] at this
    cases this

/-- A text that ends has no fraction of a number in front. -/
theorem Ends.splitPoint {cs : List Char} (h : Ends cs) : Lexeme.splitPoint cs = ([], cs) := by
  unfold Lexeme.splitPoint
  split
  · exact absurd rfl (h _ rfl).2
  · rfl

/-! ### Lexemes -/

namespace Lexes

variable {cs : List Char} {xs : List Lexeme}

/-- Punctuation is a token by itself. -/
theorem punct {c : Char} (hc : isPunctuation c = true) (h : Lexes cs xs) :
    Lexes (c :: cs) (.punct c :: xs) := by
  have hmem : c ∈ ['(', ')', '[', ']', '\x7b', '\x7d', ',', ':', '.'] := by
    simpa [isPunctuation] using hc
  simp only [List.mem_cons, List.not_mem_nil, or_false] at hmem
  rcases hmem with rfl | rfl | rfl | rfl | rfl | rfl | rfl | rfl | rfl <;> exact cons rfl rfl rfl h

/-- A word is taken up to where it ends. -/
theorem word {c : Char} {w rest : List Char} (hc : isIdentStart c = true)
    (hw : ∀ d ∈ w, isIdentPart d = true) (hends : Ends rest) (h : Lexes rest xs) :
    Lexes (c :: (w ++ rest)) ((Lexeme.scanWord c w).lexeme :: xs) := by
  have hself : w.takeWhile isIdentPart = w := List.takeWhile_eq_self_iff.2 hw
  have hscan : Lexeme.scan c (w ++ rest) = ⟨(Lexeme.scanWord c w).lexeme, c :: w, rest⟩ := by
    rw [Lexeme.scan, if_pos hc, Lexeme.scanWord, Lexeme.scanWord,
      takeWhile_append hw hends.isIdentPart, dropWhile_append hw hends.isIdentPart, hself]
  refine cons (isBlank_of_isIdentStart hc) hscan ?_ h
  unfold Lexeme.scanWord
  dsimp only
  split <;> rfl

/-- A number is taken up to where it ends. -/
theorem number {n : Double} {rest : List Char} (hcs : n.IsNumeral cs) (hends : Ends rest)
    (h : Lexes rest xs) : Lexes (cs ++ rest) (.number (.ofList cs) n :: xs) := by
  obtain ⟨whole, fraction, hne, hwhole, hfraction, rfl, hvalue⟩ := hcs
  obtain ⟨c, w, rfl⟩ := List.exists_cons_of_ne_nil hne
  have hc := hwhole c (List.mem_cons_self ..)
  have hw : ∀ d ∈ w, d.isDigit = true := fun d hd => hwhole d (List.mem_cons_of_mem _ hd)
  have hstart : ¬isIdentStart c = true := by simp [isIdentStart_of_isDigit hc]
  cases fraction with
  | nil =>
    have hscan : Lexeme.scan c (w ++ rest) = ⟨.number (.ofList (c :: w)) n, c :: w, rest⟩ := by
      rw [Lexeme.scan, if_neg hstart, if_pos hc, Lexeme.scanNumber,
        takeWhile_append hw hends.isDigit, dropWhile_append hw hends.isDigit,
        hends.splitPoint, ← hvalue]
      rfl
    exact cons (isBlank_of_isDigit hc) hscan rfl h
  | cons d f =>
    have hpoint : ∀ c ∈ ('.' :: d :: (f ++ rest)).head?, c.isDigit = false := by
      rintro c ⟨⟩
      rfl
    have hd := hfraction d (List.mem_cons_self ..)
    have hf : ∀ c ∈ f, c.isDigit = true := fun c hc => hfraction c (List.mem_cons_of_mem _ hc)
    have hsplit : Lexeme.splitPoint ('.' :: d :: (f ++ rest)) = (d :: f, rest) := by
      rw [Lexeme.splitPoint, if_pos hd, takeWhile_append hf hends.isDigit,
        dropWhile_append hf hends.isDigit]
    have hscan : Lexeme.scan c (w ++ '.' :: d :: (f ++ rest)) =
        ⟨.number (.ofList (c :: w ++ '.' :: d :: f)) n, c :: w ++ '.' :: d :: f, rest⟩ := by
      rw [Lexeme.scan, if_neg hstart, if_pos hc, Lexeme.scanNumber, takeWhile_append hw hpoint,
        dropWhile_append hw hpoint, hsplit, ← hvalue]
      rfl
    have happend :
        Double.numeral (c :: w) (d :: f) ++ rest = c :: (w ++ '.' :: d :: (f ++ rest)) := by
      simp [Double.numeral]
    rw [happend]
    exact cons (isBlank_of_isDigit hc) hscan rfl h

end Lexes

/-! ### Quoted text -/

theorem scanQuoted_backslash {c : Char} (hc : c ≠ '\x00') (q : Char) (cs : List Char) :
    Lexeme.scanQuoted q ('\x5c' :: c :: cs) = (Lexeme.scanQuoted q cs).push (Lexeme.unescape c)
      ['\x5c', c] := by
  rw [Lexeme.scanQuoted, if_neg hc]

theorem scanQuoted_plain {c q : Char} (hc : c ≠ '\x5c') (hq : c ≠ q) (cs : List Char) :
    Lexeme.scanQuoted q (c :: cs) = (Lexeme.scanQuoted q cs).push c [c] := by
  rw [Lexeme.scanQuoted.eq_def]
  split
  · next h => cases h
  · next h => cases h; exact absurd rfl hc
  · next h => cases h; exact absurd rfl hc
  · next h => cases h; rw [if_neg hq]

/-- What is written between single quotation marks is read back. -/
theorem scanQuoted_escaped (cs rest : List Char) :
    ∃ raw, Lexeme.scanQuoted '\x27' (cs.flatMap escaped ++ '\x27' :: rest) =
      .closed cs raw rest := by
  induction cs with
  | nil => exact ⟨['\x27'], rfl⟩
  | cons c cs ih =>
    obtain ⟨raw, ih⟩ := ih
    rw [List.flatMap_cons, List.append_assoc]
    by_cases hc : c = '\x5c' ∨ c = '\x27'
    · have hescaped : escaped c = ['\x5c', c] := if_pos hc
      have hnull : c ≠ '\x00' := by rcases hc with rfl | rfl <;> decide
      have hself : Lexeme.unescape c = c := by rcases hc with rfl | rfl <;> rfl
      rw [hescaped, List.cons_append, List.singleton_append, scanQuoted_backslash hnull, ih, hself]
      exact ⟨_, rfl⟩
    · have hescaped : escaped c = [c] := if_neg hc
      rw [hescaped, List.singleton_append,
        scanQuoted_plain (fun h => hc (Or.inl h)) (fun h => hc (Or.inr h)), ih]
      exact ⟨_, rfl⟩

/-- A text in single quotation marks is read back. -/
theorem Lexes.quoted {cs rest : List Char} {xs : List Lexeme} (h : Lexes rest xs) :
    Lexes (singleQuoted cs ++ rest) (.string (.ofList cs) :: xs) := by
  obtain ⟨raw, hraw⟩ := scanQuoted_escaped cs rest
  have hscan : Lexeme.scan '\x27' (cs.flatMap escaped ++ '\x27' :: rest) =
      ⟨.string (.ofList cs), '\x27' :: raw, rest⟩ := by
    show Lexeme.scanString '\x27' _ = _
    rw [Lexeme.scanString, hraw]
  have happend : singleQuoted cs ++ rest = '\x27' :: (cs.flatMap escaped ++ '\x27' :: rest) := by
    simp [singleQuoted]
  rw [happend]
  exact Lexes.cons rfl hscan rfl h

/-! ### Texts that can be put together -/

/-- The text is cut into the lexemes `xs` whatever follows, if words and numbers end there. -/
def LexedAs (cs : List Char) (xs : List Lexeme) : Prop :=
  ∀ (rest : List Char) (ys : List Lexeme), Ends rest → Lexes rest ys → Lexes (cs ++ rest) (xs ++ ys)

def BinOp.lexeme : BinOp → Lexeme
  | .equal => .operator .equal
  | .notEqual => .operator .notEqual
  | .concat => .operator .tilde
  | .and => .keyword .and
  | .or => .keyword .or

/-- The characters of an identifier or a reserved word. -/
def spellsWord : List Char → Bool
  | [] => false
  | c :: cs => isIdentStart c && cs.all isIdentPart

namespace LexedAs

variable {cs ds : List Char} {xs ys : List Lexeme}

theorem toLexes (h : LexedAs cs xs) : Lexes cs xs := by
  have := h [] [] ends_nil Lexes.nil
  rwa [List.append_nil, List.append_nil] at this

theorem word {x : String} (h : spellsWord x.toList = true) :
    LexedAs x.toList [match Keyword.ofText? x with | some k => .keyword k | none => .ident x] := by
  intro rest ys hends hrest
  have hx : String.ofList x.toList = x := String.ofList_toList
  generalize x.toList = cs at h hx
  cases cs with
  | nil => cases h
  | cons c w =>
    simp only [spellsWord, Bool.and_eq_true, List.all_eq_true] at h
    have hword := Lexes.word h.1 h.2 hends hrest
    have hself : w.takeWhile isIdentPart = w := List.takeWhile_eq_self_iff.2 h.2
    rw [Lexeme.scanWord, hself, hx] at hword
    exact hword

/-- A name is cut into an identifier. -/
theorem ident {x : String} (h : spellsWord x.toList = true) (hfree : Keyword.ofText? x = none) :
    LexedAs x.toList [.ident x] := by
  have := word h
  rwa [hfree] at this

theorem keyword (k : Keyword) : LexedAs k.text.toList [.keyword k] := by
  have := word (x := k.text) (by cases k <;> rfl)
  cases k <;> exact this

theorem number {n : Double} (h : n.IsNumeral cs) : LexedAs cs [.number (.ofList cs) n] :=
  fun _ _ hends hrest => Lexes.number h hends hrest

theorem quoted (cs : List Char) : LexedAs (singleQuoted cs) [.string (.ofList cs)] :=
  fun _ _ _ hrest => Lexes.quoted hrest

/-- Two texts can be put together where words and numbers end at the beginning of the second. -/
theorem append (h : LexedAs cs xs) (hends : ∀ rest, Ends rest → Ends (ds ++ rest))
    (h' : LexedAs ds ys) : LexedAs (cs ++ ds) (xs ++ ys) := by
  intro rest zs hrest hzs
  rw [List.append_assoc, List.append_assoc]
  exact h _ _ (hends rest hrest) (h' rest zs hrest hzs)

theorem punct {c : Char} (hc : isPunctuation c = true) : LexedAs [c] [.punct c] :=
  fun _ _ _ hrest => Lexes.punct hc hrest

theorem punct_append {c : Char} (hc : isPunctuation c = true) (h : LexedAs cs xs) :
    LexedAs (c :: cs) (.punct c :: xs) :=
  fun rest ys hends hrest => Lexes.punct hc (h rest ys hends hrest)

theorem space_append (h : LexedAs cs xs) : LexedAs (' ' :: cs) xs :=
  fun rest ys hends hrest => Lexes.blank rfl (h rest ys hends hrest)

theorem bar_append (h : LexedAs cs xs) : LexedAs ('|' :: cs) (.operator .bar :: xs) :=
  fun rest ys hends hrest => Lexes.cons rfl rfl rfl (h rest ys hends hrest)

theorem question_append (h : LexedAs cs xs) : LexedAs ('?' :: cs) (.operator .question :: xs) :=
  fun rest ys hends hrest => Lexes.cons rfl rfl rfl (h rest ys hends hrest)

/-- A binary operator and a space. -/
theorem operator_append (op : BinOp) (h : LexedAs cs xs) :
    LexedAs (op.text.toList ++ ' ' :: cs) (op.lexeme :: xs) := by
  have hword : ∀ k : Keyword, LexedAs (k.text.toList ++ ' ' :: cs) (.keyword k :: xs) := fun k =>
    (keyword k).append (fun _ _ => ends_cons _ (by decide)) h.space_append
  intro rest ys hends hrest
  have hspace : Lexes (' ' :: (cs ++ rest)) (xs ++ ys) := Lexes.blank rfl (h rest ys hends hrest)
  cases op with
  | equal => exact Lexes.cons rfl rfl rfl hspace
  | notEqual => exact Lexes.cons rfl rfl rfl hspace
  | concat => exact Lexes.cons rfl rfl rfl hspace
  | and => exact hword .and rest ys hends hrest
  | or => exact hword .or rest ys hends hrest

end LexedAs

end Phrasebook
