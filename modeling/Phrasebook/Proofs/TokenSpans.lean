import Phrasebook.Proofs.TokenLayout

/-!
# What tokens leave of a text

Cutting a text into tokens loses nothing of it but blanks, and every token says where it stands.

* `Lexeme.scan_takes` : what a lexeme takes from the text that it is scanned from;
* `Token.scan_append` : one step of the scan, past the blanks before a token;
* `Token.StandsAt` : the place of a token in a text;
* `Token.Tiling`, `Token.tiling_ofText` : the tokens of a text stand apart and in order, and outside
  of them are blanks only.
-/

namespace Phrasebook

/-! ### Lexemes -/

namespace Lexeme

/-- Identifiers and reserved words. -/
def isWord : Lexeme → Bool
  | .ident _ | .keyword _ => true
  | _ => false

/-- Lexemes that are written in one way only, as their own text. -/
def isLiteral : Lexeme → Bool
  | .string _ | .fault _ => false
  | _ => true

/-- What a scan takes from the text `cs`, and what may come after it: a lexeme stands for what it
takes, and a word is as long as it can be. -/
structure Takes (cs : List Char) (s : Scan) (after : List Char) : Prop where
  cut : cs = s.raw ++ after
  ne_nil : s.raw ≠ []
  rest : s.lexeme.isFault = false → s.rest = after
  spelling : s.lexeme.isLiteral = true → s.raw = s.lexeme.text.toList
  maximal : s.lexeme.isWord = true → ∀ d ∈ after.head?, isIdentPart d = false

variable {c : Char} {cs : List Char}

theorem Spelt.ne_nil {x : Lexeme} {raw : List Char} (h : x.Spelt raw) : raw ≠ [] := by
  cases x with
  | fault f => exact h.elim
  | string s =>
    obtain ⟨q, body, rest, -, rfl, -⟩ := h
    exact List.cons_ne_nil q body
  | punct c =>
    obtain ⟨-, rfl⟩ := h
    exact List.cons_ne_nil c []
  | _ => exact h.2.1

theorem Spelt.eq_text {x : Lexeme} {raw : List Char} (h : x.Spelt raw) (hx : x.isLiteral = true) :
    raw = x.text.toList := by
  cases x with
  | fault f => exact h.elim
  | string s => cases hx
  | punct c =>
    obtain ⟨-, rfl⟩ := h
    simp [text]
  | _ => exact h.1

/-- Only a word starts like one, and it goes on as long as it can. -/
theorem head_rest_of_isWord (h : (scan c cs).lexeme.isWord = true) :
    ∀ d ∈ (scan c cs).rest.head?, isIdentPart d = false := by
  unfold scan at h ⊢
  split
  · intro d hd
    have hhead : (cs.dropWhile isIdentPart).head? = some d := hd
    have hnot := List.head?_dropWhile_not isIdentPart cs
    rw [hhead] at hnot
    exact hnot
  · next hstart =>
    rw [if_neg hstart] at h
    split at h
    · cases h
    split at h
    · cases h
    split at h
    · unfold scanString at h
      split at h <;> cases h
    · unfold scanSymbol at h
      split at h <;> cases h

theorem push_eq_broken {c : Char} {spelling raw : List Char} {q : Quoted}
    (h : q.push c spelling = .broken raw) : ∃ r, q = .broken r ∧ raw = spelling ++ r := by
  cases q with
  | closed v r t => cases h
  | broken r =>
    cases h
    exact ⟨r, rfl, rfl⟩

/-- What was read of a string that broke off is the beginning of the text. -/
theorem prefix_of_broken {q : Char} {cs raw : List Char} :
    scanQuoted q cs = .broken raw → raw <+: cs := by
  fun_induction scanQuoted q cs generalizing raw with
  | case1 | case2 =>
    rintro ⟨⟩
    exact List.prefix_refl _
  | case3 cs =>
    rintro ⟨⟩
    exact List.prefix_append ['\x5c'] _
  | case4 c cs _ ih =>
    intro h
    obtain ⟨r, hr, rfl⟩ := push_eq_broken h
    exact (List.prefix_append_right_inj ['\x5c', c]).2 (ih hr)
  | case5 =>
    intro h
    cases h
  | case6 c cs _ _ _ ih =>
    intro h
    obtain ⟨r, hr, rfl⟩ := push_eq_broken h
    exact (List.prefix_append_right_inj [c]).2 (ih hr)

/-- A fault takes a beginning of the text too: one character, or an open string up to where it broke
off. -/
theorem raw_of_isFault (h : (scan c cs).lexeme.isFault = true) :
    (scan c cs).raw ≠ [] ∧ (scan c cs).raw <+: c :: cs := by
  unfold scan at h ⊢
  split at h
  · unfold scanWord at h
    dsimp only at h
    split at h <;> cases h
  split at h
  · cases h
  split at h
  · cases h
  · next h₁ h₂ h₃ =>
    rw [if_neg h₁, if_neg h₂, if_neg h₃]
    split at h
    · next hquote =>
      rw [if_pos hquote]
      unfold scanString at h ⊢
      split at h
      · cases h
      · next raw hbroken =>
        exact ⟨List.cons_ne_nil c raw,
          (List.prefix_append_right_inj [c]).2 (prefix_of_broken hbroken)⟩
    · next hquote =>
      rw [if_neg hquote]
      unfold scanSymbol at h ⊢
      split at h
      · cases h
      · cases h
      · cases h
      · cases h
      · cases h
      · exact ⟨List.cons_ne_nil _ [], List.prefix_append [_] _⟩

theorem exists_of_isFault {x : Lexeme} (h : x.isFault = true) : ∃ f, x = .fault f := by
  cases x with
  | fault f => exact ⟨f, rfl⟩
  | _ => cases h

/-- What a lexeme takes from the text that it is scanned from. -/
theorem scan_takes (c : Char) (cs : List Char) : ∃ after, Takes (c :: cs) (scan c cs) after := by
  cases hfault : (scan c cs).lexeme.isFault with
  | false =>
    obtain ⟨hspelt, hcut⟩ := spelt_scan c cs hfault
    exact ⟨(scan c cs).rest, hcut.symm, hspelt.ne_nil, fun _ => rfl, hspelt.eq_text,
      head_rest_of_isWord⟩
  | true =>
    obtain ⟨hne, after, hcut⟩ := raw_of_isFault hfault
    obtain ⟨f, hf⟩ := exists_of_isFault hfault
    refine ⟨after, hcut.symm, hne, ?_, ?_, ?_⟩
    · intro hclean
      rw [hfault] at hclean
      cases hclean
    · intro hliteral
      rw [hf] at hliteral
      cases hliteral
    · intro hword
      rw [hf] at hword
      cases hword

end Lexeme

/-! ### Tokens -/

namespace Token

/-- One step of the scan: past the blanks, a lexeme is scanned from the first character, and the
rest is cut into tokens unless it is a fault. -/
theorem scan_append {bs : List Char} {c : Char} (hbs : ∀ b ∈ bs, isBlank b = true)
    (hc : isBlank c = false) (line pos : Nat) (cs : List Char) :
    scan line pos (bs ++ c :: cs) =
      ⟨(Lexeme.scan c cs).lexeme, pos + byteLength bs,
        pos + byteLength (bs ++ (Lexeme.scan c cs).raw), line + lineEnds bs⟩ ::
        if (Lexeme.scan c cs).lexeme.isFault then []
        else scan (line + lineEnds (bs ++ (Lexeme.scan c cs).raw))
          (pos + byteLength (bs ++ (Lexeme.scan c cs).raw))
          (Lexeme.scan c cs).rest := by
  have htake : (bs ++ c :: cs).takeWhile isBlank = bs := by
    rw [List.takeWhile_append_of_pos hbs, List.takeWhile_cons_of_neg (by simp [hc]),
      List.append_nil]
  have hdrop : (bs ++ c :: cs).dropWhile isBlank = c :: cs := by
    rw [List.dropWhile_append_of_pos hbs, List.dropWhile_cons_of_neg (by simp [hc])]
  rw [scan]
  split
  · next h => rw [hdrop] at h; cases h
  · next h =>
    rw [hdrop] at h
    obtain ⟨rfl, rfl⟩ := List.cons.inj h
    simp only [htake, byteLength_append, lineEnds_append, Nat.add_assoc]
    split <;> rfl

/-- The place of a token in the text `cs`, which starts at the byte `pos` of the line `line`: `raw`
is what the token is made of.  A word does not stop short. -/
structure StandsAt (line pos : Nat) (cs : List Char) (t : Token) (before raw after : List Char) :
    Prop where
  cut : cs = before ++ (raw ++ after)
  ne_nil : raw ≠ []
  start_eq : t.start = pos + byteLength before
  stop_eq : t.stop = pos + byteLength (before ++ raw)
  line_eq : t.line = line + lineEnds before
  spelling : t.lexeme.isLiteral = true → raw = t.lexeme.text.toList
  maximal : t.lexeme.isWord = true → ∀ c ∈ after.head?, isIdentPart c = false

/-- The tokens of the text `cs`, which starts at the byte `pos` of the line `line`: each has its
place and is not empty, they stand one behind the other, every character that stands in no token is
a blank unless a fault stands before it, and a fault is the last token. -/
structure Tiling (line pos : Nat) (cs : List Char) (ts : List Token) : Prop where
  place : ∀ t ∈ ts, ∃ before raw after, StandsAt line pos cs t before raw after
  start_lt_stop : ∀ t ∈ ts, t.start < t.stop
  apart : ts.Pairwise fun t u => t.stop ≤ u.start
  blank : ∀ before c after, cs = before ++ c :: after →
    (∀ t ∈ ts, ¬(t.start ≤ pos + byteLength before ∧ pos + byteLength before < t.stop)) →
      isBlank c = true ∨ ∃ t ∈ ts, t.lexeme.isFault = true ∧ t.stop ≤ pos + byteLength before
  fault : ∀ ts₁ t ts₂, ts = ts₁ ++ t :: ts₂ → t.lexeme.isFault = true → ts₂ = []

namespace StandsAt

variable {line pos : Nat} {cs before raw after : List Char} {t : Token}

theorem start_lt_stop (h : StandsAt line pos cs t before raw after) : t.start < t.stop := by
  have hpos := byteLength_pos h.ne_nil
  rw [h.start_eq, h.stop_eq, byteLength_append]
  omega

/-- The place of a token when more text stands before it. -/
theorem shift {zs : List Char}
    (h : StandsAt (line + lineEnds zs) (pos + byteLength zs) cs t before raw after) :
    StandsAt line pos (zs ++ cs) t (zs ++ before) raw after where
  cut := by rw [h.cut, List.append_assoc]
  ne_nil := h.ne_nil
  start_eq := by simp [h.start_eq, Nat.add_assoc]
  stop_eq := by simp [h.stop_eq, Nat.add_assoc]
  line_eq := by simp [h.line_eq, Nat.add_assoc]
  spelling := h.spelling
  maximal := h.maximal

end StandsAt

namespace Tiling

variable {line pos : Nat} {ts : List Token} {t : Token} {bs raw after : List Char}

theorem of_blanks (hbs : ∀ b ∈ bs, isBlank b = true) : Tiling line pos bs [] where
  place := nofun
  start_lt_stop := nofun
  apart := .nil
  blank before c after h _ := by
    left
    apply hbs
    rw [h]
    simp
  fault ts₁ t ts₂ h := by simp at h

/-- A character outside the first token stands before it, among blanks, or behind it. -/
theorem blank_or_behind {before tail : List Char} {c : Char} (hbs : ∀ b ∈ bs, isBlank b = true)
    (ht : StandsAt line pos (bs ++ (raw ++ after)) t bs raw after)
    (hcut : bs ++ (raw ++ after) = before ++ c :: tail)
    (hout : ¬(t.start ≤ pos + byteLength before ∧ pos + byteLength before < t.stop)) :
    isBlank c = true ∨ ∃ behind, before = bs ++ raw ++ behind ∧ after = behind ++ c :: tail := by
  rcases append_eq_append_cons hcut with ⟨bs', rfl⟩ | ⟨before', rfl, hcut'⟩
  · left
    apply hbs
    simp
  right
  rcases append_eq_append_cons hcut' with ⟨raw', rfl⟩ | ⟨behind, rfl, hafter⟩
  · have hpos := byteLength_pos (List.cons_ne_nil c raw')
    rw [ht.start_eq, ht.stop_eq] at hout
    simp only [byteLength_append] at hout
    omega
  · exact ⟨behind, (List.append_assoc _ _ _).symm, hafter⟩

/-- A token behind blanks, and then the tokens of the rest. -/
theorem cons (hbs : ∀ b ∈ bs, isBlank b = true)
    (ht : StandsAt line pos (bs ++ (raw ++ after)) t bs raw after)
    (hclean : t.lexeme.isFault = false)
    (h : Tiling (line + lineEnds (bs ++ raw)) (pos + byteLength (bs ++ raw)) after ts) :
    Tiling line pos (bs ++ (raw ++ after)) (t :: ts) where
  place u hu := by
    rcases List.mem_cons.1 hu with rfl | hu
    · exact ⟨bs, raw, after, ht⟩
    · obtain ⟨before, raw', after', hplace⟩ := h.place u hu
      refine ⟨bs ++ raw ++ before, raw', after', ?_⟩
      rw [← List.append_assoc]
      exact hplace.shift
  start_lt_stop u hu := by
    rcases List.mem_cons.1 hu with rfl | hu
    · exact ht.start_lt_stop
    · exact h.start_lt_stop u hu
  apart := by
    refine List.pairwise_cons.2 ⟨fun u hu => ?_, h.apart⟩
    obtain ⟨before, raw', after', hplace⟩ := h.place u hu
    rw [ht.stop_eq, hplace.start_eq]
    omega
  blank before c tail hcut hout := by
    rcases blank_or_behind hbs ht hcut (hout t (List.mem_cons_self ..)) with
        hblank | ⟨behind, rfl, hafter⟩
    · exact Or.inl hblank
    have hbytes : pos + byteLength (bs ++ raw ++ behind) =
        pos + byteLength (bs ++ raw) + byteLength behind := by
      simp [Nat.add_assoc]
    rw [hbytes] at hout ⊢
    rcases h.blank behind c tail hafter fun u hu => hout u (List.mem_cons_of_mem _ hu) with
        hblank | ⟨u, hu, hfault⟩
    · exact Or.inl hblank
    · exact Or.inr ⟨u, List.mem_cons_of_mem _ hu, hfault⟩
  fault ts₁ u ts₂ hts hfault := by
    cases ts₁ with
    | nil =>
      obtain ⟨rfl, -⟩ := List.cons.inj hts
      rw [hclean] at hfault
      cases hfault
    | cons s ts₁ => exact h.fault ts₁ u ts₂ (List.cons.inj hts).2 hfault

/-- A fault behind blanks; what stands behind it is not cut into tokens. -/
theorem last (hbs : ∀ b ∈ bs, isBlank b = true)
    (ht : StandsAt line pos (bs ++ (raw ++ after)) t bs raw after)
    (hfault : t.lexeme.isFault = true) : Tiling line pos (bs ++ (raw ++ after)) [t] where
  place u hu := by
    rw [List.mem_singleton.1 hu]
    exact ⟨bs, raw, after, ht⟩
  start_lt_stop u hu := by
    rw [List.mem_singleton.1 hu]
    exact ht.start_lt_stop
  apart := List.pairwise_singleton _ t
  blank before c tail hcut hout := by
    rcases blank_or_behind hbs ht hcut (hout t (List.mem_singleton_self t)) with
        hblank | ⟨behind, rfl, -⟩
    · exact Or.inl hblank
    · refine Or.inr ⟨t, List.mem_singleton_self t, hfault, ?_⟩
      simp [ht.stop_eq]
  fault ts₁ u ts₂ hts _ := by
    cases ts₁ with
    | nil => exact (List.cons.inj hts).2.symm
    | cons s ts₁ => simp at hts

end Tiling

/-- The tokens of a text stand apart and in order, and outside of them are blanks only. -/
theorem tiling_scan (line pos : Nat) (cs : List Char) : Tiling line pos cs (scan line pos cs) := by
  obtain ⟨n, hn⟩ : ∃ n, cs.length = n := ⟨_, rfl⟩
  induction n using Nat.strong_induction_on generalizing line pos cs with
  | _ n ih =>
    have hcut : cs.takeWhile isBlank ++ cs.dropWhile isBlank = cs := List.takeWhile_append_dropWhile
    have hbs : ∀ b ∈ cs.takeWhile isBlank, isBlank b = true := fun b hb => List.mem_takeWhile_imp hb
    cases hd : cs.dropWhile isBlank with
    | nil =>
      rw [scan_eq_nil hd]
      rw [hd, List.append_nil] at hcut
      rw [← hcut]
      exact .of_blanks hbs
    | cons c rest =>
      have hc : isBlank c = false := by
        have hnot := List.head?_dropWhile_not isBlank cs
        rw [hd] at hnot
        simpa using hnot
      rw [hd] at hcut
      obtain ⟨after, htakes⟩ := Lexeme.scan_takes c rest
      have hlength := Lexeme.length_rest_scan_le c rest
      have hshort : rest.length < cs.length := by
        rw [← hcut, List.length_append, List.length_cons]
        omega
      rw [← hcut, scan_append hbs hc, htakes.cut]
      generalize hfound : Lexeme.scan c rest = found at htakes hlength
      have hplace : StandsAt line pos (cs.takeWhile isBlank ++ (found.raw ++ after))
          ⟨found.lexeme, pos + byteLength (cs.takeWhile isBlank),
            pos + byteLength (cs.takeWhile isBlank ++ found.raw),
            line + lineEnds (cs.takeWhile isBlank)⟩ (cs.takeWhile isBlank) found.raw after :=
        ⟨rfl, htakes.ne_nil, rfl, rfl, rfl, htakes.spelling, htakes.maximal⟩
      cases hfault : found.lexeme.isFault with
      | true => exact .last hbs hplace hfault
      | false =>
        rw [htakes.rest hfault] at hlength ⊢
        exact .cons hbs hplace hfault (ih _ (by omega) _ _ after rfl)

/-- **Cutting into tokens loses nothing but blanks.**  Every token of a text has its place there,
with its first and last byte and its line, and stands for just what is written there; the tokens
stand one behind the other; a character outside of them is a blank, unless a fault stands before it;
a fault is the last token; and a word is never cut short. -/
theorem tiling_ofText (input : String) (line : Nat) :
    Tiling line 0 input.toList (ofText input line) :=
  tiling_scan line 0 input.toList

end Token

end Phrasebook
