import Phrasebook.Proofs.JsonNumbers

/-!
# JSON text reads back

* `Json.string?_append` : an escaped string is read back as the string;
* `Json.Clean` : trees whose strings are text and whose numbers are spelled as numbers;
* `Json.Clean.readsOff` : the text of such a tree is read off the start of a text, whole;
* `Json.parse_compress` : such a tree is read back from its compact text.
-/

namespace Phrasebook

namespace Json

variable {cs rest : List Char}

/-! ### Strings -/

theorem hexDigit?_digitChar {n : Nat} (hn : n < 16) : hexDigit? (Nat.digitChar n) = some n := by
  have hall : ∀ i < 16, hexDigit? (Nat.digitChar i) = some i := by decide
  exact hall n hn

/-- A character is read back from its escape, whatever follows. -/
theorem codes?_escapedChar (c : Char) (cs : List Char) :
    codes? (escapedChar c ++ cs) = pushCode c.toNat (codes? cs) := by
  unfold escapedChar
  split
  · next h => rcases h with rfl | rfl <;> rfl
  split
  · next h => rw [h]; rfl
  split
  · next h => rw [h]; rfl
  split
  · next h => rw [h]; rfl
  split
  · next h => rw [h]; rfl
  split
  · next h => rw [h]; rfl
  split
  · next hcontrol =>
    have hsmall : c.toNat < 32 := hcontrol
    have hhex : hexDigits? '0' '0' (Nat.digitChar (c.toNat / 16)) (Nat.digitChar (c.toNat % 16)) =
        some c.toNat := by
      have hzero : hexDigit? '0' = some 0 := rfl
      have hsplit : ((0 * 16 + 0) * 16 + c.toNat / 16) * 16 + c.toNat % 16 = c.toNat := by omega
      simp only [hexDigits?, hzero, hexDigit?_digitChar (show c.toNat / 16 < 16 by omega),
        hexDigit?_digitChar (show c.toNat % 16 < 16 by omega), Option.bind_eq_bind,
        Option.bind_some, Option.pure_def, hsplit]
    show codes? ('\x5c' :: 'u' :: '0' :: '0' :: Nat.digitChar (c.toNat / 16) ::
      Nat.digitChar (c.toNat % 16) :: cs) = _
    rw [codes?, hhex]
  · next hmark _ _ _ _ _ hcontrol =>
    obtain ⟨hquote, hbackslash⟩ := not_or.1 hmark
    rw [List.singleton_append, codes?]
    · exact if_neg hcontrol
    · exact fun h => hquote h
    · exact fun h _ => hbackslash h
    · exact fun _ _ _ _ _ h _ => hbackslash h
    · exact fun _ _ h _ => hbackslash h

/-- An escaped text is read back up to its closing mark. -/
theorem codes?_append (cs rest : List Char) :
    codes? (cs.flatMap escapedChar ++ '\x22' :: rest) = some (cs.map Char.toNat, rest) := by
  induction cs with
  | nil => rfl
  | cons c cs ih =>
    rw [List.flatMap_cons, List.append_assoc, codes?_escapedChar, ih]
    rfl

/-- No character is a surrogate. -/
theorem pairUp?_map_toNat (cs : List Char) : pairUp? (cs.map Char.toNat) = some cs := by
  induction cs with
  | nil => rfl
  | cons c cs ih =>
    have hvalid : c.toNat < 0xD800 ∨ 0xDFFF < c.toNat ∧ c.toNat < 0x110000 := c.valid
    have hhigh : isHighSurrogate c.toNat = false := by
      rw [isHighSurrogate, Bool.and_eq_false_iff, decide_eq_false_iff_not, decide_eq_false_iff_not]
      omega
    have hlow : isLowSurrogate c.toNat = false := by
      rw [isLowSurrogate, Bool.and_eq_false_iff, decide_eq_false_iff_not, decide_eq_false_iff_not]
      omega
    rw [List.map_cons, pairUp?.eq_def]
    simp only [hhigh, hlow, ih, Char.ofNat_toNat, Bool.false_eq_true, if_false, Option.map_some]

/-- A string is read back behind its opening mark. -/
theorem string?_append (s : String) (rest : List Char) :
    string? (s.toList.flatMap escapedChar ++ '\x22' :: rest) = some (some s, rest) := by
  rw [string?, codes?_append, Option.map_some, pairUp?_map_toNat, Option.map_some,
    String.ofList_toList]

/-! ### Trees -/

/-- Trees whose strings are text and whose numbers are spelled as numbers. -/
inductive Clean : Json → Prop where
  | null : Clean .null
  | bool (b : Bool) : Clean (.bool b)
  | number {spelling : List Char} (h : IsSpelling spelling) : Clean (.number spelling)
  | string (s : String) : Clean (.string (some s))
  | array {items : List Json} (h : ∀ j ∈ items, Clean j) : Clean (.array items)
  | object {members : List (Option String × Json)} (hnames : ∀ e ∈ members, e.1.isSome = true)
      (hvalues : ∀ e ∈ members, Clean e.2) : Clean (.object members)

variable {j : Json} {items : List Json} {members : List (Option String × Json)} {n : Nat}

theorem skipGap_cons {c : Char} (hc : isGap c = false) (cs : List Char) :
    skipGap (c :: cs) = c :: cs := by
  unfold skipGap
  rw [List.dropWhile_cons_of_neg (by simp [hc])]

def StartsNumber (c : Char) : Prop := c = '-' ∨ c.isDigit = true

theorem IsSpelling.exists_cons (h : IsSpelling cs) : ∃ c ds, cs = c :: ds ∧ StartsNumber c := by
  obtain ⟨negative, body, d, hbody, rfl⟩ := h
  cases negative with
  | true => exact ⟨'-', body, rfl, .inl rfl⟩
  | false =>
    obtain ⟨c, ds, rfl, hc⟩ := hbody.exists_cons
    exact ⟨c, ds, rfl, .inr hc⟩

theorem StartsNumber.ne {c d : Char} (h : StartsNumber c) (hd : d.isDigit = false)
    (hminus : d ≠ '-') : c ≠ d := by
  rintro rfl
  rcases h with rfl | h
  · exact hminus rfl
  · rw [hd] at h
    cases h

theorem StartsNumber.isGap_eq_false {c : Char} (h : StartsNumber c) : isGap c = false := by
  simp only [isGap, Bool.or_eq_false_iff, beq_eq_false_iff_ne]
  exact ⟨⟨⟨h.ne rfl (by decide), h.ne rfl (by decide)⟩, h.ne rfl (by decide)⟩, h.ne rfl (by decide)⟩

/-- The text of a tree starts with no gap and closes no array. -/
theorem Clean.exists_cons (h : Clean j) :
    ∃ c cs, j.chars = c :: cs ∧ isGap c = false ∧ c ≠ ']' := by
  cases h with
  | null => exact ⟨_, _, rfl, by decide, by decide⟩
  | bool b => cases b <;> exact ⟨_, _, rfl, by decide, by decide⟩
  | number h =>
    obtain ⟨c, ds, rfl, hc⟩ := h.exists_cons
    exact ⟨c, ds, rfl, hc.isGap_eq_false, hc.ne rfl (by decide)⟩
  | string s => exact ⟨_, _, rfl, by decide, by decide⟩
  | array h => exact ⟨_, _, rfl, by decide, by decide⟩
  | object hnames hvalues => exact ⟨_, _, rfl, by decide, by decide⟩

/-- What starts as a number is read as a number. -/
theorem value?_of_startsNumber {c : Char} (hc : StartsNumber c) (cs : List Char) :
    value? (n + 1) (c :: cs) = (number? (c :: cs)).map fun p => (.number p.1, p.2) := by
  rw [value?, skipGap_cons hc.isGap_eq_false]
  split
  · next h => exact absurd (List.cons_eq_cons.1 h).1 (hc.ne rfl (by decide))
  · next h => exact absurd (List.cons_eq_cons.1 h).1 (hc.ne rfl (by decide))
  · next h => exact absurd (List.cons_eq_cons.1 h).1 (hc.ne rfl (by decide))
  · next h => exact absurd (List.cons_eq_cons.1 h).1 (hc.ne rfl (by decide))
  · next h => exact absurd (List.cons_eq_cons.1 h).1 (hc.ne rfl (by decide))
  · next h => exact absurd (List.cons_eq_cons.1 h).1 (hc.ne rfl (by decide))
  · rfl

/-- Whether the text of a tree is read off the start of any text. -/
def ReadsOff (j : Json) : Prop :=
  ∀ {n rest}, j.chars.length < n → EndsNumber rest → value? n (j.chars ++ rest) = some (j, rest)

theorem endsNumber_cons {c : Char} (hc : c.isDigit = false ∧ c ≠ '.' ∧ c ≠ 'e' ∧ c ≠ 'E')
    (rest : List Char) : EndsNumber (c :: rest) := by
  intro d hd
  cases hd
  exact hc

theorem items?_append (hne : items ≠ []) (hitems : ∀ j ∈ items, ReadsOff j)
    (hn : (itemsChars items).length + 2 ≤ n) (rest : List Char) :
    items? n (itemsChars items ++ ']' :: rest) = some (items, rest) := by
  induction items generalizing n with
  | nil => exact absurd rfl hne
  | cons j items ih =>
    obtain ⟨hj, hitems⟩ := List.forall_mem_cons.1 hitems
    obtain ⟨m, rfl⟩ : ∃ m, n = m + 1 := ⟨n - 1, by omega⟩
    cases items with
    | nil =>
      rw [itemsChars] at hn ⊢
      have hvalue :=
        hj (show j.chars.length < m by omega) (endsNumber_cons (c := ']') (by decide) rest)
      rw [items?, hvalue]
      rfl
    | cons k items =>
      have hchars : itemsChars (j :: k :: items) = j.chars ++ ',' :: itemsChars (k :: items) := rfl
      have hlength : (itemsChars (j :: k :: items)).length =
          j.chars.length + ((itemsChars (k :: items)).length + 1) :=
        List.length_append
      have hvalue := hj (show j.chars.length < m by omega)
        (endsNumber_cons (c := ',') (by decide) (itemsChars (k :: items) ++ ']' :: rest))
      have hrest :=
        ih (List.cons_ne_nil _ _) hitems (show (itemsChars (k :: items)).length + 2 ≤ m by omega)
      have hgap : skipGap (',' :: (itemsChars (k :: items) ++ ']' :: rest)) =
          ',' :: (itemsChars (k :: items) ++ ']' :: rest) := rfl
      rw [hchars, List.append_assoc, List.cons_append, items?, hvalue]
      simp only [Option.bind_eq_bind, Option.bind_some, hgap, hrest]
      rfl

theorem stringChars_append (s : String) (rest : List Char) :
    stringChars (some s) ++ rest = '\x22' :: (s.toList.flatMap escapedChar ++ '\x22' :: rest) := by
  unfold stringChars
  rw [List.append_assoc]
  rfl

theorem members?_last (name : String) {value : Json} (hvalue : ReadsOff value)
    (hn : value.chars.length < n) (rest : List Char) :
    members? (n + 1) (stringChars (some name) ++ ':' :: value.chars ++ '\x7d' :: rest) =
      some ([(some name, value)], rest) := by
  have hcolon : ∀ cs, skipGap (':' :: cs) = ':' :: cs := fun _ => rfl
  have hclose : ∀ cs, skipGap ('\x7d' :: cs) = '\x7d' :: cs := fun _ => rfl
  have hread := hvalue hn (endsNumber_cons (c := '\x7d') (by decide) rest)
  rw [List.append_assoc, List.cons_append, stringChars_append, members?, skipGap_cons (by decide)]
  simp only [string?_append, Option.bind_eq_bind, Option.bind_some, hcolon, hread, hclose,
    Option.pure_def]

theorem members?_more (name : String) {value : Json} (hvalue : ReadsOff value)
    (hn : value.chars.length < n) {tail : List Char}
    (htail : members? n tail = some (members, rest)) :
    members? (n + 1) (stringChars (some name) ++ ':' :: value.chars ++ ',' :: tail) =
      some ((some name, value) :: members, rest) := by
  have hcolon : ∀ cs, skipGap (':' :: cs) = ':' :: cs := fun _ => rfl
  have hcomma : ∀ cs, skipGap (',' :: cs) = ',' :: cs := fun _ => rfl
  have hread := hvalue hn (endsNumber_cons (c := ',') (by decide) tail)
  rw [List.append_assoc, List.cons_append, stringChars_append, members?, skipGap_cons (by decide)]
  simp only [string?_append, Option.bind_eq_bind, Option.bind_some, hcolon, hread, hcomma, htail,
    Option.pure_def]

theorem members?_append (hne : members ≠ []) (hnames : ∀ e ∈ members, e.1.isSome = true)
    (hvalues : ∀ e ∈ members, ReadsOff e.2) (hn : (membersChars members).length + 2 ≤ n)
    (rest : List Char) :
    members? n (membersChars members ++ '\x7d' :: rest) = some (members, rest) := by
  induction members generalizing n with
  | nil => exact absurd rfl hne
  | cons e members ih =>
    obtain ⟨name, value⟩ := e
    obtain ⟨hname, htext⟩ := List.forall_mem_cons.1 hnames
    obtain ⟨hvalue, hothers⟩ := List.forall_mem_cons.1 hvalues
    obtain ⟨s, rfl⟩ := Option.isSome_iff_exists.1 hname
    obtain ⟨m, rfl⟩ : ∃ m, n = m + 1 := ⟨n - 1, by omega⟩
    cases members with
    | nil =>
      have hlength : (membersChars [(some s, value)]).length = (stringChars (some s)).length +
          (value.chars.length + 1) :=
        List.length_append
      have hn : value.chars.length < m := by omega
      exact members?_last s hvalue hn rest
    | cons e members =>
      have hchars : membersChars ((some s, value) :: e :: members) =
          stringChars (some s) ++ ':' :: value.chars ++ ',' :: membersChars (e :: members) := rfl
      have hlength : (membersChars ((some s, value) :: e :: members)).length =
          (stringChars (some s)).length + (value.chars.length + 1) +
          ((membersChars (e :: members)).length + 1) := by
        rw [hchars, List.length_append, List.length_append]
        rfl
      have hn : value.chars.length < m := by omega
      have hrest :=
        ih (List.cons_ne_nil _ _) htext hothers
          (show (membersChars (e :: members)).length + 2 ≤ m by omega)
      rw [hchars, List.append_assoc, List.cons_append]
      exact members?_more s hvalue hn hrest

theorem value?_array {c : Char} (hgap : isGap c = false) (hclose : c ≠ ']') (cs : List Char) :
    value? (n + 1) ('[' :: c :: cs) = (items? n (c :: cs)).map fun p => (.array p.1, p.2) := by
  simp only [value?, skipGap_cons (show isGap '[' = false by decide), skipGap_cons hgap]
  split
  · next h => exact absurd (List.cons_eq_cons.1 h).1 hclose
  · rfl

theorem exists_itemsChars_cons (h : Clean j) (items : List Json) :
    ∃ c cs, itemsChars (j :: items) = c :: cs ∧ isGap c = false ∧ c ≠ ']' := by
  obtain ⟨c, cs, hcons, hgap, hclose⟩ := h.exists_cons
  cases items with
  | nil => exact ⟨c, cs, hcons, hgap, hclose⟩
  | cons k items =>
    refine ⟨c, cs ++ ',' :: itemsChars (k :: items), ?_, hgap, hclose⟩
    show chars j ++ ',' :: itemsChars (k :: items) = _
    rw [hcons]
    rfl

theorem exists_membersChars_cons (s : String) (j : Json) (members : List (Option String × Json)) :
    ∃ cs, membersChars ((some s, j) :: members) = '\x22' :: cs := by
  cases members with
  | nil => exact ⟨_, stringChars_append s (':' :: chars j)⟩
  | cons e members =>
    refine ⟨_,
      Eq.trans ?_ (stringChars_append s (':' :: chars j ++ ',' :: membersChars (e :: members)))⟩
    show stringChars (some s) ++ ':' :: chars j ++ ',' :: membersChars (e :: members) = _
    rw [List.append_assoc]

theorem readsOff_of_succ (h : ∀ n rest, j.chars.length ≤ n → EndsNumber rest →
    value? (n + 1) (j.chars ++ rest) = some (j, rest)) :
    ReadsOff j := by
  intro n rest hn hrest
  obtain ⟨m, rfl⟩ : ∃ m, n = m + 1 := ⟨n - 1, by omega⟩
  exact h m rest (by omega) hrest

/-- The text of a tree is read off the start of a text, whole. -/
theorem Clean.readsOff (h : Clean j) : ReadsOff j := by
  -- An array takes one call for itself and one for each item; its brackets and commas pay for them,
  -- so that calls never run out before the text does.
  induction h with
  | null => exact readsOff_of_succ fun _ _ _ _ => rfl
  | bool b => cases b <;> exact readsOff_of_succ fun _ _ _ _ => rfl
  | number h =>
    refine readsOff_of_succ fun n rest hn hrest => ?_
    obtain ⟨c, ds, rfl, hc⟩ := h.exists_cons
    rw [chars, List.cons_append, value?_of_startsNumber hc, ← List.cons_append,
      number?_append h hrest]
    rfl
  | string s =>
    refine readsOff_of_succ fun n rest hn hrest => ?_
    have hquote : ∀ cs, value? (n + 1) ('\x22' :: cs) =
        (string? cs).map fun p => (.string p.1, p.2) := fun _ => rfl
    rw [chars, stringChars_append, hquote, string?_append]
    rfl
  | @array items h ih =>
    refine readsOff_of_succ fun n rest hn hrest => ?_
    cases items with
    | nil => rfl
    | cons j items =>
      have hchars : (Json.array (j :: items)).chars ++ rest =
          '[' :: (itemsChars (j :: items) ++ ']' :: rest) := by
        rw [chars, List.append_assoc]
        rfl
      have hlength :
          (Json.array (j :: items)).chars.length = (itemsChars (j :: items)).length + 2 := by
        simp [chars]
      have hroom : (itemsChars (j :: items)).length + 2 ≤ n := by omega
      have hitems := items?_append (List.cons_ne_nil j items) ih hroom rest
      obtain ⟨c, cs, hcons, hgap, hclose⟩ := exists_itemsChars_cons (h j List.mem_cons_self) items
      rw [hchars]
      rw [hcons] at hitems ⊢
      rw [List.cons_append, value?_array hgap hclose, ← List.cons_append, hitems]
      rfl
  | @object members hnames hvalues ih =>
    refine readsOff_of_succ fun n rest hn hrest => ?_
    cases members with
    | nil => rfl
    | cons e members =>
      have hchars : (Json.object (e :: members)).chars ++ rest =
          '\x7b' :: (membersChars (e :: members) ++ '\x7d' :: rest) := by
        rw [chars, List.append_assoc]
        rfl
      have hlength :
          (Json.object (e :: members)).chars.length = (membersChars (e :: members)).length + 2 := by
        simp [chars]
      have hmembers := members?_append (List.cons_ne_nil e members) hnames ih
        (show (membersChars (e :: members)).length + 2 ≤ n by omega) rest
      have hquote : ∀ cs, value? (n + 1) ('\x7b' :: '\x22' :: cs) =
          (members? n ('\x22' :: cs)).map fun p => (.object p.1, p.2) := fun _ => rfl
      obtain ⟨name, value⟩ := e
      obtain ⟨s, rfl⟩ := Option.isSome_iff_exists.1 (hnames (name, value) List.mem_cons_self)
      obtain ⟨cs, hcons⟩ := exists_membersChars_cons s value members
      rw [hchars]
      rw [hcons] at hmembers ⊢
      rw [List.cons_append, hquote, ← List.cons_append, hmembers]
      rfl

/-- A tree is read back from its compact text. -/
theorem parse_compress (h : Clean j) : parse j.compress = some j := by
  have hread : value? (2 * j.chars.length + 2) (j.chars ++ []) = some (j, []) :=
    h.readsOff (by omega) nofun
  rw [List.append_nil] at hread
  unfold parse compress
  rw [String.toList_ofList]
  dsimp only
  rw [hread]
  rfl

end Json

end Phrasebook
