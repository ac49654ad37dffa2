import Mathlib.Data.List.Nodup
import Phrasebook.Message.Fill
import Phrasebook.Proofs.TokenLayout

/-!
# Filling in the longest names

What the text of a message becomes when parameters are put in, said without an order of the
parameters.

* `Parameters.LongestAt` : the longest name that a text begins with, and its value;
* `Parameters.Filled` : one pass over a text, in which the longest name at each place is replaced;
* `Parameters.filled_fill` : so parameters are put in;
* `Parameters.fill_takes_longest` : no other text is such a pass, and what follows from it.
-/

namespace Phrasebook

/-- Of two beginnings of a text, the one with no more bytes is a beginning of the other. -/
theorem prefix_of_byteLength_le {as bs cs : List Char} (ha : as <+: cs) (hb : bs <+: cs)
    (hle : byteLength as ≤ byteLength bs) : as <+: bs := by
  rcases List.prefix_or_prefix_of_prefix ha hb with h | ⟨ds, rfl⟩
  · exact h
  · rw [byteLength_append] at hle
    obtain rfl : ds = [] := by
      by_contra hne
      have := byteLength_pos hne
      omega
    simp

namespace Parameters

/-! ### One pass over a text -/

/-- The longest name that `cs` begins with, and its value. -/
structure LongestAt (params : Parameters) (cs : List Char) (name value : String) : Prop where
  entry : (name, value) ∈ params.entries
  ne_empty : name ≠ ""
  begins : name.toList <+: cs
  longest : ∀ e ∈ params.entries, e.1.toList <+: cs → e.1.length ≤ name.length

/-- One pass from left to right: where names begin the longest one gives way to its value, which is
not looked at again, and elsewhere a character is kept. -/
inductive Filled (params : Parameters) : List Char → List Char → Prop
  | done : Filled params [] []
  | name {rest out : List Char} {name value : String}
      (h : params.LongestAt (name.toList ++ rest) name value)
      (hrest : Filled params rest out) : Filled params (name.toList ++ rest) (value.toList ++ out)
  | character {c : Char} {cs out : List Char}
      (h : ∀ e ∈ params.entries, e.1 ≠ "" → ¬e.1.toList <+: c :: cs)
      (hrest : Filled params cs out) : Filled params (c :: cs) (c :: out)

variable {params other : Parameters} {cs : List Char} {name value : String}

theorem LongestAt.not_free {c : Char} (h : params.LongestAt (c :: cs) name value) :
    ¬∀ e ∈ params.entries, e.1 ≠ "" → ¬e.1.toList <+: c :: cs :=
  fun hfree => hfree _ h.entry h.ne_empty h.begins

theorem LongestAt.exists_cons (h : params.LongestAt cs name value) :
    ∃ d ds, name.toList = d :: ds := by
  apply List.exists_cons_of_ne_nil
  intro hnil
  exact h.ne_empty (String.toList_eq_nil_iff.1 hnil)

/-- No name comes twice, so a name has one value. -/
theorem eq_of_mem_entries {v w : String} (hv : (name, v) ∈ params.entries)
    (hw : (name, w) ∈ params.entries) : v = w := by
  have hnodup : (params.entries.map Prod.fst).Nodup := params.nodup
  have heq := List.inj_on_of_nodup_map hnodup hv hw rfl
  exact congrArg Prod.snd heq

/-- There is one longest name, since two beginnings of a text with the same length are the same. -/
theorem LongestAt.unique {name' value' : String} (h : params.LongestAt cs name value)
    (h' : params.LongestAt cs name' value') : name = name' ∧ value = value' := by
  have hle := h'.longest _ h.entry h.begins
  have hge := h.longest _ h'.entry h'.begins
  have hname : name.toList = name'.toList := by
    apply (List.prefix_of_prefix_length_le h.begins h'.begins _).eq_of_length
    · simp only [String.length_toList]
      exact Nat.le_antisymm hle hge
    · simpa only [String.length_toList] using hle
  obtain rfl := String.toList_inj.1 hname
  exact ⟨rfl, eq_of_mem_entries h.entry h'.entry⟩

/-- A pass has one outcome. -/
theorem Filled.unique {out out' : List Char} (h : params.Filled cs out)
    (h' : params.Filled cs out') : out = out' := by
  induction h generalizing out' with
  | done =>
    generalize hnil : ([] : List Char) = ds at h'
    cases h' with
    | done => rfl
    | name hname hrest =>
      obtain ⟨d, ds, hcons⟩ := hname.exists_cons
      rw [hcons] at hnil
      cases hnil
    | character => cases hnil
  | @name rest out name value hname hrest ih =>
    generalize htext : name.toList ++ rest = ds at h'
    cases h' with
    | done =>
      obtain ⟨d, ds, hcons⟩ := hname.exists_cons
      rw [hcons] at htext
      cases htext
    | name hname' hrest' =>
      rw [htext] at hname
      obtain ⟨rfl, rfl⟩ := hname.unique hname'
      rw [ih (List.append_cancel_left htext ▸ hrest')]
    | character hfree =>
      rw [htext] at hname
      exact absurd hfree hname.not_free
  | @character c cs out hfree hrest ih =>
    generalize htext : c :: cs = ds at h'
    cases h' with
    | done => cases htext
    | name hname' =>
      rw [← htext] at hname'
      exact absurd hfree hname'.not_free
    | character hfree' hrest' =>
      obtain ⟨rfl, rfl⟩ := List.cons.inj htext
      rw [ih hrest']

/-! ### The names in order -/

theorem mem_longestFirst {entries : List (String × String)} {e : List Char × List Char} :
    e ∈ longestFirst entries ↔ ∃ n v, (n, v) ∈ entries ∧ n ≠ "" ∧ e = (n.toList, v.toList) := by
  unfold longestFirst
  rw [List.mem_mergeSort, List.mem_filter, List.mem_map]
  constructor
  · rintro ⟨⟨⟨n, v⟩, hmem, rfl⟩, hne⟩
    refine ⟨n, v, hmem, ?_, rfl⟩
    rintro rfl
    simp at hne
  · rintro ⟨n, v, hmem, hne, rfl⟩
    exact ⟨⟨(n, v), hmem, rfl⟩, by simpa using hne⟩

theorem pairwise_longestFirst (entries : List (String × String)) :
    (longestFirst entries).Pairwise fun a b => byteLength b.1 ≤ byteLength a.1 := by
  unfold longestFirst
  refine (List.pairwise_mergeSort ?_ ?_ _).imp fun h => of_decide_eq_true h
  · intro a b c hab hbc
    simp only [decide_eq_true_eq] at hab hbc ⊢
    omega
  · intro a b
    simp only [Bool.or_eq_true, decide_eq_true_eq]
    omega

/-- The first name in order that a text begins with is the longest one. -/
theorem longestAt_of_find? {e : List Char × List Char}
    (h : (longestFirst params.entries).find? (fun e => e.1.isPrefixOf cs) = some e) :
    ∃ name value, e = (name.toList, value.toList) ∧ params.LongestAt cs name value := by
  obtain ⟨hbegins, before, behind, hlist, hbefore⟩ := List.find?_eq_some_iff_append.1 h
  have hmem : e ∈ longestFirst params.entries := by
    rw [hlist]
    simp
  obtain ⟨name, value, hentry, hne, rfl⟩ := mem_longestFirst.1 hmem
  have hprefix : name.toList <+: cs := List.isPrefixOf_iff_prefix.1 hbegins
  refine ⟨name, value, rfl, hentry, hne, hprefix, ?_⟩
  rintro ⟨n, v⟩ hother hn
  by_cases hempty : n = ""
  · rw [hempty]
    exact Nat.zero_le _
  have hsorted := pairwise_longestFirst params.entries
  rw [hlist, List.pairwise_append, List.pairwise_cons] at hsorted
  have hmem' : (n.toList, v.toList) ∈ before ++ (name.toList, value.toList) :: behind := by
    rw [← hlist]
    exact mem_longestFirst.2 ⟨n, v, hother, hempty, rfl⟩
  -- a name that comes earlier does not fit, and one that comes later is no longer
  have hle : byteLength n.toList ≤ byteLength name.toList := by
    rcases List.mem_append.1 hmem' with hearly | hlate
    · have hnot := hbefore _ hearly
      rw [List.isPrefixOf_iff_prefix.2 hn] at hnot
      cases hnot
    · rcases List.mem_cons.1 hlate with heq | hlate
      · rw [(Prod.mk.inj heq).1]
      · exact hsorted.2.1.1 _ hlate
  have hlength := (prefix_of_byteLength_le hn hprefix hle).length_le
  simpa only [String.length_toList] using hlength

theorem free_of_find?
    (h : (longestFirst params.entries).find? (fun e => e.1.isPrefixOf cs) = none) :
    ∀ e ∈ params.entries, e.1 ≠ "" → ¬e.1.toList <+: cs := by
  intro e he hne hbegins
  have hnot := List.find?_eq_none.1 h _ (mem_longestFirst.2 ⟨e.1, e.2, he, hne, rfl⟩)
  exact hnot (List.isPrefixOf_iff_prefix.2 hbegins)

/-! ### The pass that is made -/

theorem fillFrom_eq_drop (names : List (List Char × List Char)) (skip : Nat) (cs : List Char) :
    fillFrom names skip cs = fillFrom names 0 (cs.drop skip) := by
  induction skip generalizing cs with
  | zero => rw [List.drop_zero]
  | succ skip ih =>
    cases cs with
    | nil => simp [fillFrom]
    | cons c cs =>
      rw [fillFrom, ih]
      rfl

theorem filled_fillFrom (params : Parameters) (cs : List Char) :
    params.Filled cs (fillFrom (longestFirst params.entries) 0 cs) := by
  obtain ⟨n, hn⟩ : ∃ n, cs.length = n := ⟨_, rfl⟩
  induction n using Nat.strong_induction_on generalizing cs with
  | _ n ih =>
    cases cs with
    | nil => exact .done
    | cons c cs =>
      rw [List.length_cons] at hn
      cases hfind : (longestFirst params.entries).find? fun e => e.1.isPrefixOf (c :: cs) with
      | none =>
        simp only [fillFrom, hfind]
        exact .character (free_of_find? hfind) (ih _ (by omega) cs rfl)
      | some e =>
        obtain ⟨name, value, rfl, hlongest⟩ := longestAt_of_find? hfind
        obtain ⟨d, ds, hname⟩ := hlongest.exists_cons
        obtain ⟨rest, hrest⟩ := hlongest.begins
        have hcs : ds ++ rest = cs := by
          rw [hname] at hrest
          exact (List.cons.inj hrest).2
        have hdrop : cs.drop (name.toList.length - 1) = rest := by
          rw [hname, ← hcs]
          simp
        have hlength : rest.length ≤ cs.length := by
          rw [← hcs, List.length_append]
          omega
        simp only [fillFrom, hfind]
        rw [fillFrom_eq_drop, hdrop, ← hrest]
        rw [← hrest] at hlongest
        exact .name hlongest (ih _ (by omega) rest rfl)

/-- Parameters are put in in one pass that takes the longest name. -/
theorem filled_fill (params : Parameters) (text : String) :
    params.Filled text.toList (params.fill text).toList := by
  unfold fill
  rw [String.toList_ofList]
  exact filled_fillFrom params text.toList

theorem fill_eq_iff {text out : String} :
    params.fill text = out ↔ params.Filled text.toList out.toList := by
  constructor
  · rintro rfl
    exact filled_fill params text
  · intro h
    exact String.toList_inj.1 ((filled_fill params text).unique h)

/-! ### What plays no part in a pass -/

theorem LongestAt.congr (hsame : ∀ e, e.1 ≠ "" → (e ∈ other.entries ↔ e ∈ params.entries))
    (h : other.LongestAt cs name value) : params.LongestAt cs name value where
  entry := (hsame (name, value) h.ne_empty).1 h.entry
  ne_empty := h.ne_empty
  begins := h.begins
  longest e he hbegins := by
    by_cases hempty : e.1 = ""
    · rw [hempty]
      exact Nat.zero_le _
    · exact h.longest e ((hsame e hempty).2 he) hbegins

/-- A pass depends on the entries whose names are not empty, and not on their order. -/
theorem Filled.congr {out : List Char}
    (hsame : ∀ e, e.1 ≠ "" → (e ∈ other.entries ↔ e ∈ params.entries)) (h : other.Filled cs out) :
    params.Filled cs out := by
  induction h with
  | done => exact .done
  | name hname _ ih => exact .name (hname.congr hsame) ih
  | character hfree _ ih => exact .character (fun e he hne => hfree e ((hsame e hne).2 he) hne) ih

/-- A text without names is kept. -/
theorem filled_self (h : ∀ e ∈ params.entries, e.1 ≠ "" → ¬e.1.toList <:+: cs) :
    params.Filled cs cs := by
  induction cs with
  | nil => exact .done
  | cons c cs ih =>
    refine .character (fun e he hne hbegins => h e he hne hbegins.isInfix) (ih ?_)
    intro e he hne hwithin
    exact h e he hne (hwithin.trans (List.suffix_cons c cs).isInfix)

/-- Names that stand for themselves change nothing. -/
theorem Filled.eq_self {out : List Char} (hself : ∀ e ∈ params.entries, e.2 = e.1)
    (h : params.Filled cs out) : out = cs := by
  induction h with
  | done => rfl
  | name hname _ ih =>
    have hvalue := hself _ hname.entry
    dsimp only at hvalue
    rw [ih, hvalue]
  | character _ _ ih => rw [ih]

/-- **Parameters are put in by the longest names, in one pass.**  The text that parameters make of a
message is the one that the pass gives, so the order of the parameters plays no part, nor does a
parameter with an empty name; a text in which no name stands is kept, and so is every text where all
names stand for themselves. -/
theorem fill_takes_longest (params : Parameters) (text : String) :
    (∀ out, params.fill text = out ↔ params.Filled text.toList out.toList) ∧
      (∀ other : Parameters, (∀ e, e ∈ other.entries ↔ e ∈ params.entries) →
        other.fill text = params.fill text) ∧
      (∀ other : Parameters, (∀ e, e.1 ≠ "" → (e ∈ other.entries ↔ e ∈ params.entries)) →
        other.fill text = params.fill text) ∧
      ((∀ e ∈ params.entries, e.1 ≠ "" → ¬e.1.toList <:+: text.toList) → params.fill text = text) ∧
      ((∀ e ∈ params.entries, e.2 = e.1) → params.fill text = text) := by
  have hcongr : ∀ other : Parameters, (∀ e, e.1 ≠ "" → (e ∈ other.entries ↔ e ∈ params.entries)) →
      other.fill text = params.fill text := by
    intro other hsame
    exact (fill_eq_iff.2 ((filled_fill other text).congr hsame)).symm
  refine ⟨fun out => fill_eq_iff, fun other hsame => hcongr other fun e _ => hsame e,
    hcongr, ?_, ?_⟩
  · intro hfree
    exact fill_eq_iff.2 (filled_self hfree)
  · intro hself
    exact String.toList_inj.1 ((filled_fill params text).eq_self hself)

/-- Names that begin alike, a value that is a name, and an empty name: each name gives way once,
whatever their order. -/
theorem fill_takes_longest_overlapping :
    Parameters.Filled (.ofList [("%name%", "%n"), ("%n", "short")]) "%name%, %n".toList
      "%n, short".toList ∧
      Parameters.fill (.ofList [("%n", "short"), ("%name%", "%n")]) "%name%, %n" =
        Parameters.fill (.ofList [("%name%", "%n"), ("%n", "short")]) "%name%, %n" ∧
      Parameters.fill (.ofList [("%n", "short"), ("", "x"), ("%name%", "%n")]) "%name%, %n" =
        Parameters.fill (.ofList [("%name%", "%n"), ("%n", "short")]) "%name%, %n" ∧
      Parameters.fill (.ofList [("%name%", "%n"), ("%n", "short")]) "100%" = "100%" ∧
      Parameters.fill (.ofList [("%name%", "%name%"), ("%n", "%n")]) "%name%, %n" =
        "%name%, %n" := by
  have h := fill_takes_longest (.ofList [("%name%", "%n"), ("%n", "short")]) "%name%, %n"
  have hplain := fill_takes_longest (.ofList [("%name%", "%n"), ("%n", "short")]) "100%"
  have hself := fill_takes_longest (.ofList [("%name%", "%name%"), ("%n", "%n")]) "%name%, %n"
  refine ⟨(h.1 "%n, short").1 ?_, h.2.1 _ ?_, h.2.2.1 _ ?_, hplain.2.2.2.1 ?_, hself.2.2.2.2 ?_⟩
  · -- the names are in order already
    unfold fill longestFirst
    rw [List.mergeSort_of_pairwise]
    · decide +kernel
    · decide +kernel
  · intro e
    simp [Dict.ofList, Assoc.ofList, Assoc.insert, or_comm]
  · intro e he
    have hne : e ≠ ("", "x") := fun h => he (congrArg Prod.fst h)
    simp [Dict.ofList, Assoc.ofList, Assoc.insert, hne, or_comm]
  · decide +kernel
  · decide +kernel

end Parameters

end Phrasebook
