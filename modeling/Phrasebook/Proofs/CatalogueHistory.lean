import Phrasebook.Proofs.DefaultEntry
import Phrasebook.Proofs.Lists

/-!
# What a store holds after catalogues were added

A catalogue is written message by message, and a store is filled catalogue by catalogue.  What it
holds at the end is read off the list of what was written, without the dictionaries in between.

* `Catalogue.ofWritten`, `CatalogueStore.ofAdded` : the catalogue of a list of messages, and the
  store of a list of catalogues;
* `Catalogue.get?_merge` : merging keeps every text of the second catalogue, and of the first those
  that the second lacks;
* `CatalogueStore.textIn?_ofAdded` : the last catalogue with a text for a message decides, and in it
  the last text;
* `CatalogueStore.holds_last_added` : what a store holds, defines and translates, and what it keeps
  when it grows.
-/

namespace Phrasebook

/-! ### Writing messages -/

namespace Catalogue

/-- The catalogue that messages make which are written one after another, each as domain, id and
text. -/
def ofWritten (locale : String) (written : List (String × String × String)) : Catalogue :=
  written.foldl (fun c m => c.set m.1 m.2.1 m.2.2) (.empty locale)

/-- The last text that was written for a message. -/
def LastWritten (domain id : String) : List (String × String × String) → String → Prop :=
  LastOf fun m text => m = (domain, id, text)

variable {c other : Catalogue} {domain id text : String} {written : List (String × String × String)}

theorem get?_set_eq (c : Catalogue) (domain id text domain' id' : String) :
    (c.set domain id text).get? domain' id' = if domain' = domain ∧ id' = id then some text
      else c.get? domain' id' := by
  unfold get? all? set
  rw [Dict.get?_insert]
  by_cases hdomain : domain' = domain
  · subst hdomain
    rw [if_pos rfl, Option.bind_some, Dict.get?_insert]
    by_cases hid : id' = id
    · rw [if_pos hid, if_pos ⟨rfl, hid⟩]
    · rw [if_neg hid, if_neg fun h => hid h.2]
      unfold all?
      cases c.messages.get? domain' <;> rfl
  · rw [if_neg hdomain, if_neg fun h => hdomain h.1]

/-- What one more message changes: the last text of its own domain and id. -/
theorem lastWritten_concat {m : String × String × String} :
    LastWritten domain id (written ++ [m]) text ↔
      m = (domain, id, text) ∨ (∀ t, m ≠ (domain, id, t)) ∧ LastWritten domain id written text :=
  lastOf_concat

/-- Messages written over a catalogue: the last text that was written counts, else what the
catalogue held. -/
theorem get?_foldl_set :
    (written.foldl (fun c m => c.set m.1 m.2.1 m.2.2) c).get? domain id = some text ↔
    LastWritten domain id written text ∨ (∀ t, (domain, id, t) ∉ written) ∧
    c.get? domain id = some text := by
  induction written using List.reverseRecOn generalizing text with
  | nil => simp [LastWritten, not_lastOf_nil]
  | append_singleton written m ih =>
    rw [List.foldl_append, List.foldl_cons, List.foldl_nil, get?_set_eq, lastWritten_concat]
    by_cases hm : domain = m.1 ∧ id = m.2.1
    · obtain ⟨rfl, rfl⟩ := hm
      have hlast : ¬∀ t, m ≠ (m.1, m.2.1, t) := fun h => h m.2.2 rfl
      have hmem : ¬∀ t, (m.1, m.2.1, t) ∉ written ++ [m] := fun h => h m.2.2 (by simp)
      rw [if_pos ⟨rfl, rfl⟩, Option.some.injEq, or_iff_left fun h => hmem h.1,
        or_iff_left fun h => hlast h.1]
      exact ⟨fun h => by rw [← h], fun h => congrArg (·.2.2) h⟩
    · have hne : ∀ t, m ≠ (domain, id, t) := by
        rintro t rfl
        exact hm ⟨rfl, rfl⟩
      rw [if_neg hm, ih, or_iff_right (hne text)]
      simp only [List.mem_append, List.mem_singleton, not_or]
      constructor
      · rintro (h | ⟨hnone, h⟩)
        · exact .inl ⟨hne, h⟩
        · exact .inr ⟨fun t => ⟨hnone t, fun h => hne t h.symm⟩, h⟩
      · rintro (⟨-, h⟩ | ⟨hnone, h⟩)
        · exact .inl h
        · exact .inr ⟨fun t => (hnone t).1, h⟩

theorem get?_ofWritten {locale : String} :
    (ofWritten locale written).get? domain id = some text ↔ LastWritten domain id written text := by
  have hempty : (Catalogue.empty locale).get? domain id = none := rfl
  unfold ofWritten
  rw [get?_foldl_set, hempty]
  exact or_iff_left fun h => nomatch h.2

theorem exists_lastWritten_iff :
    (∃ text, LastWritten domain id written text) ↔ ∃ m ∈ written, m.1 = domain ∧ m.2.1 = id := by
  unfold LastWritten
  rw [exists_lastOf_iff]
  constructor
  · rintro ⟨m, hm, t, rfl⟩
    exact ⟨_, hm, rfl, rfl⟩
  · rintro ⟨m, hm, rfl, rfl⟩
    exact ⟨m, hm, m.2.2, rfl⟩

/-! ### Merging -/

theorem mem_toList : (domain, id, text) ∈ c.toList ↔ c.get? domain id = some text := by
  unfold toList get? all?
  rw [List.mem_flatMap, Option.bind_eq_some_iff]
  constructor
  · rintro ⟨⟨k, d⟩, hd, hm⟩
    obtain ⟨e, he, heq⟩ := List.mem_map.1 hm
    cases heq
    exact ⟨d, Dict.get?_eq_some_iff.2 hd, Dict.get?_eq_some_iff.2 he⟩
  · rintro ⟨d, hd, ht⟩
    exact ⟨(domain, d), Dict.get?_eq_some_iff.1 hd,
      List.mem_map.2 ⟨(id, text), Dict.get?_eq_some_iff.1 ht, rfl⟩⟩

/-- The messages of a catalogue hold one text for each. -/
theorem lastWritten_toList :
    LastWritten domain id c.toList text ↔ c.get? domain id = some text := by
  constructor
  · rintro ⟨before, m, behind, hl, rfl, -⟩
    rw [← mem_toList, hl]
    simp
  · intro h
    obtain ⟨t, ht⟩ := exists_lastWritten_iff.2 ⟨_, mem_toList.2 h, rfl, rfl⟩
    obtain ⟨before, m, behind, hl, rfl, hbehind⟩ := ht
    have hmem : (domain, id, t) ∈ c.toList := by
      rw [hl]
      simp
    rw [mem_toList, h] at hmem
    cases hmem
    exact ⟨before, _, behind, hl, rfl, hbehind⟩

/-- Merging keeps every text of the second catalogue, and of the first those that the second
lacks. -/
theorem get?_merge (c other : Catalogue) (domain id : String) :
    (c.merge other).get? domain id = (other.get? domain id).or (c.get? domain id) := by
  apply Option.ext
  intro text
  unfold merge
  rw [get?_foldl_set, lastWritten_toList]
  simp only [mem_toList, Option.or_eq_some_iff, Option.eq_none_iff_forall_ne_some, ne_eq]

end Catalogue

/-! ### Adding catalogues -/

namespace CatalogueStore

/-- A catalogue that is added: its locale, and the messages in the order in which they were
written. -/
structure Addition where
  locale : String
  written : List (String × String × String)

def Addition.catalogue (a : Addition) : Catalogue := .ofWritten a.locale a.written

/-- The store that catalogues make which are added one after another. -/
def ofAdded (own : String) (fallbacks : List String) (added : List Addition) : CatalogueStore :=
  added.foldl (fun s a => s.add a.catalogue) ⟨own, fallbacks, .empty⟩

/-- The text of a message in the last catalogue of a locale that has one: in that catalogue, the
last that was written. -/
def LastAdded (locale domain id : String) : List Addition → String → Prop :=
  LastOf fun a text => a.locale = locale ∧ Catalogue.LastWritten domain id a.written text

variable (s : CatalogueStore) (c : Catalogue) (own : String) (fallbacks : List String)
    (added : List Addition)
variable {locale domain id text : String}

/-- Adding a catalogue leaves the catalogues of other locales as they are. -/
theorem catalogue?_add_of_ne (h : locale ≠ c.locale) :
    (s.add c).catalogues.get? locale = s.catalogues.get? locale := by
  unfold add
  dsimp only
  rw [Dict.get?_insert, if_neg h]

theorem textIn?_add : (s.add c).textIn? locale domain id =
    if locale = c.locale then (c.get? domain id).or (s.textIn? locale domain id)
    else s.textIn? locale domain id := by
  by_cases hlocale : locale = c.locale
  · subst hlocale
    unfold textIn? add
    dsimp only
    rw [if_pos rfl, Dict.get?_insert, if_pos rfl, Option.bind_some]
    cases s.catalogues.get? c.locale with
    | none => exact Option.or_none.symm
    | some held => exact Catalogue.get?_merge held c domain id
  · rw [if_neg hlocale]
    unfold textIn?
    rw [catalogue?_add_of_ne s c hlocale]

theorem ofAdded_concat (a : Addition) :
    ofAdded own fallbacks (added ++ [a]) = (ofAdded own fallbacks added).add a.catalogue := by
  unfold ofAdded
  rw [List.foldl_append]
  rfl

/-- The catalogue of a list of messages is of the locale that it was made for. -/
theorem locale_ofWritten (locale : String) (written : List (String × String × String)) :
    (Catalogue.ofWritten locale written).locale = locale := by
  induction written using List.reverseRecOn with
  | nil => rfl
  | append_singleton written m ih =>
    unfold Catalogue.ofWritten at ih ⊢
    rw [List.foldl_append]
    exact ih

/-- What a store holds for a message: the last catalogue of the locale with a text for it decides,
and in it the last text. -/
theorem textIn?_ofAdded :
    (ofAdded own fallbacks added).textIn? locale domain id = some text ↔
      LastAdded locale domain id added text := by
  induction added using List.reverseRecOn generalizing text with
  | nil => exact ⟨nofun, fun h => absurd h not_lastOf_nil⟩
  | append_singleton added a ih =>
    have hlocale : a.catalogue.locale = a.locale := locale_ofWritten a.locale a.written
    rw [ofAdded_concat, textIn?_add, hlocale]
    unfold LastAdded
    rw [lastOf_concat]
    by_cases ha : locale = a.locale
    · subst ha
      simp only [if_true, true_and, Option.or_eq_some_iff, Option.eq_none_iff_forall_ne_some, ne_eq,
        ih]
      unfold Addition.catalogue
      simp only [Catalogue.get?_ofWritten]
      rfl
    · rw [if_neg ha, ih, or_iff_right fun h => ha h.1.symm]
      exact ⟨fun h => ⟨fun _ hc => ha hc.1.symm, h⟩, fun h => h.2⟩

theorem exists_lastAdded_iff : (∃ text, LastAdded locale domain id added text) ↔
    ∃ a ∈ added, a.locale = locale ∧ ∃ m ∈ a.written, m.1 = domain ∧ m.2.1 = id := by
  unfold LastAdded
  rw [exists_lastOf_iff]
  simp only [exists_and_left, Catalogue.exists_lastWritten_iff]

theorem locale_ofAdded : (ofAdded own fallbacks added).locale = own ∧
    (ofAdded own fallbacks added).fallbacks = fallbacks := by
  induction added using List.reverseRecOn with
  | nil => exact ⟨rfl, rfl⟩
  | append_singleton added a ih =>
    rw [ofAdded_concat]
    exact ih

/-- The fallbacks play no part in what the catalogues of a store are. -/
theorem catalogues_ofAdded (others : List String) :
    (ofAdded own others added).catalogues = (ofAdded own fallbacks added).catalogues := by
  induction added using List.reverseRecOn with
  | nil => rfl
  | append_singleton added a ih =>
    rw [ofAdded_concat, ofAdded_concat]
    unfold add
    rw [ih]

theorem defines_iff {id : String} {domain locale : Option String} :
    s.defines id domain locale = true ↔
    ∃ text, s.textIn? (locale.getD s.locale) (domain.getD defaultDomain) id = some text := by
  rw [← Option.isSome_iff_exists, ← defines_eq]
  rfl

theorem translate_eq (id : String) (params : Parameters) (domain locale : Option String) :
    s.translate id params domain locale =
      params.render ((s.lookup? (domain.getD defaultDomain) id (locale.getD s.locale)).getD id)
      (locale.getD s.locale) :=
  rfl

/-- A message without parameters is translated to the text that was found. -/
theorem translate_empty (id : String) (domain locale : Option String) :
    s.translate id .empty domain locale =
    (s.lookup? (domain.getD defaultDomain) id (locale.getD s.locale)).getD id :=
  Parameters.render_empty _ (locale.getD s.locale)

/-- **The last text that was added is held, and found along the locales.**  Whatever catalogues were
added, a store holds for a message the last text in the last catalogue of the locale that has one,
and defines the messages that some catalogue of the locale has.  A message without parameters is
translated to the text of the first locale that has one, the given locale or that of the store
before the fallbacks, and to its id if there is none; so the fallbacks count only for messages that
are not defined.  Another catalogue changes nothing in the other locales. -/
theorem holds_last_added (own : String) (fallbacks : List String) (added : List Addition) :
    let s := ofAdded own fallbacks added
    (∀ locale domain id text, ((s.catalogue? locale).bind fun c => c.get? domain id) = some text ↔
        LastAdded (locale.getD own) domain id added text) ∧
      (∀ id domain locale, s.defines id domain locale = true ↔
        ∃ a ∈ added, a.locale = locale.getD own ∧
          ∃ m ∈ a.written, m.1 = domain.getD defaultDomain ∧ m.2.1 = id) ∧
      (∀ id domain locale text,
        FirstOf (fun l t => LastAdded l (domain.getD defaultDomain) id added t)
          (locale.getD own :: fallbacks) text →
        s.translate id .empty domain locale = text) ∧
      (∀ id domain locale,
        (∀ l ∈ locale.getD own :: fallbacks, s.defines id domain (some l) = false) →
        s.translate id .empty domain locale = id) ∧
      (∀ id params domain locale others, s.defines id domain locale = true →
        (ofAdded own others added).translate id params domain locale =
          s.translate id params domain locale) ∧
      (∀ c locale, locale ≠ c.locale →
        (s.add c).catalogue? (some locale) = s.catalogue? (some locale)) := by
  intro s
  have hown : s.locale = own := (locale_ofAdded own fallbacks added).1
  have hfallbacks : s.fallbacks = fallbacks := (locale_ofAdded own fallbacks added).2
  have hholds : ∀ {locale domain id text}, s.textIn? locale domain id = some text ↔
      LastAdded locale domain id added text :=
    textIn?_ofAdded own fallbacks added
  have hlookup : ∀ {domain id locale : String},
      s.lookup? domain id locale =
        (locale :: fallbacks).findSome? fun l => s.textIn? l domain id := by
    intro domain id locale
    rw [← hfallbacks]
    rfl
  refine ⟨fun locale domain id text => ?_, fun id domain locale => ?_,
    fun id domain locale text hfirst => ?_, fun id domain locale hnone => ?_,
    fun id params domain locale others hdefines => ?_, fun c locale hne => ?_⟩
  · rw [← hown]
    exact hholds
  · rw [defines_iff, hown]
    simp only [hholds]
    exact exists_lastAdded_iff added
  · simp only [← hholds, firstOf_iff_findSome?, ← hlookup] at hfirst
    rw [translate_empty, hown, hfirst, Option.getD_some]
  · have hmissing : s.lookup? (domain.getD defaultDomain) id (locale.getD own) = none := by
      rw [hlookup, List.findSome?_eq_none_iff]
      intro l hl
      apply Option.eq_none_iff_forall_ne_some.2
      intro t ht
      have hdefined : s.defines id domain (some l) = true := (defines_iff s).2 ⟨t, ht⟩
      rw [hnone l hl] at hdefined
      cases hdefined
    rw [translate_empty, hown, hmissing, Option.getD_none]
  · obtain ⟨t, ht⟩ := (defines_iff s).1 hdefines
    have hsame : (ofAdded own others added).textIn? = s.textIn? := by
      unfold textIn?
      rw [catalogues_ofAdded own fallbacks added others]
    have hother : (ofAdded own others added).locale = s.locale :=
      (locale_ofAdded own others added).1.trans hown.symm
    rw [translate_eq, translate_eq, hother, lookup?_of_textIn? s ht,
      lookup?_of_textIn? (ofAdded own others added) (hsame ▸ ht)]
  · exact catalogue?_add_of_ne s c hne

/-- Catalogues of two locales, one of them added in two parts. -/
def greetings : List Addition :=
  [⟨"en", [("messages", "hi", "Hi"), ("messages", "hi", "Hello")]⟩,
    ⟨"fr", [("messages", "hi", "Salut")]⟩,
    ⟨"en", [("admin", "hi", "Howdy"), ("messages", "bye", "Bye")]⟩]

/-- The second part of the English catalogue writes `hi` in another domain, so `Hello` stays; a
store for German falls back on French first. -/
theorem holds_last_added_greetings :
    LastAdded "en" "messages" "hi" greetings "Hello" ∧
      (ofAdded "de" ["fr", "en"] greetings).defines "hi" none none = false ∧
      (ofAdded "de" ["fr", "en"] greetings).translate "hi" .empty none none = "Salut" ∧
      (ofAdded "de" ["fr", "en"] greetings).translate "so long" .empty none none = "so long" ∧
      (ofAdded "de" ["fr", "en"] greetings).translate "hi" .empty (some "admin") (some "en") =
        (ofAdded "de" [] greetings).translate "hi" .empty (some "admin") (some "en") ∧
      ((ofAdded "de" ["fr", "en"] greetings).add
        (.ofWritten "fr" [("messages", "hi", "Bonjour")])).catalogue? (some "en") =
        (ofAdded "de" ["fr", "en"] greetings).catalogue? (some "en") := by
  obtain ⟨hholds, -, hfirst, hnone, hfallbacks, hadd⟩ :=
    holds_last_added "de" ["fr", "en"] greetings
  refine ⟨(hholds (some "en") "messages" "hi" "Hello").1 (by decide +kernel), by decide +kernel,
    hfirst "hi" none none "Salut" ?_, hnone "so long" none none (by decide +kernel),
    (hfallbacks "hi" .empty (some "admin") (some "en") [] (by decide +kernel)).symm,
    hadd _ "en" (by decide +kernel)⟩
  have hgerman : ∀ t, ¬LastAdded "de" "messages" "hi" greetings t := by
    intro t ht
    obtain ⟨a, ha, hlocale, -⟩ := (exists_lastAdded_iff greetings).1 ⟨t, ht⟩
    simp only [greetings, List.mem_cons, List.not_mem_nil, or_false] at ha
    rcases ha with rfl | rfl | rfl <;> exact absurd hlocale (by decide)
  refine ⟨["de"], "fr", ["en"], rfl, (hholds (some "fr") "messages" "hi" "Salut").1
    (by decide +kernel), ?_⟩
  intro l hl
  rw [List.mem_singleton.1 hl]
  exact hgerman

end CatalogueStore

end Phrasebook
