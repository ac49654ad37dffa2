import Phrasebook.Message.Catalogue
import Phrasebook.Message.Fill
import Phrasebook.Message.Plural
import Phrasebook.Value

/-!
# Translators

A translator finds the text of a message in a locale and puts the parameters in.

* `Translator` : what templates ask of a translator;
* `CatalogueStore` : catalogues by locale, with locales to fall back on;
* `CatalogueStore.toTranslator` : the translator that looks messages up in a store.
-/

namespace Phrasebook

/-- What templates ask of a translator: the text for an id with its parameters, and whether the
locale itself has a text for it.  A domain or locale that is not given is for the translator to
choose. -/
structure Translator where
  locale : String
  translate : (id : String) → (params : Parameters) → (domain locale : Option String) → String
  defines : (id : String) → (domain locale : Option String) → Bool

/-- The text of a message with its parameters put in.  A count among them chooses the plural
form. -/
def Parameters.render (params : Parameters) (message locale : String) : String :=
  match (params.get? countParameter).bind Value.numberOfText? with
  | some count => params.fill (Plural.choose message count locale)
  | none => params.fill message

/-- Catalogues by locale, with the locale in use and those to fall back on. -/
structure CatalogueStore where
  locale : String
  fallbacks : List String
  catalogues : Dict Catalogue
deriving Inhabited

namespace CatalogueStore

def empty (locale : String) : CatalogueStore := ⟨locale, [], .empty⟩

/-- Adds a catalogue; its messages are written over those already held for its locale. -/
def add (s : CatalogueStore) (c : Catalogue) : CatalogueStore :=
  { s with
    catalogues := s.catalogues.insert c.locale (match s.catalogues.get? c.locale with
      | some held => held.merge c
      | none => c) }

/-- The catalogue of a locale; no locale means the one in use. -/
def catalogue? (s : CatalogueStore) (locale : Option String) : Option Catalogue :=
  s.catalogues.get? (locale.getD s.locale)

/-- The text of a message in the first of the given locale and the fallbacks that has one. -/
def lookup? (s : CatalogueStore) (domain id locale : String) : Option String :=
  (locale :: s.fallbacks).findSome? fun l => (s.catalogues.get? l).bind fun c => c.get? domain id

/-- The text for an id with its parameters; an id without a text stands for itself. -/
def translate (s : CatalogueStore) (id : String) (params : Parameters)
    (domain locale : Option String) : String :=
  let locale := locale.getD s.locale
  params.render ((s.lookup? (domain.getD defaultDomain) id locale).getD id) locale

/-- Whether the catalogue of the locale itself has a text for an id. -/
def defines (s : CatalogueStore) (id : String) (domain locale : Option String) : Bool :=
  match s.catalogue? locale with
  | some c => c.defines (domain.getD defaultDomain) id
  | none => false

def toTranslator (s : CatalogueStore) : Translator := ⟨s.locale, s.translate, s.defines⟩

end CatalogueStore

end Phrasebook
