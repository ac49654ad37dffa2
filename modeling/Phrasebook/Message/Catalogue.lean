import Phrasebook.Dict

/-!
# Catalogues

The messages of one locale, by domain and id.

* `Catalogue.set`, `Catalogue.get?` : write and look up one message;
* `Catalogue.merge` : all messages of a second catalogue written over the first.
-/

namespace Phrasebook

/-- The domain of messages that name none. -/
def defaultDomain : String := "messages"

/-- The messages of a locale: in every domain, the text of every id. -/
structure Catalogue where
  locale : String
  messages : Dict (Dict String)
deriving Inhabited

namespace Catalogue

def empty (locale : String) : Catalogue := ⟨locale, .empty⟩

/-- The messages of a domain, if any was ever set in it. -/
def all? (c : Catalogue) (domain : String) : Option (Dict String) := c.messages.get? domain

def set (c : Catalogue) (domain id text : String) : Catalogue :=
  { c with messages := c.messages.insert domain (((c.all? domain).getD .empty).insert id text) }

def get? (c : Catalogue) (domain id : String) : Option String :=
  (c.all? domain).bind fun d => d.get? id

def defines (c : Catalogue) (domain id : String) : Bool := (c.get? domain id).isSome

/-- All messages, as domain, id and text, in order. -/
def toList (c : Catalogue) : List (String × String × String) :=
  c.messages.entries.flatMap fun d => d.2.entries.map fun e => (d.1, e.1, e.2)

def merge (c other : Catalogue) : Catalogue :=
  other.toList.foldl (fun c m => c.set m.1 m.2.1 m.2.2) c

end Catalogue

end Phrasebook
