import Phrasebook.Message.Catalogue
import Phrasebook.Json.Decode
import Phrasebook.Json.Parser

/-!
# Configuration

* `Config.parse` : a configuration from JSON text; fields that are not given keep their defaults;
* `Config.ofBytes` : a configuration from the bytes of a file;
* `Config.toJson` : a configuration as a record.
-/

namespace Phrasebook

/-- How templates are compiled and rendered: whether default messages are put in, the domain of
messages that name none, and the locale, if it is not left to the translator. -/
structure Config where
  debug : Bool := false
  defaultDomain : String := Phrasebook.defaultDomain
  locale : Option String := none
deriving DecidableEq, Repr, Inhabited

namespace Config

/-- The locale that a field names; null names none. -/
def localeOf? : Json → Option (Option String)
  | .null => some none
  | j => j.text?.map some

def ofJson? (j : Json) : Option Config := do
  let [debug, domain, locale] ← j.fields? ["debug", "defaultDomain", "locale"] | none
  let debug ← debug.elim (some false) Json.bool?
  let domain ← domain.elim (some Phrasebook.defaultDomain) Json.text?
  let locale ← locale.elim (some none) localeOf?
  return ⟨debug, domain, locale⟩

def parse (s : String) : Option Config := (Json.parse s).bind ofJson?

def toJson (c : Config) : Json :=
  .ofMembers [("debug", .bool c.debug), ("defaultDomain", .text c.defaultDomain),
    ("locale", c.locale.elim .null .text)]

inductive FileFault where
  | unreadable (path : String)
  | malformed (path : String)
deriving DecidableEq, Repr

/-- The wording of why there is no configuration at a place. -/
def FileFault.message : FileFault → String
  | .unreadable path => "failed to read compiler config " ++ path
  | .malformed path => "failed to parse compiler config " ++ path

/-- The configuration in the file at `path`, which holds the given bytes if it exists. -/
def ofBytes (path : String) (bytes : Option ByteArray) : Except FileFault Config :=
  match bytes.bind String.fromUTF8? with
  | none => .error (.unreadable path)
  | some s =>
    match parse s with
    | some c => .ok c
    | none => .error (.malformed path)

end Config

end Phrasebook
