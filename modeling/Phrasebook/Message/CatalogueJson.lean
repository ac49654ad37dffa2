import Phrasebook.Message.Catalogue
import Phrasebook.Json.Decode
import Phrasebook.Json.Parser

/-!
# Catalogues in JSON

* `Catalogue.ofMessages` : a catalogue from an object of domains, each an object of ids and texts;
* `Catalogue.toJson`, `Catalogue.parseJson` : a catalogue as a record of locale and messages.
-/

namespace Phrasebook

namespace Catalogue

/-- The entries of an object, with a reading for its values; of equal names the last one counts. -/
def dictOf? {α : Type} (value? : Json → Option α) : Json → Option (Dict α)
  | .object members => do
    let entries ← members.mapM fun e => do
      let k ← e.1
      let v ← value? e.2
      return (k, v)
    return .ofList entries
  | _ => none

def messagesOf? : Json → Option (Dict (Dict String)) := dictOf? (dictOf? Json.text?)

/-- The catalogue of a locale from the JSON text of its messages. -/
def ofMessages (locale : String) (s : String) : Option Catalogue := do
  let j ← Json.parse s
  return ⟨locale, ← messagesOf? j⟩

def toJson (c : Catalogue) : Json :=
  .ofMembers [("locale", .text c.locale),
    ("messages", .ofMembers (c.messages.entries.map fun d =>
      (d.1, .ofMembers (d.2.entries.map fun e => (e.1, .text e.2)))))]

def parseJson (s : String) : Option Catalogue := do
  let j ← Json.parse s
  let [some locale, some messages] ← j.fields? ["locale", "messages"] | none
  return ⟨← locale.text?, ← messagesOf? messages⟩

end Catalogue

end Phrasebook
