import Phrasebook.Message.Translator
import Phrasebook.Text.Quoted

/-!
# Localizers

A localizer is a translator together with the domain that is meant where none is named, and with the
choice whether default messages are put in while templates are compiled.

* `Localizer.trans` : the text of a message;
* `Localizer.choiceWithDefault` : the text of a message, or of its default where the locale itself
  has no text for it.
-/

namespace Phrasebook

/-- A translator with a default domain; `debug` asks for default messages. -/
structure Localizer where
  translator : Translator
  debug : Bool
  defaultDomain : String := Phrasebook.defaultDomain

namespace Localizer

/-- The name under which a localizer is known to templates. -/
def name : String := "translation"

def trans (l : Localizer) (message : String) (params : Parameters) (domain locale : Option String) :
    String :=
  l.translator.translate message params (some (domain.getD l.defaultDomain)) locale

/-- The text of a message if the locale has one for it, else the text of the default. -/
def choiceWithDefault (l : Localizer) (message default : String) (params : Parameters)
    (domain locale : Option String) : String :=
  let domain := some (domain.getD l.defaultDomain)
  if l.translator.defines message domain locale
    then l.translator.translate message params domain locale
  else l.translator.translate default params domain locale

/-- A note on a message for those who translate it: it leaves the value as it is. -/
def desc (_ : Localizer) (value : Value) : Value := value

/-- A note on what a message means: it leaves the value as it is. -/
def meaning (_ : Localizer) (value : Value) : Value := value

def summary (l : Localizer) : String :=
  "TranslationExtension \x7b locale: " ++ Text.quoted l.translator.locale ++ ", debug: " ++
    toString l.debug ++
    ", default_domain: " ++ Text.quoted l.defaultDomain ++ " \x7d"

end Localizer

end Phrasebook
