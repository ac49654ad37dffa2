import Phrasebook.Error
import Phrasebook.Message.Localizer
import Phrasebook.Text.Casing

/-!
# Filters

* `Filter.apply` : what a filter makes of a value and its arguments, all of them evaluated.
-/

namespace Phrasebook

namespace Filter

/-- The argument at `i` as parameters, which must be a hash; a missing or null argument is no
parameters. -/
def parametersAt (args : List Value) (i : Nat) (line : Nat) : Except Error Parameters :=
  match args[i]? with
  | none | some .null => .ok .empty
  | some (.map es) => .ok (.ofList (es.map fun e => (e.1, e.2.text)))
  | some other => .error (.argument (.notParameters other.text) line)

/-- The argument at `i` as a string; a missing or null argument is none. -/
def stringAt (args : List Value) (i : Nat) (line : Nat) : Except Error (Option String) :=
  match args[i]? with
  | none | some .null => .ok none
  | some (.string s) => .ok (some s)
  | some other => .error (.argument (.notString other.text) line)

/-- The `trans` filter: its arguments are parameters, domain and locale. -/
def trans (l : Localizer) (locale : Option String) (operand : Value) (args : List Value)
    (line : Nat) :
    Except Error Value := do
  let params ← parametersAt args 0 line
  let domain ← stringAt args 1 line
  let named ← stringAt args 2 line
  return .string (l.trans operand.text params domain (named.or locale))

/-- What a filter makes of a value.  `locale` is the locale for messages that name none. -/
def apply (l : Localizer) (locale : Option String) (name : String) (operand : Value)
    (args : List Value) (line : Nat) : Except Error Value :=
  if name = "trans" then trans l locale operand args line
  else if name = "replace" then do
    let params ← parametersAt args 0 line
    return .string (params.fill operand.text)
  else if name = "desc" then .ok (l.desc operand)
  else if name = "meaning" then .ok (l.meaning operand)
  else if name = "upper" then .ok (.string (Text.upper operand.text))
  else if name = "lower" then .ok (.string (Text.lower operand.text))
  else .error (.unknownFilter name line)

/-- The choice between a message and its default: the arguments are message, default, parameters,
domain and locale. -/
def choice (l : Localizer) (locale : Option String) (args : List Value) (line : Nat) :
    Except Error Value :=
  match args with
  | message :: default :: _ => do
    let params ← parametersAt args 2 line
    let domain ← stringAt args 3 line
    let named ← stringAt args 4 line
    return .string (l.choiceWithDefault message.text default.text params domain (named.or locale))
  | _ => .error (.argument .choiceIncomplete line)

end Filter

end Phrasebook
