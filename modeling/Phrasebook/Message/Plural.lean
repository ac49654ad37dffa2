import Phrasebook.Double.Text
import Phrasebook.Text.Classes

/-!
# Plural forms

A message with plural forms lists them between bars.  A form may be pinned to counts, as in
`{0} No apples`, or to an interval, as in `]1,Inf[ Many apples`; one that is not pinned may carry a
label, as in `one: An apple`.

* `Plural.Form.ofChars` : a part of a message as a form;
* `Plural.index` : the place of a count among the unpinned forms, by the language of a locale;
* `Plural.choose` : the first pinned form that admits the count, else the unpinned form in the place
  of the count.
-/

namespace Phrasebook

namespace Plural

/-- What a form is pinned to: some counts, or an interval with or without its ends. -/
inductive Pin where
  | counts (ns : List Double)
  | interval (withLeft : Bool) (left right : Double) (withRight : Bool)
deriving Repr, DecidableEq

def Pin.admits (count : Double) : Pin → Bool
  | .counts ns => ns.any fun n => n.equals count
  | .interval withLeft left right withRight =>
    (if withLeft then left.atMost count else left.below count) &&
      (if withRight then count.atMost right else count.below right)

/-- A plural form: pinned or not, with its text. -/
inductive Form where
  | pinned (pin : Pin) (text : List Char)
  | unpinned (text : List Char)
deriving Repr, DecidableEq

/-! ### Cutting text -/

/-- Cuts before the first character that satisfies `p`, which is kept apart. -/
def cutAt? (p : Char → Bool) (cs : List Char) : Option (List Char × Char × List Char) :=
  match cs.dropWhile fun c => !p c with
  | [] => none
  | c :: rest => some (cs.takeWhile (fun c => !p c), c, rest)

/-- A text without one white-space character at its start. -/
def dropOneSpace : List Char → List Char
  | [] => []
  | c :: cs => if Text.isSpace c then cs else c :: cs

/-! ### Pins -/

/-- Whether a text is a number as pins write it: an optional minus, digits of any script, and
optionally a point and more digits. -/
def isPinNumber (cs : List Char) : Bool :=
  let cs := match cs with
    | '-' :: cs => cs
    | cs => cs
  !(cs.takeWhile Text.isDecimalDigit).isEmpty &&
    match cs.dropWhile Text.isDecimalDigit with
    | [] => true
    | '.' :: fraction => !fraction.isEmpty && fraction.all Text.isDecimalDigit
    | _ => false

/-- The counts in braces at the start of a part, and the text after them. -/
def counts? (part : List Char) : Option (List (List Char) × List Char) :=
  match part.dropWhile Text.isSpace with
  | '\x7b' :: cs =>
    match cutAt? (· == '\x7d') cs with
    | some (inner, _, rest) =>
      let ns := (inner.splitOn ',').map Text.trim
      if ns.all isPinNumber then some (ns, dropOneSpace rest) else none
    | none => none
  | _ => none

def isBracket (c : Char) : Bool := c == '[' || c == ']'

/-- Whether a text is written as the left end of an interval. -/
def isLeftEnd (cs : List Char) : Bool := cs == "-Inf".toList || cs == "*".toList || isPinNumber cs

/-- Whether a text is written as the right end of an interval. -/
def isRightEnd (cs : List Char) : Bool :=
  cs == "Inf".toList || cs == "+Inf".toList || cs == "*".toList || isPinNumber cs

/-- The interval at the start of a part: its first bracket, its ends, its second bracket, and the
text after it. -/
def interval? (part : List Char) : Option (Char × List Char × List Char × Char × List Char) :=
  match part.dropWhile Text.isSpace with
  | opening :: cs =>
    if isBracket opening then
      match cutAt? isBracket cs with
      | some (inner, closing, rest) =>
        match (inner.splitOn ',').map Text.trim with
        | [left, right] =>
          if isLeftEnd left && isRightEnd right
            then some (opening, left, right, closing, dropOneSpace rest)
          else none
        | _ => none
      | none => none
    else none
  | [] => none

/-- The number at an end of an interval; an end that spells no number is open towards infinity. -/
def bound (negative : Bool) (cs : List Char) : Double :=
  (Double.ofChars? cs).getD (.infinite negative)

/-- A part without a leading label and the white space around it. -/
def dropLabel (part : List Char) : List Char :=
  let cs := part.dropWhile Text.isSpace
  match cs.dropWhile Text.isWordChar with
  | ':' :: rest =>
    if (cs.takeWhile Text.isWordChar).isEmpty then part else rest.dropWhile Text.isSpace
  | _ => part

def Form.ofChars (part : List Char) : Form :=
  match counts? part with
  | some (ns, text) => .pinned (.counts (ns.filterMap Double.ofChars?)) text
  | none =>
    match interval? part with
    | some (opening, left, right, closing, text) =>
      .pinned
        (.interval (opening == '[') (bound true left) (bound false right) (closing == ']')) text
    | none => .unpinned (dropLabel part)

/-! ### Choosing -/

/-- The text of a form if it is pinned and admits the count. -/
def Form.pinned? (count : Double) : Form → Option (List Char)
  | .pinned pin text => if pin.admits count then some text else none
  | .unpinned _ => none

def Form.unpinned? : Form → Option (List Char)
  | .pinned _ _ => none
  | .unpinned text => some text

/-- The language of a locale: what stands before the first underscore or hyphen. -/
def language (locale : String) : String :=
  .ofList (locale.toList.takeWhile fun c => !(c == '_' || c == '-'))

/-- Languages with a single form. -/
def singleFormLanguages : List String := ["ja", "ko", "zh", "th", "tr", "vi", "id", "ms"]

/-- Languages that use the first form for everything below two. -/
def belowTwoLanguages : List String := ["fr", "pt", "hy"]

/-- The place of a count among the unpinned forms. -/
def index (count : Double) (locale : String) : Nat :=
  let count := count.abs
  if singleFormLanguages.contains (language locale) then 0
  else if belowTwoLanguages.contains (language locale) then if count.below (.ofNat 2) then 0 else 1
  else if count.equals (.ofNat 1) then 0 else 1

/-- The form that a message uses for a count; a message without bars is used as it is. -/
def choose (message : String) (count : Double) (locale : String) : String :=
  let cs := message.toList
  if !cs.contains '|' then message
  else
    let forms := (cs.splitOn '|').map Form.ofChars
    match forms.findSome? (Form.pinned? count) with
    | some text => .ofList text
    | none =>
      let free := forms.filterMap Form.unpinned?
      match free[min (index count locale) (free.length - 1)]? with
      | some text => .ofList text
      | none => message

end Plural

end Phrasebook
