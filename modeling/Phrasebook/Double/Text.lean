import Phrasebook.Double.Decimal

/-!
# Number text

How numbers are read from text and written to it.

* `Double.ofText?` : a sign, then `inf`, `infinity` or `nan` in any case, or digits with at most one
  point and an optional exponent;
* `Double.text` : the shortest digits that read back, written out without an exponent;
* `Double.label` : whole numbers below `10 ^ 15` without a sign for the negative zero, all others as
  `Double.text`;
* `Double.pointedChars` : the shortest digits, with a point always and an exponent outside `10 ^ -5`
  to `10 ^ 16`.
-/

namespace Phrasebook

namespace Double

/-! ### Reading -/

/-- A leading sign and what follows it. -/
def splitSign : List Char → Bool × List Char
  | '+' :: cs => (false, cs)
  | '-' :: cs => (true, cs)
  | cs => (false, cs)

/-- The exponent that ends a number; no text at all stands for zero. -/
def exponent? : List Char → Option Int
  | [] => some 0
  | c :: cs =>
    let (negative, digits) := splitSign cs
    if (c = 'e' ∨ c = 'E') ∧ digits ≠ [] ∧ digits.all Char.isDigit then
      let size := Nat.ofDigitChars 10 digits 0
      some (if negative then -(size : Int) else size)
    else none

/-- The digits after a point, and what follows them; without a point there are none. -/
def splitFraction : List Char → List Char × List Char
  | '.' :: cs => (cs.takeWhile Char.isDigit, cs.dropWhile Char.isDigit)
  | cs => ([], cs)

/-- An unsigned decimal: digits on at least one side of the point. -/
def unsigned? (cs : List Char) : Option Decimal :=
  let whole := cs.takeWhile Char.isDigit
  let (fraction, rest) := splitFraction (cs.dropWhile Char.isDigit)
  if whole.isEmpty && fraction.isEmpty then none
  else (exponent? rest).map (Decimal.ofDigits whole fraction)

/-- The number that a whole text spells, if it spells one. -/
def ofChars? (cs : List Char) : Option Double :=
  let (negative, body) := splitSign cs
  let word := body.map Char.toLower
  if word = "inf".toList ∨ word = "infinity".toList then some (infinite negative)
  else if word = "nan".toList then some .nan
  else (unsigned? body).map (·.toDouble negative)

def ofText? (s : String) : Option Double := ofChars? s.toList

/-! ### Writing -/

def zeros (n : Nat) : List Char := List.replicate n '0'

/-- The digits of a decimal written out without an exponent. -/
def positional (d : Decimal) : List Char :=
  let digits := Nat.toDigits 10 d.coeff
  match d.exp with
  | .ofNat n => if d.coeff = 0 then digits else digits ++ zeros n
  | .negSucc n =>
    let places := n + 1
    let padded := zeros (places + 1 - digits.length) ++ digits
    padded.take (padded.length - places) ++ '.' :: padded.drop (padded.length - places)

def signChars (negative : Bool) : List Char := if negative then ['-'] else []

/-- The number in full, without an exponent. -/
def chars : Double → List Char
  | .nan => "NaN".toList
  | .ranked negative r =>
    signChars negative ++
      if r.val = topRank then "inf".toList else positional (shortest .upward r)

def text (x : Double) : String := .ofList x.chars

/-- Whether the number is written as a plain integer in labels: whole and below `10 ^ 15` in
magnitude. -/
def isShortWhole (x : Double) : Bool := x.isWhole && x.wholePart < Nat.pow 10 15

/-- The number as it is shown in expressions and rendered text: integers plain, the negative zero as
`0`. -/
def labelChars (x : Double) : List Char :=
  if x.isShortWhole then
    signChars (x.isNegative && x.wholePart != 0) ++ Nat.toDigits 10 x.wholePart
  else x.chars

/-- The number as it is shown in expressions and rendered text: integers plain, the negative zero as
`0`. -/
def label (x : Double) : String := .ofList x.labelChars

def intChars (i : Int) : List Char := signChars (i < 0) ++ Nat.toDigits 10 i.natAbs

/-- A decimal with a point always, and with an exponent when the point would stand more than 16
places after the first digit or more than 4 zeros before it. -/
def pointed (d : Decimal) : List Char :=
  let digits := Nat.toDigits 10 d.coeff
  let point : Int := digits.length + d.exp
  if d.coeff = 0 then "0.0".toList
  else if -5 < point ∧ point ≤ 16 then
    if 0 ≤ d.exp then positional d ++ ".0".toList else positional d
  else
    let mantissa := match digits with
      | [] => []
      | [c] => [c]
      | c :: cs => c :: '.' :: cs
    mantissa ++ 'e' :: intChars (point - 1)

/-- A finite number with a point or an exponent, so that it never looks like an integer. -/
def pointedChars (negative : Bool) (rank : Nat) : List Char :=
  signChars negative ++ pointed (shortest .toEven rank)

end Double

end Phrasebook
