import Phrasebook.Double

/-!
# Decimals

A decimal is a whole coefficient times a power of ten: what number text spells out.

* `Decimal.rank` : the rank nearest to a decimal;
* `Double.shortest` : a decimal with the fewest digits among those that read back as a given rank,
  and of those the nearest to it.
-/

namespace Phrasebook

structure Decimal where
  coeff : Nat
  exp : Int
deriving DecidableEq, Repr, Inhabited

namespace Decimal

/-- The decimal written as the digits `whole`, a point and the digits `fraction`, times
`10 ^ exp`. -/
def ofDigits (whole fraction : List Char) (exp : Int) : Decimal :=
  ⟨Nat.ofDigitChars 10 (whole ++ fraction) 0, exp - fraction.length⟩

/-- The rank nearest to a decimal.  Powers of ten past either end of the range are answered without
being worked out. -/
def rank (d : Decimal) : Nat :=
  if d.coeff = 0 then 0
  else if 400 < d.exp then Double.topRank
  else if d.exp + Nat.log2 d.coeff < -400 then 0
  else Double.nearestRank (d.coeff * Nat.pow 10 d.exp.toNat) (Nat.pow 10 (-d.exp).toNat)

/-- The number nearest to a decimal with a sign. -/
def toDouble (d : Decimal) (negative : Bool) : Double := .ofRank negative d.rank

end Decimal

namespace Double

/-- Which of two equally near decimals is written. -/
inductive TieRule where
  | upward
  | toEven
deriving DecidableEq, Repr

/-- On the grid of multiples of `10 ^ exp`, the neighbour of rank `r` that reads back as `r`: of two
such neighbours the nearer one, and of two equally near ones the one that `tie` picks. -/
def gridHit? (tie : TieRule) (r : Nat) (exp : Int) : Option Decimal :=
  let num := units r * Nat.pow 10 (-exp).toNat
  let den := unitsPerOne * Nat.pow 10 exp.toNat
  let low : Decimal := ⟨num / den, exp⟩
  let high : Decimal := ⟨num / den + 1, exp⟩
  let twiceRest := 2 * (num % den)
  match low.rank == r, high.rank == r with
  | false, false => none
  | true, false => some low
  | false, true => some high
  | true, true =>
    if twiceRest < den then some low
    else if den < twiceRest then some high
    else match tie with
      | .upward => some high
      | .toEven => some (if num / den % 2 = 0 then low else high)

/-- Tries the grids from `10 ^ exp` down, `steps` of them. -/
def firstHit? (tie : TieRule) (r : Nat) : Nat → Int → Option Decimal
  | 0, _ => none
  | steps + 1, exp => (gridHit? tie r exp).orElse fun _ => firstHit? tie r steps (exp - 1)

/-- The shortest decimal that reads back as the finite rank `r`.  The coarsest grid that holds one
is looked for from above the magnitude down; all digits of the exact worth stand by should no grid
have a hit. -/
def shortest (tie : TieRule) (r : Nat) : Decimal :=
  if r = 0 then ⟨0, 0⟩
  else
    let above := ((Nat.log2 (units r) : Int) - places) * 30103 / 100000 + 2
    (firstHit? tie r 24 above).getD ⟨units r * Nat.pow 5 places, -(places : Int)⟩

end Double

end Phrasebook
