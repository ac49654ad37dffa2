/-!
# Double-precision numbers

Numbers are held exactly.  A magnitude is named by its *rank*: the magnitudes are counted from zero
upwards, and the last one is infinity, so comparing ranks compares magnitudes.

* `Double.units r` : what rank `r` is worth, in steps of the smallest positive magnitude
  (`2 ^ -places`, with 1074 places);
* `Double.nearestRank num den` : the rank nearest to `num / den`, a tie going to the even rank;
* `Double.equals`, `Double.below`, `Double.atMost` : comparison of numbers, in which the two zeros
  are one and "not a number" compares with nothing.
-/

namespace Phrasebook

/-- The number of ranks from one power of two to the next. -/
abbrev Double.binade : Nat := Nat.pow 2 52

abbrev Double.topRank : Nat := 2047 * binade

/-- A double-precision number: not a number, or a sign and the rank of a magnitude. -/
inductive Double where
  | nan
  | ranked (negative : Bool) (rank : Fin (Double.topRank + 1))
deriving DecidableEq, Repr, Inhabited

namespace Double

/-! ### Ranks -/

/-- The number of binary places behind the point. -/
def places : Nat := 1074

/-- The worth of a finite rank in steps of `2 ^ -places`. -/
def units (rank : Nat) : Nat :=
  if rank < binade then rank else (binade + rank % binade) * Nat.pow 2 (rank / binade - 1)

/-- One, in steps of `2 ^ -places`. -/
abbrev unitsPerOne : Nat := Nat.pow 2 places

/-- The whole number nearest to `num / den`, a half going to the even neighbour. -/
def roundHalfEven (num den : Nat) : Nat :=
  let below := num / den
  let twiceRest := 2 * (num % den)
  if twiceRest < den then below
  else if den < twiceRest then below + 1
  else below + below % 2

/-- The rank nearest to `num / den`.  A rank has 53 significant bits, and rounding up past the last
of them lands on the next rank of its own accord. -/
def nearestRank (num den : Nat) : Nat :=
  let scaled := num * unitsPerOne
  let drop := Nat.log2 (scaled / den) - 52
  min (drop * binade + roundHalfEven scaled (den * Nat.pow 2 drop)) topRank

/-! ### Building numbers -/

/-- The number with the given sign and rank; a rank past the last one is infinity. -/
def ofRank (negative : Bool) (rank : Nat) : Double :=
  .ranked negative ⟨min rank topRank, by omega⟩

def zero : Double := ofRank false 0

def infinite (negative : Bool) : Double := ofRank negative topRank

def ofNat (n : Nat) : Double := ofRank false (nearestRank n 1)

def ofInt (i : Int) : Double := ofRank (i < 0) (nearestRank i.natAbs 1)

def abs : Double → Double
  | .nan => .nan
  | .ranked _ r => .ranked false r

/-! ### Comparison -/

/-- The place of a number on the line of ranks; both zeros stand at `0`. -/
def place? : Double → Option Int
  | .nan => none
  | .ranked false r => some r.val
  | .ranked true r => some (-(r.val : Int))

def equals (a b : Double) : Bool :=
  match a.place?, b.place? with
  | some x, some y => x == y
  | _, _ => false

theorem equals_comm (x y : Double) : x.equals y = y.equals x := by
  unfold equals
  cases x.place? with
  | none => cases y.place? <;> rfl
  | some i =>
    cases y.place? with
    | none => rfl
    | some j => exact Bool.beq_comm

def below (a b : Double) : Bool :=
  match a.place?, b.place? with
  | some x, some y => x < y
  | _, _ => false

def atMost (a b : Double) : Bool :=
  match a.place?, b.place? with
  | some x, some y => x ≤ y
  | _, _ => false

/-! ### Whole numbers -/

def isWhole : Double → Bool
  | .nan => false
  | .ranked _ r => r.val < topRank && units r % unitsPerOne == 0

/-- The whole part of the magnitude, for a finite number. -/
def wholePart : Double → Nat
  | .nan => 0
  | .ranked _ r => units r / unitsPerOne

/-- Whether the number stands left of zero or is the negative zero. -/
def isNegative : Double → Bool
  | .nan => false
  | .ranked negative _ => negative

/-- Whether the number is neither infinite nor "not a number". -/
def isFinite : Double → Bool
  | .nan => false
  | .ranked _ r => r.val < topRank

end Double

end Phrasebook
