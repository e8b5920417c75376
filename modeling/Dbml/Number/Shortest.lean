import Dbml.Number.Binary64

/-!
# The shortest decimal of a binary64 number

Of the decimals that lie in the interval of reals rounding to a number, the
ones with the fewest digits are its short forms, and the nearest of these is
written (`Binary64.shortest`). A decimal is a natural times a power of ten
(`Decimal`). The ends of the interval belong to it iff the significand is even.
-/

namespace Dbml

/-- The number `digits * 10 ^ exponent`. -/
structure Decimal where
  digits : Nat
  exponent : Int
  deriving DecidableEq, Repr

namespace Binary64

/-- The reals that round to a positive number, as naturals in units of one
half or one quarter of its last place: `lower ≤ value ≤ upper`, over `scale`. -/
structure Interval where
  lower : Nat
  value : Nat
  upper : Nat
  scale : Nat
  closed : Bool

/-- Half a last place on either side; below a power of two only a quarter, for
there the next lower number is nearer. -/
def interval (x : Binary64) : Interval :=
  let below := if x.significand = leastFull ∧ minExponent < x.exponent then 1 else 2
  let (unit, den) := scaleBy 2 1 1 x.exponent
  { lower := (4 * x.significand - below) * unit
    value := 4 * x.significand * unit
    upper := (4 * x.significand + 2) * unit
    scale := 4 * den
    closed := x.significand % 2 = 0 }

/-- Whether `digits * 10 ^ exponent` lies in the interval. -/
def Interval.contains (i : Interval) (d : Decimal) : Bool :=
  let (num, den) := scaleBy 10 (d.digits * i.scale) 1 d.exponent
  if i.closed then i.lower * den ≤ num ∧ num ≤ i.upper * den
  else i.lower * den < num ∧ num < i.upper * den

/-- The two neighbours of the value among the multiples of `10 ^ exponent`, the
nearer first; of two equally near the even one. -/
def Interval.neighbours (i : Interval) (exponent : Int) : List Decimal :=
  let (num, den) := scaleBy 10 i.value i.scale (-exponent)
  let nearest := roundDiv num den
  let other := if nearest * den ≤ num then nearest + 1 else nearest - 1
  [⟨nearest, exponent⟩, ⟨other, exponent⟩]

/-- The decimal exponent of the first digit of a positive fraction. -/
def leadingExponent (num den : Nat) : Int :=
  let guess : Int := ((num.log2 : Int) - den.log2) * 30103 / 100000
  let atLeast (e : Int) : Bool :=
    let (n, d) := scaleBy 10 1 1 e
    n * den ≤ num * d
  if atLeast (guess + 1) then guess + 1 else if atLeast guess then guess else guess - 1

/-- The first hit among the grids of ever finer decimals from `exponent` down. -/
def Interval.search (i : Interval) (exponent : Int) : Nat → Decimal
  | 0 => ⟨0, 0⟩
  | grids + 1 =>
    match (i.neighbours exponent).find? i.contains with
    | some d => d
    | none => i.search (exponent - 1) grids

/-- The decimal with the fewest digits that reads back as the absolute value of
`x`, and of those the nearest. -/
def shortest (x : Binary64) : Decimal :=
  if x.significand = 0 then ⟨0, 0⟩ else
    let i := x.interval
    i.search (leadingExponent i.value i.scale + 1) 19

end Binary64

end Dbml
