/-!
# Finite binary64 numbers

A finite number of the 64-bit binary format is a sign and a natural
significand times a power of two (`Binary64`), in the one form that the format
stores: at most 53 bits, and as many of them as the least exponent allows.
Arithmetic is exact on naturals and rounds once, to the nearest number and to
the even one of two (`Binary64.round`); a result beyond the largest number is
`none`.
-/

namespace Dbml

/-- The natural nearest to `num / den`, the even one of two. -/
def roundDiv (num den : Nat) : Nat :=
  let quotient := num / den
  let twice := 2 * (num % den)
  if twice < den ∨ (twice = den ∧ quotient % 2 = 0) then quotient else quotient + 1

/-- The fraction `num / den` times a power of `base`. -/
def scaleBy (base num den : Nat) (exponent : Int) : Nat × Nat :=
  if 0 ≤ exponent then (num * base.pow exponent.toNat, den)
  else (num, den * base.pow (-exponent).toNat)

/-- The number `significand * 2 ^ exponent`, negated if `negative`. -/
structure Binary64 where
  negative : Bool
  significand : Nat
  exponent : Int
  deriving DecidableEq, Repr, Inhabited

namespace Binary64

/-- The bits of a significand. -/
def precision : Nat := 53

/-- The least significand of full precision, a power of two. -/
def leastFull : Nat := 0x10000000000000

/-- The exponent of the least positive number. -/
def minExponent : Int := -1074

/-- The exponent of the largest numbers. -/
def maxExponent : Int := 971

/-- Zero, which keeps a sign. -/
def zero (negative : Bool) : Binary64 := ⟨negative, 0, minExponent⟩

/-- The exponent in whose units `num / den` has `precision` bits before the
point, or the least exponent where that would be lower. -/
def unitExponent (num den : Nat) : Int :=
  let guess : Int := (num.log2 : Int) - den.log2 - precision
  let (n, d) := scaleBy 2 num den (-(guess + 1))
  max minExponent (if n / d < leastFull then guess else guess + 1)

/-- The number nearest to `num / den`; `none` where that is beyond the largest
number. -/
def round (negative : Bool) (num den : Nat) : Option Binary64 :=
  if num = 0 then some (zero negative) else
    let exponent := unitExponent num den
    let (n, d) := scaleBy 2 num den (-exponent)
    let significand := roundDiv n d
    let (significand, exponent) :=
      if significand = 2 * leastFull then (leastFull, exponent + 1)
      else (significand, exponent)
    if maxExponent < exponent then none else some ⟨negative, significand, exponent⟩

/-- The absolute value as a fraction of naturals. -/
def fraction (x : Binary64) : Nat × Nat := scaleBy 2 x.significand 1 x.exponent

/-- The number nearest to a power of ten. -/
def powTen (k : Nat) : Binary64 := (round false (Nat.pow 10 k) 1).getD (zero false)

/-- The product's sign is that of `x`: the factor is positive. -/
def mul (x y : Binary64) : Option Binary64 :=
  let (a, b) := x.fraction
  let (c, d) := y.fraction
  round x.negative (a * c) (b * d)

/-- The quotient's sign is that of `x`: the divisor is positive. -/
def div (x y : Binary64) : Option Binary64 :=
  let (a, b) := x.fraction
  let (c, d) := y.fraction
  round x.negative (a * d) (b * c)

end Binary64

end Dbml
