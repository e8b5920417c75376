import Dbml.Number.Shortest

/-!
# Written numbers

A binary64 number is written with its shortest digits, in positional notation
with at least one digit on either side of the point, or with one digit before
the point and a power of ten (`Decimal.scientific`). Which decimal exponents
are positional is the one thing that formats differ in (`Binary64.write`).
-/

namespace Dbml

namespace Decimal

/-- The exponent of the first digit. -/
def leading (d : Decimal) : Int := (Nat.repr d.digits).length - 1 + d.exponent

/-- Digits around a point, `120.0` or `0.012`. -/
def positional (d : Decimal) : String :=
  let digits := (Nat.repr d.digits).toList
  let point := digits.length + d.exponent
  let text :=
    if 0 ≤ d.exponent then digits ++ List.replicate d.exponent.toNat '0' ++ ['.', '0']
    else if 0 < point then digits.take point.toNat ++ '.' :: digits.drop point.toNat
    else '0' :: '.' :: (List.replicate (-point).toNat '0' ++ digits)
  String.ofList text

/-- One digit, the others after a point, and a signed exponent: `1.5e-7`. -/
def scientific (d : Decimal) : String :=
  let significand :=
    match (Nat.repr d.digits).toList with
    | [] => []
    | [digit] => [digit]
    | first :: rest => first :: '.' :: rest
  let sign := if d.leading < 0 then "e-" else "e+"
  String.ofList significand ++ sign ++ Nat.repr d.leading.natAbs

end Decimal

namespace Binary64

/-- The shortest digits of `x`, positional where the exponent of the first one
is `isPositional`. -/
def write (isPositional : Int → Bool) (x : Binary64) : String :=
  let d := x.shortest
  let text := if isPositional d.leading then d.positional else d.scientific
  if x.negative then "-" ++ text else text

/-- Positional at any size. -/
def writePositional : Binary64 → String := write fun _ => true

/-- Positional from `0.00001` up to below `10 ^ 16`. -/
def writeBounded : Binary64 → String := write fun e => -5 ≤ e ∧ e < 16

end Binary64

end Dbml
