import Dbml.Json.Malformed
import Dbml.Json.Value

/-!
# Number literals

A literal is read by its grammar first (`Literal.scan`) and has a value only
where that is asked for (`Literal.value?`). An integer literal of a 64-bit word
is that integer. Any other literal is a binary64 number, in three steps that
each may round: the digits that fit an unsigned word are the significand, which
is rounded to a binary64 number, and this is multiplied or divided by the
nearest number to a power of ten.
-/

namespace Dbml.Json

/-- A number as it is written: the digits before and after the point, and the
power of ten. -/
structure Literal where
  negative : Bool
  whole : List Nat
  fraction : List Nat
  exponent : Option Int
  deriving DecidableEq, Repr

namespace Literal

def digitValue (c : Char) : Nat := c.toNat - 48

/-- The digits at the start of a text, and what follows them. -/
def takeDigits (cs : List Char) : List Nat × List Char :=
  ((cs.takeWhile Char.isDigit).map digitValue, cs.dropWhile Char.isDigit)

/-- The natural that digits denote. -/
def ofDigits (digits : List Nat) : Nat := digits.foldl (fun n d => 10 * n + d) 0

/-- A digit was due at the start of `cs`. -/
def noDigit (cs : List Char) : Broken :=
  ⟨if cs.isEmpty then .cutValue else .badNumber, .badNumber⟩

/-- Digits before the point: a zero stands alone. -/
def scanWhole (cs : List Char) : Except Broken (List Nat × List Char) :=
  match takeDigits cs with
  | ([], _) => .error (noDigit cs)
  | (0 :: _ :: _, _) => .error (.either .badNumber)
  | (digits, rest) => .ok (digits, rest)

def scanFraction : List Char → Except Broken (List Nat × List Char)
  | '.' :: cs =>
    match takeDigits cs with
    | ([], _) => .error (noDigit cs)
    | (digits, rest) => .ok (digits, rest)
  | cs => .ok ([], cs)

/-- Whether an exponent is negative, and what follows its sign. -/
def exponentSign : List Char → Bool × List Char
  | '-' :: cs => (true, cs)
  | '+' :: cs => (false, cs)
  | cs => (false, cs)

def scanExponent : List Char → Except Broken (Option Int × List Char)
  | [] => .ok (none, [])
  | c :: cs =>
    if c = 'e' ∨ c = 'E' then
      let (negative, cs) := exponentSign cs
      match takeDigits cs with
      | ([], _) => .error (noDigit cs)
      | (digits, rest) =>
        let size : Int := ofDigits digits
        .ok (some (if negative then -size else size), rest)
    else .ok (none, c :: cs)

/-- Reads a literal at the start of a text. -/
def scan (cs : List Char) : Except Broken (Literal × List Char) := do
  let (negative, cs) := match cs with
    | '-' :: rest => (true, rest)
    | _ => (false, cs)
  let (whole, cs) ← scanWhole cs
  let (fraction, cs) ← scanFraction cs
  let (exponent, cs) ← scanExponent cs
  return (⟨negative, whole, fraction, exponent⟩, cs)

/-- Extends `n` by digits while it fits an unsigned word; the digits left are
returned with it. -/
def fill (n : Nat) : List Nat → Nat × List Nat
  | [] => (n, [])
  | d :: digits =>
    if 10 * n + d < 0x10000000000000000 then fill (10 * n + d) digits else (n, d :: digits)

/-- The largest power of ten below the range of binary64. -/
def maxPower : Nat := 308

/-- Divides by a power of ten, by the largest one as often as needed. -/
def divPow (x : Binary64) (power : Nat) : Option Binary64 :=
  if power ≤ maxPower then x.div (.powTen power)
  else if x.significand = 0 then some x
  else (x.div (.powTen maxPower)).bind (divPow · (power - maxPower))
termination_by power
decreasing_by simp [maxPower] at *; omega

/-- The number `significand * 10 ^ exponent`, rounded after each step. -/
def float (negative : Bool) (significand : Nat) (exponent : Int) : Option Binary64 :=
  (Binary64.round negative significand 1).bind fun x =>
    if exponent < 0 then divPow x exponent.natAbs
    else if exponent.natAbs ≤ maxPower then x.mul (.powTen exponent.natAbs)
    else if significand = 0 then some x
    else none

/-- The value of a literal; `none` for one beyond the range of binary64. -/
def value? (l : Literal) : Option Number :=
  let (significand, uncounted) := fill 0 l.whole
  let signed : Int := if l.negative then -significand else significand
  if l.fraction.isEmpty ∧ l.exponent.isNone ∧ uncounted.isEmpty ∧ Number.IsWord signed ∧
      ¬ (l.negative ∧ significand = 0) then
    some (.integer signed)
  else
    let (significand, unread) := fill significand l.fraction
    let places : Int := l.fraction.length - unread.length
    (float l.negative significand (uncounted.length - places + l.exponent.getD 0)).map .float

end Literal

end Dbml.Json
