/-!
Binary numbers with a significand of 53 bits, held as exact integers. Arithmetic is done on the
exact values and rounded once, to the nearest representable number and to the even one of two
neighbours. Nothing here depends on the machine's floating point unit.
-/
namespace Rubric.Decimal

/-- A number `(-1)^negative * significand * 2^exponent`, an infinity, or no number at all. -/
inductive Binary64 where
  | finite (negative : Bool) (significand : Nat) (exponent : Int)
  | infinite (negative : Bool)
  | notANumber
deriving Repr, DecidableEq

def twoTo (exponent : Nat) : Nat := Nat.pow 2 exponent

def tenTo (exponent : Nat) : Nat := Nat.pow 10 exponent

inductive Tie where
  | even
  | up
deriving Repr, DecidableEq

def roundQuotient (tie : Tie) (num den : Nat) : Nat :=
  let quotient := num / den
  let twice := 2 * (num % den)
  if twice < den then quotient
  else if den < twice then quotient + 1
  else if tie = .even ∧ quotient % 2 = 0 then quotient
  else quotient + 1

/-- `num / den / 2^exponent`, as a quotient of integers. -/
def shiftQuotient (num den : Nat) (exponent : Int) : Nat × Nat :=
  if 0 ≤ exponent then (num, den * twoTo exponent.toNat)
  else (num * twoTo (-exponent).toNat, den)

namespace Binary64

def minExponent : Int := -1074

def maxExponent : Int := 971

/-- Exponent at which a positive quotient has 53 bits, or the least one when it is too small. -/
def exponentOf (num den : Nat) : Int :=
  let estimate : Int := (num.log2 : Int) - (den.log2 : Int) - 52
  let scaled := shiftQuotient num den estimate
  let exponent := if scaled.1 / scaled.2 < twoTo 52 then estimate - 1 else estimate
  max exponent minExponent

/-- The representable number nearest to a quotient, infinite when the quotient is out of range. -/
def ofQuotient (negative : Bool) (num den : Nat) : Binary64 :=
  if num = 0 then finite negative 0 minExponent
  else
    let exponent := exponentOf num den
    let scaled := shiftQuotient num den exponent
    let significand := roundQuotient .even scaled.1 scaled.2
    if significand = twoTo 53 then
      if exponent + 1 ≤ maxExponent then finite negative (twoTo 52) (exponent + 1)
      else infinite negative
    else if exponent ≤ maxExponent then finite negative significand exponent
    else infinite negative

def ofNat (n : Nat) : Binary64 := ofQuotient false n 1

def quotient (significand : Nat) (exponent : Int) : Nat × Nat :=
  if 0 ≤ exponent then (significand * twoTo exponent.toNat, 1)
  else (significand, twoTo (-exponent).toNat)

def isZero : Binary64 → Bool
  | finite _ significand _ => significand == 0
  | _ => false

def isInfinite : Binary64 → Bool
  | infinite _ => true
  | _ => false

def withSign (negative : Bool) : Binary64 → Binary64
  | finite _ significand exponent => finite negative significand exponent
  | infinite _ => infinite negative
  | notANumber => notANumber

def mul : Binary64 → Binary64 → Binary64
  | finite _ m e, finite _ m' e' =>
      let x := quotient m e
      let y := quotient m' e'
      ofQuotient false (x.1 * y.1) (x.2 * y.2)
  | x, _ => x

/-- The rounded quotient of two magnitudes, the second of them positive. -/
def div : Binary64 → Binary64 → Binary64
  | finite _ m e, finite _ m' e' =>
      let x := quotient m e
      let y := quotient m' e'
      ofQuotient false (x.1 * y.2) (x.2 * y.1)
  | x, _ => x

/-- The representable number nearest to `digits * 10^exponent`. -/
def ofDecimal (negative : Bool) (digits : Nat) (exponent : Int) : Binary64 :=
  if 0 ≤ exponent then ofQuotient negative (digits * tenTo exponent.toNat) 1
  else ofQuotient negative digits (tenTo (-exponent).toNat)

end Binary64

end Rubric.Decimal
