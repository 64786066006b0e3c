import Rubric.Json.Basic
import Rubric.Json.Fault
import Rubric.Text.Digits

/-!
Numerals. A numeral without a point or an exponent that fits a word is an integer. Any other is
real: as many leading digits as fit an unsigned word form its significand, further digits only
move the point, and the significand is scaled by one rounded multiplication or division.
-/
namespace Rubric.Json

open Decimal Text

/-- A numeral as written: digits before the point, after it, and in the exponent. -/
structure Numeral where
  negative : Bool
  whole : List Char
  fraction : Option (List Char)
  exponent : Option (Bool × List Char)
deriving Repr, DecidableEq

def wordMax : Nat := twoTo 64 - 1

/-- Appends digits to a significand while it fits a word, and returns the digits left over. -/
def absorb (significand : Nat) : List Char → Nat × List Char
  | [] => (significand, [])
  | digit :: rest =>
      let next := significand * 10 + digitValue digit
      if next ≤ wordMax then absorb next rest else (significand, digit :: rest)

def Numeral.significand (numeral : Numeral) : Nat × Int :=
  let whole := absorb 0 numeral.whole
  let fraction := numeral.fraction.getD []
  let all := absorb whole.1 fraction
  (all.1, (whole.2.length : Int) - ((fraction.length : Int) - (all.2.length : Int)))

/-- Digits of an exponent up to the first at which it no longer fits a signed half word. -/
def exponentOverflow? (value : Nat) : List Char → Option (List Char)
  | [] => none
  | digit :: rest =>
      let next := value * 10 + digitValue digit
      if next < twoTo 31 then exponentOverflow? next rest else some rest

/-- `magnitude * 10^exponent`, in steps no larger than the greatest power of ten that is
representable. There is no result out of range. -/
def scaleByTen : Nat → Binary64 → Int → Option Binary64
  | 0, magnitude, _ => some magnitude
  | fuel + 1, magnitude, exponent =>
      if exponent.natAbs ≤ 308 then
        let power := Binary64.ofNat (tenTo exponent.natAbs)
        if 0 ≤ exponent then
          let product := magnitude.mul power
          if product.isInfinite then none else some product
        else some (magnitude.div power)
      else if magnitude.isZero then some magnitude
      else if 0 ≤ exponent then none
      else scaleByTen fuel (magnitude.div (Binary64.ofNat (tenTo 308))) (exponent + 308)

def real? (negative : Bool) (significand : Nat) (exponent : Int) : Option Number :=
  (scaleByTen (exponent.natAbs / 308 + 1) (Binary64.ofNat significand) exponent).map
    fun magnitude => .real (magnitude.withSign negative)

/-- The integer a numeral without point and exponent stands for, if it fits a word. Negative zero
is not an integer. -/
def integer? (negative : Bool) (whole : List Char) : Option Number :=
  let value := digitsValue 10 whole
  if negative then
    if 0 < value ∧ value ≤ twoTo 63 then some (.integer (-(value : Int))) else none
  else if value ≤ wordMax then some (.integer value)
  else none

def Numeral.value (numeral : Numeral) (rest : List Char) : Read Number :=
  let (significand, exponent) := numeral.significand
  let finish (exponent : Int) : Read Number :=
    match real? numeral.negative significand exponent with
    | some value => .ok (value, rest)
    | none => .error (.before .numberOutOfRange rest)
  match numeral.fraction, numeral.exponent with
  | none, none =>
      match integer? numeral.negative numeral.whole with
      | some value => .ok (value, rest)
      | none => finish exponent
  | _, none => finish exponent
  | _, some (negativeExponent, digits) =>
      match exponentOverflow? 0 digits with
      | some unread =>
          if significand ≠ 0 ∧ negativeExponent = false then
            .error (.before .numberOutOfRange (unread ++ rest))
          else .ok (.real (.finite numeral.negative 0 Binary64.minExponent), rest)
      | none =>
          let shift : Int := digitsValue 10 digits
          finish (if negativeExponent then exponent - shift else exponent + shift)

def digits1 (s : List Char) : Read (List Char) :=
  match s.span isDigit with
  | ([], []) => .error (.at .endInValue [])
  | ([], rest) => .error (.at .invalidNumber rest)
  | (digits, rest) => .ok (digits, rest)

/-- Digits before the point: a zero stands alone. -/
def wholePart (s : List Char) : Read (List Char) :=
  match s with
  | '0' :: rest =>
      match rest with
      | c :: _ => if isDigit c then .error (.at .invalidNumber rest) else .ok (['0'], rest)
      | [] => .ok (['0'], rest)
  | _ => digits1 s

def fractionPart (s : List Char) : Read (Option (List Char)) :=
  match s with
  | '.' :: rest => (digits1 rest).map fun step => (some step.1, step.2)
  | _ => .ok (none, s)

def exponentDigits (negative : Bool) (s : List Char) : Read (Option (Bool × List Char)) :=
  (digits1 s).map fun step => (some (negative, step.1), step.2)

def exponentPart (s : List Char) : Read (Option (Bool × List Char)) :=
  match s with
  | c :: rest =>
      if c = 'e' ∨ c = 'E' then
        match rest with
        | '+' :: rest => exponentDigits false rest
        | '-' :: rest => exponentDigits true rest
        | _ => exponentDigits false rest
      else .ok (none, s)
  | [] => .ok (none, s)

def readNumeral (negative : Bool) (s : List Char) : Read Numeral :=
  match wholePart s with
  | .error fault => .error fault
  | .ok (whole, s) =>
      match fractionPart s with
      | .error fault => .error fault
      | .ok (fraction, s) =>
          (exponentPart s).map fun step => (⟨negative, whole, fraction, step.1⟩, step.2)

def readNumber (negative : Bool) (s : List Char) : Read Number :=
  match readNumeral negative s with
  | .error fault => .error fault
  | .ok (parts, rest) => parts.value rest

end Rubric.Json
