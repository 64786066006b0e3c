import Rubric.Text.Digits
import Rubric.Toml.Basic

/-!
Numbers and moments of TOML. Digits may be separated by single underscores. Integers fit a signed
word; a real number is the nearest one to what is written.
-/
namespace Rubric.Toml

open Decimal Text

/-- Further digits, each with at most one underscore in front. -/
def moreDigits (accepts : Char → Bool) : List Char → List Char × List Char
  | [] => ([], [])
  | [c] => if accepts c then ([c], []) else ([], [c])
  | c :: d :: rest =>
      if accepts c then
        let more := moreDigits accepts (d :: rest)
        (c :: more.1, more.2)
      else if c = '_' ∧ accepts d then
        let more := moreDigits accepts rest
        (d :: more.1, more.2)
      else ([], c :: d :: rest)

def digits1 (accepts : Char → Bool) : List Char → Take (List Char)
  | [] => none
  | c :: rest =>
      if accepts c then
        let more := moreDigits accepts rest
        some (c :: more.1, more.2)
      else none

def sign : List Char → Bool × List Char
  | '-' :: rest => (true, rest)
  | '+' :: rest => (false, rest)
  | rest => (false, rest)

def wholeDigits : List Char → Take (List Char)
  | '0' :: rest => some (['0'], rest)
  | rest => digits1 isDigit rest

def integerOf? (negative : Bool) (magnitude : Nat) : Option Int :=
  if negative then
    if magnitude ≤ twoTo 63 then some (-(magnitude : Int)) else none
  else if magnitude < twoTo 63 then some magnitude
  else none

def decimalInteger (s : List Char) : Take Int :=
  let signed := sign s
  (wholeDigits signed.2).bind fun step =>
    (integerOf? signed.1 (digitsValue 10 step.1)).map fun value => (value, step.2)

def radixInteger (base : Nat) (accepts : Char → Bool) (s : List Char) : Take Int :=
  (digits1 accepts s).bind fun step =>
    (integerOf? false (digitsValue base step.1)).map fun value => (value, step.2)

def isHexDigit (c : Char) : Bool := (hexValue? c).isSome

def readInteger : List Char → Take Int
  | '0' :: 'x' :: rest => radixInteger 16 isHexDigit rest
  | '0' :: 'o' :: rest => radixInteger 8 (fun c => '0' ≤ c && c ≤ '7') rest
  | '0' :: 'b' :: rest => radixInteger 2 (fun c => c = '0' || c = '1') rest
  | rest => decimalInteger rest

def fractionPart : List Char → Take (List Char)
  | '.' :: rest => digits1 isDigit rest
  | _ => none

def exponentPart : List Char → Take Int
  | c :: rest =>
      if c = 'e' ∨ c = 'E' then
        let signed := sign rest
        (digits1 isDigit signed.2).map fun step =>
          let magnitude : Int := digitsValue 10 step.1
          (if signed.1 then -magnitude else magnitude, step.2)
      else none
  | [] => none

/-- Exponents beyond this size make every number zero or infinite. -/
def clampExponent (digits : Nat) (exponent : Int) : Int :=
  max (-(digits + 400 : Int)) (min (digits + 400 : Int) exponent)

/-- The nearest number to the digits and the exponent. A positive number that is out of range is
refused, a negative one becomes infinite. -/
def realOf? (negative : Bool) (whole fraction : List Char) (exponent : Int) : Option Binary64 :=
  let digits := whole ++ fraction
  let shift := clampExponent digits.length exponent - (fraction.length : Int)
  let value := Binary64.ofDecimal negative (digitsValue 10 digits) shift
  if value = .infinite false then none else some value

def plainReal (s : List Char) : Take Binary64 :=
  let signed := sign s
  (wholeDigits signed.2).bind fun whole =>
    match fractionPart whole.2 with
    | some (fraction, rest) =>
        let tail := (exponentPart rest).getD (0, rest)
        (realOf? signed.1 whole.1 fraction tail.1).map fun value => (value, tail.2)
    | none =>
        (exponentPart whole.2).bind fun tail =>
          (realOf? signed.1 whole.1 [] tail.1).map fun value => (value, tail.2)

def specialReal (s : List Char) : Take Binary64 :=
  let signed := sign s
  match signed.2 with
  | 'i' :: 'n' :: 'f' :: rest => some (.infinite signed.1, rest)
  | 'n' :: 'a' :: 'n' :: rest => some (.notANumber, rest)
  | _ => none

def readReal (s : List Char) : Take Binary64 :=
  match plainReal s with
  | some step => some step
  | none => specialReal s

def fixedDigits (value : Nat) : Nat → List Char → Option (Nat × List Char)
  | 0, s => some (value, s)
  | _ + 1, [] => none
  | count + 1, c :: rest =>
      if isDigit c then fixedDigits (value * 10 + digitValue c) count rest else none

def within (low high : Nat) (step : Nat × List Char) : Option (Nat × List Char) :=
  if low ≤ step.1 ∧ step.1 ≤ high then some step else none

def readDate (s : List Char) : Option (Date × List Char) := do
  let (year, s) ← fixedDigits 0 4 s
  let s ← expect '-' s
  let (month, s) ← (fixedDigits 0 2 s).bind (within 1 12)
  let s ← expect '-' s
  let (day, s) ← (fixedDigits 0 2 s).bind (within 1 (daysInMonth year month))
  return (⟨year, month, day⟩, s)

/-- Nanoseconds of the digits after the point; more than nine of them are cut off. -/
def nanoseconds (digits : List Char) : Nat :=
  digitsValue 10 ((digits ++ List.replicate 9 '0').take 9)

def secondFraction (s : List Char) : Nat × List Char :=
  match s with
  | '.' :: rest =>
      let digits := rest.span isDigit
      if digits.1.isEmpty then (0, s) else (nanoseconds digits.1, digits.2)
  | _ => (0, s)

def readTime (s : List Char) : Option (Time × List Char) := do
  let (hour, s) ← (fixedDigits 0 2 s).bind (within 0 23)
  let s ← expect ':' s
  let (minute, s) ← (fixedDigits 0 2 s).bind (within 0 59)
  let s ← expect ':' s
  let (second, s) ← (fixedDigits 0 2 s).bind (within 0 60)
  let fraction := secondFraction s
  return (⟨hour, minute, second, fraction.1⟩, fraction.2)

def offsetMinutes (negative : Bool) (s : List Char) : Option (Offset × List Char) := do
  let (hour, s) ← (fixedDigits 0 2 s).bind (within 0 23)
  let s ← expect ':' s
  let (minute, s) ← (fixedDigits 0 2 s).bind (within 0 59)
  let count : Int := hour * 60 + minute
  return (.minutes (if negative then -count else count), s)

def readOffset (s : List Char) : Option Offset × List Char :=
  let found : Take Offset :=
    match s with
    | 'Z' :: rest => some (.universal, rest)
    | 'z' :: rest => some (.universal, rest)
    | '+' :: rest => offsetMinutes false rest
    | '-' :: rest => offsetMinutes true rest
    | _ => none
  match found with
  | some (offset, rest) => (some offset, rest)
  | none => (none, s)

/-- The time after a date, behind a letter or a blank. -/
def timeAfterDate : List Char → Take Time
  | c :: rest => if c = 'T' ∨ c = 't' ∨ c = ' ' then readTime rest else none
  | [] => none

def readMoment (s : List Char) : Take Moment :=
  match readDate s with
  | some (date, rest) =>
      match timeAfterDate rest with
      | some (time, rest) =>
          let offset := readOffset rest
          some (.both date time offset.1, offset.2)
      | none => some (.date date, rest)
  | none => (readTime s).map fun step => (.time step.1, step.2)

def readNumber (s : List Char) : Take Toml :=
  match readMoment s with
  | some (value, rest) => some (.moment value, rest)
  | none =>
      match readReal s with
      | some (value, rest) => some (.real value, rest)
      | none => (readInteger s).map fun step => (.integer step.1, step.2)

end Rubric.Toml
