import Rubric.Decimal.Binary64

/-!
The shortest decimal text of a binary number. Of the decimals that round to the number, those
with the fewest digits are considered, and the nearest of them is taken. The layout, positional
or with an exponent, is a separate choice of the place that writes the number.
-/
namespace Rubric.Decimal

/-- The value `digits * 10^exponent`. -/
structure Scientific where
  digits : Nat
  exponent : Int
deriving Repr, DecidableEq

/-- The reals that round to a number: `low / den` to `high / den` around `mid / den`, ends
included when `closed`. -/
structure Interval where
  low : Nat
  mid : Nat
  high : Nat
  den : Nat
  closed : Bool

/-- Halfway to both neighbours. Below a power of two the neighbour is twice as near, except at
the least exponent. -/
def Interval.around (significand : Nat) (exponent : Int) : Interval :=
  let unit := twoTo exponent.toNat
  let den := 4 * twoTo (-exponent).toNat
  let mid := 4 * significand * unit
  let below :=
    if significand = twoTo 52 ∧ Binary64.minExponent < exponent then unit else 2 * unit
  ⟨mid - below, mid, mid + 2 * unit, den, significand % 2 == 0⟩

/-- A multiple of a power of ten, over the interval's denominator scaled to an integer. -/
def Interval.scale (interval : Interval) (exponent : Int) : Interval :=
  let up := tenTo (-exponent).toNat
  ⟨interval.low * up, interval.mid * up, interval.high * up,
    interval.den * tenTo exponent.toNat, interval.closed⟩

def Interval.contains (interval : Interval) (n : Nat) : Bool :=
  let point := n * interval.den
  if interval.closed then interval.low ≤ point && point ≤ interval.high
  else interval.low < point && point < interval.high

/-- The integer of the interval nearest to its middle, among the two that enclose the middle. -/
def Interval.nearest? (tie : Tie) (interval : Interval) : Option Nat :=
  let floor := interval.mid / interval.den
  let ceiling := floor + 1
  if interval.contains floor then
    if interval.contains ceiling && roundQuotient tie interval.mid interval.den == ceiling then
      some ceiling
    else some floor
  else if interval.contains ceiling then some ceiling
  else none

/-- Decimal exponent of the leading digit of a positive quotient of at least `10^(-400)`. -/
def leadingExponent (num den : Nat) : Int :=
  ((Nat.toDigits 10 (num * tenTo 400 / den)).length : Int) - 401

/-- Moves trailing zeros of the digits into the exponent. The fuel bounds their number. -/
def Scientific.normalize : Nat → Scientific → Scientific
  | 0, s => s
  | fuel + 1, s =>
      if s.digits ≠ 0 ∧ s.digits % 10 = 0 then
        normalize fuel ⟨s.digits / 10, s.exponent + 1⟩
      else s

def shortestFrom (tie : Tie) (interval : Interval) (leading : Int) : Nat → Nat → Scientific
  | 0, count => ⟨roundQuotient tie interval.mid interval.den, leading - count⟩
  | fuel + 1, count =>
      let exponent := leading - count
      match (interval.scale exponent).nearest? tie with
      | some digits => Scientific.normalize 20 ⟨digits, exponent⟩
      | none => shortestFrom tie interval leading fuel (count + 1)

/-- The shortest decimal that rounds to the positive number `significand * 2^exponent`. -/
def shortest (tie : Tie) (significand : Nat) (exponent : Int) : Scientific :=
  let interval := Interval.around significand exponent
  shortestFrom tie interval (leadingExponent interval.mid interval.den) 17 0

/-- The choices a place makes when it writes a number: which of two equally near decimals is taken,
the range of places of the point, counted from before the first digit, that is written
positionally, and the sign of a positive exponent. -/
structure Layout where
  tie : Tie
  leastPoint : Option Int
  greatestPoint : Option Int
  positiveSign : List Char

def Layout.positional (layout : Layout) (point : Int) : Bool :=
  (match layout.leastPoint with
    | some least => decide (least ≤ point)
    | none => true) &&
  (match layout.greatestPoint with
    | some greatest => decide (point ≤ greatest)
    | none => true)

/-- Digits with a point, which always has a digit on either side. -/
def placePoint (digits : List Char) (point : Int) : List Char :=
  if point ≤ 0 then '0' :: '.' :: (List.replicate (-point).toNat '0' ++ digits)
  else
    let whole := point.toNat
    if digits.length ≤ whole then
      digits ++ List.replicate (whole - digits.length) '0' ++ ['.', '0']
    else digits.take whole ++ '.' :: digits.drop whole

def exponentText (layout : Layout) (exponent : Int) : List Char :=
  if exponent < 0 then 'e' :: '-' :: Nat.toDigits 10 (-exponent).toNat
  else 'e' :: (layout.positiveSign ++ Nat.toDigits 10 exponent.toNat)

def scientificText (layout : Layout) (digits : List Char) (point : Int) : List Char :=
  match digits with
  | [] => []
  | [digit] => digit :: exponentText layout (point - 1)
  | digit :: rest => digit :: '.' :: rest ++ exponentText layout (point - 1)

def magnitudeText (layout : Layout) (significand : Nat) (exponent : Int) : List Char :=
  if significand = 0 then ['0', '.', '0']
  else
    let value := shortest layout.tie significand exponent
    let digits := Nat.toDigits 10 value.digits
    let point : Int := digits.length + value.exponent
    if layout.positional point then placePoint digits point
    else scientificText layout digits point

def Binary64.text (layout : Layout) : Binary64 → String
  | finite negative significand exponent =>
      String.ofList ((if negative then ['-'] else []) ++ magnitudeText layout significand exponent)
  | infinite negative => if negative then "-inf" else "inf"
  | notANumber => "NaN"

end Rubric.Decimal
