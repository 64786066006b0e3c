/-!
Dates, times and their combinations, with the text that stands for them in a document.
-/
namespace Rubric.Toml

structure Date where
  year : Nat
  month : Nat
  day : Nat
deriving Repr, DecidableEq

structure Time where
  hour : Nat
  minute : Nat
  second : Nat
  nanosecond : Nat
deriving Repr, DecidableEq

/-- Distance from universal time, which may be written as a letter. -/
inductive Offset where
  | universal
  | minutes (count : Int)
deriving Repr, DecidableEq

/-- A date, a time, or both; only both together have an offset. -/
inductive Moment where
  | date (day : Date)
  | time (clock : Time)
  | both (day : Date) (clock : Time) (offset : Option Offset)
deriving Repr, DecidableEq

def isLeapYear (year : Nat) : Bool :=
  year % 4 == 0 && (year % 100 != 0 || year % 400 == 0)

def daysInMonth (year month : Nat) : Nat :=
  if month = 2 then (if isLeapYear year then 29 else 28)
  else if month = 4 ∨ month = 6 ∨ month = 9 ∨ month = 11 then 30
  else 31

def padded (width n : Nat) : List Char :=
  let digits := Nat.toDigits 10 n
  List.replicate (width - digits.length) '0' ++ digits

def Date.chars (date : Date) : List Char :=
  padded 4 date.year ++ '-' :: padded 2 date.month ++ '-' :: padded 2 date.day

/-- Fractions of a second lose their trailing zeros. -/
def Time.chars (time : Time) : List Char :=
  let fraction :=
    if time.nanosecond = 0 then []
    else '.' :: ((padded 9 time.nanosecond).reverse.dropWhile (· = '0')).reverse
  padded 2 time.hour ++ ':' :: padded 2 time.minute ++ ':' :: padded 2 time.second ++ fraction

def Offset.chars : Offset → List Char
  | universal => ['Z']
  | minutes count =>
      (if count < 0 then '-' else '+') ::
        (padded 2 (count.natAbs / 60) ++ ':' :: padded 2 (count.natAbs % 60))

def Moment.chars : Moment → List Char
  | date day => day.chars
  | time clock => clock.chars
  | both day clock offset =>
      day.chars ++ 'T' :: clock.chars ++
        match offset with
        | some offset => offset.chars
        | none => []

def Moment.text (moment : Moment) : String := String.ofList moment.chars

end Rubric.Toml
