import LogPipeline.Number.Digits

namespace LogPipeline

/-!
# Durations as property text

A duration is written as a whole number of the largest of four units that
divides it: seconds, milliseconds, microseconds or nanoseconds.
-/

/-- A duration in whole seconds and nanoseconds below one second. -/
structure Duration where
  seconds : Nat
  nanoseconds : Nat
  nanoseconds_lt : nanoseconds < 1000000000

namespace Duration

/-- A unit of time. -/
inductive Span where
  | second
  | millisecond
  | microsecond
  | nanosecond
deriving DecidableEq

namespace Span

/-- How many nanoseconds a unit has. -/
def size : Span → Nat
  | .second => 1000000000
  | .millisecond => 1000000
  | .microsecond => 1000
  | .nanosecond => 1

/-- The letters of a unit. -/
def letters : Span → List Char
  | .second => ['s']
  | .millisecond => ['m', 's']
  | .microsecond => ['u', 's']
  | .nanosecond => ['n', 's']

end Span

/-- A duration from seconds and any number of nanoseconds. -/
def ofParts (seconds nanoseconds : Nat) : Duration where
  seconds := seconds + nanoseconds / 1000000000
  nanoseconds := nanoseconds % 1000000000
  nanoseconds_lt := Nat.mod_lt _ (by omega)

/-- The length of a duration in nanoseconds. -/
def total (duration : Duration) : Nat :=
  duration.seconds * 1000000000 + duration.nanoseconds

/-- The largest unit that divides a duration. -/
def span (duration : Duration) : Span :=
  if duration.nanoseconds = 0 then .second
  else if duration.nanoseconds % 1000000 = 0 then .millisecond
  else if duration.nanoseconds % 1000 = 0 then .microsecond
  else .nanosecond

/-- A whole number of the largest unit that divides the duration. -/
def letters (duration : Duration) : List Char :=
  Digits.decimal (duration.total / duration.span.size) ++ duration.span.letters

def text (duration : Duration) : String :=
  String.ofList duration.letters

/-- The number of nanoseconds that a duration text denotes: decimal digits and
the letters of a unit. -/
def read? (letters : List Char) : Option Nat :=
  let digits := letters.takeWhile Digits.isDecimal
  let rest := letters.dropWhile Digits.isDecimal
  match Digits.read? 10 digits,
      [Span.second, .millisecond, .microsecond, .nanosecond].find? (·.letters = rest) with
  | some count, some unit => some (count * unit.size)
  | _, _ => none

end Duration

end LogPipeline
