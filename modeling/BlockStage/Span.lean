import BlockStage.Number.Binary64

/-!
# Spans of time

A span is a whole number of nanoseconds whose whole seconds fit a 64-bit word.
Spans are computed from doubles: a number of seconds is rounded to the nearest
nanosecond, a half going to the even neighbour.  A sleep that is missing, not
positive or not a number asks for no time at all, and one that is too long for
a span asks for the longest.
-/

namespace BlockStage

def nanosecondsPerSecond : Nat := 1000000000

/-- The first number of nanoseconds that is too long for a span. -/
def spanLimit : Nat := UInt64.size * nanosecondsPerSecond

/-- A span of time. -/
structure Span where
  nanoseconds : Nat
  bounded : nanoseconds < spanLimit

namespace Span

def zero : Span := ⟨0, by decide⟩

def millisecond : Span := ⟨1000000, by decide⟩

def longest : Span := ⟨spanLimit - 1, by decide⟩

/-- The span of a number of nanoseconds, if it is not too long. -/
def ofNanoseconds? (nanoseconds : Nat) : Option Span :=
  if bounded : nanoseconds < spanLimit then some ⟨nanoseconds, bounded⟩ else none

def seconds (span : Span) : Nat := span.nanoseconds / nanosecondsPerSecond

def remainder (span : Span) : Nat := span.nanoseconds % nanosecondsPerSecond

def toSeconds (span : Span) : Float :=
  (UInt64.ofNat span.seconds).toFloat +
    (UInt64.ofNat span.remainder).toFloat / (UInt64.ofNat nanosecondsPerSecond).toFloat

/-- The span nearest to a number of seconds.  Negative numbers, numbers off the
number line and numbers that are too large have none. -/
def ofSeconds? (seconds : Float) : Option Span :=
  if seconds < 0 || !seconds.isFinite then none
  else
    ofNanoseconds?
      (roundHalfEven (Binary64.units (Binary64.index seconds) * nanosecondsPerSecond)
        Binary64.unitsPerOne)

/-- The span of a positive number of seconds, the longest when it is too large. -/
def ofSecondsOrLongest (seconds : Float) : Span := (ofSeconds? seconds).getD longest

/-- The time a snapshot asks for, when one unit of sleep takes `unit`. -/
def pauseFor (duration : Option Float) (unit : Span) : Span :=
  let units := duration.getD 0
  if units.isNaN || units ≤ 0 then zero else ofSecondsOrLongest (unit.toSeconds * units)

/-- A number of milliseconds as a span; what is not positive is no time. -/
def ofMilliseconds (milliseconds : Float) : Span :=
  if milliseconds.isNaN || milliseconds ≤ 0 then zero
  else ofSecondsOrLongest (milliseconds / 1000)

end Span

end BlockStage
