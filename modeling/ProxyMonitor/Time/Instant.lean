import ProxyMonitor.Time.Calendar
/-! Points in time, to the nanosecond. A leap second is the second before it with a billion nanoseconds or
more. -/
namespace ProxyMonitor.Time

structure Instant where
  seconds : Int
  nanos : Nat
deriving DecidableEq, Repr, Inhabited

namespace Instant

def secondsPerDay : Int := 86400

def billion : Nat := 1000000000

/-- The first and the last second that have a date. -/
def minSeconds : Int := Date.toDays ⟨Date.minYear, 1, 1⟩ * secondsPerDay

def maxSeconds : Int := Date.toDays ⟨Date.maxYear, 12, 31⟩ * secondsPerDay + 86399

def inRange (t : Instant) : Bool :=
  minSeconds ≤ t.seconds && t.seconds ≤ maxSeconds

/-- The time that is `seconds` after the start of 1970, if it has a date. -/
def ofUnix? (seconds : Int) : Option Instant :=
  if inRange ⟨seconds, 0⟩ then some ⟨seconds, 0⟩ else none

def secondOfDay (t : Instant) : Int :=
  t.seconds.fmod secondsPerDay

/-- Nanoseconds from `earlier` to `t`. A leap second counts between times of day on either side of it. -/
def nanosSince (t earlier : Instant) : Int :=
  let leap : Int :=
    if earlier.secondOfDay < t.secondOfDay && billion ≤ earlier.nanos then 1
    else if t.secondOfDay < earlier.secondOfDay && billion ≤ t.nanos then -1
    else 0
  (t.seconds - earlier.seconds + leap) * billion + ((t.nanos : Int) - earlier.nanos)

/-- Whole seconds from `earlier` to `t`, toward zero. -/
def secondsSince (t earlier : Instant) : Int :=
  (t.nanosSince earlier).tdiv billion

end Instant
end ProxyMonitor.Time
