import Vouch.Calendar.Reading

namespace Vouch

/-- How far a local clock is ahead of universal time, in microseconds. It is less than a day. -/
structure Offset where
  micros : Int
  belowDay : -86400000000 < micros ∧ micros < 86400000000
  deriving DecidableEq

namespace Offset

def utc : Offset := ⟨0, by decide⟩

def ofMicros? (micros : Int) : Option Offset :=
  if h : -86400000000 < micros ∧ micros < 86400000000 then some ⟨micros, h⟩ else none

end Offset

/-- A point in time as it is written down: what the clock showed, and how far the clock was ahead
of universal time, if that is known. The offset is fixed: clocks of zones whose offset changes over
the year are left out. -/
structure Timestamp where
  clock : Reading
  offset : Option Offset
  deriving DecidableEq

namespace Timestamp

/-- A reading of universal time. -/
def ofUtc (reading : Reading) : Timestamp := ⟨reading, some .utc⟩

/-- The microseconds of universal time since the beginning of the year 1. A clock of unknown
offset is taken to show universal time. -/
def instant (t : Timestamp) : Int :=
  t.clock.micros - (t.offset.map Offset.micros).getD 0

theorem instant_ofUtc (reading : Reading) : (ofUtc reading).instant = reading.micros := by
  simp [instant, ofUtc, Offset.utc]

/-- The reading of universal time at that point, unless it is outside of the calendar. -/
def utc? (t : Timestamp) : Option Reading :=
  Reading.ofMicros? t.instant

/-- Whether one timestamp is earlier than another. Two timestamps compare only if both offsets
are known, or neither is. -/
def isBefore? (a b : Timestamp) : Option Bool :=
  if a.offset.isSome = b.offset.isSome then some (a.instant < b.instant) else none

end Timestamp

end Vouch
