import AuditTrail.Time.Calendar
/-!
Points in time to the nanosecond, in UTC. A leap second is the second before it with a billion or
more nanoseconds, so instants order by seconds and then by nanoseconds.
-/
namespace AuditTrail

/-- Seconds from 1970-01-01T00:00:00Z and nanoseconds within the second. -/
structure Instant where
  seconds : Int
  nanos : Nat
deriving DecidableEq, Repr, Inhabited

namespace Instant

/-- Whether one instant lies before another. -/
def before (a b : Instant) : Bool :=
  a.seconds < b.seconds || (a.seconds = b.seconds && a.nanos < b.nanos)

instance : LT Instant := ⟨fun a b => a.before b = true⟩

instance (a b : Instant) : Decidable (a < b) := inferInstanceAs (Decidable (a.before b = true))

instance : LE Instant := ⟨fun a b => b.before a = false⟩

instance (a b : Instant) : Decidable (a ≤ b) := inferInstanceAs (Decidable (b.before a = false))

/-- 1970-01-01T00:00:00Z. -/
def epoch : Instant := ⟨0, 0⟩

def date (t : Instant) : Calendar.Date :=
  Calendar.Date.ofDays (t.seconds / 86400)

def year (t : Instant) : Int :=
  t.date.year

/-- Hour, minute and second of the day. The second is 60 within a leap second. -/
def clock (t : Instant) : Nat × Nat × Nat :=
  let s := (t.seconds % 86400).toNat
  (s / 3600, s % 3600 / 60, s % 60 + t.nanos / 1000000000)

def fraction (t : Instant) : Nat :=
  t.nanos % 1000000000

/-- The instant of a date and a time of day, `offset` seconds ahead of UTC. -/
def ofLocal (date : Calendar.Date) (secondOfDay nanos : Nat) (offset : Int) : Instant :=
  ⟨date.toDays * 86400 + secondOfDay - offset, nanos⟩

end Instant

end AuditTrail
