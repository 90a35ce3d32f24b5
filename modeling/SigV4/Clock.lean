import SigV4.Time.Iso8601

/-!
# SigV4.Clock

Where the time of a signature comes from.

* `TickClock` — a free-running 32-bit counter with a reference: the time that one value of the
  counter stands for. The time now follows from how far the counter has moved since, wrap-around
  included. A floor keeps readings from running backwards when a later reference is earlier.
* `Clock`     — such a clock, or an instant at which time stands still.

Reading a tick clock moves its floor, so a reading yields the clock afterwards too. Converting a
counter value that was captured before does not.
-/

namespace SigV4

/-- The time that a value of the counter stands for. -/
structure Reference where
  micros : UInt64
  tick : UInt32
deriving DecidableEq

structure TickClock where
  /-- The counter now. -/
  ticks : UInt32
  /-- Ticks in a second; 0 counts as 1. -/
  rate : UInt32
  reference : Reference
  /-- The latest reading so far, in microseconds. -/
  floor : UInt64 := 0
deriving DecidableEq

namespace TickClock

/-- The sum, or the largest number if it is too large for 64 bits. -/
def saturatingAdd (a b : UInt64) : UInt64 :=
  if a + b < a then 0xFFFFFFFFFFFFFFFF else a + b

/-- Microseconds that pass while the counter moves by `ticks`, rounded down. -/
def elapsed (rate ticks : UInt32) : UInt64 :=
  let r := (max rate 1).toUInt64
  let n := ticks.toUInt64
  n / r * 1000000 + n % r * 1000000 / r

/-- Microseconds since 1970 when the counter had the value `tick`. -/
def microsAt (c : TickClock) (tick : UInt32) : UInt64 :=
  saturatingAdd c.reference.micros (elapsed c.rate (tick - c.reference.tick))

/-- Microseconds since 1970 now, never less than at an earlier reading. -/
def read (c : TickClock) : UInt64 × TickClock :=
  let now := max c.floor (c.microsAt c.ticks)
  (now, { c with floor := now })

def sync (c : TickClock) (reference : Reference) : TickClock := { c with reference }

end TickClock

inductive Clock where
  | fixed (time : Instant)
  | ticking (clock : TickClock)
deriving DecidableEq

namespace Clock

/-- The instant of a count of microseconds, the last one if it is out of range. -/
def instantOfMicros (micros : UInt64) : Instant :=
  match Instant.ofUnixMicros micros with
  | .ok t => t
  | .error _ => Instant.last

def micros : Clock → UInt64 × Clock
  | fixed time => (time.micros, fixed time)
  | ticking clock => (clock.read.1, ticking clock.read.2)

/-- Whole seconds since 1970. -/
def seconds (c : Clock) : UInt64 × Clock := (c.micros.1 / 1000000, c.micros.2)

def now : Clock → Instant × Clock
  | fixed time => (time, fixed time)
  | ticking clock => (instantOfMicros clock.read.1, ticking clock.read.2)

/-- Writes the time now in basic form into a buffer. -/
def writeNow (c : Clock) (buffer : Bytes) : (Except Error Text × Bytes) × Clock :=
  (c.now.1.write buffer, c.now.2)

end Clock

end SigV4
