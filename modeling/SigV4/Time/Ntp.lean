/-!
# SigV4.Time.Ntp

The 64-bit timestamp of the Network Time Protocol: seconds since 1900 in the high half, which wraps
around with each era of 2³² seconds, and the fraction of the second in the low half.
-/

namespace SigV4

/-- Seconds from 1 January 1900 to 1 January 1970. -/
def secondsBefore1970 : UInt64 := 2208988800

/-- The timestamp of a count of microseconds since 1970. -/
def ntpTimestamp (micros : UInt64) : UInt64 :=
  let seconds := (micros / 1000000 + secondsBefore1970) &&& 0xFFFFFFFF
  let fraction := micros % 1000000 * 4294967296 / 1000000
  seconds <<< 32 ||| fraction

end SigV4
