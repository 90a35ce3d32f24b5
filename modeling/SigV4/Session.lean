import SigV4.Presigned
import SigV4.Request.Signing

/-!
# SigV4.Session

Everything that can happen to one tick clock that a program shares among its users.

* `Action`       — a change of the counter or of its rate, a new reference, a reading, or a signature.
* `Reply`        — what the one who acts gets to see.
* `TickClock.perform` — one action: the reply, and the clock afterwards.
* `TickClock.run`     — actions one after the other.
-/

namespace SigV4

inductive Action where
  | setTicks (ticks : UInt32)
  | setRate (rate : UInt32)
  | sync (reference : Reference)
  | reference
  /-- Microseconds since 1970, now or at a tick that was captured before. -/
  | micros (tick : Option UInt32)
  /-- Seconds since 1970, likewise. -/
  | seconds (tick : Option UInt32)
  | now
  | writeNow (buffer : Bytes)
  | presign (signer : Signer) (url : Text) (credentials : Credentials)
  | sign (signer : Signer) (request : Request) (payload : Bytes) (credentials : Credentials)

inductive Reply where
  | done
  | reference (reference : Reference)
  | count (n : UInt64)
  | instant (time : Instant)
  | written (outcome : Except Error Text) (buffer : Bytes)
  | presigned (outcome : Except Error Text)
  | signed (outcome : Except Error Unit) (request : Request)

namespace TickClock

/-- Microseconds at a captured tick, or now; only a reading of now moves the floor. -/
def microsOf (c : TickClock) : Option UInt32 → UInt64 × TickClock
  | some tick => (c.microsAt tick, c)
  | none => c.read

/-- The tick clock behind a clock. -/
def ofClock (c : TickClock) : Clock → TickClock
  | .ticking c' => c'
  | .fixed _ => c

def perform (c : TickClock) : Action → Reply × TickClock
  | .setTicks ticks => (.done, { c with ticks })
  | .setRate rate => (.done, { c with rate })
  | .sync reference => (.done, c.sync reference)
  | .reference => (.reference c.reference, c)
  | .micros tick => (.count (c.microsOf tick).1, (c.microsOf tick).2)
  | .seconds tick => (.count ((c.microsOf tick).1 / 1000000), (c.microsOf tick).2)
  | .now =>
    let (t, clock) := (Clock.ticking c).now
    (.instant t, c.ofClock clock)
  | .writeNow buffer =>
    let ((outcome, buffer'), clock) := (Clock.ticking c).writeNow buffer
    (.written outcome buffer', c.ofClock clock)
  | .presign signer url credentials =>
    let (outcome, clock) := signer.presignNow (.ticking c) url credentials
    (.presigned outcome, c.ofClock clock)
  | .sign signer request payload credentials =>
    let attempt := signer.signInPlace (.ticking c) request payload credentials
    (.signed attempt.outcome attempt.request, c.ofClock attempt.clock)

def run (c : TickClock) : List Action → List Reply × TickClock
  | [] => ([], c)
  | a :: rest =>
    let (reply, c') := c.perform a
    let (replies, last) := c'.run rest
    (reply :: replies, last)

end TickClock

end SigV4
