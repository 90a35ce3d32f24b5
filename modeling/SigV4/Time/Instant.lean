import SigV4.Error
import SigV4.Time.Calendar

/-!
# SigV4.Time.Instant

Points in time, to the nanosecond.

* `Instant`  — seconds since 1 January 1970 and less than two seconds of nanoseconds after them. From
  10⁹ nanoseconds on the next second shows, which is 60 after 59: a leap second.
* `of?`      — the instant of such numbers, if it lies between the years -262143 and 262142 and a second
  other than 59 has less than 10⁹ nanoseconds.
* `micros`   — microseconds since 1970, 0 before it.
* `date`, `hour`, `minute`, `second` — what calendar and clock show.
* `later?`   — the instant some seconds later.
-/

namespace SigV4

structure Instant where
  seconds : Int
  nanos : Nat
  first_le_seconds : -8334601228800 ≤ seconds
  seconds_le_last : seconds ≤ 8210266876799
  nanos_lt : nanos < 2000000000
deriving DecidableEq

namespace Instant

@[ext] theorem ext {a b : Instant} (hs : a.seconds = b.seconds) (hn : a.nanos = b.nanos) : a = b := by
  cases a; cases b; cases hs; cases hn; rfl

def of? (seconds : Int) (nanos : Nat) : Option Instant :=
  if h : (-8334601228800 ≤ seconds ∧ seconds ≤ 8210266876799) ∧ nanos < 2000000000 ∧
      (1000000000 ≤ nanos → seconds % 60 = 59) then
    some ⟨seconds, nanos, h.1.1, h.1.2, h.2.1⟩
  else none

theorem of?_eq_some_iff {seconds : Int} {nanos : Nat} {t : Instant} :
    of? seconds nanos = some t ↔
      t.seconds = seconds ∧ t.nanos = nanos ∧ (1000000000 ≤ nanos → seconds % 60 = 59) := by
  simp only [of?]
  constructor
  · intro h
    split at h
    · rename_i hrange
      cases h
      exact ⟨rfl, rfl, hrange.2.2⟩
    · cases h
  · rintro ⟨rfl, rfl, hleap⟩
    rw [dif_pos ⟨⟨t.first_le_seconds, t.seconds_le_last⟩, t.nanos_lt, hleap⟩]

/-- The last instant of the year 262142 that is not inside a leap second. -/
def last : Instant :=
  ⟨8210266876799, 999999999, by decide, by decide, by decide⟩

/-! ## Order -/

instance : LT Instant where
  lt a b := a.seconds < b.seconds ∨ a.seconds = b.seconds ∧ a.nanos < b.nanos

instance : LE Instant where
  le a b := a.seconds < b.seconds ∨ a.seconds = b.seconds ∧ a.nanos ≤ b.nanos

theorem lt_iff {a b : Instant} :
    a < b ↔ a.seconds < b.seconds ∨ a.seconds = b.seconds ∧ a.nanos < b.nanos := Iff.rfl

theorem le_iff {a b : Instant} :
    a ≤ b ↔ a.seconds < b.seconds ∨ a.seconds = b.seconds ∧ a.nanos ≤ b.nanos := Iff.rfl

instance (a b : Instant) : Decidable (a < b) := inferInstanceAs (Decidable (_ ∨ _))

instance (a b : Instant) : Decidable (a ≤ b) := inferInstanceAs (Decidable (_ ∨ _))

/-! ## Since 1970 -/

/-- The instant of a count of whole seconds. -/
def ofUnixSeconds (n : UInt64) : Except Error Instant :=
  match of? n.toNat 0 with
  | some t => .ok t
  | none => .error (.secondsOutOfRange n.toNat)

/-- The instant of a count of microseconds. -/
def ofUnixMicros (n : UInt64) : Except Error Instant :=
  match of? (n / 1000000).toNat ((n % 1000000).toUInt32 * 1000).toNat with
  | some t => .ok t
  | none => .error (.microsOutOfRange n.toNat)

/-- Whole microseconds, those from 10⁹ nanoseconds on included; 0 before 1970. -/
def micros (t : Instant) : UInt64 :=
  UInt64.ofNat (t.seconds * 1000000 + t.nanos / 1000).toNat

/-! ## Calendar and clock -/

def date (t : Instant) : Date := Date.ofDays (t.seconds / 86400)

def hour (t : Instant) : Nat := (t.seconds % 86400).toNat / 3600

def minute (t : Instant) : Nat := (t.seconds % 86400).toNat / 60 % 60

/-- The second of the minute that shows, 60 inside a leap second. -/
def second (t : Instant) : Nat := (t.seconds % 60).toNat + t.nanos / 1000000000

/-- The instant some seconds later, if it is in range. A whole second among the nanoseconds is dropped
first, so that the result has less than 10⁹ of them. -/
def later? (t : Instant) (seconds : Nat) : Option Instant :=
  of? (t.seconds + seconds) (t.nanos % 1000000000)

end Instant

end SigV4
