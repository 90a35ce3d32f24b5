import Mathlib.Algebra.Order.Floor.Div
import Mathlib.GroupTheory.GroupAction.Ring
import SigV4.Proofs.Word
import SigV4.Time.Ntp

/-!
# SigV4.Proofs.Time.Ntp

Timestamps of the Network Time Protocol in exact numbers.

* `checkedNtpTimestamp` — the timestamp, computed so that a step which loses a bit yields nothing; no
  step does (`checkedNtpTimestamp_eq`).
* `toNat_ntpTimestamp` — the time since 1900 in units of 2⁻³² seconds, rounded down, without the eras
  that have passed.
* `ceilDiv_scaled`     — what is scaled up and rounded down comes back when it is scaled down and rounded
  up.
* `ntpMicros_ntpTimestamp` — so the microseconds of a timestamp are those that it was made from, up to
  whole eras.
* `ntpTimestamp_lt`    — and within an era later times have greater timestamps.
-/

namespace SigV4

/-! ## Steps -/

/-- Seconds since 1900, counted within their era. -/
def ntpSeconds (micros : UInt64) : UInt64 :=
  (micros / 1000000 + secondsBefore1970) &&& 0xFFFFFFFF

/-- What is left of the last second, in units of 2⁻³² seconds. -/
def ntpFraction (micros : UInt64) : UInt64 := micros % 1000000 * 4294967296 / 1000000

/-- The timestamp, if no step on the way leaves the word and the two halves share no bit. -/
def checkedNtpTimestamp (micros : UInt64) : Option UInt64 := do
  let seconds ← checkedAdd (micros / 1000000) secondsBefore1970
  let high ← checkedShift (seconds &&& 0xFFFFFFFF) 32
  let scaled ← checkedMul (micros % 1000000) 4294967296
  checkedJoin high (scaled / 1000000)

section Steps

variable (micros : UInt64)

theorem toNat_seconds : (micros / 1000000).toNat = micros.toNat / 1000000 := UInt64.toNat_div _ _

theorem toNat_remainder : (micros % 1000000).toNat = micros.toNat % 1000000 := UInt64.toNat_mod _ _

/-- A word has fewer than 2^45 seconds, so there is room for those before 1970. -/
theorem checkedAdd_seconds :
    checkedAdd (micros / 1000000) secondsBefore1970 = some (micros / 1000000 + secondsBefore1970) ∧
      (micros / 1000000 + secondsBefore1970).toNat = micros.toNat / 1000000 + 2208988800 := by
  have hmicros := micros.toNat_lt
  rw [← toNat_seconds]
  refine checkedAdd_of_lt rfl ?_
  rw [toNat_seconds]
  omega

theorem checkedMul_remainder :
    checkedMul (micros % 1000000) 4294967296 = some (micros % 1000000 * 4294967296) ∧
      (micros % 1000000 * 4294967296).toNat = micros.toNat % 1000000 * 2 ^ 32 := by
  rw [← toNat_remainder]
  refine checkedMul_of_lt rfl ?_
  rw [toNat_remainder]
  omega

theorem toNat_ntpSeconds :
    (ntpSeconds micros).toNat = (micros.toNat / 1000000 + 2208988800) % 2 ^ 32 := by
  rw [← (checkedAdd_seconds micros).2]
  exact toNat_lowHalf _

theorem toNat_ntpFraction :
    (ntpFraction micros).toNat = micros.toNat % 1000000 * 2 ^ 32 / 1000000 := by
  rw [← (checkedMul_remainder micros).2]
  exact UInt64.toNat_div _ _

theorem halves_bounded : (ntpSeconds micros).toNat < 2 ^ 32 ∧ (ntpFraction micros).toNat < 2 ^ 32 := by
  rw [toNat_ntpSeconds, toNat_ntpFraction]
  omega

theorem checkedNtpTimestamp_eq_bind :
    checkedNtpTimestamp micros =
      (checkedAdd (micros / 1000000) secondsBefore1970).bind fun seconds =>
        (checkedShift (seconds &&& 0xFFFFFFFF) 32).bind fun high =>
          (checkedMul (micros % 1000000) 4294967296).bind fun scaled =>
            checkedJoin high (scaled / 1000000) :=
  rfl

/-- Nothing is lost on the way. -/
theorem checkedNtpTimestamp_eq : checkedNtpTimestamp micros = some (ntpTimestamp micros) := by
  obtain ⟨hhigh, hlow⟩ := halves_bounded micros
  have hshift : checkedShift ((micros / 1000000 + secondsBefore1970) &&& 0xFFFFFFFF) 32 =
      some (ntpSeconds micros <<< 32) := checkedShift_half hhigh
  rw [checkedNtpTimestamp_eq_bind, (checkedAdd_seconds micros).1, Option.bind_some, hshift,
    Option.bind_some, (checkedMul_remainder micros).1, Option.bind_some]
  exact (join_halves hhigh hlow).1

/-- A timestamp by its halves. -/
theorem toNat_ntpTimestamp_halves :
    (ntpTimestamp micros).toNat =
      (micros.toNat / 1000000 + 2208988800) % 2 ^ 32 * 2 ^ 32 +
        micros.toNat % 1000000 * 2 ^ 32 / 1000000 := by
  obtain ⟨hhigh, hlow⟩ := halves_bounded micros
  rw [← toNat_ntpSeconds, ← toNat_ntpFraction]
  exact (join_halves hhigh hlow).2

/-- The time since 1900 in the unit of timestamps, rounded down, and without the eras that have passed. -/
theorem toNat_ntpTimestamp :
    (ntpTimestamp micros).toNat =
      (micros.toNat + 2208988800 * 1000000) * 2 ^ 32 / 1000000 % 2 ^ 64 := by
  have hsplit : (micros.toNat + 2208988800 * 1000000) * 2 ^ 32 =
      micros.toNat % 1000000 * 2 ^ 32 + 1000000 * ((micros.toNat / 1000000 + 2208988800) * 2 ^ 32) := by
    omega
  have hfraction := (halves_bounded micros).2
  rw [toNat_ntpFraction] at hfraction
  rw [toNat_ntpTimestamp_halves, hsplit, Nat.add_mul_div_left _ _ (by decide)]
  omega

end Steps

/-! ## The way back -/

/-- What is counted in finer units, rounded down, is the same again in the old ones, rounded up. -/
theorem ceilDiv_scaled {coarse fine : Nat} (hpos : 0 < coarse) (hle : coarse ≤ fine) (n : Nat) :
    (n * fine / coarse * coarse) ⌈/⌉ fine = n := by
  have hfine : 0 < fine := Nat.lt_of_lt_of_le hpos hle
  have hdown : n * fine / coarse * coarse ≤ n * fine := Nat.div_mul_le_self _ _
  have hup : n * fine < n * fine / coarse * coarse + coarse := Nat.lt_div_mul_add hpos
  apply Nat.le_antisymm
  · rw [ceilDiv_le_iff_le_mul hfine, Nat.mul_comm fine]
    exact hdown
  · have hceil : n * fine / coarse * coarse ≤
        fine * ((n * fine / coarse * coarse) ⌈/⌉ fine) := (ceilDiv_le_iff_le_mul hfine).1 le_rfl
    -- Less than one of the old units is missing.
    have hlt : fine * n < fine * ((n * fine / coarse * coarse) ⌈/⌉ fine + 1) := by
      rw [Nat.mul_add, Nat.mul_comm fine n]
      omega
    exact Nat.le_of_lt_succ (Nat.lt_of_mul_lt_mul_left hlt)

/-- The microseconds since 1970 that a timestamp stands for in the era that began then, or in the one
after it. -/
def ntpMicros (timestamp : UInt64) : Nat :=
  (((highHalf timestamp).toNat - 2208988800 : Int) % 2 ^ 32).toNat * 1000000 +
    ((lowHalf timestamp).toNat * 1000000) ⌈/⌉ 2 ^ 32

theorem ntpMicros_ntpTimestamp (micros : UInt64) :
    ntpMicros (ntpTimestamp micros) = micros.toNat % (2 ^ 32 * 1000000) := by
  have hbounded := (halves_bounded micros).2
  rw [toNat_ntpFraction] at hbounded
  have hhigh : (highHalf (ntpTimestamp micros)).toNat =
      (micros.toNat / 1000000 + 2208988800) % 2 ^ 32 := by
    rw [toNat_highHalf, toNat_ntpTimestamp_halves]
    omega
  have hlow : (lowHalf (ntpTimestamp micros)).toNat =
      micros.toNat % 1000000 * 2 ^ 32 / 1000000 := by
    rw [toNat_lowHalf, toNat_ntpTimestamp_halves]
    omega
  rw [ntpMicros, hhigh, hlow, ceilDiv_scaled (by decide) (by decide)]
  omega

/-! ## Eras -/

/-- How many times the seconds since 1900 have filled their half of a timestamp. -/
def ntpEra (micros : UInt64) : Nat := (micros.toNat / 1000000 + 2208988800) / 2 ^ 32

theorem ntpTimestamp_lt {micros micros' : UInt64} (hera : ntpEra micros = ntpEra micros')
    (h : micros < micros') : ntpTimestamp micros < ntpTimestamp micros' := by
  unfold ntpEra at hera
  rw [UInt64.lt_iff_toNat_lt] at h ⊢
  rw [toNat_ntpTimestamp_halves, toNat_ntpTimestamp_halves]
  -- Either a second has passed, or the microseconds within it have grown.
  rcases Nat.lt_or_eq_of_le (Nat.div_le_div_right (c := 1000000) (Nat.le_of_lt h)) with hlt | heq
  · omega
  · omega

/-- Nothing overflows while a timestamp is computed. It is the time since 1900 in units of 2⁻³² seconds,
rounded down, without the eras that have passed, so two times have the same timestamp just if whole
eras lie between them, and the microseconds within the era come back from its halves. Within an era
later times have greater timestamps. -/
theorem timestamps_tell_time_in_era :
    (∀ micros : UInt64,
      checkedNtpTimestamp micros = some (ntpTimestamp micros) ∧
      (ntpTimestamp micros).toNat =
        (micros.toNat + 2208988800 * 1000000) * 2 ^ 32 / 1000000 % 2 ^ 64 ∧
      micros.toNat % (2 ^ 32 * 1000000) =
        (((highHalf (ntpTimestamp micros)).toNat - 2208988800 : Int) % 2 ^ 32).toNat * 1000000 +
          ((lowHalf (ntpTimestamp micros)).toNat * 1000000) ⌈/⌉ 2 ^ 32) ∧
    (∀ micros micros' : UInt64, ntpEra micros = ntpEra micros' → micros < micros' →
      ntpTimestamp micros < ntpTimestamp micros') ∧
    ∀ micros micros' : UInt64, ntpTimestamp micros = ntpTimestamp micros' ↔
      micros.toNat % (2 ^ 32 * 1000000) = micros'.toNat % (2 ^ 32 * 1000000) := by
  refine ⟨fun micros => ⟨checkedNtpTimestamp_eq micros, toNat_ntpTimestamp micros,
    (ntpMicros_ntpTimestamp micros).symm⟩, fun _ _ => ntpTimestamp_lt, fun micros micros' => ?_⟩
  constructor
  · intro h
    rw [← ntpMicros_ntpTimestamp, ← ntpMicros_ntpTimestamp, h]
  · intro h
    -- Second and microsecond are the same, up to whole eras.
    have hseconds : micros.toNat / 1000000 % 2 ^ 32 = micros'.toNat / 1000000 % 2 ^ 32 := by omega
    have hremainder : micros.toNat % 1000000 = micros'.toNat % 1000000 := by omega
    rw [← UInt64.toNat_inj, toNat_ntpTimestamp_halves, toNat_ntpTimestamp_halves, hremainder]
    omega

/-- The era changes on 7 February 2036, at 06:28:16. -/
theorem eraOf2036_starts_over :
    ntpEra 2085978496000000 = ntpEra 2085978496000001 ∧
      ntpTimestamp 2085978496000000 < ntpTimestamp 2085978496000001 ∧
      ntpTimestamp 2085978496000000 < ntpTimestamp 2085978495999999 := by
  have hera : ntpEra 2085978496000000 = ntpEra 2085978496000001 := by decide
  exact ⟨hera, timestamps_tell_time_in_era.2.1 _ _ hera (by decide), by decide⟩

end SigV4
