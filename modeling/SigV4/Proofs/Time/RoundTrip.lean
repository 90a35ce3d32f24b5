import SigV4.Proofs.Time.Form
import SigV4.Proofs.Time.Instant

/-!
# SigV4.Proofs.Time.RoundTrip

Times are read back as they were written, and nothing else is read.

* `Instant.reading`        — date and clock time of an instant: they exist, and tell the second that
  shows (`shownSeconds`).
* `reading_eq`             — the instant of a date and a time shows just these.
* `Instant.Readable`       — instants of the years 1970 to 9999 that do not show a second 60.
* `byteLength_basic_eq_iff` — the basic form has 16 bytes just if the year has four digits.
* `unixSecondsOf_eq_ok`    — what is read is a date and a time in one of the two forms.
* `unixSecondsOf_basic_eq_ok` — the basic form of an instant is read back just if it is readable.
* `written_of_unixSecondsOf`, `unixSecondsOf_of_ofUnixSeconds` — what is read as a count is the instant
  of that count in one of the two forms, and each of these is read.
* `reads_exactly_written_times` — a text is read as a count of seconds just if it is the basic or the
  extended form of the instant of that count.
-/

namespace SigV4

namespace Instant

/-! ## Readings of instants -/

def reading (t : Instant) : Reading where
  date := t.date
  hour := t.hour
  minute := t.minute
  second := t.second

theorem second_le (t : Instant) : t.second ≤ 60 := by
  have hnanos := t.nanos_lt
  simp only [second]
  omega

theorem second_eq_sixty_iff {t : Instant} :
    t.second = 60 ↔ 1000000000 ≤ t.nanos ∧ t.seconds % 60 = 59 := by
  have hnanos := t.nanos_lt
  simp only [second]
  omega

theorem second_lt_sixty {t : Instant} (h : t.nanos < 1000000000) : t.second < 60 := by
  simp only [second]
  omega

theorem reading_valid (t : Instant) : t.reading.Valid := by
  refine ⟨Date.ofDays_valid _, ?_, ?_, t.second_le⟩
  · simp only [reading, hour]
    omega
  · simp only [reading, minute]
    omega

/-- The second that shows, since 1970. A leap second counts as the second after it. -/
def shownSeconds (t : Instant) : Int := t.seconds + (t.nanos / 1000000000 : Nat)

theorem unixSeconds_reading (t : Instant) : t.reading.unixSeconds = t.shownSeconds := by
  simp only [reading, Reading.unixSeconds, date, Date.toDays_ofDays, hour, minute, second,
    shownSeconds]
  omega

/-- The last second before 1970 shows as one of 1970 just if it shows as 60. -/
theorem shownSeconds_nonneg_iff {t : Instant} (h : t.second ≠ 60) :
    0 ≤ t.shownSeconds ↔ 0 ≤ t.seconds := by
  have hnanos := t.nanos_lt
  rw [Ne, second_eq_sixty_iff] at h
  unfold shownSeconds
  omega

theorem reading_eq {t : Instant} {r : Reading} (hv : r.Valid) (hsecond : r.second < 60)
    (ht : t.seconds = r.unixSeconds) (hn : t.nanos < 1000000000) : t.reading = r := by
  obtain ⟨hdate, hhour, hminute, -⟩ := hv
  have hdays : t.seconds / 86400 = r.date.toDays := by
    simp only [Reading.unixSeconds] at ht
    omega
  have hclock : (t.seconds % 86400).toNat = r.hour * 3600 + r.minute * 60 + r.second := by
    simp only [Reading.unixSeconds] at ht
    omega
  have hofDays : t.date = r.date := by
    rw [date, hdays, Date.ofDays_toDays hdate]
  cases r
  simp only [reading, hofDays, Reading.mk.injEq, true_and, hour, minute, second]
  simp only at hclock hhour hminute hsecond
  omega

/-! ## Years -/

theorem le_year_iff {t : Instant} {y : Int} :
    y ≤ t.date.year ↔ (daysBeforeYear y - daysBeforeYear 1970) * 86400 ≤ t.seconds := by
  rw [date, Date.le_year_ofDays_iff]
  omega

theorem epoch_le_year_iff {t : Instant} : 1970 ≤ t.date.year ↔ 0 ≤ t.seconds := by
  rw [le_year_iff]
  omega

theorem year_le_last_iff {t : Instant} : t.date.year ≤ 9999 ↔ t.seconds ≤ 253402300799 := by
  have hdays : daysBeforeYear 10000 - daysBeforeYear 1970 = 2932897 := by decide
  have hiff := le_year_iff (t := t) (y := 10000)
  rw [hdays] at hiff
  omega

/-- From 1970 to 9999, and not inside a leap second. -/
structure Readable (t : Instant) : Prop where
  shown : t.second ≠ 60
  first : 1970 ≤ t.date.year
  last : t.date.year ≤ 9999

theorem readable_iff {t : Instant} :
    t.Readable ↔ t.second ≠ 60 ∧ 0 ≤ t.seconds ∧ t.seconds ≤ 253402300799 := by
  constructor
  · rintro ⟨hshown, hfirst, hlast⟩
    exact ⟨hshown, epoch_le_year_iff.1 hfirst, year_le_last_iff.1 hlast⟩
  · rintro ⟨hshown, hfirst, hlast⟩
    exact ⟨hshown, epoch_le_year_iff.2 hfirst, year_le_last_iff.2 hlast⟩

theorem readable_of_nanos_lt {t : Instant} (h : t.nanos < 1000000000) (hfirst : 1970 ≤ t.date.year)
    (hlast : t.date.year ≤ 9999) : t.Readable :=
  ⟨Nat.ne_of_lt (second_lt_sixty h), hfirst, hlast⟩

theorem readable_of_ofUnixSeconds {n : UInt64} {t : Instant} (h : ofUnixSeconds n = .ok t)
    (hn : n.toNat ≤ 253402300799) : t.Readable := by
  obtain ⟨hseconds, hnanos⟩ := ofUnixSeconds_eq_ok.1 h
  exact readable_of_nanos_lt (by omega) (epoch_le_year_iff.2 (by omega))
    (year_le_last_iff.2 (by omega))

theorem Readable.fourDigits {t : Instant} (h : t.Readable) : t.reading.FourDigits :=
  ⟨Int.le_trans (by decide) h.first, h.last⟩

/-! ## Forms of instants -/

theorem utf8_basic {t : Instant} (h : t.reading.FourDigits) :
    utf8 t.basic = Slot.fill Slot.basicForm t.reading.numbers := by
  have hyear : yearText t.date.year = padded 4 t.date.year.toNat := if_pos h
  simp only [basic, Date.text, hyear, utf8_append, List.append_assoc]
  rfl

theorem utf8_extended {t : Instant} (h : t.reading.FourDigits) :
    utf8 t.extended = Slot.fill Slot.extendedForm t.reading.numbers := by
  have hyear : yearText t.date.year = padded 4 t.date.year.toNat := if_pos h
  simp only [extended, separated, hyear, utf8_append, List.append_assoc]
  rfl

theorem byteLength_padded_two {n : Nat} (h : n < 100) : byteLength (padded 2 n) = 2 :=
  (byteLength_padded 2 n).trans (length_padded h)

/-- All parts of the basic form but the year have a fixed size. -/
theorem byteLength_basic (t : Instant) :
    byteLength t.basic = byteLength (yearText t.date.year) + 12 := by
  obtain ⟨hdate, hhour, hminute, hsecond⟩ := t.reading_valid
  have hmonth : t.date.month < 100 := Nat.lt_of_le_of_lt hdate.2.1 (by decide)
  have hday : t.date.day < 100 := Nat.lt_of_le_of_lt (Date.day_le hdate) (by decide)
  have hhour' : t.hour < 100 := Nat.lt_trans hhour (by decide)
  have hminute' : t.minute < 100 := Nat.lt_trans hminute (by decide)
  have hsecond' : t.second < 100 := Nat.lt_of_le_of_lt hsecond (by decide)
  have hmarks : byteLength ['T'] = 1 ∧ byteLength ['Z'] = 1 := by decide
  simp only [basic, Date.text, byteLength_append, byteLength_padded_two, hmonth, hday, hhour',
    hminute', hsecond', hmarks]

/-- A year that is written with a sign has four to six digits behind it. -/
theorem byteLength_yearText {t : Instant} (h : ¬ t.reading.FourDigits) :
    5 ≤ byteLength (yearText t.date.year) ∧ byteLength (yearText t.date.year) ≤ 7 := by
  have hfirst : -262143 ≤ t.date.year := le_year_iff.2 (by
    have hbound := t.first_le_seconds
    have hdays : daysBeforeYear (-262143) - daysBeforeYear 1970 = -96465292 := by decide
    omega)
  have hlast : ¬ 262143 ≤ t.date.year := fun hle => by
    have hbound := t.seconds_le_last
    have hdays : daysBeforeYear 262143 - daysBeforeYear 1970 = 95026237 := by decide
    have := le_year_iff.1 hle
    omega
  have hsmall : t.date.year.natAbs < 10 ^ (4 + 2) := by omega
  have hle := length_padded_le_iff.2 hsmall
  have hge : 4 ≤ (padded 4 t.date.year.natAbs).length := le_length_padded _
  have hsign : yearText t.date.year =
      [if t.date.year < 0 then '-' else '+'] ++ padded 4 t.date.year.natAbs := if_neg h
  have hone : byteLength [if t.date.year < 0 then '-' else '+'] = 1 := by
    split <;> rfl
  rw [hsign, byteLength_append, hone, byteLength_padded]
  omega

theorem byteLength_basic_eq_iff {t : Instant} :
    byteLength t.basic = 16 ↔ 0 ≤ t.date.year ∧ t.date.year ≤ 9999 := by
  have hlen := t.byteLength_basic
  constructor
  · intro h
    refine Decidable.byContradiction fun hyear => ?_
    have hlong := byteLength_yearText (t := t) hyear
    omega
  · intro hyear
    have hdigits : yearText t.date.year = padded 4 t.date.year.toNat := if_pos hyear
    have hsmall : t.date.year.toNat < 10 ^ 4 := by omega
    rw [hlen, hdigits, byteLength_padded, length_padded hsmall]

end Instant

/-! ## Reading -/

/-- Whether a text is one of the two forms of a date and a time. -/
def Reading.WrittenIn (r : Reading) (s : Text) : Prop :=
  utf8 s = Slot.fill Slot.basicForm r.numbers ∨ utf8 s = Slot.fill Slot.extendedForm r.numbers

theorem unixSecondsOf_of_written {s : Text} {r : Reading} (h : r.FourDigits) (hv : r.Valid)
    (hs : r.WrittenIn s) :
    unixSecondsOf s =
      if r.second = 60 then .error (.timeLeapSecond s)
      else if r.unixSeconds < 0 then .error (.timeBeforeEpoch s)
      else .ok r.unixSeconds.toNat := by
  obtain ⟨hbasic, hextended⟩ := r.fits h hv
  unfold unixSecondsOf
  rcases hs with hs | hs
  · have hlen : byteLength s = 16 := by
      rw [byteLength, hs, Slot.length_fill hbasic]
      rfl
    rw [if_pos hlen, Reading.readForm_fill h hv hbasic hs]
  · have hlen : byteLength s = 20 := by
      rw [byteLength, hs, Slot.length_fill hextended]
      rfl
    rw [if_neg (by omega), if_pos hlen, Reading.readForm_fill h hv hextended hs]

theorem unixSecondsOf_eq_ok {s : Text} {n : Nat} :
    unixSecondsOf s = .ok n ↔
      ∃ r : Reading, r.FourDigits ∧ r.Valid ∧ r.second < 60 ∧ r.unixSeconds = n ∧
        r.WrittenIn s := by
  constructor
  · intro h
    unfold unixSecondsOf at h
    split at h
    · rename_i hlen
      obtain ⟨r, hyear, hv, hsecond, hn, hfits, hs⟩ := Reading.fill_of_readForm hlen h
      have hwide : r.date.year.toNat < 10 ^ 4 := hfits.1
      exact ⟨r, ⟨hyear, by omega⟩, hv, hsecond, hn, .inl hs⟩
    · split at h
      · rename_i hlen
        obtain ⟨r, hyear, hv, hsecond, hn, hfits, hs⟩ := Reading.fill_of_readForm hlen h
        have hwide : r.date.year.toNat < 10 ^ 4 := hfits.1
        exact ⟨r, ⟨hyear, by omega⟩, hv, hsecond, hn, .inr hs⟩
      · cases h
  · rintro ⟨r, hfour, hv, hsecond, hn, hs⟩
    rw [unixSecondsOf_of_written hfour hv hs, if_neg (by omega), if_neg (by omega), hn,
      Int.toNat_natCast]

/-- Every refusal says that the text is malformed. -/
theorem kind_of_unixSecondsOf {s : Text} {e : Error} (h : unixSecondsOf s = .error e) :
    e.kind = .malformedInput := by
  have hform : ∀ form, readForm form s = .error e → e.kind = .malformedInput := by
    intro form hread
    unfold readForm at hread
    split at hread
    · split at hread
      · cases hread
        rfl
      · split at hread
        · split at hread
          · cases hread
            rfl
          · split at hread
            · cases hread
              rfl
            · cases hread
        · cases hread
          rfl
    · cases hread
      rfl
  unfold unixSecondsOf at h
  split at h
  · exact hform _ h
  · split at h
    · exact hform _ h
    · cases h
      rfl

namespace Instant

theorem unixSecondsOf_basic_eq_ok {t : Instant} {n : Nat} :
    unixSecondsOf t.basic = .ok n ↔ t.Readable ∧ t.shownSeconds = n := by
  have hunix := t.unixSeconds_reading
  by_cases hfour : t.reading.FourDigits
  · rw [unixSecondsOf_of_written hfour t.reading_valid (.inl (utf8_basic hfour)), readable_iff,
      ← year_le_last_iff]
    have hsecond : t.reading.second = t.second := rfl
    have hlast : t.date.year ≤ 9999 := hfour.2
    split
    · rename_i hleap
      constructor
      · intro h
        cases h
      · rintro ⟨⟨hshown, -⟩, -⟩
        exact absurd hleap hshown
    · rename_i hshown
      have hepoch := shownSeconds_nonneg_iff hshown
      split
      · constructor
        · intro h
          cases h
        · rintro ⟨⟨-, hfirst, -⟩, -⟩
          omega
      · rw [Except.ok.injEq]
        omega
  · -- A form of another size is not looked at.
    obtain ⟨hge, hle⟩ := byteLength_yearText hfour
    have hlen := t.byteLength_basic
    unfold unixSecondsOf
    rw [if_neg (by omega), if_neg (by omega)]
    constructor
    · intro h
      cases h
    · rintro ⟨hreadable, -⟩
      exact absurd hreadable.fourDigits hfour

/-- A readable instant is read as the second that shows. -/
theorem Readable.unixSecondsOf_basic {t : Instant} (h : t.Readable) :
    ∃ n : Nat, t.shownSeconds = n ∧ unixSecondsOf t.basic = .ok n := by
  obtain ⟨hshown, hfirst, -⟩ := readable_iff.1 h
  obtain ⟨n, hn⟩ := Int.eq_ofNat_of_zero_le ((shownSeconds_nonneg_iff hshown).2 hfirst)
  exact ⟨n, hn, unixSecondsOf_basic_eq_ok.2 ⟨h, hn⟩⟩

theorem writtenIn_iff {t : Instant} {s : Text} (h : t.reading.FourDigits) :
    t.reading.WrittenIn s ↔ s = t.basic ∨ s = t.extended := by
  rw [Reading.WrittenIn, ← utf8_basic h, ← utf8_extended h]
  constructor
  · exact Or.imp utf8_inj utf8_inj
  · rintro (rfl | rfl)
    · exact .inl rfl
    · exact .inr rfl

end Instant

/-- A time of a year of four digits lies before the year 10000. -/
theorem Reading.unixSeconds_le {r : Reading} (h : r.FourDigits) (hv : r.Valid)
    (hsecond : r.second < 60) : r.unixSeconds ≤ 253402300799 := by
  obtain ⟨hdate, hhour, hminute, -⟩ := hv
  have hyear : daysBeforeYear (r.date.year + 1) ≤ daysBeforeYear 10000 := daysBeforeYear_le (by
    have := h.2
    omega)
  have hdays : daysBeforeYear 10000 - daysBeforeYear 1970 = 2932897 := by decide
  have hlt := Date.toDays_lt_daysBeforeYear hdate
  simp only [unixSeconds]
  omega

theorem toNat_ofNat_of_le {n : Nat} (h : n ≤ 253402300799) : (UInt64.ofNat n).toNat = n :=
  UInt64.toNat_ofNat_of_lt' (Nat.lt_of_le_of_lt h (by decide))

theorem written_of_unixSecondsOf {s : Text} {n : Nat} (h : unixSecondsOf s = .ok n) :
    n ≤ 253402300799 ∧ ∃ t, Instant.ofUnixSeconds (UInt64.ofNat n) = .ok t ∧
      (s = t.basic ∨ s = t.extended) := by
  obtain ⟨r, hfour, hv, hsecond, hn, hs⟩ := unixSecondsOf_eq_ok.1 h
  have hle := Reading.unixSeconds_le hfour hv hsecond
  let t : Instant := ⟨n, 0, by omega, by omega, by decide⟩
  have hreading : t.reading = r := Instant.reading_eq hv hsecond hn.symm (Nat.succ_pos _)
  have hof : Instant.ofUnixSeconds (UInt64.ofNat n) = .ok t :=
    Instant.ofUnixSeconds_eq_ok.2 ⟨by rw [toNat_ofNat_of_le (by omega)], rfl⟩
  rw [← hreading] at hfour hs
  exact ⟨by omega, t, hof, (Instant.writtenIn_iff hfour).1 hs⟩

theorem unixSecondsOf_of_ofUnixSeconds {s : Text} {n : Nat} {t : Instant} (h : n ≤ 253402300799)
    (ht : Instant.ofUnixSeconds (UInt64.ofNat n) = .ok t) (hs : s = t.basic ∨ s = t.extended) :
    unixSecondsOf s = .ok n := by
  obtain ⟨hseconds, hnanos⟩ := Instant.ofUnixSeconds_eq_ok.1 ht
  have hreadable : t.Readable := Instant.readable_of_ofUnixSeconds ht (by rwa [toNat_ofNat_of_le h])
  rw [toNat_ofNat_of_le h] at hseconds
  have hsecond : t.reading.second < 60 := Instant.second_lt_sixty (by omega)
  have hunix : t.reading.unixSeconds = n := by
    rw [t.unixSeconds_reading, Instant.shownSeconds, hseconds, hnanos]
    rfl
  have hfour := hreadable.fourDigits
  exact unixSecondsOf_eq_ok.2 ⟨t.reading, hfour, t.reading_valid, hsecond, hunix,
    (Instant.writtenIn_iff hfour).2 hs⟩

/-- What is read as a count of seconds is the instant of that count, written in one of the two
forms; any other text is malformed. Of the instants in basic form the readable ones are read back, as
the second that shows. -/
theorem reads_exactly_written_times :
    (∀ s n, unixSecondsOf s = .ok n ↔
      n ≤ 253402300799 ∧ ∃ t, Instant.ofUnixSeconds (UInt64.ofNat n) = .ok t ∧
        (s = t.basic ∨ s = t.extended)) ∧
    (∀ s e, unixSecondsOf s = .error e → e.kind = .malformedInput) ∧
    (∀ t : Instant, t.Readable → ∃ n : Nat, t.shownSeconds = n ∧ unixSecondsOf t.basic = .ok n) ∧
    ∀ t : Instant, ¬ t.Readable → ∃ e, unixSecondsOf t.basic = .error e := by
  refine ⟨fun s n => ⟨written_of_unixSecondsOf, ?_⟩, fun s e => kind_of_unixSecondsOf,
    fun t ht => ht.unixSecondsOf_basic, fun t ht => ?_⟩
  · rintro ⟨hle, t, hof, hs⟩
    exact unixSecondsOf_of_ofUnixSeconds hle hof hs
  · cases h : unixSecondsOf t.basic with
    | error e => exact ⟨e, rfl⟩
    | ok n => exact absurd (Instant.unixSecondsOf_basic_eq_ok.1 h).1 ht

/-- A second and a half after second 33 of a minute, all of it in nanoseconds. -/
def lateFraction : Instant := ⟨1646122353, 1500000000, by decide, by decide, by decide⟩

/-- The next second shows, and as such it is read back. -/
theorem lateFraction_read_as_next :
    1000000000 ≤ lateFraction.nanos ∧ lateFraction.seconds = 1646122353 ∧
      lateFraction.basic = "20220301T081234Z".toList ∧
      unixSecondsOf lateFraction.basic = .ok 1646122354 :=
  ⟨by decide, rfl, by decide, Instant.unixSecondsOf_basic_eq_ok.2
    ⟨⟨by decide, by decide, by decide⟩, by decide⟩⟩

end SigV4
