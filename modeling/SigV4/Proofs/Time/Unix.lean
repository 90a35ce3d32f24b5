import SigV4.Clock
import SigV4.Proofs.Time.Instant
import SigV4.Proofs.Word

/-!
# SigV4.Proofs.Time.Unix

Counts of seconds and of microseconds since 1970, from the first one to the last that has an instant.

* `Counted`        — a unit of time in which a clock tells the count that its instant was made from, in
  the order of time, and in which all counts up to a last one have instants.
* `checkedOfUnixMicros`, `signedOfUnixSeconds` — the conversions by way of the words that hold their
  parts; nothing is lost on the way (`checkedOfUnixMicros_eq`, `signedOfUnixSeconds_eq`).
* `checkedMicros`  — the way back, likewise (`checkedMicros_eq`).
* `counts_tell_time` — both units together.
-/

namespace SigV4

/-- Whether all counts up to a last one have instants, in their order and for a clock to tell, and all
others are refused. -/
structure Counted (last : Nat) (convert : UInt64 → Except Error Instant)
    (reading : Clock → UInt64 × Clock) : Prop where
  accepts : ∀ n, (∃ t, convert n = .ok t) ↔ n.toNat ≤ last
  refuses : ∀ n e, convert n = .error e → e.kind = .badParameter
  reads : ∀ n t, convert n = .ok t → reading (.fixed t) = (n, .fixed t)
  ascends : ∀ n n' t t', convert n = .ok t → convert n' = .ok t' → (t < t' ↔ n < n')

namespace Instant

variable {n n' : UInt64} {t t' : Instant}

/-! ## Microseconds -/

theorem exists_ofUnixMicros_iff : (∃ t, ofUnixMicros n = .ok t) ↔ n.toNat ≤ lastMicros := by
  unfold lastMicros
  constructor
  · rintro ⟨t, ht⟩
    have hseconds := (ofUnixMicros_eq_ok.1 ht).1
    have hlast := t.seconds_le_last
    omega
  · intro h
    exact ⟨⟨(n.toNat / 1000000 : Nat), n.toNat % 1000000 * 1000, by omega, by omega, by omega⟩,
      ofUnixMicros_eq_ok.2 ⟨rfl, rfl⟩⟩

theorem kind_of_ofUnixMicros {e : Error} (h : ofUnixMicros n = .error e) :
    e.kind = .badParameter := by
  unfold ofUnixMicros at h
  split at h
  · cases h
  · cases h
    rfl

/-- The microseconds of its instant are the count again. -/
theorem micros_of_ofUnixMicros (h : ofUnixMicros n = .ok t) : t.micros = n := by
  obtain ⟨hseconds, hnanos⟩ := ofUnixMicros_eq_ok.1 h
  have hcount : t.seconds * 1000000 + t.nanos / 1000 = n.toNat := by omega
  rw [micros, hcount, Int.toNat_natCast, UInt64.ofNat_toNat]

theorem ofUnixMicros_lt_iff (h : ofUnixMicros n = .ok t) (h' : ofUnixMicros n' = .ok t') :
    t < t' ↔ n < n' := by
  obtain ⟨hseconds, hnanos⟩ := ofUnixMicros_eq_ok.1 h
  obtain ⟨hseconds', hnanos'⟩ := ofUnixMicros_eq_ok.1 h'
  rw [lt_iff, UInt64.lt_iff_toNat_lt]
  omega

theorem counted_micros : Counted 8210266876799999999 ofUnixMicros Clock.micros where
  accepts _ := exists_ofUnixMicros_iff
  refuses _ _ := kind_of_ofUnixMicros
  reads _ _ h := congrArg (·, _) (micros_of_ofUnixMicros h)
  ascends _ _ _ _ := ofUnixMicros_lt_iff

/-! ## Seconds -/

theorem exists_ofUnixSeconds_iff : (∃ t, ofUnixSeconds n = .ok t) ↔ n.toNat ≤ 8210266876799 := by
  constructor
  · rintro ⟨t, ht⟩
    have hseconds := (ofUnixSeconds_eq_ok.1 ht).1
    have hlast := t.seconds_le_last
    omega
  · intro h
    exact ⟨⟨n.toNat, 0, by omega, by omega, by decide⟩, ofUnixSeconds_eq_ok.2 ⟨rfl, rfl⟩⟩

theorem kind_of_ofUnixSeconds {e : Error} (h : ofUnixSeconds n = .error e) :
    e.kind = .badParameter := by
  unfold ofUnixSeconds at h
  split at h
  · cases h
  · cases h
    rfl

/-- There is room for the microseconds of each second that has an instant. -/
theorem checkedMul_million (h : ofUnixSeconds n = .ok t) :
    checkedMul n 1000000 = some (n * 1000000) ∧ (n * 1000000).toNat = n.toNat * 1000000 := by
  have hle := exists_ofUnixSeconds_iff.1 ⟨t, h⟩
  exact checkedMul_of_lt rfl (by omega)

theorem ofUnixMicros_of_ofUnixSeconds (h : ofUnixSeconds n = .ok t) :
    ofUnixMicros (n * 1000000) = .ok t := by
  obtain ⟨hseconds, hnanos⟩ := ofUnixSeconds_eq_ok.1 h
  rw [ofUnixMicros_eq_ok, (checkedMul_million h).2]
  omega

theorem seconds_of_ofUnixSeconds (h : ofUnixSeconds n = .ok t) : t.micros / 1000000 = n := by
  rw [micros_of_ofUnixMicros (ofUnixMicros_of_ofUnixSeconds h), ← UInt64.toNat_inj,
    UInt64.toNat_div, (checkedMul_million h).2]
  exact Nat.mul_div_cancel _ (by decide)

theorem ofUnixSeconds_lt_iff (h : ofUnixSeconds n = .ok t) (h' : ofUnixSeconds n' = .ok t') :
    t < t' ↔ n < n' := by
  obtain ⟨hseconds, hnanos⟩ := ofUnixSeconds_eq_ok.1 h
  obtain ⟨hseconds', hnanos'⟩ := ofUnixSeconds_eq_ok.1 h'
  rw [lt_iff, UInt64.lt_iff_toNat_lt]
  omega

theorem counted_seconds : Counted 8210266876799 ofUnixSeconds Clock.seconds where
  accepts _ := exists_ofUnixSeconds_iff
  refuses _ _ := kind_of_ofUnixSeconds
  reads _ _ h := congrArg (·, _) (seconds_of_ofUnixSeconds h)
  ascends _ _ _ _ := ofUnixSeconds_lt_iff

/-! ## Overflow -/

/-- The conversion of microseconds, if their seconds fit into a word with a sign and their nanoseconds
into one of 32 bits. -/
def checkedOfUnixMicros (n : UInt64) : Option (Except Error Instant) := do
  let rest ← checkedNarrow (n % 1000000)
  let nanos ← checkedShortMul rest 1000
  let seconds ← checkedSigned (n / 1000000).toNat
  return match of? seconds.toInt nanos.toNat with
    | some t => .ok t
    | none => .error (.microsOutOfRange n.toNat)

/-- The conversion of seconds by way of a word with a sign, which refuses what does not fit. -/
def signedOfUnixSeconds (n : UInt64) : Except Error Instant :=
  ((checkedSigned n.toNat).bind fun seconds => of? seconds.toInt 0).elim
    (.error (.secondsOutOfRange n.toNat)) .ok

/-- The microseconds of an instant, if neither the scaled seconds nor the sum leaves a word with a
sign. -/
def checkedMicros (t : Instant) : Option UInt64 := do
  let scaled ← checkedSigned (t.seconds * 1000000)
  let micros ← checkedSigned (scaled.toInt + t.nanos / 1000)
  return UInt64.ofNat micros.toInt.toNat

theorem checkedOfUnixMicros_eq (n : UInt64) :
    checkedOfUnixMicros n = some (ofUnixMicros n) := by
  have hn := n.toNat_lt
  have hmillion : (1000000 : UInt64).toNat = 1000000 := rfl
  have hquotient : (n / 1000000).toNat < 2 ^ 63 := by
    rw [UInt64.toNat_div, hmillion]
    omega
  have hremainder : (n % 1000000).toNat < 1000000 := by
    rw [UInt64.toNat_mod, hmillion]
    omega
  obtain ⟨hrest, hrestNat⟩ := checkedNarrow_of_lt (w := n % 1000000) (by omega)
  obtain ⟨hnanos, -⟩ := checkedShortMul_of_lt (a := (n % 1000000).toUInt32) (b := 1000)
    (n := 1000) rfl (by omega)
  obtain ⟨hseconds, hsecondsInt⟩ := checkedSigned_of_lt (n := (n / 1000000).toNat) (by omega)
    (by omega)
  simp only [checkedOfUnixMicros, hrest, hnanos, hseconds, hsecondsInt, bind, Option.bind_some]
  rfl

/-- What does not fit into a word with a sign is out of range anyhow. -/
theorem bind_checkedSigned (n : Nat) :
    ((checkedSigned n).bind fun seconds => of? seconds.toInt 0) = of? n 0 := by
  by_cases h : (n : Int) < 2 ^ 63
  · obtain ⟨hseconds, hsecondsInt⟩ := checkedSigned_of_lt (by omega) h
    rw [hseconds, Option.bind_some, hsecondsInt]
  · have hrange : of? n 0 = none := of?_eq_none_iff.2 (by omega)
    rw [checkedSigned_of_le (Int.not_lt.1 h), Option.bind_none, hrange]

theorem signedOfUnixSeconds_eq (n : UInt64) : signedOfUnixSeconds n = ofUnixSeconds n := by
  rw [signedOfUnixSeconds, bind_checkedSigned, ofUnixSeconds]
  cases of? n.toNat 0 with
  | none => rfl
  | some t => rfl

theorem checkedMicros_eq (t : Instant) : checkedMicros t = some t.micros := by
  have hfirst := t.first_le_seconds
  have hlast := t.seconds_le_last
  have hnanos := t.nanos_lt
  obtain ⟨hscaled, hscaledInt⟩ := checkedSigned_of_lt (n := t.seconds * 1000000) (by omega)
    (by omega)
  obtain ⟨hsum, hsumInt⟩ := checkedSigned_of_lt (n := t.seconds * 1000000 + t.nanos / 1000)
    (by omega) (by omega)
  simp only [checkedMicros, hscaled, hscaledInt, hsum, hsumInt, bind, Option.bind_some]
  rfl

/-- The microseconds up to the last one of the year 262142 have instants, and so have the seconds; both
are in the order of time, and a clock that stands still tells them again. All other counts are
refused. The instant of a second is that of its microseconds, and no step of a conversion in either
direction loses a bit. -/
theorem counts_tell_time :
    Counted 8210266876799999999 ofUnixMicros Clock.micros ∧
    Counted 8210266876799 ofUnixSeconds Clock.seconds ∧
    (∀ n t, ofUnixMicros n = .ok t → (Clock.fixed t).seconds.1 = n / 1000000) ∧
    (∀ n t, ofUnixSeconds n = .ok t →
      checkedMul n 1000000 = some (n * 1000000) ∧ ofUnixMicros (n * 1000000) = .ok t) ∧
    (∀ n, checkedOfUnixMicros n = some (ofUnixMicros n)) ∧
    (∀ n, signedOfUnixSeconds n = ofUnixSeconds n) ∧
    ∀ t, checkedMicros t = some t.micros := by
  refine ⟨counted_micros, counted_seconds, fun n t h => ?_, fun n t h => ?_, checkedOfUnixMicros_eq,
    signedOfUnixSeconds_eq, checkedMicros_eq⟩
  · exact congrArg (· / 1000000) (micros_of_ofUnixMicros h)
  · exact ⟨(checkedMul_million h).1, ofUnixMicros_of_ofUnixSeconds h⟩

/-- The last microsecond of the year 262142 comes after the one before it and is told by a clock, the next
one has no instant, and the largest count of seconds, which no word with a sign holds, has none either. -/
theorem lastMicrosecond_told :
    (∃ t t', ofUnixMicros 8210266876799999998 = .ok t ∧ ofUnixMicros 8210266876799999999 = .ok t' ∧
      t < t' ∧ (Clock.fixed t').micros = (8210266876799999999, .fixed t') ∧
      (Clock.fixed t').seconds.1 = 8210266876799) ∧
    (∃ t, ofUnixSeconds 8210266876799 = .ok t ∧ ofUnixMicros 8210266876799000000 = .ok t) ∧
    (∀ e, ofUnixMicros 8210266876800000000 = .error e → e.kind = .badParameter) ∧
    ¬ (∃ t, ofUnixMicros 8210266876800000000 = .ok t) ∧
    ¬ ∃ t, ofUnixSeconds 18446744073709551615 = .ok t := by
  obtain ⟨hmicros, hseconds, hwhole, hsame, -⟩ := counts_tell_time
  obtain ⟨t, ht⟩ := (hmicros.accepts 8210266876799999998).2 (by decide)
  obtain ⟨t', ht'⟩ := (hmicros.accepts 8210266876799999999).2 (by decide)
  obtain ⟨second, hsecond⟩ := (hseconds.accepts 8210266876799).2 (by decide)
  refine ⟨⟨t, t', ht, ht', (hmicros.ascends _ _ _ _ ht ht').2 (by decide), hmicros.reads _ _ ht',
    hwhole _ _ ht'⟩, ⟨second, hsecond, (hsame _ _ hsecond).2⟩, hmicros.refuses _, ?_, ?_⟩
  · exact fun h => absurd ((hmicros.accepts _).1 h) (by decide)
  · exact fun h => absurd ((hseconds.accepts _).1 h) (by decide)

end Instant
end SigV4
