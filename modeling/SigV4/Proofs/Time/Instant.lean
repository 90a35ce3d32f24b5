import SigV4.Time.Instant

/-!
# SigV4.Proofs.Time.Instant

Instants from counts since 1970.

* `of?_eq_none_iff`     — which numbers are no instant.
* `of?_eq_some_iff_of_lt` — less than 10⁹ nanoseconds may follow any second.
* `ofUnixSeconds_eq_ok`, `ofUnixMicros_eq_ok` — the instant of a count has just its second and
  nothing, or just its microseconds, after it.
* `ofUnixMicros_eq_error` — counts above `lastMicros` have none.
-/

namespace SigV4
namespace Instant

theorem of?_eq_none_iff {seconds : Int} {nanos : Nat} :
    of? seconds nanos = none ↔
      ¬ ((-8334601228800 ≤ seconds ∧ seconds ≤ 8210266876799) ∧ nanos < 2000000000 ∧
        (1000000000 ≤ nanos → seconds % 60 = 59)) := by
  unfold of?
  split
  · rename_i h
    constructor
    · intro hsome
      cases hsome
    · intro hnot
      exact absurd h hnot
  · rename_i h
    exact ⟨fun _ => h, fun _ => rfl⟩

theorem of?_eq_some_iff_of_lt {seconds : Int} {nanos : Nat} {t : Instant} (h : nanos < 1000000000) :
    of? seconds nanos = some t ↔ t.seconds = seconds ∧ t.nanos = nanos := by
  rw [of?_eq_some_iff]
  omega

theorem ofUnixSeconds_eq_ok {n : UInt64} {t : Instant} :
    ofUnixSeconds n = .ok t ↔ t.seconds = n.toNat ∧ t.nanos = 0 := by
  rw [← of?_eq_some_iff_of_lt (by decide)]
  unfold ofUnixSeconds
  cases of? n.toNat 0 with
  | none => simp
  | some t' => simp

/-- The numbers that the microseconds are split into, in 64 and 32 bits, are exact. -/
theorem toNat_micros (n : UInt64) :
    (n / 1000000).toNat = n.toNat / 1000000 ∧
      ((n % 1000000).toUInt32 * 1000).toNat = n.toNat % 1000000 * 1000 := by
  have hmillion : (1000000 : UInt64).toNat = 1000000 := rfl
  have hthousand : (1000 : UInt32).toNat = 1000 := rfl
  constructor
  · rw [UInt64.toNat_div, hmillion]
  · rw [UInt32.toNat_mul, UInt64.toNat_toUInt32, UInt64.toNat_mod, hmillion, hthousand]
    omega

theorem ofUnixMicros_eq_ok {n : UInt64} {t : Instant} :
    ofUnixMicros n = .ok t ↔
      t.seconds = (n.toNat / 1000000 : Nat) ∧ t.nanos = n.toNat % 1000000 * 1000 := by
  obtain ⟨hseconds, hnanos⟩ := toNat_micros n
  rw [← of?_eq_some_iff_of_lt (by omega)]
  unfold ofUnixMicros
  rw [hseconds, hnanos]
  cases of? (n.toNat / 1000000 : Nat) (n.toNat % 1000000 * 1000) with
  | none => simp
  | some t' => simp

/-- The last count of microseconds that has an instant. -/
def lastMicros : Nat := 8210266876799999999

theorem ofUnixMicros_eq_error {n : UInt64} :
    (∃ e, ofUnixMicros n = .error e) ↔ lastMicros < n.toNat := by
  obtain ⟨hseconds, hnanos⟩ := toNat_micros n
  have hnone : of? (n.toNat / 1000000 : Nat) (n.toNat % 1000000 * 1000) = none ↔ _ :=
    of?_eq_none_iff
  unfold ofUnixMicros lastMicros
  rw [hseconds, hnanos]
  cases hof : of? (n.toNat / 1000000 : Nat) (n.toNat % 1000000 * 1000) with
  | none =>
    have hout := hnone.1 hof
    simp only [Except.error.injEq, exists_eq', true_iff]
    omega
  | some t =>
    have hin := mt hnone.2 (by rw [hof]; exact Option.some_ne_none t)
    simp only [reduceCtorEq, exists_false, false_iff]
    omega

end Instant
end SigV4
