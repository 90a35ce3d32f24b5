import SigV4.Proofs.Session
import SigV4.Proofs.Word

/-!
# SigV4.Proofs.CapturedTicks

The times of values of the counter that were captured before they are converted.

* `Reference.tickAt`  — the value of the counter some ticks after a reference, or before it.
* `checkedMicrosAt`   — the time of a value, computed so that a product or sum that overflows yields
  nothing; it is the time that a clock computes (`checkedMicrosAt_eq`).
* `toNat_microsAt_tickAt` — a value does not tell how often the counter wrapped around: it stands for
  its first occurrence from the reference on.
* `conversion_exact`  — up to one wrap-around after the reference, this is when it was captured.
* `reference_run`     — a reference stays in force until the next one, whatever else happens.
* `earlier_tick_mapped_late` — so a value from before the reference is taken for the one that comes
  after it, and its time lies in the future.
-/

namespace SigV4

/-- The counter `n` ticks after the reference, or `-n` ticks before it. -/
def Reference.tickAt (r : Reference) (n : Int) : UInt32 :=
  .ofNat ((r.tick.toNat + n) % 2 ^ 32).toNat

/-- Whether an action brings another reference. -/
def Action.resyncs : Action → Bool
  | sync _ => true
  | _ => false

namespace TickClock

/-! ## Overflow -/

/-- The time that passes while the counter moves, if nothing overflows on the way. -/
def checkedElapsed (rate ticks : UInt32) : Option UInt64 := do
  let r := (max rate 1).toUInt64
  let n := ticks.toUInt64
  let whole ← checkedMul (n / r) 1000000
  let part ← checkedMul (n % r) 1000000
  checkedAdd whole (part / r)

/-- The time of a value of the counter, if nothing overflows before the sum that stops at the largest
word. -/
def checkedMicrosAt (c : TickClock) (tick : UInt32) : Option UInt64 :=
  (checkedElapsed c.rate (tick - c.reference.tick)).map (saturatingAdd c.reference.micros)

theorem checkedElapsed_eq_bind (rate ticks : UInt32) :
    checkedElapsed rate ticks =
      (checkedMul (ticks.toUInt64 / (max rate 1).toUInt64) 1000000).bind fun whole =>
        (checkedMul (ticks.toUInt64 % (max rate 1).toUInt64) 1000000).bind fun part =>
          checkedAdd whole (part / (max rate 1).toUInt64) :=
  rfl

/-- Neither product reaches 2^52, as both factors in front of the million are less than 2^32. -/
theorem checkedElapsed_eq (rate ticks : UInt32) :
    checkedElapsed rate ticks = some (elapsed rate ticks) := by
  have hticks := ticks.toNat_lt
  have hquotient : (ticks.toUInt64 / (max rate 1).toUInt64).toNat < 2 ^ 32 := by
    rw [UInt64.toNat_div, UInt32.toNat_toUInt64]
    exact Nat.lt_of_le_of_lt (Nat.div_le_self _ _) hticks
  have hremainder : (ticks.toUInt64 % (max rate 1).toUInt64).toNat < 2 ^ 32 := by
    rw [UInt64.toNat_mod, UInt32.toNat_toUInt64]
    exact Nat.lt_of_le_of_lt (Nat.mod_le _ _) hticks
  obtain ⟨hwhole, hwholeNat⟩ := checkedMul_of_lt
    (a := ticks.toUInt64 / (max rate 1).toUInt64) (b := 1000000) (n := 1000000) rfl (by omega)
  obtain ⟨hpart, hpartNat⟩ := checkedMul_of_lt
    (a := ticks.toUInt64 % (max rate 1).toUInt64) (b := 1000000) (n := 1000000) rfl (by omega)
  have hlast : (ticks.toUInt64 % (max rate 1).toUInt64 * 1000000 / (max rate 1).toUInt64).toNat ≤
      (ticks.toUInt64 % (max rate 1).toUInt64 * 1000000).toNat := by
    rw [UInt64.toNat_div]
    exact Nat.div_le_self _ _
  have hsum : (ticks.toUInt64 / (max rate 1).toUInt64 * 1000000).toNat +
      (ticks.toUInt64 % (max rate 1).toUInt64 * 1000000 / (max rate 1).toUInt64).toNat <
        2 ^ 64 := by omega
  have helapsed : ticks.toUInt64 / (max rate 1).toUInt64 * 1000000 +
      ticks.toUInt64 % (max rate 1).toUInt64 * 1000000 / (max rate 1).toUInt64 =
        elapsed rate ticks := rfl
  rw [checkedElapsed_eq_bind, hwhole, Option.bind_some, hpart, Option.bind_some,
    (checkedAdd_of_lt rfl hsum).1, helapsed]

theorem checkedMicrosAt_eq (c : TickClock) (tick : UInt32) :
    c.checkedMicrosAt tick = some (c.microsAt tick) := by
  rw [checkedMicrosAt, checkedElapsed_eq]
  rfl

/-! ## Values of the counter -/

theorem ticksSince_tickAt (c : TickClock) (n : Int) :
    c.source.ticksSince (c.reference.tickAt n) = (n % 2 ^ 32).toNat := by
  have htick : (c.reference.tickAt n).toNat =
      ((c.reference.tick.toNat + n) % 2 ^ 32).toNat % 2 ^ 32 := UInt32.toNat_ofNat'
  simp only [Source.ticksSince, source, htick]
  omega

/-- A value stands for its first occurrence from the reference on. -/
theorem toNat_microsAt_tickAt (c : TickClock) (n : Int) :
    (c.microsAt (c.reference.tickAt n)).toNat = min (2 ^ 64 - 1)
      (c.reference.micros.toNat + (n % 2 ^ 32).toNat * 1000000 / max c.rate.toNat 1) := by
  rw [toNat_microsAt, Source.microsAt, ticksSince_tickAt]
  rfl

theorem toNat_microsAt_after (c : TickClock) {n : Nat} (h : n < 2 ^ 32) :
    (c.microsAt (c.reference.tickAt n)).toNat = min (2 ^ 64 - 1)
      (c.reference.micros.toNat + n * 1000000 / max c.rate.toNat 1) := by
  have hn : ((n : Int) % 2 ^ 32).toNat = n := by omega
  rw [toNat_microsAt_tickAt, hn]

theorem toNat_microsAt_before (c : TickClock) {k : Nat} (h : 1 ≤ k) (h' : k < 2 ^ 32) :
    (c.microsAt (c.reference.tickAt (-k))).toNat = min (2 ^ 64 - 1)
      (c.reference.micros.toNat + (2 ^ 32 - k) * 1000000 / max c.rate.toNat 1) := by
  have hk : ((-k : Int) % 2 ^ 32).toNat = 2 ^ 32 - k := by omega
  rw [toNat_microsAt_tickAt, hk]

/-- A value of the counter that was captured up to one wrap-around after the reference is converted to
the exact time, rounded down, or to the largest word if it is later than that. No product and no sum
on the way overflows, later values have no earlier times, and the time in seconds is the quotient. -/
theorem conversion_exact (c : TickClock) (n : Nat) (h : n < 2 ^ 32) :
    ∃ us sec : UInt64,
      (c.perform (.micros (some (c.reference.tickAt n)))).1 = .count us ∧
      (c.perform (.seconds (some (c.reference.tickAt n)))).1 = .count sec ∧
      us.toNat = min (2 ^ 64 - 1)
        (c.reference.micros.toNat + n * 1000000 / max c.rate.toNat 1) ∧
      sec.toNat = us.toNat / 1000000 ∧
      c.checkedMicrosAt (c.reference.tickAt n) = some us ∧
      ∀ m ≤ n, ∃ us' : UInt64,
        (c.perform (.micros (some (c.reference.tickAt m)))).1 = .count us' ∧ us' ≤ us := by
  refine ⟨c.microsAt (c.reference.tickAt n), _, rfl, rfl, c.toNat_microsAt_after h,
    UInt64.toNat_div _ _, c.checkedMicrosAt_eq _, ?_⟩
  intro m hm
  refine ⟨c.microsAt (c.reference.tickAt m), rfl, ?_⟩
  have hscaled : m * 1000000 / max c.rate.toNat 1 ≤ n * 1000000 / max c.rate.toNat 1 :=
    Nat.div_le_div_right (Nat.mul_le_mul_right _ hm)
  rw [UInt64.le_iff_toNat_le, c.toNat_microsAt_after h,
    c.toNat_microsAt_after (Nat.lt_of_le_of_lt hm h)]
  omega

/-- A clock of a board, set a hundred ticks before its counter wraps around. -/
def board : TickClock where
  ticks := 400
  rate := 1000
  reference := { micros := 1646122354000000, tick := 4294967196 }

theorem board_converts_wrapped :
    500 < 2 ^ 32 ∧ board.reference.tickAt (500 : Nat) = 400 ∧
      ∃ us : UInt64, (board.perform (.micros (some 400))).1 = .count us ∧
        us.toNat = 1646122354500000 := by
  have htick : board.reference.tickAt (500 : Nat) = 400 := by decide
  obtain ⟨us, -, hus, -, hexact, -⟩ := conversion_exact board 500 (by decide)
  rw [htick] at hus
  exact ⟨by decide, htick, us, hus, hexact⟩

/-! ## References -/

theorem reference_perform (c : TickClock) {a : Action} (h : a.resyncs = false) :
    (c.perform a).2.reference = c.reference := by
  have hsource := congrArg Source.reference (c.source_perform a)
  cases a with
  | sync reference => cases h
  | _ => exact hsource

/-- By induction on the run: only another reference replaces one. -/
theorem reference_run {l : List Action} :
    ∀ c : TickClock, (∀ a ∈ l, a.resyncs = false) → (c.run l).2.reference = c.reference := by
  induction l with
  | nil =>
    intro c _
    rfl
  | cons a rest ih =>
    intro c h
    obtain ⟨ha, hrest⟩ := List.forall_mem_cons.1 h
    rw [run_cons, ih _ hrest, reference_perform c ha]

/-- A value of the counter that was captured before a reference came into force is not mapped to a time
before it. The clock takes it for the same value behind the next wrap-around, at which time the
counter has not arrived yet: the time is later than that of the reference, unless that is the
largest word already. -/
theorem earlier_tick_mapped_late (c : TickClock) (reference : Reference) (later : List Action)
    (k : Nat) (hl : ∀ a ∈ later, a.resyncs = false) (h : 1 ≤ k) (h' : k < 2 ^ 31) :
    ∃ us : UInt64,
      (((c.sync reference).run later).2.perform (.micros (some (reference.tickAt (-k))))).1 =
        .count us ∧
      us.toNat = min (2 ^ 64 - 1) (reference.micros.toNat +
        (2 ^ 32 - k) * 1000000 / max ((c.sync reference).run later).2.rate.toNat 1) ∧
      (us ≤ reference.micros ↔ reference.micros.toNat = 2 ^ 64 - 1) := by
  have hforce : ((c.sync reference).run later).2.reference = reference :=
    reference_run (c.sync reference) hl
  have hmicros := toNat_microsAt_before ((c.sync reference).run later).2 h (by omega)
  rw [hforce] at hmicros
  refine ⟨((c.sync reference).run later).2.microsAt (reference.tickAt (-k)), rfl, hmicros, ?_⟩
  -- Half a second passes at least before the counter wraps around, however fast it is.
  have hrate := ((c.sync reference).run later).2.rate.toNat_lt
  have hpositive : 1 ≤ (2 ^ 32 - k) * 1000000 /
      max ((c.sync reference).run later).2.rate.toNat 1 := by
    rw [Nat.le_div_iff_mul_le (by omega)]
    omega
  have hlast := reference.micros.toNat_lt
  rw [UInt64.le_iff_toNat_le, hmicros]
  omega

theorem board_maps_late :
    (∀ a ∈ [Action.setTicks 401, .micros none], a.resyncs = false) ∧
      ∃ us : UInt64,
        (((board.sync { micros := 1646122355000000, tick := 0 }).run
          [.setTicks 401, .micros none]).2.perform (.micros (some 4294967295))).1 = .count us ∧
        us.toNat = 1646122355000000 + 4294967295000 := by
  have hkept : ∀ a ∈ [Action.setTicks 401, .micros none], a.resyncs = false := by simp [Action.resyncs]
  obtain ⟨us, hus, hlate, -⟩ := earlier_tick_mapped_late board
    { micros := 1646122355000000, tick := 0 } [.setTicks 401, .micros none] 1 hkept (by decide)
    (by decide)
  exact ⟨hkept, us, hus, hlate⟩

/-- A value that was captured a second before a new reference is converted to its own time under the
old one, and to a time 49 days later under the new one. -/
theorem captured_tick_in_future :
    ({ board with reference := { micros := 1646122354000000, tick := 0 } }.run
      [.micros (some 4000), .sync { micros := 1646122359000000, tick := 5000 },
        .micros (some 4000)]).1 =
      [.count 1646122358000000, .done, .count 1650417325296000] ∧
    Reference.tickAt { micros := 1646122359000000, tick := 5000 } (-1000) = 4000 ∧
    ¬ (1650417325296000 : UInt64) ≤ 1646122359000000 :=
  ⟨rfl, by decide, by decide⟩

end TickClock

end SigV4
