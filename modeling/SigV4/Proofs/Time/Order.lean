import SigV4.Proofs.Time.RoundTrip

/-!
# SigV4.Proofs.Time.Order

Written times stand in the order of time.

* `append_lt_append_iff` — where the first parts have one size, they are compared before the rest.
* `fill_lt_fill_iff`     — so filled forms stand in the order of the numbers in their places.
* `Date.Before`          — the order of dates; it is that of their days (`toDays_lt_iff`).
* `clock_lt_iff`         — the order of clock times, by the minute of the day and the second that shows.
* `basic_lt_iff`, `basic_eq_iff`, `basic_le_of_le` — the basic form stands in the order of instants as
  long as the year has four digits.
-/

namespace SigV4

/-! ## Bytes in order -/

theorem append_lt_append_iff {a a' b b' : Bytes} (h : a.length = a'.length) :
    a ++ b < a' ++ b' ↔ a < a' ∨ a = a' ∧ b < b' := by
  induction a generalizing a' with
  | nil =>
    rw [List.length_nil, eq_comm, List.length_eq_zero_iff] at h
    simp [h]
  | cons x a ih =>
    cases a' with
    | nil => cases h
    | cons x' a' =>
      simp only [List.cons_append, List.cons_lt_cons_iff, ih (Nat.succ.inj h), List.cons.injEq,
        and_or_left, or_assoc, and_assoc]

theorem utf8_padded_inj {width m n : Nat} (hm : m < 10 ^ width) (hn : n < 10 ^ width)
    (h : utf8 (padded width m) = utf8 (padded width n)) : m = n := by
  rw [← ofDigits_padded hm, h, ofDigits_padded hn]

/-- By induction on the width: the last digit counts where all others agree. -/
theorem utf8_padded_lt_iff {width : Nat} :
    ∀ {m n : Nat}, m < 10 ^ width → n < 10 ^ width →
      (utf8 (padded width m) < utf8 (padded width n) ↔ m < n) := by
  induction width with
  | zero =>
    intro m n hm hn
    simp only [Nat.pow_zero, Nat.lt_one_iff] at hm hn
    simp [hm, hn]
  | succ width ih =>
    intro m n hm hn
    have hm' : m / 10 < 10 ^ width := by
      rw [Nat.div_lt_iff_lt_mul (by decide), ← Nat.pow_succ]
      exact hm
    have hn' : n / 10 < 10 ^ width := by
      rw [Nat.div_lt_iff_lt_mul (by decide), ← Nat.pow_succ]
      exact hn
    have hlen : (utf8 (padded width (m / 10))).length = (utf8 (padded width (n / 10))).length := by
      rw [Slot.length_utf8_padded hm', Slot.length_utf8_padded hn']
    have hsame : utf8 (padded width (m / 10)) = utf8 (padded width (n / 10)) ↔ m / 10 = n / 10 :=
      ⟨utf8_padded_inj hm' hn', fun heq => by rw [heq]⟩
    rw [utf8_padded_succ, utf8_padded_succ, append_lt_append_iff hlen, ih hm' hn', hsame,
      byte_cons_lt_iff (by omega) (by omega)]
    simp only [List.not_lt_nil, and_false, or_false]
    omega

namespace Slot

/-- Forms are compared place by place, the marks being the same. -/
theorem fill_lt_fill_iff {form : List Slot} :
    ∀ {ns ns' : List Nat}, Fits form ns → Fits form ns' →
      (fill form ns < fill form ns' ↔ ns < ns') := by
  induction form with
  | nil =>
    intro ns ns' h h'
    cases h
    cases h'
    simp [fill]
  | cons slot rest ih =>
    intro ns ns' h h'
    cases slot with
    | number width =>
      cases ns with
      | nil => cases h
      | cons n ns =>
        cases ns' with
        | nil => cases h'
        | cons n' ns' =>
          have hlen : (utf8 (padded width n)).length = (utf8 (padded width n')).length := by
            rw [length_utf8_padded h.1, length_utf8_padded h'.1]
          have hsame : utf8 (padded width n) = utf8 (padded width n') ↔ n = n' :=
            ⟨utf8_padded_inj h.1 h'.1, fun heq => by rw [heq]⟩
          rw [fill, fill, append_lt_append_iff hlen, utf8_padded_lt_iff h.1 h'.1, hsame,
            ih h.2 h'.2, List.cons_lt_cons_iff]
    | mark byte => rw [fill, fill, List.cons_lt_cons_self, ih h h']

end Slot

/-! ## Dates in order -/

namespace Date

/-- By year, then by month, then by day. -/
def Before (d d' : Date) : Prop :=
  d.year < d'.year ∨ d.year = d'.year ∧
    (d.month < d'.month ∨ d.month = d'.month ∧ d.day < d'.day)

theorem daysIn_take_le {l : List Nat} :
    ∀ {i j : Nat}, i ≤ j → daysIn (l.take i) ≤ daysIn (l.take j) := by
  induction l with
  | nil =>
    intro i j _
    simp [daysIn]
  | cons length rest ih =>
    intro i j h
    cases i with
    | zero => simp [daysIn]
    | succ i =>
      cases j with
      | zero => cases h
      | succ j =>
        simp only [List.take_succ_cons, daysIn]
        exact Nat.add_le_add_left (ih (Nat.le_of_succ_le_succ h)) length

theorem daysIn_take_succ {l : List Nat} :
    ∀ i : Nat, daysIn (l.take (i + 1)) = daysIn (l.take i) + l.getD i 0 := by
  induction l with
  | nil =>
    intro i
    simp [daysIn]
  | cons length rest ih =>
    intro i
    cases i with
    | zero => simp [daysIn]
    | succ i =>
      rw [List.take_succ_cons, List.take_succ_cons, daysIn, daysIn, ih, List.getD_cons_succ]
      omega

theorem toDays_lt_of_before {d d' : Date} (hv : d.Valid) (hv' : d'.Valid) (h : d.Before d') :
    d.toDays < d'.toDays := by
  rcases h with hyear | ⟨hyear, hmonth | ⟨hmonth, hday⟩⟩
  · have hend := toDays_lt_daysBeforeYear hv
    have hstart := daysBeforeYear_le_toDays hv'
    have hyears : daysBeforeYear (d.year + 1) ≤ daysBeforeYear d'.year := daysBeforeYear_le hyear
    omega
  · obtain ⟨hfirst, -, hday, hlast⟩ := hv
    obtain ⟨-, -, hday', -⟩ := hv'
    have hmonths : daysIn ((monthLengths d.year).take (d.month - 1 + 1)) ≤
        daysIn ((monthLengths d.year).take (d'.month - 1)) := daysIn_take_le (by omega)
    rw [daysIn_take_succ] at hmonths
    simp only [toDays, ← hyear]
    omega
  · obtain ⟨-, -, hfirst, -⟩ := hv
    simp only [toDays, ← hyear, ← hmonth]
    omega

theorem eq_iff {d d' : Date} :
    d = d' ↔ d.year = d'.year ∧ d.month = d'.month ∧ d.day = d'.day := by
  cases d
  cases d'
  simp only [Date.mk.injEq]

theorem before_or_eq_or_before (d d' : Date) : d.Before d' ∨ d = d' ∨ d'.Before d := by
  simp only [Before, eq_iff]
  omega

theorem toDays_lt_iff {d d' : Date} (hv : d.Valid) (hv' : d'.Valid) :
    d.toDays < d'.toDays ↔ d.Before d' := by
  refine ⟨fun h => ?_, toDays_lt_of_before hv hv'⟩
  rcases before_or_eq_or_before d d' with hbefore | rfl | hafter
  · exact hbefore
  · omega
  · have := toDays_lt_of_before hv' hv hafter
    omega

theorem ofDays_before_iff {m n : Int} : (ofDays m).Before (ofDays n) ↔ m < n := by
  rw [← toDays_lt_iff (ofDays_valid m) (ofDays_valid n), toDays_ofDays, toDays_ofDays]

end Date

/-! ## Instants in order -/

namespace Instant

variable {t t' : Instant}

/-- Hours and minutes are compared as minutes of the day. -/
theorem clock_lt_iff {m n second second' : Nat} :
    [m / 3600, m / 60 % 60, second] < [n / 3600, n / 60 % 60, second'] ↔
      m / 60 < n / 60 ∨ m / 60 = n / 60 ∧ second < second' := by
  have hhours : ∀ n : Nat, n / 60 / 60 = n / 3600 := fun n => Nat.div_div_eq_div_mul n 60 60
  have hminutes : m / 3600 < n / 3600 ∨
      m / 3600 = n / 3600 ∧ m / 60 % 60 < n / 60 % 60 ↔ m / 60 < n / 60 := by
    rw [← hhours, ← hhours]
    omega
  have hsame : m / 3600 = n / 3600 ∧ m / 60 % 60 = n / 60 % 60 ↔ m / 60 = n / 60 := by
    rw [← hhours, ← hhours]
    omega
  rw [← hminutes, ← hsame]
  simp only [List.cons_lt_cons_iff, List.not_lt_nil, and_false, or_false, and_or_left, or_assoc,
    and_assoc]

theorem date_eq_iff : t.date = t'.date ↔ t.seconds / 86400 = t'.seconds / 86400 := by
  refine ⟨fun h => ?_, fun h => congrArg Date.ofDays h⟩
  rw [← Date.toDays_ofDays (t.seconds / 86400), ← Date.toDays_ofDays (t'.seconds / 86400)]
  exact congrArg Date.toDays h

/-- What is shown is compared by the date and then by the clock. -/
theorem numbers_lt_iff (h : t.reading.FourDigits) (h' : t'.reading.FourDigits) :
    t.reading.numbers < t'.reading.numbers ↔ t.date.Before t'.date ∨
      t.date = t'.date ∧ [t.hour, t.minute, t.second] < [t'.hour, t'.minute, t'.second] := by
  have hyear : 0 ≤ t.date.year := h.1
  have hyear' : 0 ≤ t'.date.year := h'.1
  have hlt : t.date.year.toNat < t'.date.year.toNat ↔ t.date.year < t'.date.year := by omega
  have heq : t.date.year.toNat = t'.date.year.toNat ↔ t.date.year = t'.date.year := by omega
  simp only [Reading.numbers, reading, Date.Before, Date.eq_iff, List.cons_lt_cons_iff, hlt, heq,
    and_or_left, or_assoc, and_assoc]

/-- Written times of four-digit years are compared by the minute and by the second that shows, so that
a leap second comes after all other seconds of its minute. -/
theorem basic_lt_iff (h : t.reading.FourDigits) (h' : t'.reading.FourDigits) :
    utf8 t.basic < utf8 t'.basic ↔
      t.seconds / 60 < t'.seconds / 60 ∨
        t.seconds / 60 = t'.seconds / 60 ∧ t.second < t'.second := by
  have hfits := (t.reading.fits h t.reading_valid).1
  have hfits' := (t'.reading.fits h' t'.reading_valid).1
  have hbefore : t.date.Before t'.date ↔ t.seconds / 86400 < t'.seconds / 86400 :=
    Date.ofDays_before_iff
  rw [utf8_basic h, utf8_basic h', Slot.fill_lt_fill_iff hfits hfits', numbers_lt_iff h h', hbefore,
    date_eq_iff]
  simp only [hour, minute]
  rw [clock_lt_iff]
  omega

/-- The minute and the second that shows, as one number. -/
theorem shownSeconds_eq (t : Instant) : t.shownSeconds = t.seconds / 60 * 60 + t.second := by
  simp only [shownSeconds, second]
  omega

/-- Times are written alike just if the same second shows, inside a leap second for both or neither. -/
theorem basic_eq_iff (h : t.reading.FourDigits) (h' : t'.reading.FourDigits) :
    t.basic = t'.basic ↔
      t.shownSeconds = t'.shownSeconds ∧ (t.second = 60 ↔ t'.second = 60) := by
  have hlt := basic_lt_iff h h'
  have hgt := basic_lt_iff h' h
  have hle := t.second_le
  have hle' := t'.second_le
  rw [shownSeconds_eq, shownSeconds_eq]
  constructor
  · intro heq
    have hirrefl := List.lt_irrefl (utf8 t'.basic)
    rw [heq] at hlt hgt
    have hnot := mt hlt.2 hirrefl
    have hnot' := mt hgt.2 hirrefl
    omega
  · rintro ⟨hshown, hleap⟩
    apply utf8_inj
    apply List.le_antisymm
    · rw [← List.not_lt, hgt]
      omega
    · rw [← List.not_lt, hlt]
      omega

theorem basic_le_of_le (h : t.reading.FourDigits) (h' : t'.reading.FourDigits) (hle : t ≤ t') :
    utf8 t.basic ≤ utf8 t'.basic := by
  have hnanos := t.nanos_lt
  rw [le_iff] at hle
  rw [← List.not_lt, basic_lt_iff h' h]
  simp only [second]
  omega

end Instant

end SigV4
