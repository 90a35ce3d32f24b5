import SigV4.Time.Calendar

/-!
# SigV4.Proofs.Time.Calendar

Days and dates are two ways to count the same thing.

* `le_yearOfDay_iff` — a day lies in a year or after it just if that year has begun.
* `monthAndDay_walk`, `walk_monthAndDay` — walking along the months stops at the month and the day
  that the days before them lead to.
* `ofDays_valid`, `toDays_ofDays`, `ofDays_toDays` — every day has a date, every date that exists has
  a day, and each is found from the other.
-/

namespace SigV4

/-! ## Years -/

theorem daysBeforeYear_lt {y y' : Int} (h : y < y') : daysBeforeYear y < daysBeforeYear y' := by
  simp only [daysBeforeYear]
  omega

theorem daysBeforeYear_le {y y' : Int} (h : y ≤ y') : daysBeforeYear y ≤ daysBeforeYear y' := by
  rcases Int.lt_or_eq_of_le h with hlt | heq
  · exact Int.le_of_lt (daysBeforeYear_lt hlt)
  · exact Int.le_of_eq (congrArg daysBeforeYear heq)

theorem le_yearOfDay_iff {n y : Int} : y ≤ yearOfDay n ↔ daysBeforeYear y ≤ n := by
  constructor
  · intro h
    exact Int.le_trans (daysBeforeYear_le h) (daysBeforeYear_yearOfDay_le n)
  · intro h
    apply Int.not_lt.1
    intro hlt
    have hnext : daysBeforeYear (yearOfDay n + 1) ≤ daysBeforeYear y := daysBeforeYear_le hlt
    have hday := lt_daysBeforeYear_yearOfDay n
    omega

theorem yearOfDay_eq {n y : Int} (h : daysBeforeYear y ≤ n) (h' : n < daysBeforeYear (y + 1)) :
    yearOfDay n = y := by
  have hge := le_yearOfDay_iff.2 h
  have hle : ¬ y + 1 ≤ yearOfDay n := by
    rw [le_yearOfDay_iff]
    omega
  omega

/-! ## Months -/

/-- The days of the months before a day, and those of its own month before it, are fewer than all. -/
theorem daysIn_take_lt {l : List Nat} :
    ∀ {i j : Nat}, j < l.getD i 0 → daysIn (l.take i) + j < daysIn l := by
  induction l with
  | nil =>
    intro i j h
    simp at h
  | cons length rest ih =>
    intro i j h
    cases i with
    | zero =>
      simp at h
      simp only [List.take_zero, daysIn]
      omega
    | succ i =>
      have := ih (i := i) (j := j) (by simpa using h)
      simp only [List.take_succ_cons, daysIn]
      omega

theorem monthAndDay_walk {l : List Nat} :
    ∀ {i j : Nat}, j < l.getD i 0 → monthAndDay l (daysIn (l.take i) + j) = (i + 1, j + 1) := by
  induction l with
  | nil =>
    intro i j h
    simp at h
  | cons length rest ih =>
    intro i j h
    cases i with
    | zero =>
      have hj : j < length := by simpa using h
      simp [monthAndDay, daysIn, hj]
    | succ i =>
      have hstep := ih (i := i) (j := j) (by simpa using h)
      have hnot : ¬ length + daysIn (rest.take i) + j < length := by omega
      have hsub : length + daysIn (rest.take i) + j - length = daysIn (rest.take i) + j := by omega
      simp only [List.take_succ_cons, daysIn, monthAndDay, if_neg hnot, hsub, hstep]

theorem walk_monthAndDay {l : List Nat} :
    ∀ {n : Nat}, n < daysIn l →
      ∃ i j, j < l.getD i 0 ∧ i < l.length ∧ n = daysIn (l.take i) + j := by
  induction l with
  | nil =>
    intro n h
    simp [daysIn] at h
  | cons length rest ih =>
    intro n h
    by_cases hn : n < length
    · exact ⟨0, n, by simpa using hn, by simp, by simp [daysIn]⟩
    · simp only [daysIn] at h
      obtain ⟨i, j, hj, hi, hsum⟩ := ih (n := n - length) (by omega)
      refine ⟨i + 1, j, by simpa using hj, by simpa using hi, ?_⟩
      simp only [List.take_succ_cons, daysIn]
      omega

theorem length_monthLengths (year : Int) : (monthLengths year).length = 12 := rfl

theorem monthLengths_le {year : Int} (i : Nat) : (monthLengths year).getD i 0 ≤ 31 := by
  rcases i with _ | _ | _ | _ | _ | _ | _ | _ | _ | _ | _ | _ | i
  case succ.zero =>
    simp only [monthLengths, List.getD_cons_succ, List.getD_cons_zero]
    split <;> omega
  all_goals simp [monthLengths]

namespace Date

theorem day_le {d : Date} (h : d.Valid) : d.day ≤ 31 :=
  Nat.le_trans h.2.2.2 (monthLengths_le _)

/-! ## Dates -/

theorem daysBeforeYear_le_toDays {d : Date} (h : d.Valid) :
    daysBeforeYear d.year ≤ d.toDays + daysBeforeYear 1970 := by
  obtain ⟨-, -, hday, -⟩ := h
  simp only [toDays]
  omega

theorem toDays_lt_daysBeforeYear {d : Date} (h : d.Valid) :
    d.toDays + daysBeforeYear 1970 < daysBeforeYear (d.year + 1) := by
  obtain ⟨-, -, hday, hlast⟩ := h
  have hfew := daysIn_take_lt (l := monthLengths d.year) (i := d.month - 1) (j := d.day - 1)
    (by omega)
  rw [daysBeforeYear_succ]
  simp only [toDays]
  omega

theorem ofDays_toDays {d : Date} (h : d.Valid) : ofDays d.toDays = d := by
  have hyear : yearOfDay (d.toDays + daysBeforeYear 1970) = d.year :=
    yearOfDay_eq (daysBeforeYear_le_toDays h) (toDays_lt_daysBeforeYear h)
  obtain ⟨hmonth, -, hday, hlast⟩ := h
  have hwalk := monthAndDay_walk (l := monthLengths d.year) (i := d.month - 1) (j := d.day - 1)
    (by omega)
  have hrest : (d.toDays + daysBeforeYear 1970 - daysBeforeYear d.year).toNat =
      daysIn ((monthLengths d.year).take (d.month - 1)) + (d.day - 1) := by
    simp only [toDays]
    omega
  simp only [ofDays, hyear, hrest, hwalk]
  cases d
  simp only [Date.mk.injEq, true_and]
  simp only at hmonth hday
  omega

/-- The date of a day: in the year of that day, as many days after its start. -/
theorem ofDays_spec (n : Int) : (ofDays n).Valid ∧ (ofDays n).toDays = n := by
  have hge := daysBeforeYear_yearOfDay_le (n + daysBeforeYear 1970)
  have hlt := lt_daysBeforeYear_yearOfDay (n + daysBeforeYear 1970)
  rw [daysBeforeYear_succ] at hlt
  obtain ⟨i, j, hj, hi, hsum⟩ := walk_monthAndDay
    (l := monthLengths (yearOfDay (n + daysBeforeYear 1970)))
    (n := (n + daysBeforeYear 1970 - daysBeforeYear (yearOfDay (n + daysBeforeYear 1970))).toNat)
    (by omega)
  have hdate : ofDays n = ⟨yearOfDay (n + daysBeforeYear 1970), i + 1, j + 1⟩ := by
    simp only [ofDays, hsum, monthAndDay_walk hj]
  rw [length_monthLengths] at hi
  rw [hdate]
  constructor
  · simp only [Valid, Nat.add_sub_cancel]
    omega
  · simp only [toDays, Nat.add_sub_cancel]
    omega

theorem ofDays_valid (n : Int) : (ofDays n).Valid := (ofDays_spec n).1

theorem toDays_ofDays (n : Int) : (ofDays n).toDays = n := (ofDays_spec n).2

theorem le_year_ofDays_iff {n y : Int} :
    y ≤ (ofDays n).year ↔ daysBeforeYear y - daysBeforeYear 1970 ≤ n := by
  have hiff := le_yearOfDay_iff (n := n + daysBeforeYear 1970) (y := y)
  have hyear : (ofDays n).year = yearOfDay (n + daysBeforeYear 1970) := rfl
  rw [hyear, hiff]
  omega

end Date

end SigV4
