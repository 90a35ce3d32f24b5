import SigV4.Proofs.Text.Numeral
import SigV4.Proofs.Time.Calendar
import SigV4.Proofs.Time.Iso8601

/-!
# SigV4.Proofs.Time.Form

Written forms of a time, filled with numbers and read again.

* `Slot.fill` — the bytes of a form with given numbers in its places.
* `Slot.Fits` — each place has a number, and each number fits its place.
* `numbers?_fill`, `fill_of_numbers?` — reading finds the numbers that a form was filled with, and
  bytes that can be read are the form filled with what was read.
* `Reading.FourDigits` — readings whose numbers fit their places (`fits`).
* `readForm_fill`, `fill_of_readForm` — the same for a whole reading: what comes of a filled form, and
  that a form which is read was filled with the reading.
-/

namespace SigV4

namespace Slot

/-! ## Filling -/

def fill : List Slot → List Nat → Bytes
  | number width :: rest, n :: ns => utf8 (padded width n) ++ fill rest ns
  | mark byte :: rest, ns => byte :: fill rest ns
  | _, _ => []

def Fits : List Slot → List Nat → Prop
  | [], ns => ns = []
  | number width :: rest, n :: ns => n < 10 ^ width ∧ Fits rest ns
  | number _ :: _, [] => False
  | mark _ :: rest, ns => Fits rest ns

theorem length_utf8_padded {width n : Nat} (h : n < 10 ^ width) :
    (utf8 (padded width n)).length = width :=
  (byteLength_padded width n).trans (length_padded h)

theorem length_fill {form : List Slot} :
    ∀ {ns : List Nat}, Fits form ns → (fill form ns).length = total form := by
  induction form with
  | nil =>
    intro ns _
    rfl
  | cons slot rest ih =>
    intro ns h
    cases slot with
    | number width =>
      cases ns with
      | nil => cases h
      | cons n ns =>
        rw [fill, List.length_append, length_utf8_padded h.1, ih h.2, total, size]
    | mark byte => rw [fill, List.length_cons, ih h, total, size, Nat.add_comm]

theorem numbers?_fill {form : List Slot} :
    ∀ {ns : List Nat}, Fits form ns →
      digitsInPlace form (fill form ns) = true ∧ numbers? form (fill form ns) = some ns := by
  induction form with
  | nil =>
    intro ns h
    cases h
    exact ⟨rfl, rfl⟩
  | cons slot rest ih =>
    intro ns h
    cases slot with
    | number width =>
      cases ns with
      | nil => cases h
      | cons n ns =>
        obtain ⟨hdigits, hnumbers⟩ := ih h.2
        have hlen := length_utf8_padded h.1
        rw [fill, digitsInPlace, numbers?, List.take_left' hlen, List.drop_left' hlen, hdigits,
          hnumbers, isDigitByte_padded h.1, ofDigits_padded h.1]
        exact ⟨rfl, rfl⟩
    | mark byte =>
      obtain ⟨hdigits, hnumbers⟩ := ih h
      refine ⟨hdigits, ?_⟩
      rw [fill, numbers?, List.head?_cons, if_pos rfl]
      exact hnumbers

/-- The other way round. The sizes have to agree, as nothing is read behind a form. -/
theorem fill_of_numbers? {form : List Slot} :
    ∀ {bytes : Bytes} {ns : List Nat}, bytes.length = total form →
      digitsInPlace form bytes = true → numbers? form bytes = some ns →
      Fits form ns ∧ fill form ns = bytes := by
  induction form with
  | nil =>
    intro bytes ns hlen _ hn
    cases hn
    exact ⟨rfl, (List.length_eq_zero_iff.1 hlen).symm⟩
  | cons slot rest ih =>
    intro bytes ns hlen hd hn
    rw [total] at hlen
    cases slot with
    | number width =>
      rw [size] at hlen
      simp only [digitsInPlace, Bool.and_eq_true] at hd
      obtain ⟨ns', hns, rfl⟩ := Option.map_eq_some_iff.1 hn
      have hrest : (bytes.drop width).length = total rest := by
        rw [List.length_drop]
        omega
      have htake : (bytes.take width).length = width := by
        rw [List.length_take]
        omega
      obtain ⟨hfits, hfill⟩ := ih hrest hd.2 hns
      obtain ⟨hback, hlt⟩ := padded_ofDigits htake hd.1
      refine ⟨⟨hlt, hfits⟩, ?_⟩
      rw [fill, hfill, hback, List.take_append_drop]
    | mark byte =>
      rw [size] at hlen
      simp only [numbers?] at hn
      split at hn
      · rename_i hhead
        obtain ⟨tail, rfl⟩ := List.head?_eq_some_iff.1 hhead
        have htail : tail.length = total rest := by
          rw [List.length_cons] at hlen
          omega
        obtain ⟨hfits, hfill⟩ := ih htail hd hn
        refine ⟨hfits, ?_⟩
        rw [fill, hfill]
      · cases hn

end Slot

/-! ## Readings -/

namespace Reading

/-- The numbers of a reading in the order of both forms. -/
def numbers (r : Reading) : List Nat :=
  [r.date.year.toNat, r.date.month, r.date.day, r.hour, r.minute, r.second]

/-- Whether the year is written with four digits. -/
def FourDigits (r : Reading) : Prop := 0 ≤ r.date.year ∧ r.date.year ≤ 9999

theorem of?_numbers {r : Reading} (h : r.FourDigits) : of? r.numbers = some r := by
  have hyear : (r.date.year.toNat : Int) = r.date.year := Int.toNat_of_nonneg h.1
  simp only [numbers, of?, hyear]

theorem of?_eq_some {ns : List Nat} {r : Reading} (h : of? ns = some r) :
    ns = r.numbers ∧ 0 ≤ r.date.year := by
  unfold of? at h
  split at h
  · cases h
    exact ⟨rfl, Int.natCast_nonneg _⟩
  · cases h

theorem fits {r : Reading} (h : r.FourDigits) (hv : r.Valid) :
    Slot.Fits Slot.basicForm r.numbers ∧ Slot.Fits Slot.extendedForm r.numbers := by
  obtain ⟨hdate, hhour, hminute, hsecond⟩ := hv
  have hmonth := hdate.2.1
  have hday := Date.day_le hdate
  obtain ⟨hge, hle⟩ := h
  simp only [numbers, Slot.Fits, Slot.basicForm, Slot.extendedForm, and_true]
  omega

/-- What comes of reading a form that was filled with date and time. -/
theorem readForm_fill {form : List Slot} {s : Text} {r : Reading} (h : r.FourDigits)
    (hv : r.Valid) (hfits : Slot.Fits form r.numbers) (hs : utf8 s = Slot.fill form r.numbers) :
    readForm form s =
      if r.second = 60 then .error (.timeLeapSecond s)
      else if r.unixSeconds < 0 then .error (.timeBeforeEpoch s)
      else .ok r.unixSeconds.toNat := by
  obtain ⟨hdigits, hnumbers⟩ := Slot.numbers?_fill hfits
  rw [readForm, hs, if_pos hdigits, hnumbers]
  simp only [Option.bind_some, of?_numbers h, if_pos hv]

/-- A form that is read was filled with a date and a time that exist. -/
theorem fill_of_readForm {form : List Slot} {s : Text} {n : Nat}
    (hlen : byteLength s = Slot.total form) (h : readForm form s = .ok n) :
    ∃ r : Reading, 0 ≤ r.date.year ∧ r.Valid ∧ r.second < 60 ∧ r.unixSeconds = n ∧
      Slot.Fits form r.numbers ∧ utf8 s = Slot.fill form r.numbers := by
  unfold readForm at h
  split at h
  · rename_i hdigits
    split at h
    · cases h
    · rename_i r hread
      obtain ⟨ns, hns, hof⟩ := Option.bind_eq_some_iff.1 hread
      obtain ⟨hnumbers, hyear⟩ := of?_eq_some hof
      obtain ⟨hfits, hfill⟩ := Slot.fill_of_numbers? hlen hdigits hns
      rw [hnumbers] at hfits hfill
      split at h
      · rename_i hv
        split at h
        · cases h
        · rename_i hleap
          split at h
          · cases h
          · rename_i hepoch
            cases h
            have hsecond := hv.2.2.2
            exact ⟨r, hyear, hv, by omega, by omega, hfits, hfill.symm⟩
      · cases h
  · cases h

end Reading

end SigV4
