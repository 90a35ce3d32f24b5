import SigV4.Proofs.Text.Percent
import SigV4.Time.Iso8601

/-!
# SigV4.Proofs.Time.Iso8601

What a written time consists of.

* `digit_or_mark_of_numbers?` — where a form can be read, each byte is a digit or one of its marks.
* `unreserved_of_basicForm`   — so nothing of a time in basic form needs an escape.
-/

namespace SigV4

namespace Slot

/-- The bytes that a slot takes. -/
def size : Slot → Nat
  | number width => width
  | mark _ => 1

/-- The bytes that a form takes. -/
def total : List Slot → Nat
  | [] => 0
  | slot :: rest => slot.size + total rest

theorem digit_or_mark_of_numbers? {form : List Slot} :
    ∀ {bytes : Bytes} {ns : List Nat}, digitsInPlace form bytes = true →
      numbers? form bytes = some ns →
      ∀ b ∈ bytes.take (total form), isDigitByte b = true ∨ mark b ∈ form := by
  induction form with
  | nil =>
    intro bytes ns _ _ b hb
    cases hb
  | cons slot rest ih =>
    intro bytes ns hd hn b hb
    rw [total, List.take_add, List.mem_append] at hb
    cases slot with
    | number width =>
      simp only [digitsInPlace, Bool.and_eq_true] at hd
      simp only [numbers?] at hn
      obtain ⟨ns', hns, -⟩ := Option.map_eq_some_iff.1 hn
      rcases hb with hb | hb
      · exact .inl (List.all_eq_true.1 hd.1 b hb)
      · exact (ih hd.2 hns b hb).imp_right (List.mem_cons_of_mem _)
    | mark byte =>
      simp only [digitsInPlace] at hd
      simp only [numbers?] at hn
      split at hn
      · rename_i hhead
        rcases hb with hb | hb
        · obtain ⟨tail, rfl⟩ := List.head?_eq_some_iff.1 hhead
          rw [size, List.take_succ_cons, List.take_zero, List.mem_singleton] at hb
          exact .inr (hb ▸ List.mem_cons_self)
        · exact (ih hd hn b hb).imp_right (List.mem_cons_of_mem _)
      · cases hn

end Slot

theorem readForm_eq_ok {form : List Slot} {s : Text} {n : Nat} (h : readForm form s = .ok n) :
    Slot.digitsInPlace form (utf8 s) = true ∧ ∃ ns, Slot.numbers? form (utf8 s) = some ns := by
  unfold readForm at h
  split at h
  · rename_i hdigits
    refine ⟨hdigits, ?_⟩
    cases hns : Slot.numbers? form (utf8 s) with
    | none =>
      rw [hns] at h
      cases h
    | some ns => exact ⟨ns, rfl⟩
  · cases h

theorem unreserved_of_digit_or_mark {b : UInt8} (h : isDigitByte b = true ∨ b = 0x54 ∨ b = 0x5A) :
    b.toNat < 0x80 ∧ isUnreserved (Char.ofNat b.toNat) = true := by
  have hall : ∀ n, n < 256 → isDigitByte (UInt8.ofNat n) = true ∨ UInt8.ofNat n = 0x54 ∨
      UInt8.ofNat n = 0x5A → n < 0x80 ∧ isUnreserved (Char.ofNat n) = true := by
    decide +kernel
  exact hall b.toNat b.toNat_lt (by rwa [UInt8.ofNat_toNat])

theorem unreserved_of_basicForm {s : Text} {n : Nat} (hlen : byteLength s = 16)
    (h : unixSecondsOf s = .ok n) : s.all isUnreserved = true := by
  unfold unixSecondsOf at h
  rw [if_pos hlen] at h
  obtain ⟨hdigits, ns, hns⟩ := readForm_eq_ok h
  have hall : ∀ b ∈ utf8 s, isDigitByte b = true ∨ b = 0x54 ∨ b = 0x5A := by
    intro b hb
    have htake : (utf8 s).take (Slot.total Slot.basicForm) = utf8 s := List.take_of_length_le (by
      rw [show (utf8 s).length = 16 from hlen]
      decide)
    have hor := Slot.digit_or_mark_of_numbers? hdigits hns b (htake.symm ▸ hb)
    simpa [Slot.basicForm] using hor
  rw [List.all_eq_true]
  intro c hc
  obtain ⟨hlt, hmem⟩ := byte_of_mem (fun b hb => (unreserved_of_digit_or_mark (hall b hb)).1) hc
  have hkeep := (unreserved_of_digit_or_mark (hall _ hmem)).2
  rwa [toNat_ofNat_byte (by omega), Char.ofNat_toNat] at hkeep

end SigV4
