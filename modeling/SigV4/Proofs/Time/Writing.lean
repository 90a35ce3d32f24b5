import SigV4.Proofs.Buffer
import SigV4.Proofs.Time.RoundTrip

/-!
# SigV4.Proofs.Time.Writing

Times in buffers.

* `sixteen_le_basic` — no form is shorter than 16 bytes, so none leaves room behind it
  (`no_room_left`).
* `write_eq`        — what writing a time comes to: nothing in a buffer of less than 17 bytes; else
  the basic form and a zero byte, or as much of a longer form as would fit before that byte.
* `write_places_form` — when a time is written, and which bytes of the buffer change.
-/

namespace SigV4

namespace Instant

theorem sixteen_le_basic (t : Instant) : 16 ≤ byteLength t.basic := by
  by_cases hyear : 0 ≤ t.date.year ∧ t.date.year ≤ 9999
  · exact Nat.le_of_eq (byteLength_basic_eq_iff.2 hyear).symm
  · have hlong := byteLength_yearText (t := t) hyear
    have hlen := t.byteLength_basic
    omega

theorem write_eq (t : Instant) (buffer : Bytes) :
    t.write buffer =
      if buffer.length < 17 then (.error (.timeBufferSmall buffer.length), buffer)
      else if 0 ≤ t.date.year ∧ t.date.year ≤ 9999 then
        (.ok t.basic, utf8 t.basic ++ 0 :: buffer.drop 17)
      else (.error (.timeUnwritable t.spaced), (utf8 t.basic).take 16 ++ buffer.drop 16) := by
  unfold write
  split
  · rfl
  · rename_i hlarge
    by_cases hyear : 0 ≤ t.date.year ∧ t.date.year ≤ 9999
    · have hlen : (utf8 t.basic).length = 16 := byteLength_basic_eq_iff.2 hyear
      have hzero : place 16 [0] (place 0 (utf8 t.basic) buffer) =
          utf8 t.basic ++ 0 :: buffer.drop 17 := by
        have hplace : place (0 + (utf8 t.basic).length) [0] (place 0 (utf8 t.basic) buffer) =
            place 0 (utf8 t.basic ++ [0]) buffer := place_place (Nat.zero_le _) [0]
        rw [Nat.zero_add, hlen] at hplace
        rw [hplace, place_start, List.length_append, hlen, List.append_assoc]
        rfl
      have hread : ofUtf8? ((utf8 t.basic ++ 0 :: buffer.drop 17).take 16) = some t.basic := by
        rw [List.take_left' hlen, ofUtf8?_utf8]
      rw [writeWithin_of_length hlen, if_pos hyear]
      simp only [if_true, hzero, hread]
    · have hlong : 16 < (utf8 t.basic).length :=
        Nat.lt_of_le_of_ne t.sixteen_le_basic fun heq => hyear (byteLength_basic_eq_iff.1 heq.symm)
      rw [writeWithin_of_lt hlong, if_neg hyear]

variable {t : Instant} {buffer : Bytes}

theorem write_of_small (h : buffer.length < 17) :
    t.write buffer = (.error (.timeBufferSmall buffer.length), buffer) := by
  rw [write_eq, if_pos h]

theorem write_of_fourDigits (h : 17 ≤ buffer.length)
    (hyear : 0 ≤ t.date.year ∧ t.date.year ≤ 9999) :
    t.write buffer = (.ok t.basic, utf8 t.basic ++ 0 :: buffer.drop 17) := by
  rw [write_eq, if_neg (Nat.not_lt.2 h), if_pos hyear]

theorem write_of_long (h : 17 ≤ buffer.length)
    (hyear : ¬ (0 ≤ t.date.year ∧ t.date.year ≤ 9999)) :
    t.write buffer =
      (.error (.timeUnwritable t.spaced), (utf8 t.basic).take 16 ++ buffer.drop 16) := by
  rw [write_eq, if_neg (Nat.not_lt.2 h), if_neg hyear]

theorem length_take_basic (t : Instant) : ((utf8 t.basic).take 16).length = 16 := by
  have hlen : 16 ≤ (utf8 t.basic).length := t.sixteen_le_basic
  rw [List.length_take, Nat.min_eq_left hlen]

/-- The basic form fills the room that it is written to, if it fits at all. -/
theorem no_room_left (t : Instant) (buffer : Bytes) :
    ∀ left written, writeWithin 16 (utf8 t.basic) buffer = (some left, written) → left = 0 := by
  intro left written h
  rcases Nat.lt_or_eq_of_le t.sixteen_le_basic with hlong | hlen
  · rw [writeWithin_of_lt hlong] at h
    cases h
  · rw [writeWithin_of_length hlen.symm] at h
    cases h
    rfl

theorem write_eq_ok {text : Text} :
    (t.write buffer).1 = .ok text ↔
      17 ≤ buffer.length ∧ (0 ≤ t.date.year ∧ t.date.year ≤ 9999) ∧ text = t.basic := by
  rcases Nat.lt_or_ge buffer.length 17 with hsmall | hlarge
  · rw [write_of_small hsmall]
    exact iff_of_false nofun fun h => absurd h.1 (Nat.not_le.2 hsmall)
  · by_cases hyear : 0 ≤ t.date.year ∧ t.date.year ≤ 9999
    · rw [write_of_fourDigits hlarge hyear, Except.ok.injEq, eq_comm]
      exact ⟨fun h => ⟨hlarge, hyear, h⟩, fun h => h.2.2⟩
    · rw [write_of_long hlarge hyear]
      exact iff_of_false nofun fun h => hyear h.2.1

/-- Writing never changes the size of a buffer. -/
theorem length_write (t : Instant) (buffer : Bytes) :
    (t.write buffer).2.length = buffer.length := by
  rcases Nat.lt_or_ge buffer.length 17 with hsmall | hlarge
  · rw [write_of_small hsmall]
  · by_cases hyear : 0 ≤ t.date.year ∧ t.date.year ≤ 9999
    · have hlen : (utf8 t.basic).length = 16 := byteLength_basic_eq_iff.2 hyear
      rw [write_of_fourDigits hlarge hyear]
      simp only [List.length_append, List.length_cons, List.length_drop, hlen]
      omega
    · rw [write_of_long hlarge hyear]
      simp only [List.length_append, List.length_drop, t.length_take_basic]
      omega

/-- The parts of a buffer that begins with some bytes and a zero. -/
theorem parts_of_ended {n : Nat} {form rest : Bytes} (h : form.length = n) :
    (form ++ 0 :: rest).take n = form ∧ (form ++ 0 :: rest)[n]? = some 0 ∧
      (form ++ 0 :: rest).drop (n + 1) = rest := by
  have hzero : (form ++ [0]).length = n + 1 := by rw [List.length_append, h]; rfl
  refine ⟨List.take_left' h, ?_, ?_⟩
  · rw [List.getElem?_append_right (Nat.le_of_eq h), h, Nat.sub_self]
    rfl
  · rw [List.append_cons, List.drop_left' hzero]

/-- A time is written just if the buffer has room for it and a zero byte, and its year has four
digits. Then the buffer holds both, and what is behind them stays. A buffer without room stays as it
was; in any other, a form that is too long fills the first 16 bytes with its own first ones, and the
rest stays. No form is too short. -/
theorem write_places_form (t : Instant) (buffer : Bytes) :
    ((∃ text, (t.write buffer).1 = .ok text) ↔
      17 ≤ buffer.length ∧ 0 ≤ t.date.year ∧ t.date.year ≤ 9999) ∧
    (∀ text, (t.write buffer).1 = .ok text →
      text = t.basic ∧ (t.write buffer).2.take 16 = utf8 t.basic ∧
        (t.write buffer).2[16]? = some 0 ∧ (t.write buffer).2.drop 17 = buffer.drop 17) ∧
    (buffer.length < 17 →
      (∃ e, (t.write buffer).1 = .error e ∧ e.kind = .bufferTooSmall) ∧
        (t.write buffer).2 = buffer) ∧
    (17 ≤ buffer.length → ¬ (0 ≤ t.date.year ∧ t.date.year ≤ 9999) →
      (∃ e, (t.write buffer).1 = .error e ∧ e.kind = .malformedInput) ∧
        (t.write buffer).2.take 16 <+: utf8 t.basic ∧ ((t.write buffer).2.take 16).length = 16 ∧
        (t.write buffer).2.drop 16 = buffer.drop 16) ∧
    (t.write buffer).2.length = buffer.length ∧
    ∀ left written, writeWithin 16 (utf8 t.basic) buffer = (some left, written) → left = 0 := by
  refine ⟨?_, ?_, fun hsmall => ?_, fun hlarge hyear => ?_, t.length_write buffer,
    t.no_room_left buffer⟩
  · simp only [write_eq_ok, exists_and_left, exists_eq, and_true]
  · intro text htext
    obtain ⟨hlarge, hyear, rfl⟩ := write_eq_ok.1 htext
    rw [write_of_fourDigits hlarge hyear]
    exact ⟨rfl, parts_of_ended (byteLength_basic_eq_iff.2 hyear)⟩
  · rw [write_of_small hsmall]
    exact ⟨⟨_, rfl, rfl⟩, rfl⟩
  · have hlen := t.length_take_basic
    rw [write_of_long hlarge hyear, List.take_left' hlen, List.drop_left' hlen]
    exact ⟨⟨_, rfl, rfl⟩, List.take_prefix 16 _, hlen, rfl⟩

end Instant

end SigV4
