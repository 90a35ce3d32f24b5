import SigV4.Proofs.Authorization
import SigV4.Proofs.Clock
import SigV4.Proofs.Request.Outcome
import SigV4.Proofs.Time.Writing

/-!
# SigV4.Proofs.Retry

What it means that a buffer is too small.

* `EnoughRoom`     — operations on a buffer that say so only if nothing else is wrong: they have
  written nothing, and any buffer of some size will do.
* `Authorization.write_enoughRoom`, `writeAuthorization_enoughRoom` — headers are written so, since
  all that can be wrong with them is found before the size is looked at.
* `Instant.write_enoughRoom_iff` — times are if their years have four digits, and only then: the size
  is looked at first, so that times of other years are said not to fit, while no buffer will do.
* `larger_buffer_suffices` — the operations together, with the one that reads a clock.
-/

namespace SigV4

/-- Whether an operation that finds a buffer too small has left it as it was, and succeeds with any
buffer of a given size. -/
def EnoughRoom {α : Type} (size : Nat) (write : Bytes → Except Error α × Bytes) : Prop :=
  ∀ buffer e, (write buffer).1 = .error e → e.kind = .bufferTooSmall →
    (write buffer).2 = buffer ∧ ∀ larger : Bytes, size ≤ larger.length → ∃ a, (write larger).1 = .ok a

namespace EnoughRoom

variable {α : Type} {size : Nat} {write : Bytes → Except Error α × Bytes}

theorem of_size (hshort : ∀ buffer : Bytes, buffer.length < size → (write buffer).2 = buffer)
    (hlarge : ∀ buffer : Bytes, size ≤ buffer.length → ∃ a, (write buffer).1 = .ok a) :
    EnoughRoom size write := by
  intro buffer e he _
  refine ⟨hshort buffer (Nat.lt_of_not_le fun hle => ?_), hlarge⟩
  obtain ⟨a, ha⟩ := hlarge buffer hle
  rw [ha] at he
  cases he

theorem of_le {size' : Nat} (h : EnoughRoom size write) (hle : size ≤ size') :
    EnoughRoom size' write := by
  intro buffer e he hkind
  obtain ⟨hsame, hlarger⟩ := h buffer e he hkind
  exact ⟨hsame, fun larger hsize => hlarger larger (Nat.le_trans hle hsize)⟩

end EnoughRoom

/-! ## Headers -/

theorem Authorization.write_enoughRoom (a : Authorization) : EnoughRoom a.size a.write := by
  rw [a.size_eq]
  refine .of_size (fun buffer hshort => ?_) (fun buffer hlarge => ?_)
  · rw [a.write_eq, if_pos hshort]
  · rw [a.write_eq, if_neg (Nat.not_lt.2 hlarge)]
    exact ⟨_, rfl⟩

namespace Signer

/-- Whatever else may be wrong blames a parameter, and is found first. -/
theorem writeAuthorization_enoughRoom {s : Signer} {r : CanonicalRequest} {c : Credentials}
    {date : Text} {size : Nat}
    (hsize : ∀ signed, s.authorization r c date = .ok signed → byteLength signed.header ≤ size) :
    EnoughRoom size (s.writeAuthorization r c date) := by
  cases hendorse : s.endorse r c date with
  | error e =>
    intro buffer e' he' hkind
    have hparameter := BlamesParameter.endorse s r c date e hendorse
    simp only [writeAuthorization, hendorse] at he'
    cases he'
    rw [hparameter] at hkind
    cases hkind
  | ok e =>
    have hwrite : s.writeAuthorization r c date = (headerOf c e).write := by
      funext buffer
      simp only [writeAuthorization, hendorse]
    have hheader := hsize _ (authorization_eq_ok.2 ⟨e, hendorse, rfl⟩)
    rw [hwrite]
    refine (headerOf c e).write_enoughRoom.of_le ?_
    rw [Authorization.size_eq]
    exact hheader

end Signer

/-! ## Times -/

namespace Instant

theorem write_enoughRoom {t : Instant} (h : 0 ≤ t.date.year ∧ t.date.year ≤ 9999) :
    EnoughRoom 17 t.write := by
  refine .of_size (fun buffer hshort => ?_) (fun buffer hlarge => ?_)
  · rw [write_of_small hshort]
  · rw [write_of_fourDigits hlarge h]
    exact ⟨_, rfl⟩

/-- A time of another year is refused in every buffer: in a small one as not fitting. -/
theorem write_of_long_year {t : Instant} (h : ¬ (0 ≤ t.date.year ∧ t.date.year ≤ 9999))
    (buffer : Bytes) :
    ∃ e, (t.write buffer).1 = .error e ∧
      e.kind = if buffer.length < 17 then .bufferTooSmall else .malformedInput := by
  by_cases hshort : buffer.length < 17
  · rw [write_of_small hshort, if_pos hshort]
    exact ⟨_, rfl, rfl⟩
  · rw [write_of_long (Nat.not_lt.1 hshort) h, if_neg hshort]
    exact ⟨_, rfl, rfl⟩

theorem write_enoughRoom_iff {t : Instant} :
    EnoughRoom 17 t.write ↔ 0 ≤ t.date.year ∧ t.date.year ≤ 9999 := by
  refine ⟨fun h => Decidable.byContradiction fun hyear => ?_, write_enoughRoom⟩
  obtain ⟨e, he, hkind⟩ := write_of_long_year hyear []
  obtain ⟨-, hlarger⟩ := h [] e he hkind
  obtain ⟨text, htext⟩ := hlarger (List.replicate 17 0) (Nat.le_refl 17)
  obtain ⟨e', he', -⟩ := write_of_long_year hyear (List.replicate 17 0)
  rw [htext] at he'
  cases he'

end Instant

/-! ## All operations -/

/-- When an operation says that a buffer is too small, the buffer is as it was, and the same call with
a buffer of the size that is needed succeeds. That holds of headers, whatever they are made of. It holds
of a time, one that a clock shows too, just if its year has four digits; and a clock that was read
shows the same time again. -/
theorem larger_buffer_suffices (a : Authorization) (s : Signer) (r : CanonicalRequest)
    (c : Credentials) (date : Text) (t : Instant) (clock : Clock) :
    EnoughRoom a.size a.write ∧
    (∀ size, (∀ signed, s.authorization r c date = .ok signed → byteLength signed.header ≤ size) →
      EnoughRoom size (s.writeAuthorization r c date)) ∧
    (EnoughRoom 17 t.write ↔ 0 ≤ t.date.year ∧ t.date.year ≤ 9999) ∧
    (EnoughRoom 17 (fun buffer => (clock.writeNow buffer).1) ↔
      0 ≤ clock.now.1.date.year ∧ clock.now.1.date.year ≤ 9999) ∧
    ∀ buffer : Bytes, (clock.writeNow buffer).2.now = clock.now :=
  ⟨a.write_enoughRoom, fun _ hsize => Signer.writeAuthorization_enoughRoom hsize,
    Instant.write_enoughRoom_iff, Instant.write_enoughRoom_iff (t := clock.now.1),
    fun _ => clock.now_again⟩

/-- The first second of the year 10000. -/
def firstOfLongYears : Instant :=
  ⟨253402300800, 0, by decide, by decide, Nat.succ_pos 1999999999⟩

theorem firstOfLongYears_never_fits :
    ∃ e, (firstOfLongYears.write (List.replicate 16 0)).1 = .error e ∧ e.kind = .bufferTooSmall ∧
      ∀ larger : Bytes, ∃ e', (firstOfLongYears.write larger).1 = .error e' := by
  have hyear : ¬ (0 ≤ firstOfLongYears.date.year ∧ firstOfLongYears.date.year ≤ 9999) := by decide
  obtain ⟨e, he, hkind⟩ := Instant.write_of_long_year hyear (List.replicate 16 0)
  refine ⟨e, he, hkind, fun larger => ?_⟩
  obtain ⟨e', he', -⟩ := Instant.write_of_long_year hyear larger
  exact ⟨e', he'⟩

end SigV4
