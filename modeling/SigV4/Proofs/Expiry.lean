import SigV4.Proofs.Request.Outcome

/-!
# SigV4.Proofs.Expiry

How long credentials stay valid.

* `Instant.inNanos`   — an instant as one exact number, in which instants of less than 10⁹ nanoseconds
  have their order and their distance.
* `Instant.later?_lt` — a deadline comes before another instant just if it would do so without an end of
  time: where there is no deadline, there is nothing after it either.
* `isValidAt_iff`     — validity at any instant, by the deadline two minutes later.
* `isValidAt_of_le`   — among such instants, what is not valid stays so.
* `validity_exact`    — and validity is an exact distance to the expiry.
-/

namespace SigV4

/-! ## Deadlines -/

namespace Instant

variable {t t' : Instant}

/-- Nanoseconds since 1970, negative before it. -/
def inNanos (t : Instant) : Int := t.seconds * 1000000000 + t.nanos

theorem later?_lt (t t' : Instant) (n : Nat) :
    (∃ deadline, t.later? n = some deadline ∧ deadline < t') ↔
      t.seconds + n < t'.seconds ∨
        t.seconds + n = t'.seconds ∧ t.nanos % 1000000000 < t'.nanos := by
  cases hlater : t.later? n with
  | some deadline =>
    obtain ⟨hseconds, hnanos⟩ :=
      (of?_eq_some_iff_of_lt (Nat.mod_lt _ (Nat.succ_pos _))).1 hlater
    simp only [Option.some.injEq, exists_eq_left', lt_iff, hseconds, hnanos]
  | none =>
    -- Only the end of time can be in the way, and no instant is after it.
    have hout := of?_eq_none_iff.1 hlater
    have hfirst := t.first_le_seconds
    have hlast := t'.seconds_le_last
    refine iff_of_false (fun ⟨_, hsome, _⟩ => by cases hsome) ?_
    omega

theorem later?_lt_iff_inNanos (h : t.nanos < 1000000000) (h' : t'.nanos < 1000000000) (n : Nat) :
    (∃ deadline, t.later? n = some deadline ∧ deadline < t') ↔
      n * 1000000000 < t'.inNanos - t.inNanos := by
  rw [later?_lt]
  unfold inNanos
  omega

theorem inNanos_le_of_le (hordinary : t.nanos < 1000000000) (h : t ≤ t') :
    t.inNanos ≤ t'.inNanos := by
  rw [le_iff] at h
  unfold inNanos
  omega

end Instant

/-! ## Validity -/

namespace Credentials

variable {c : Credentials} {now now' : Instant}

theorem isValidAt_iff :
    c.isValidAt now = true ↔
      c.accessKeyId ≠ [] ∧ c.secretAccessKey ≠ [] ∧
        ∀ expiry, c.expiry = some expiry →
          ∃ deadline, now.later? 120 = some deadline ∧ deadline < expiry := by
  unfold isValidAt
  split
  · rename_i hkeys
    exact iff_of_false Bool.false_ne_true fun ⟨hid, hsecret, _⟩ => hkeys.elim hid hsecret
  · rename_i hkeys
    obtain ⟨hid, hsecret⟩ := not_or.1 hkeys
    rw [and_iff_right hid, and_iff_right hsecret]
    cases c.expiry with
    | none => simp
    | some expiry =>
      cases now.later? 120 with
      | none => simp
      | some deadline => simp

/-- What is valid has both keys, which is all that signing looks at. -/
theorem check_of_isValidAt (h : c.isValidAt now = true) : c.check = .ok () := by
  obtain ⟨hid, hsecret, -⟩ := isValidAt_iff.1 h
  exact check_iff.2 ⟨hid, hsecret⟩

theorem isValidAt_iff_inNanos (hc : ∀ expiry, c.expiry = some expiry → expiry.nanos < 1000000000)
    (h : now.nanos < 1000000000) :
    c.isValidAt now = true ↔
      c.accessKeyId ≠ [] ∧ c.secretAccessKey ≠ [] ∧
        ∀ expiry, c.expiry = some expiry →
          120 * 1000000000 < expiry.inNanos - now.inNanos := by
  rw [isValidAt_iff]
  refine and_congr_right fun _ => and_congr_right fun _ => forall₂_congr fun expiry hexpiry => ?_
  exact Instant.later?_lt_iff_inNanos h (hc expiry hexpiry) 120

theorem isValidAt_of_le (hc : ∀ expiry, c.expiry = some expiry → expiry.nanos < 1000000000)
    (h : now.nanos < 1000000000) (h' : now'.nanos < 1000000000) (hle : now ≤ now')
    (hvalid : c.isValidAt now' = true) : c.isValidAt now = true := by
  obtain ⟨hid, hsecret, hexpiry⟩ := (isValidAt_iff_inNanos hc h').1 hvalid
  refine (isValidAt_iff_inNanos hc h).2 ⟨hid, hsecret, fun expiry hsome => ?_⟩
  have hlater := hexpiry expiry hsome
  have hearlier := Instant.inNanos_le_of_le h hle
  omega

/-- Where instants have less than 10⁹ nanoseconds, credentials are valid just if both keys are there and
more than two minutes are left, to the nanosecond and up to the end of time. So they are not valid
again once they were not. While they are valid, at any instant, they are fit to sign with whatever
session token. -/
theorem validity_exact (c : Credentials) :
    ((∀ expiry, c.expiry = some expiry → expiry.nanos < 1000000000) →
      (∀ now : Instant, now.nanos < 1000000000 →
        (c.isValidAt now = true ↔
          c.accessKeyId ≠ [] ∧ c.secretAccessKey ≠ [] ∧
            ∀ expiry, c.expiry = some expiry →
              expiry.inNanos - now.inNanos > 120 * 1000000000)) ∧
      ∀ now now' : Instant, now.nanos < 1000000000 → now'.nanos < 1000000000 → now ≤ now' →
        c.isValidAt now' = true → c.isValidAt now = true) ∧
    ∀ (now : Instant) (token : Option Text), c.isValidAt now = true →
      { c with sessionToken := token }.isValidAt now = true ∧
        { c with sessionToken := token }.check = .ok () := by
  refine ⟨fun hc => ⟨fun now h => isValidAt_iff_inNanos hc h, fun now now' h h' =>
    isValidAt_of_le hc h h'⟩, fun now token h => ?_⟩
  -- The token counts for neither.
  have hvalid : { c with sessionToken := token }.isValidAt now = true := h
  exact ⟨hvalid, check_of_isValidAt hvalid⟩

/-- An instant within the last second of June 2015, which is a long one. -/
def inLastSecond (nanos : Nat) (h : nanos < 2000000000) : Instant :=
  ⟨1435708799, nanos, by decide, by decide, h⟩

/-- Credentials that expire two minutes after three tenths of that second. -/
def expiring : Credentials where
  accessKeyId := "AKIDEXAMPLE".toList
  secretAccessKey := "secret".toList
  expiry := some ⟨1435708919, 300000000, by decide, by decide, by decide⟩

/-- They are valid up to the last nanosecond before it, also with a token, and not from then on. -/
theorem expiring_valid_before :
    (∀ expiry, expiring.expiry = some expiry → expiry.nanos < 1000000000) ∧
    expiring.isValidAt (inLastSecond 299999999 (by decide)) = true ∧
    expiring.isValidAt (inLastSecond 0 (by decide)) = true ∧
    ¬ expiring.isValidAt (inLastSecond 300000000 (by decide)) = true ∧
    { expiring with sessionToken := some [] }.check = .ok () := by
  have hordinary : ∀ expiry, expiring.expiry = some expiry → expiry.nanos < 1000000000 := by
    intro expiry h
    cases h
    decide
  obtain ⟨hexact, hfinal⟩ := (validity_exact expiring).1 hordinary
  have hvalid : expiring.isValidAt (inLastSecond 299999999 (by decide)) = true := by
    refine (hexact _ (by decide)).2 ⟨by decide, by decide, fun expiry h => ?_⟩
    cases h
    decide
  refine ⟨hordinary, hvalid, hfinal _ _ (by decide) (by decide) (by decide) hvalid, fun h => ?_,
    ((validity_exact expiring).2 _ (some []) hvalid).2⟩
  obtain ⟨-, -, hexpiry⟩ := (hexact _ (by decide)).1 h
  exact absurd (hexpiry _ rfl) (by decide)

/-- In the leap second, the two minutes are counted from the start of the ordinary one again. -/
example : expiring.isValidAt (inLastSecond 500000000 (by decide)) = false ∧
    expiring.isValidAt (inLastSecond 1000000000 (by decide)) = true := by
  decide

end Credentials
end SigV4
