import SigV4.Proofs.Text.Utf8
import SigV4.Settings

/-!
# SigV4.Proofs.Redacted

What is shown of a secret, and what is not.

* `Covered`       — secrets of which nothing is shown: less than 12 bytes, or less than 6 characters.
* `shownEnds_eq`, `utf8_of_shownEnds` — of the others the ends that are shown stop and start between
  characters.
* `redact_of_covered`, `redact_of_not_covered` — so these show whole characters, three at each end.
* `leavesOut_redact_iff` — some character of a secret is left out, unless it has just six characters
  and these have 12 bytes or more (`ShownWhole`).
* `redact_eq_redact_iff` — secrets are shown alike just if none is shown, or if their ends agree.
* `redaction_leaves_out`, `shown_tells_ends_only` — the same of secrets inside a record.
-/

namespace SigV4

/-! ## Ends -/

/-- Whether nothing is shown of a secret but that it is there. -/
def Covered (v : Text) : Prop := byteLength v < 12 ∨ v.length < 6

instance (v : Text) : Decidable (Covered v) := inferInstanceAs (Decidable (_ ∨ _))

/-- The last three characters of a text, or all that it has. -/
def lastThree (v : Text) : Text := v.drop (v.length - 3)

theorem covered_nil : Covered [] := .inr (Nat.succ_pos 5)

theorem ne_nil_of_not_covered {v : Text} (h : ¬ Covered v) : v ≠ [] := fun hnil =>
  h (hnil ▸ covered_nil)

/-- The ends of a secret that is not covered are three characters each. -/
theorem length_ends {v : Text} (h : ¬ Covered v) :
    6 ≤ v.length ∧ (v.take 3).length = 3 ∧ (lastThree v).length = 3 := by
  have hlen : 6 ≤ v.length := Nat.not_lt.1 fun hlt => h (.inr hlt)
  refine ⟨hlen, ?_, ?_⟩
  · rw [List.length_take]
    omega
  · rw [lastThree, List.length_drop]
    omega

/-- The ends are found by counting characters from the start and from the end: they do not overlap
just if there are six. -/
theorem shownEnds_eq (v : Text) :
    shownEnds v =
      if Covered v then none
      else some (byteLength (v.take 3), byteLength (v.take (v.length - 3))) := by
  unfold shownEnds
  by_cases hfour : 3 < v.length
  · have hhead : (charStarts 0 v)[3]? = some (0 + byteLength (v.take 3)) :=
      getElem?_charStarts hfour
    have htail : (charStarts 0 v).reverse[2]? = some (0 + byteLength (v.take (v.length - 3))) := by
      rw [List.getElem?_reverse (by rw [length_charStarts]; omega), length_charStarts,
        getElem?_charStarts (by omega), Nat.sub_sub]
    have hshown : 12 ≤ byteLength v ∧ byteLength (v.take 3) ≤ byteLength (v.take (v.length - 3)) ↔
        ¬ Covered v := by
      rw [byteLength_take_le_iff (by omega) (by omega), Covered]
      omega
    rw [hhead, htail, Nat.zero_add, Nat.zero_add]
    by_cases hcovered : Covered v
    · rw [if_pos hcovered]
      exact if_neg fun h => hshown.1 h hcovered
    · rw [if_neg hcovered]
      exact if_pos (hshown.2 hcovered)
  · have hcovered : Covered v := .inr (by omega)
    have hhead : (charStarts 0 v)[3]? = none :=
      List.getElem?_eq_none (by rw [length_charStarts]; omega)
    rw [hhead, if_pos hcovered]

theorem redact_of_covered {v : Text} (hne : v ≠ []) (h : Covered v) : redact v = stars := by
  rw [redact, if_neg hne, shownEnds_eq, if_pos h]

theorem redact_of_not_covered {v : Text} (h : ¬ Covered v) :
    redact v = v.take 3 ++ stars ++ lastThree v := by
  obtain ⟨hstart, -⟩ := cutBytes_take v 3
  obtain ⟨-, hrest⟩ := cutBytes_take v (v.length - 3)
  rw [redact, if_neg (ne_nil_of_not_covered h), shownEnds_eq, if_neg h]
  simp only [hstart, hrest, lastThree]

/-- Where a secret is cut, within it, no byte of a character is split from the others. -/
theorem utf8_of_shownEnds {v : Text} {head tail : Nat} (h : shownEnds v = some (head, tail)) :
    head ≤ tail ∧ tail ≤ byteLength v ∧
      (utf8 v).take head = utf8 (v.take 3) ∧ (utf8 v).drop tail = utf8 (lastThree v) := by
  rw [shownEnds_eq] at h
  split at h
  · cases h
  · rename_i hopen
    cases h
    obtain ⟨hlen, -, -⟩ := length_ends hopen
    have hend : byteLength (v.take (v.length - 3)) ≤ byteLength (v.take v.length) :=
      (byteLength_take_le_iff (Nat.sub_le _ _) (Nat.le_refl _)).2 (Nat.sub_le _ _)
    rw [List.take_length] at hend
    exact ⟨(byteLength_take_le_iff (by omega) (by omega)).2 (by omega), hend, (cut_utf8_take v 3).1,
      (cut_utf8_take v (v.length - 3)).2⟩

/-- The size of what is shown tells how much of the secret that is. -/
theorem length_redact (v : Text) :
    (redact v).length = if v = [] then 5 else if Covered v then 3 else 9 := by
  by_cases hne : v = []
  · rw [if_pos hne, hne]
    rfl
  · rw [if_neg hne]
    by_cases hcovered : Covered v
    · rw [if_pos hcovered, redact_of_covered hne hcovered]
      rfl
    · obtain ⟨-, hstart, hrest⟩ := length_ends hcovered
      rw [if_neg hcovered, redact_of_not_covered hcovered, List.length_append, List.length_append,
        hstart, hrest]
      rfl

/-! ## What is left out -/

/-- Whether some character of a secret is left out of what is shown: three stars, or a start and an
end of the secret around them which together are shorter than it. -/
def LeavesOut (secret shown : Text) : Prop :=
  shown = stars ∨ ∃ start rest, start <+: secret ∧ rest <:+ secret ∧
    shown = start ++ stars ++ rest ∧ start.length + rest.length < secret.length

/-- Whether the two ends that are shown of a secret are all of it. -/
def ShownWhole (v : Text) : Prop := v.length = 6 ∧ 12 ≤ byteLength v

instance (v : Text) : Decidable (ShownWhole v) := inferInstanceAs (Decidable (_ ∧ _))

theorem redact_of_shownWhole {v : Text} (h : ShownWhole v) :
    redact v = v.take 3 ++ stars ++ v.drop 3 := by
  have hopen : ¬ Covered v := by
    simp only [Covered, h.1]
    have := h.2
    omega
  rw [redact_of_not_covered hopen, lastThree, h.1]

theorem leavesOut_redact_iff {v : Text} (hne : v ≠ []) :
    LeavesOut v (redact v) ↔ ¬ ShownWhole v := by
  constructor
  · intro hleaves hwhole
    have hlen : (redact v).length = 9 := by
      rw [redact_of_shownWhole hwhole, List.length_append, List.length_append, List.length_take,
        List.length_drop, hwhole.1]
      rfl
    rcases hleaves with hstars | ⟨start, rest, -, -, hshown, hshort⟩
    · rw [hstars] at hlen
      cases hlen
    · have hstars : stars.length = 3 := rfl
      rw [hshown, List.length_append, List.length_append, hstars] at hlen
      rw [hwhole.1] at hshort
      omega
  · intro hwhole
    by_cases hcovered : Covered v
    · exact .inl (redact_of_covered hne hcovered)
    · obtain ⟨hlen, hstart, hrest⟩ := length_ends hcovered
      have hmore : v.length ≠ 6 := fun hsix =>
        hwhole ⟨hsix, Nat.not_lt.1 fun hlt => hcovered (.inl hlt)⟩
      refine .inr ⟨v.take 3, lastThree v, List.take_prefix 3 v, List.drop_suffix _ v,
        redact_of_not_covered hcovered, ?_⟩
      rw [hstart, hrest]
      omega

/-- Whether what is shown of a secret leaves out some of it, unless its two ends are all there is. -/
def Guarded (secret shown : Text) : Prop :=
  secret ≠ [] → (LeavesOut secret shown ↔ ¬ ShownWhole secret)

theorem guarded_redact (v : Text) : Guarded v (redact v) := leavesOut_redact_iff

/-- Of every secret something is left out, alone or in the record of credentials or settings, unless
it has just six characters and these have 12 bytes or more: then the two ends are all of it. -/
theorem redaction_leaves_out (c : Credentials) (s : Settings) :
    (∀ v : Text, Guarded v (redact v)) ∧
    (∀ v : Text, ShownWhole v → redact v = v.take 3 ++ stars ++ v.drop 3) ∧
    (∃ id secret token, c.describe = Credentials.recordWith id secret token c.expiry ∧
      Guarded c.accessKeyId id ∧ Guarded c.secretAccessKey secret ∧
      Guarded (c.sessionToken.getD []) token) ∧
    ∃ id secret token, s.describe = Settings.recordWith s.region s.service id secret token ∧
      Guarded (s.accessKeyId.getD []) id ∧ Guarded (s.secretAccessKey.getD []) secret ∧
      Guarded (s.sessionToken.getD []) token := by
  refine ⟨guarded_redact, fun v h => redact_of_shownWhole h, ⟨_, _, _, rfl, ?_⟩, _, _, _, rfl, ?_⟩
  · exact ⟨guarded_redact _, guarded_redact _, guarded_redact _⟩
  · exact ⟨guarded_redact _, guarded_redact _, guarded_redact _⟩

/-- A word of six letters, two bytes each. -/
def sixLetters : Text := "пароль".toList

theorem sixLetters_shown_whole :
    sixLetters ≠ [] ∧ redact sixLetters = "пар***оль".toList ∧
      ¬ LeavesOut sixLetters (redact sixLetters) := by
  have hne : sixLetters ≠ [] := by decide
  have hwhole : ShownWhole sixLetters := by decide +kernel
  refine ⟨hne, redact_of_shownWhole hwhole, fun hleaves => ?_⟩
  exact (leavesOut_redact_iff hne).1 hleaves hwhole

/-! ## What is told apart -/

/-- Whether nothing that is shown tells two secrets apart: both are empty, or both are there and
covered, or their ends are the same. -/
structure Alike (v w : Text) : Prop where
  empty : v = [] ↔ w = []
  covered : Covered v ↔ Covered w
  ends : ¬ Covered v → v.take 3 = w.take 3 ∧ lastThree v = lastThree w

namespace Alike

variable {v w : Text}

theorem refl (v : Text) : Alike v v := ⟨Iff.rfl, Iff.rfl, fun _ => ⟨rfl, rfl⟩⟩

theorem of_covered (hv : v ≠ []) (hw : w ≠ []) (hcv : Covered v) (hcw : Covered w) : Alike v w :=
  ⟨iff_of_false hv hw, iff_of_true hcv hcw, fun h => absurd hcv h⟩

theorem of_ends (hv : ¬ Covered v) (hw : ¬ Covered w) (hstart : v.take 3 = w.take 3)
    (hrest : lastThree v = lastThree w) : Alike v w :=
  ⟨iff_of_false (ne_nil_of_not_covered hv) (ne_nil_of_not_covered hw), iff_of_false hv hw,
    fun _ => ⟨hstart, hrest⟩⟩

end Alike

variable {v w : Text}

theorem length_redact_eq_five_iff : (redact v).length = 5 ↔ v = [] := by
  rw [length_redact]
  split
  · exact iff_of_true rfl ‹_›
  · split
    · exact iff_of_false nofun ‹_›
    · exact iff_of_false nofun ‹_›

theorem length_redact_eq_nine_iff : (redact v).length = 9 ↔ ¬ Covered v := by
  rw [length_redact]
  split
  · rename_i hnil
    exact iff_of_false nofun fun h => h (hnil ▸ covered_nil)
  · split
    · exact iff_of_false nofun fun h => h ‹_›
    · exact iff_of_true rfl ‹_›

/-- What is shown tells the ends of a secret, or that they are not shown, and nothing else. -/
theorem redact_eq_redact_iff : redact v = redact w ↔ Alike v w := by
  constructor
  · intro h
    have hopen : ¬ Covered v ↔ ¬ Covered w := by
      rw [← length_redact_eq_nine_iff, h, length_redact_eq_nine_iff]
    have hempty : v = [] ↔ w = [] := by
      rw [← length_redact_eq_five_iff, h, length_redact_eq_five_iff]
    refine ⟨hempty, Decidable.not_iff_not.1 hopen, fun hv => ?_⟩
    have hw : ¬ Covered w := hopen.1 hv
    obtain ⟨-, hstart, -⟩ := length_ends hv
    obtain ⟨-, hstart', -⟩ := length_ends hw
    rw [redact_of_not_covered hv, redact_of_not_covered hw, List.append_assoc, List.append_assoc] at h
    obtain ⟨htake, hrest⟩ := List.append_inj h (hstart.trans hstart'.symm)
    exact ⟨htake, List.append_cancel_left hrest⟩
  · rintro ⟨hempty, hcovered, hends⟩
    by_cases hv : v = []
    · rw [hv, hempty.1 hv]
    · have hw : w ≠ [] := fun hw => hv (hempty.2 hw)
      by_cases hcov : Covered v
      · rw [redact_of_covered hv hcov, redact_of_covered hw (hcovered.1 hcov)]
      · obtain ⟨hstart, hrest⟩ := hends hcov
        rw [redact_of_not_covered hcov, redact_of_not_covered fun h => hcov (hcovered.2 h), hstart,
          hrest]

/-- Credentials that differ in secrets that are shown alike, and in nothing else. -/
structure Credentials.Alike (c c' : Credentials) : Prop where
  id : SigV4.Alike c.accessKeyId c'.accessKeyId
  secret : SigV4.Alike c.secretAccessKey c'.secretAccessKey
  token : SigV4.Alike (c.sessionToken.getD []) (c'.sessionToken.getD [])
  expiry : c.expiry = c'.expiry

/-- Settings that differ in secrets that are shown alike, and in nothing else. -/
structure Settings.Alike (s s' : Settings) : Prop where
  region : s.region = s'.region
  service : s.service = s'.service
  id : SigV4.Alike (s.accessKeyId.getD []) (s'.accessKeyId.getD [])
  secret : SigV4.Alike (s.secretAccessKey.getD []) (s'.secretAccessKey.getD [])
  token : SigV4.Alike (s.sessionToken.getD []) (s'.sessionToken.getD [])

theorem Credentials.Alike.describe_eq {c c' : Credentials} (h : c.Alike c') :
    c.describe = c'.describe := by
  simp only [Credentials.describe, redactOption, redact_eq_redact_iff.2 h.id,
    redact_eq_redact_iff.2 h.secret, redact_eq_redact_iff.2 h.token, h.expiry]

theorem Settings.Alike.describe_eq {s s' : Settings} (h : s.Alike s') :
    s.describe = s'.describe := by
  simp only [Settings.describe, redactOption, redact_eq_redact_iff.2 h.id,
    redact_eq_redact_iff.2 h.secret, redact_eq_redact_iff.2 h.token, h.region, h.service]

/-- Covered secrets are all shown alike. Of the others the first and the last three characters are
shown, cut between characters, so that two with the same ends are shown alike too, and no others are.
Nor does a record tell more: credentials or settings that differ only in secrets that are shown alike
are shown alike themselves. -/
theorem shown_tells_ends_only :
    (∀ v w : Text, v ≠ [] → w ≠ [] → Covered v → Covered w → redact v = redact w) ∧
    (∀ v w : Text, ¬ Covered v → ¬ Covered w → v.take 3 = w.take 3 → lastThree v = lastThree w →
      redact v = redact w ∧ redact v = v.take 3 ++ stars ++ lastThree v) ∧
    (∀ v w : Text, redact v = redact w → Alike v w) ∧
    (∀ (v : Text) (head tail : Nat), shownEnds v = some (head, tail) →
      head ≤ tail ∧ tail ≤ byteLength v ∧
        (utf8 v).take head = utf8 (v.take 3) ∧ (utf8 v).drop tail = utf8 (lastThree v)) ∧
    (∀ c c' : Credentials, c.Alike c' → c.describe = c'.describe) ∧
    ∀ s s' : Settings, s.Alike s' → s.describe = s'.describe := by
  refine ⟨fun v w hv hw hcv hcw => ?_, fun v w hv hw hstart hrest => ?_,
    fun v w h => redact_eq_redact_iff.1 h, fun v head tail h => utf8_of_shownEnds h,
    fun c c' h => h.describe_eq, fun s s' h => h.describe_eq⟩
  · exact redact_eq_redact_iff.2 (.of_covered hv hw hcv hcw)
  · exact ⟨redact_eq_redact_iff.2 (.of_ends hv hw hstart hrest), redact_of_not_covered hv⟩

/-- Two secrets of one length whose ends are the same. -/
def twins : Credentials × Credentials :=
  ({ accessKeyId := "AKIDEXAMPLE".toList, secretAccessKey := "wJalrXUtnFEMI/K7KEY".toList },
    { accessKeyId := "AKIDOTHER".toList, secretAccessKey := "wJa/another/oneKEY".toList })

theorem twins_shown_alike :
    twins.1.secretAccessKey ≠ twins.2.secretAccessKey ∧ twins.1.describe = twins.2.describe := by
  refine ⟨by decide, shown_tells_ends_only.2.2.2.2.1 _ _ ⟨?_, ?_, .refl [], rfl⟩⟩
  · exact .of_covered (by decide) (by decide) (by decide +kernel) (by decide +kernel)
  · exact .of_ends (by decide +kernel) (by decide +kernel) (by decide) (by decide)

end SigV4
