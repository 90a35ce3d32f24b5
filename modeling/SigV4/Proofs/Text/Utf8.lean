import SigV4.Text.Utf8

/-!
# SigV4.Proofs.Text.Utf8

Reading the UTF-8 form of a text gives the text back.

* `scanUtf8_encodeChar` — one character is read from its bytes, whatever follows them.
* `scanUtf8_utf8`       — a whole text is read without an ill-formed part.
* `ofUtf8?_utf8`, `ofUtf8Lossy_utf8`, `utf8_inj` — hence both readers invert `utf8`.
* `ofUtf8?_eq_some_iff` — no other bytes are read as a text: a well-formed sequence is the form of the
  character that is read from it.
* `takeBytes_append`, `dropBytes_append` — a text that is cut off by its size in bytes leaves what
  follows it.
* `getElem?_charStarts` — where the characters of a text begin; cut there, a text and its bytes fall
  into the same parts (`cutBytes_take`, `cut_utf8_take`).
* `utf8_lt_iff`         — texts stand in the order of their bytes.
* `count_ofUtf8Lossy`   — bytes that are no text are never read as plus signs.
-/

namespace SigV4

theorem toNat_ofNat_byte {n : Nat} (h : n < 256) : (UInt8.ofNat n).toNat = n :=
  UInt8.toNat_ofNat_of_lt' h

theorem isTail_iff {b : UInt8} : isTail b = true ↔ 0x80 ≤ b.toNat ∧ b.toNat ≤ 0xBF := by
  simp [isTail, UInt8.le_iff_toNat_le]

theorem startsTwo_iff {a : UInt8} : startsTwo a = true ↔ 0xC2 ≤ a.toNat ∧ a.toNat ≤ 0xDF := by
  simp [startsTwo, UInt8.le_iff_toNat_le]

theorem startsThree_iff {a b : UInt8} :
    startsThree a b = true ↔
      (0xE0 ≤ a.toNat ∧ a.toNat ≤ 0xEF) ∧ (0x80 ≤ b.toNat ∧ b.toNat ≤ 0xBF) ∧
        (a.toNat = 0xE0 → 0xA0 ≤ b.toNat) ∧ (a.toNat = 0xED → b.toNat ≤ 0x9F) := by
  simp only [startsThree, isTail, Bool.or_eq_true, Bool.and_eq_true, beq_iff_eq,
    decide_eq_true_eq, UInt8.le_iff_toNat_le, ← UInt8.toNat_inj, UInt8.reduceToNat]
  omega

theorem startsFour_iff {a b : UInt8} :
    startsFour a b = true ↔
      (0xF0 ≤ a.toNat ∧ a.toNat ≤ 0xF4) ∧ (0x80 ≤ b.toNat ∧ b.toNat ≤ 0xBF) ∧
        (a.toNat = 0xF0 → 0x90 ≤ b.toNat) ∧ (a.toNat = 0xF4 → b.toNat ≤ 0x8F) := by
  simp only [startsFour, isTail, Bool.or_eq_true, Bool.and_eq_true, beq_iff_eq,
    decide_eq_true_eq, UInt8.le_iff_toNat_le, ← UInt8.toNat_inj, UInt8.reduceToNat]
  omega

theorem not_ascii_of_le {a : UInt8} (h : 0x80 ≤ a.toNat) : ¬ a < 0x80 := by
  have h80 : (0x80 : UInt8).toNat = 128 := rfl
  rw [UInt8.lt_iff_toNat_lt]
  omega

theorem le_of_not_ascii {a : UInt8} (h : ¬ a < 0x80) : 0x80 ≤ a.toNat := by
  rw [UInt8.lt_iff_toNat_lt] at h
  exact Nat.le_of_not_lt h

/-! ## Sequences -/

theorem scanUtf8_one {a : UInt8} (ha : a.toNat < 0x80) (rest : Bytes) :
    scanUtf8 (a :: rest) = some (charOfBits a.toNat []) :: scanUtf8 rest := by
  rw [scanUtf8.eq_def]
  simp only
  rw [if_pos (UInt8.lt_iff_toNat_lt.2 ha)]

theorem scanUtf8_two {a b : UInt8} (ha : 0xC2 ≤ a.toNat ∧ a.toNat ≤ 0xDF)
    (hb : 0x80 ≤ b.toNat ∧ b.toNat ≤ 0xBF) (rest : Bytes) :
    scanUtf8 (a :: b :: rest) = some (charOfBits (a.toNat % 32) [b]) :: scanUtf8 rest := by
  have hlead := not_ascii_of_le (a := a) (by omega)
  rw [scanUtf8.eq_def]
  simp only
  rw [if_neg hlead, if_pos (by simp [startsTwo_iff.2 ha, isTail_iff.2 hb])]

theorem scanUtf8_three {a b c : UInt8} (h : startsThree a b = true)
    (hc : 0x80 ≤ c.toNat ∧ c.toNat ≤ 0xBF) (rest : Bytes) :
    scanUtf8 (a :: b :: c :: rest) =
      some (charOfBits (a.toNat % 16) [b, c]) :: scanUtf8 rest := by
  have ha := (startsThree_iff.1 h).1
  have hlead := not_ascii_of_le (a := a) (by omega)
  have htwo : startsTwo a = false := by
    rw [← Bool.not_eq_true, startsTwo_iff]
    omega
  rw [scanUtf8.eq_def]
  simp only
  rw [if_neg hlead, if_neg (by simp [htwo]), if_pos h, if_pos (isTail_iff.2 hc)]

theorem scanUtf8_four {a b c d : UInt8} (h : startsFour a b = true)
    (hc : 0x80 ≤ c.toNat ∧ c.toNat ≤ 0xBF) (hd : 0x80 ≤ d.toNat ∧ d.toNat ≤ 0xBF)
    (rest : Bytes) :
    scanUtf8 (a :: b :: c :: d :: rest) =
      some (charOfBits (a.toNat % 8) [b, c, d]) :: scanUtf8 rest := by
  have ha := (startsFour_iff.1 h).1
  have hlead := not_ascii_of_le (a := a) (by omega)
  have htwo : startsTwo a = false := by
    rw [← Bool.not_eq_true, startsTwo_iff]
    omega
  have hthree : startsThree a b = false := by
    rw [← Bool.not_eq_true, startsThree_iff]
    omega
  rw [scanUtf8.eq_def]
  simp only
  rw [if_neg hlead, if_neg (by simp [htwo]), if_neg (by simp [hthree]), if_pos h,
    if_pos (isTail_iff.2 hc), if_pos (isTail_iff.2 hd)]

/-! ## Characters -/

/-- A code point is no surrogate, and none lies above the last plane. -/
theorem toNat_scalar (c : Char) : c.toNat < 0xD800 ∨ 0xDFFF < c.toNat ∧ c.toNat < 0x110000 :=
  c.valid

theorem ofNat_eq_of_toNat {c : Char} {n : Nat} (h : n = c.toNat) : Char.ofNat n = c := by
  rw [h, Char.ofNat_toNat]

theorem scanUtf8_encodeChar (c : Char) (rest : Bytes) :
    scanUtf8 (String.utf8EncodeChar c ++ rest) = some c :: scanUtf8 rest := by
  have hc := toNat_scalar c
  have hval : c.val.toNat = c.toNat := rfl
  unfold String.utf8EncodeChar
  simp only [hval]
  split
  · rename_i h1
    have ha := toNat_ofNat_byte (n := c.toNat) (by omega)
    rw [List.singleton_append, scanUtf8_one (by omega), ha]
    simp [charOfBits]
  · split
    · rename_i h1 h2
      have ha := toNat_ofNat_byte (n := c.toNat / 64 % 0x20 + 0xc0) (by omega)
      have hb := toNat_ofNat_byte (n := c.toNat % 0x40 + 0x80) (by omega)
      rw [List.cons_append, List.singleton_append, scanUtf8_two (by omega) (by omega), ha]
      refine congrArg (fun d => some d :: scanUtf8 rest) ?_
      apply ofNat_eq_of_toNat
      simp only [List.foldl_cons, List.foldl_nil, hb]
      omega
    · split
      · rename_i h1 h2 h3
        have ha := toNat_ofNat_byte (n := c.toNat / 4096 % 0x10 + 0xe0) (by omega)
        have hb := toNat_ofNat_byte (n := c.toNat / 64 % 0x40 + 0x80) (by omega)
        have hc' := toNat_ofNat_byte (n := c.toNat % 0x40 + 0x80) (by omega)
        have hstart : startsThree (UInt8.ofNat (c.toNat / 4096 % 0x10 + 0xe0))
            (UInt8.ofNat (c.toNat / 64 % 0x40 + 0x80)) = true := by
          rw [startsThree_iff, ha, hb]
          omega
        rw [List.cons_append, List.cons_append, List.singleton_append,
          scanUtf8_three hstart (by omega), ha]
        refine congrArg (fun d => some d :: scanUtf8 rest) ?_
        apply ofNat_eq_of_toNat
        simp only [List.foldl_cons, List.foldl_nil, hb, hc']
        omega
      · rename_i h1 h2 h3
        have ha := toNat_ofNat_byte (n := c.toNat / 262144 % 0x08 + 0xf0) (by omega)
        have hb := toNat_ofNat_byte (n := c.toNat / 4096 % 0x40 + 0x80) (by omega)
        have hc' := toNat_ofNat_byte (n := c.toNat / 64 % 0x40 + 0x80) (by omega)
        have hd := toNat_ofNat_byte (n := c.toNat % 0x40 + 0x80) (by omega)
        have hstart : startsFour (UInt8.ofNat (c.toNat / 262144 % 0x08 + 0xf0))
            (UInt8.ofNat (c.toNat / 4096 % 0x40 + 0x80)) = true := by
          rw [startsFour_iff, ha, hb]
          omega
        rw [List.cons_append, List.cons_append, List.cons_append, List.singleton_append,
          scanUtf8_four hstart (by omega) (by omega), ha]
        refine congrArg (fun d => some d :: scanUtf8 rest) ?_
        apply ofNat_eq_of_toNat
        simp only [List.foldl_cons, List.foldl_nil, hb, hc', hd]
        omega

/-! ## Texts -/

theorem scanUtf8_utf8 (s : Text) : scanUtf8 (utf8 s) = s.map some := by
  induction s with
  | nil => rfl
  | cons c s ih => rw [utf8_cons, scanUtf8_encodeChar, ih, List.map_cons]

theorem mapM_id_eq_some {cells : List (Option Char)} :
    ∀ {t : Text}, cells.mapM id = some t ↔ cells = t.map some := by
  induction cells with
  | nil =>
    intro t
    cases t <;> simp
  | cons cell cells ih =>
    intro t
    rw [List.mapM_cons]
    constructor
    · intro h
      obtain ⟨c, hc, h⟩ := Option.bind_eq_some_iff.1 h
      obtain ⟨rest, hrest, heq⟩ := Option.bind_eq_some_iff.1 h
      cases heq
      cases hc
      rw [ih.1 hrest]
      rfl
    · intro h
      cases t with
      | nil => cases h
      | cons c t =>
        obtain ⟨rfl, hrest⟩ := List.cons.inj h
        rw [ih.2 hrest]
        rfl

@[simp] theorem ofUtf8?_utf8 (s : Text) : ofUtf8? (utf8 s) = some s := by
  rw [ofUtf8?, mapM_id_eq_some, scanUtf8_utf8]

@[simp] theorem ofUtf8Lossy_utf8 (s : Text) : ofUtf8Lossy (utf8 s) = s := by
  rw [ofUtf8Lossy, scanUtf8_utf8]
  simp [Function.comp_def]

/-- Texts with the same bytes are the same. -/
theorem utf8_inj {s t : Text} (h : utf8 s = utf8 t) : s = t := by
  have hs := ofUtf8?_utf8 s
  rw [h, ofUtf8?_utf8] at hs
  exact (Option.some.inj hs).symm

/-! ## Positions -/

/-- A text has at least one byte for each character. -/
theorem length_le_byteLength (s : Text) : s.length ≤ byteLength s := by
  induction s with
  | nil => exact Nat.le_refl _
  | cons c s ih =>
    have hpos : 0 < (String.utf8EncodeChar c).length := by
      rw [String.length_utf8EncodeChar]
      exact c.utf8Size_pos
    simp only [byteLength, utf8_cons, List.length_append, List.length_cons] at ih ⊢
    omega

theorem byteLength_cons (c : Char) (s : Text) :
    byteLength (c :: s) = (String.utf8EncodeChar c).length + byteLength s := by
  simp only [byteLength, utf8_cons, List.length_append]

/-- Behind the first character of a text its other bytes are left. -/
theorem exists_byteLength_cons (c : Char) (s : Text) :
    ∃ n, byteLength (c :: s) = n + 1 ∧ n + 1 - (String.utf8EncodeChar c).length = byteLength s := by
  have hpos := length_le_byteLength (c :: s)
  rw [List.length_cons] at hpos
  obtain ⟨n, hn⟩ := Nat.exists_eq_add_one.2 (Nat.lt_of_lt_of_le (Nat.succ_pos _) hpos)
  refine ⟨n, hn, ?_⟩
  rw [← hn, byteLength_cons]
  omega

/-- Dropping the bytes of a text leaves what follows it. -/
theorem dropBytes_append (s t : Text) : dropBytes (byteLength s) (s ++ t) = t := by
  induction s with
  | nil => cases t <;> rfl
  | cons c s ih =>
    obtain ⟨n, hn, hrest⟩ := exists_byteLength_cons c s
    rw [hn, List.cons_append, dropBytes, hrest, ih]

theorem takeBytes_append (s t : Text) : takeBytes (byteLength s) (s ++ t) = s := by
  induction s with
  | nil => cases t <;> rfl
  | cons c s ih =>
    obtain ⟨n, hn, hrest⟩ := exists_byteLength_cons c s
    rw [hn, List.cons_append, takeBytes, hrest, ih]

/-- Cut where a character begins, a text falls into whole characters. -/
theorem cutBytes_take (s : Text) (i : Nat) :
    takeBytes (byteLength (s.take i)) s = s.take i ∧
      dropBytes (byteLength (s.take i)) s = s.drop i := by
  have htake := takeBytes_append (s.take i) (s.drop i)
  have hdrop := dropBytes_append (s.take i) (s.drop i)
  rw [List.take_append_drop] at htake hdrop
  exact ⟨htake, hdrop⟩

/-- The bytes of a text fall apart there as well. -/
theorem cut_utf8_take (s : Text) (i : Nat) :
    (utf8 s).take (byteLength (s.take i)) = utf8 (s.take i) ∧
      (utf8 s).drop (byteLength (s.take i)) = utf8 (s.drop i) := by
  have hparts : utf8 s = utf8 (s.take i) ++ utf8 (s.drop i) := by
    rw [← utf8_append, List.take_append_drop]
  rw [hparts]
  exact ⟨List.take_left' rfl, List.drop_left' rfl⟩

theorem length_charStarts {s : Text} : ∀ offset, (charStarts offset s).length = s.length := by
  induction s with
  | nil =>
    intro offset
    rfl
  | cons c s ih =>
    intro offset
    rw [charStarts, List.length_cons, ih, List.length_cons]

/-- A character begins behind all bytes of those before it. -/
theorem getElem?_charStarts {s : Text} :
    ∀ {offset i : Nat}, i < s.length →
      (charStarts offset s)[i]? = some (offset + byteLength (s.take i)) := by
  induction s with
  | nil =>
    intro offset i h
    cases h
  | cons c s ih =>
    intro offset i h
    cases i with
    | zero => rfl
    | succ i =>
      rw [charStarts, List.getElem?_cons_succ, ih (Nat.lt_of_succ_lt_succ h), List.take_succ_cons,
        byteLength_cons, Nat.add_assoc]

/-- More characters of a text have more bytes. -/
theorem byteLength_take_lt {s : Text} {i j : Nat} (h : i < j) (hj : j ≤ s.length) :
    byteLength (s.take i) < byteLength (s.take j) := by
  have hparts : s.take j = s.take i ++ (s.take j).drop i := by
    conv => lhs; rw [← List.take_append_drop i (s.take j), List.take_take, Nat.min_eq_left (by omega)]
  have hmore := length_le_byteLength ((s.take j).drop i)
  rw [List.length_drop, List.length_take, Nat.min_eq_left hj] at hmore
  rw [hparts, byteLength_append]
  omega

theorem byteLength_take_le_iff {s : Text} {i j : Nat} (hi : i ≤ s.length) (hj : j ≤ s.length) :
    byteLength (s.take i) ≤ byteLength (s.take j) ↔ i ≤ j := by
  rcases Nat.lt_trichotomy i j with hlt | rfl | hgt
  · exact iff_of_true (Nat.le_of_lt (byteLength_take_lt hlt hj)) (Nat.le_of_lt hlt)
  · exact iff_of_true (Nat.le_refl _) (Nat.le_refl _)
  · exact iff_of_false (Nat.not_le.2 (byteLength_take_lt hgt hi)) (Nat.not_le.2 hgt)

/-! ## ASCII -/

/-- Where all bytes are ASCII, each character is one of them. -/
theorem byte_of_mem {s : Text} {c : Char} (hs : ∀ b ∈ utf8 s, b.toNat < 0x80) (hc : c ∈ s) :
    c.toNat < 0x80 ∧ UInt8.ofNat c.toNat ∈ utf8 s := by
  have hsub : ∀ b ∈ String.utf8EncodeChar c, b ∈ utf8 s := fun b hb =>
    List.mem_flatMap.2 ⟨c, hc, hb⟩
  have hlt : c.toNat < 0x80 := by
    apply Nat.lt_of_not_le
    intro hge
    -- The last byte of a longer sequence is no ASCII.
    have htail : UInt8.ofNat (c.toNat % 0x40 + 0x80) ∈ String.utf8EncodeChar c := by
      have hval : c.val.toNat = c.toNat := rfl
      unfold String.utf8EncodeChar
      simp only [hval]
      split
      · omega
      · split
        · simp
        · split
          · simp
          · simp
    have hbyte := hs _ (hsub _ htail)
    rw [toNat_ofNat_byte (by omega)] at hbyte
    omega
  refine ⟨hlt, hsub _ ?_⟩
  rw [utf8EncodeChar_of_ascii hlt]
  exact List.mem_singleton_self _

theorem toNat_ofNat_scalar {n : Nat} (h : n < 0xD800 ∨ 0xDFFF < n ∧ n < 0x110000) :
    (Char.ofNat n).toNat = n := by
  have hof : Char.ofNat n = Char.ofNatAux n h := dif_pos h
  exact congrArg Char.toNat hof

theorem toNat_ofNat_toNat (b : UInt8) : (Char.ofNat b.toNat).toNat = b.toNat := by
  have hb : b.toNat < 256 := b.toNat_lt
  exact toNat_ofNat_scalar (.inl (by omega))

theorem encodeChar_ofNat {b : UInt8} (h : b.toNat < 0x80) :
    String.utf8EncodeChar (Char.ofNat b.toNat) = [b] := by
  rw [utf8EncodeChar_of_ascii (by rw [toNat_ofNat_toNat]; exact h), toNat_ofNat_toNat,
    UInt8.ofNat_toNat]

/-! ## Exactness -/

theorem byte_eq_of_toNat {n : Nat} {b : UInt8} (h : n = b.toNat) : UInt8.ofNat n = b := by
  rw [h, UInt8.ofNat_toNat]

theorem encodeChar_two {a b : UInt8} (ha : startsTwo a = true) (hb : isTail b = true) :
    String.utf8EncodeChar (charOfBits (a.toNat % 32) [b]) = [a, b] := by
  rw [startsTwo_iff] at ha
  rw [isTail_iff] at hb
  have hbits : (charOfBits (a.toNat % 32) [b]).val.toNat = a.toNat % 32 * 64 + b.toNat % 64 :=
    toNat_ofNat_scalar (by simp only [List.foldl_cons, List.foldl_nil]; omega)
  unfold String.utf8EncodeChar
  simp only [hbits]
  rw [if_neg (by omega), if_pos (by omega), byte_eq_of_toNat (b := a) (by omega),
    byte_eq_of_toNat (b := b) (by omega)]

theorem encodeChar_three {a b c : UInt8} (h : startsThree a b = true) (hc : isTail c = true) :
    String.utf8EncodeChar (charOfBits (a.toNat % 16) [b, c]) = [a, b, c] := by
  rw [startsThree_iff] at h
  rw [isTail_iff] at hc
  have hbits : (charOfBits (a.toNat % 16) [b, c]).val.toNat =
      (a.toNat % 16 * 64 + b.toNat % 64) * 64 + c.toNat % 64 :=
    toNat_ofNat_scalar (by simp only [List.foldl_cons, List.foldl_nil]; omega)
  unfold String.utf8EncodeChar
  simp only [hbits]
  rw [if_neg (by omega), if_neg (by omega), if_pos (by omega), byte_eq_of_toNat (b := a) (by omega),
    byte_eq_of_toNat (b := b) (by omega), byte_eq_of_toNat (b := c) (by omega)]

theorem encodeChar_four {a b c d : UInt8} (h : startsFour a b = true) (hc : isTail c = true)
    (hd : isTail d = true) :
    String.utf8EncodeChar (charOfBits (a.toNat % 8) [b, c, d]) = [a, b, c, d] := by
  rw [startsFour_iff] at h
  rw [isTail_iff] at hc hd
  have hbits : (charOfBits (a.toNat % 8) [b, c, d]).val.toNat =
      ((a.toNat % 8 * 64 + b.toNat % 64) * 64 + c.toNat % 64) * 64 + d.toNat % 64 :=
    toNat_ofNat_scalar (by simp only [List.foldl_cons, List.foldl_nil]; omega)
  unfold String.utf8EncodeChar
  simp only [hbits]
  rw [if_neg (by omega), if_neg (by omega), if_neg (by omega), byte_eq_of_toNat (b := a) (by omega),
    byte_eq_of_toNat (b := b) (by omega), byte_eq_of_toNat (b := c) (by omega),
    byte_eq_of_toNat (b := d) (by omega)]

theorem utf8_of_part {part rest : Bytes} {c : Char} {cells : List (Option Char)}
    (hpart : String.utf8EncodeChar c = part)
    (hrest : ∀ t, cells = t.map some → utf8 t = rest) {t : Text}
    (h : some c :: cells = t.map some) : utf8 t = part ++ rest := by
  cases t with
  | nil => cases h
  | cons d t =>
    obtain ⟨hd, ht⟩ := List.cons.inj h
    cases hd
    rw [utf8_cons, hpart, hrest t ht]

theorem not_map_some {cells : List (Option Char)} {t : Text} : none :: cells ≠ t.map some := by
  cases t with
  | nil => exact nofun
  | cons d t => exact nofun

theorem utf8_of_scanUtf8 (bs : Bytes) :
    ∀ t : Text, scanUtf8 bs = t.map some → utf8 t = bs := by
  -- Four cases read a character, each from the sequence that it has; all others replace a part.
  fun_induction scanUtf8 bs with
  | case1 =>
    intro t h
    rw [List.map_eq_nil_iff.1 h.symm]
    rfl
  | case2 a rest ha ih =>
    intro t h
    exact utf8_of_part (encodeChar_ofNat (UInt8.lt_iff_toNat_lt.1 ha)) ih h
  | case4 a ha b rest htwo ih =>
    intro t h
    rw [Bool.and_eq_true] at htwo
    exact utf8_of_part (encodeChar_two htwo.1 htwo.2) ih h
  | case6 a ha b _ hthree c rest hc ih =>
    intro t h
    exact utf8_of_part (encodeChar_three hthree hc) ih h
  | case10 a ha b _ _ hfour c hc d rest hd ih =>
    intro t h
    exact utf8_of_part (encodeChar_four hfour hc hd) ih h
  | _ =>
    intro t h
    exact absurd h not_map_some

/-- Bytes are read as a text just if they are its form. -/
theorem ofUtf8?_eq_some_iff {bs : Bytes} {t : Text} : ofUtf8? bs = some t ↔ bs = utf8 t := by
  constructor
  · intro h
    exact (utf8_of_scanUtf8 bs t (mapM_id_eq_some.1 h)).symm
  · rintro rfl
    exact ofUtf8?_utf8 t

/-- Where bytes are a text, both readers read it. -/
theorem ofUtf8Lossy_of_ofUtf8? {bs : Bytes} {t : Text} (h : ofUtf8? bs = some t) :
    ofUtf8Lossy bs = t := by
  rw [ofUtf8?_eq_some_iff.1 h, ofUtf8Lossy_utf8]

/-! ## Order -/

theorem byte_cons_lt_iff {m n : Nat} (hm : m < 256) (hn : n < 256) {bs bs' : Bytes} :
    UInt8.ofNat m :: bs < UInt8.ofNat n :: bs' ↔ m < n ∨ m = n ∧ bs < bs' := by
  rw [List.cons_lt_cons_iff, UInt8.lt_iff_toNat_lt, ← UInt8.toNat_inj, toNat_ofNat_byte hm,
    toNat_ofNat_byte hn]

/-- Two characters differ in their bytes as they do in their code points, whatever follows them. -/
theorem encodeChar_append_lt {c d : Char} (h : c < d) (bs bs' : Bytes) :
    String.utf8EncodeChar c ++ bs < String.utf8EncodeChar d ++ bs' := by
  have hlt : c.toNat < d.toNat := h
  have hc := toNat_scalar c
  have hd := toNat_scalar d
  have hval (e : Char) : e.val.toNat = e.toNat := rfl
  have htwo (n : Nat) : n / 4096 = n / 64 / 64 := by omega
  have hthree (n : Nat) : n / 262144 = n / 64 / 64 / 64 := by omega
  unfold String.utf8EncodeChar
  simp only [hval, htwo, hthree]
  -- A longer sequence has a greater first byte; in sequences of one size the digits to the base 64
  -- are compared from the first one on.
  repeat' split
  all_goals
    simp (disch := omega) only [List.cons_append, List.nil_append, byte_cons_lt_iff]
    omega

theorem utf8_lt_of_lt {s t : Text} (h : s < t) : utf8 s < utf8 t := by
  induction s generalizing t with
  | nil =>
    cases t with
    | nil => exact absurd h (List.lt_irrefl _)
    | cons d t =>
      obtain ⟨b, bs, hcons⟩ := List.exists_cons_of_ne_nil (String.utf8EncodeChar_ne_nil (c := d))
      rw [utf8_nil, utf8_cons, hcons]
      exact List.nil_lt_cons b _
  | cons c s ih =>
    cases t with
    | nil => exact absurd h (List.not_lt_nil _)
    | cons d t =>
      rw [utf8_cons, utf8_cons]
      rcases List.cons_lt_cons_iff.1 h with hlt | ⟨rfl, hlt⟩
      · exact encodeChar_append_lt hlt _ _
      · exact List.append_left_lt (ih hlt)

/-- Texts stand in the order of their bytes. -/
theorem utf8_lt_iff {s t : Text} : utf8 s < utf8 t ↔ s < t := by
  refine ⟨fun h => Decidable.byContradiction fun hnot => ?_, utf8_lt_of_lt⟩
  by_cases heq : s = t
  · rw [heq] at h
    exact List.lt_irrefl _ h
  · have hlt : t < s := Decidable.byContradiction fun h' => heq (List.le_antisymm h' hnot)
    exact List.lt_asymm h (utf8_lt_of_lt hlt)

/-! ## Plus signs -/

theorem eq_of_ofNat_eq_plus {n : Nat} (h : Char.ofNat n = '+') : n = 0x2B := by
  by_cases hvalid : n < 0xD800 ∨ 0xDFFF < n ∧ n < 0x110000
  · rw [← toNat_ofNat_scalar hvalid, h]
    rfl
  · have hzero : (Char.ofNat n).toNat = 0 := congrArg Char.toNat (dif_neg hvalid)
    rw [h] at hzero
    cases hzero

theorem two_ne_plus {a b : UInt8} (h : startsTwo a = true) :
    charOfBits (a.toNat % 32) [b] ≠ '+' := by
  intro heq
  have hbits := eq_of_ofNat_eq_plus heq
  rw [startsTwo_iff] at h
  simp only [List.foldl_cons, List.foldl_nil] at hbits
  omega

theorem three_ne_plus {a b c : UInt8} (h : startsThree a b = true) :
    charOfBits (a.toNat % 16) [b, c] ≠ '+' := by
  intro heq
  have hbits := eq_of_ofNat_eq_plus heq
  rw [startsThree_iff] at h
  simp only [List.foldl_cons, List.foldl_nil] at hbits
  omega

theorem four_ne_plus {a b c d : UInt8} (h : startsFour a b = true) :
    charOfBits (a.toNat % 8) [b, c, d] ≠ '+' := by
  intro heq
  have hbits := eq_of_ofNat_eq_plus heq
  rw [startsFour_iff] at h
  simp only [List.foldl_cons, List.foldl_nil] at hbits
  omega

/-- One cell of the scan and the part that it was read from. -/
theorem count_part {cell : Option Char} {cells : List (Option Char)} (part : Bytes) {rest : Bytes}
    (hcell : cell.getD replacement ≠ '+') (hpart : ∀ b ∈ part, 0x80 ≤ b.toNat)
    (hrest : (cells.map fun c => c.getD replacement).count '+' = rest.count 0x2B) :
    ((cell :: cells).map fun c => c.getD replacement).count '+' = (part ++ rest).count 0x2B := by
  have hno : (0x2B : UInt8) ∉ part := fun hmem => absurd (hpart _ hmem) (by decide)
  rw [List.map_cons, List.count_cons_of_ne hcell, hrest, List.count_append,
    List.count_eq_zero.2 hno, Nat.zero_add]

/-- A plus sign is read for each byte of one, and for nothing else. -/
theorem count_ofUtf8Lossy (bs : Bytes) : (ofUtf8Lossy bs).count '+' = bs.count 0x2B := by
  have hreplaced : (none : Option Char).getD replacement ≠ '+' := by decide
  unfold ofUtf8Lossy
  -- Only the first case reads a byte of ASCII. The others read, or replace, greater ones.
  fun_induction scanUtf8 bs with
  | case1 => rfl
  | case2 a rest _ ih =>
    by_cases ha : a = 0x2B
    · rw [ha, List.map_cons, List.count_cons, List.count_cons, ih]
      rfl
    · have hchar : charOfBits a.toNat [] ≠ '+' := fun heq =>
        ha (UInt8.toNat_inj.1 (eq_of_ofNat_eq_plus heq))
      rw [List.map_cons, Option.getD_some, List.count_cons_of_ne ha, List.count_cons_of_ne hchar]
      exact ih
  | case3 a ha =>
    exact count_part [a] hreplaced (by simpa using le_of_not_ascii ha) rfl
  | case4 a ha b rest htwo ih =>
    rw [Bool.and_eq_true, isTail_iff] at htwo
    exact count_part [a, b] (two_ne_plus htwo.1)
      (by simpa using ⟨le_of_not_ascii ha, htwo.2.1⟩) ih
  | case5 a ha b _ hthree =>
    have hb := (startsThree_iff.1 hthree).2.1.1
    exact count_part [a, b] hreplaced
      (by simpa using ⟨le_of_not_ascii ha, hb⟩) rfl
  | case6 a ha b _ hthree c rest hc ih =>
    have hb := (startsThree_iff.1 hthree).2.1.1
    exact count_part [a, b, c] (three_ne_plus hthree)
      (by simpa using ⟨le_of_not_ascii ha, hb, (isTail_iff.1 hc).1⟩) ih
  | case7 a ha b _ hthree c rest _ ih =>
    have hb := (startsThree_iff.1 hthree).2.1.1
    exact count_part [a, b] hreplaced (by simpa using ⟨le_of_not_ascii ha, hb⟩) ih
  | case8 a ha b _ _ hfour =>
    have hb := (startsFour_iff.1 hfour).2.1.1
    exact count_part [a, b] hreplaced
      (by simpa using ⟨le_of_not_ascii ha, hb⟩) rfl
  | case9 a ha b _ _ hfour c hc =>
    have hb := (startsFour_iff.1 hfour).2.1.1
    exact count_part [a, b, c] hreplaced
      (by simpa using ⟨le_of_not_ascii ha, hb, (isTail_iff.1 hc).1⟩) rfl
  | case10 a ha b _ _ hfour c hc d rest hd ih =>
    have hb := (startsFour_iff.1 hfour).2.1.1
    exact count_part [a, b, c, d] (four_ne_plus hfour)
      (by simpa using ⟨le_of_not_ascii ha, hb, (isTail_iff.1 hc).1, (isTail_iff.1 hd).1⟩) ih
  | case11 a ha b _ _ hfour c hc d rest _ ih =>
    have hb := (startsFour_iff.1 hfour).2.1.1
    exact count_part [a, b, c] hreplaced
      (by simpa using ⟨le_of_not_ascii ha, hb, (isTail_iff.1 hc).1⟩) ih
  | case12 a ha b _ _ hfour c rest _ ih =>
    have hb := (startsFour_iff.1 hfour).2.1.1
    exact count_part [a, b] hreplaced (by simpa using ⟨le_of_not_ascii ha, hb⟩) ih
  | case13 a ha b rest _ _ _ ih =>
    exact count_part [a] hreplaced (by simpa using le_of_not_ascii ha) ih

end SigV4
