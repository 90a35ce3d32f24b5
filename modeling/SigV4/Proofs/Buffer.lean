import SigV4.Buffer

/-!
# SigV4.Proofs.Buffer

What stands in a buffer after texts were placed there.

* `place_place`   — two runs of bytes placed one behind the other are one run.
* `placeTexts_eq` — so texts placed at a moving offset are their concatenation placed at once.
* `place_start`   — at the start of a buffer nothing precedes them.
* `writeWithin_of_length`, `writeWithin_of_lt` — bytes that just fill the room they are written to, and
  bytes that do not fit.
-/

namespace SigV4

variable {offset : Nat} {bytes buffer : Bytes}

theorem place_nil (offset : Nat) (buffer : Bytes) : place offset [] buffer = buffer := by
  simp [place]

theorem take_place (h : offset ≤ buffer.length) :
    (place offset bytes buffer).take (offset + bytes.length) = buffer.take offset ++ bytes := by
  have hlen : (buffer.take offset ++ bytes).length = offset + bytes.length := by
    rw [List.length_append, List.length_take, Nat.min_eq_left h]
  rw [place, List.take_left' hlen]

theorem drop_place (h : offset ≤ buffer.length) (n : Nat) :
    (place offset bytes buffer).drop (offset + bytes.length + n) =
      buffer.drop (offset + bytes.length + n) := by
  have hlen : (buffer.take offset ++ bytes).length = offset + bytes.length := by
    rw [List.length_append, List.length_take, Nat.min_eq_left h]
  rw [place, ← List.drop_drop, List.drop_left' hlen, List.drop_drop]

theorem place_place (h : offset ≤ buffer.length) (more : Bytes) :
    place (offset + bytes.length) more (place offset bytes buffer) =
      place offset (bytes ++ more) buffer := by
  have hafter : (place offset bytes buffer).drop (offset + bytes.length + more.length) =
      buffer.drop (offset + bytes.length + more.length) := drop_place h more.length
  rw [place, take_place h, hafter, place, List.length_append]
  simp only [List.append_assoc, Nat.add_assoc]

/-- By induction on the texts: the offset moves on by the size of each. -/
theorem placeTexts_eq {parts : List Text} :
    ∀ {offset : Nat} {buffer : Bytes}, offset ≤ buffer.length →
      placeTexts offset parts buffer = place offset (utf8 parts.flatten) buffer := by
  induction parts with
  | nil =>
    intro offset buffer _
    exact (place_nil offset buffer).symm
  | cons part rest ih =>
    intro offset buffer h
    have hstart : offset + byteLength part ≤ (place offset (utf8 part) buffer).length := by
      have htake : ((place offset (utf8 part) buffer).take (offset + (utf8 part).length)).length =
          (buffer.take offset ++ utf8 part).length := congrArg List.length (take_place h)
      simp only [List.length_take, List.length_append] at htake
      simp only [byteLength]
      omega
    rw [placeTexts, ih hstart, byteLength, place_place h, List.flatten_cons, utf8_append]

theorem place_start (bytes buffer : Bytes) :
    place 0 bytes buffer = bytes ++ buffer.drop bytes.length := by
  simp [place]

theorem writeWithin_of_length {room : Nat} (h : bytes.length = room) (buffer : Bytes) :
    writeWithin room bytes buffer = (some 0, place 0 bytes buffer) := by
  rw [writeWithin, if_pos (Nat.le_of_eq h), h, Nat.sub_self, List.take_of_length_le (Nat.le_of_eq h)]

theorem writeWithin_of_lt {room : Nat} (h : room < bytes.length) (buffer : Bytes) :
    writeWithin room bytes buffer = (none, bytes.take room ++ buffer.drop room) := by
  have htake : (bytes.take room).length = room := by
    rw [List.length_take]
    omega
  rw [writeWithin, if_neg (Nat.not_le.2 h), place_start, htake]

end SigV4
