import SigV4.Proofs.Text.Cutting
import SigV4.Url

/-!
# SigV4.Proofs.Url

Urls that are put together again come apart into the same scheme, host, path and query.

* `splitQuery_eq_iff` — a path and a query are split just where they are joined.
* `Url.WellFormed`   — the parts that are told apart again once they are written behind one another.
* `parse_eq_ok_iff`  — a url is read as just those parts of which it is the text.
* `parse_withRest`   — behind scheme and host, anything may follow that does not belong to the host.
* `parse_sameOrigin` — where the scheme ends before the first question mark, scheme, host and path
  do not depend on what follows it.
-/

namespace SigV4

/-! ## Query -/

/-- A path with the query behind it, if there is one. -/
def joinQuery (path : Text) : Option Text → Text
  | none => path
  | some query => path ++ '?' :: query

theorem splitQuery_eq_iff {s path : Text} {query : Option Text} :
    splitQuery s = (path, query) ↔ s = joinQuery path query ∧ '?' ∉ path := by
  unfold splitQuery
  constructor
  · intro h
    split at h
    · rename_i p q hcut
      cases h
      refine ⟨?_, not_mem_of_cut hcut⟩
      rw [append_of_cut hcut, List.append_assoc]
      rfl
    · rename_i hnone
      cases h
      exact ⟨rfl, cut_eq_none_iff.1 hnone⟩
  · rintro ⟨rfl, hmark⟩
    cases query with
    | none => rw [joinQuery, cut_eq_none_iff.2 hmark]
    | some query => rw [joinQuery, cut_mark hmark]

theorem splitQuery_mark {path : Text} (h : '?' ∉ path) (query : Text) :
    splitQuery (path ++ '?' :: query) = (path, some query) :=
  splitQuery_eq_iff.2 ⟨rfl, h⟩

theorem joinQuery_splitQuery (s : Text) :
    s = joinQuery (splitQuery s).1 (splitQuery s).2 ∧ '?' ∉ (splitQuery s).1 :=
  splitQuery_eq_iff.1 rfl

theorem not_mem_splitQuery (s : Text) : '?' ∉ (splitQuery s).1 := (joinQuery_splitQuery s).2

theorem splitQuery_prefix (s : Text) : (splitQuery s).1 <+: s := by
  obtain ⟨hs, -⟩ := joinQuery_splitQuery s
  cases hquery : (splitQuery s).2 with
  | none =>
    rw [hquery] at hs
    exact ⟨[], (List.append_nil _).trans hs.symm⟩
  | some query =>
    rw [hquery] at hs
    exact ⟨'?' :: query, hs.symm⟩

/-! ## Scheme and host -/

theorem takeWhile_stop {p : Char → Bool} {c : Char} (hc : p c = false) (a b : Text) :
    (a ++ c :: b).takeWhile p = a.takeWhile p := by
  induction a with
  | nil => rw [List.nil_append, List.takeWhile_cons_of_neg (by simp [hc]), List.takeWhile_nil]
  | cons d a ih => rw [List.cons_append, List.takeWhile_cons, List.takeWhile_cons, ih]

theorem dropWhile_stop {p : Char → Bool} {c : Char} (hc : p c = false) (a b : Text) :
    (a ++ c :: b).dropWhile p = a.dropWhile p ++ c :: b := by
  induction a with
  | nil => rw [List.nil_append, List.dropWhile_cons_of_neg (by simp [hc]), List.dropWhile_nil]; rfl
  | cons d a ih =>
    rw [List.cons_append, List.dropWhile_cons, List.dropWhile_cons, ih]
    split
    · rfl
    · rfl

namespace Url

theorem parse_eq_ok {url : Text} {u : Url} :
    parse url = .ok u ↔
      ∃ tail, cut schemeMark url = some (u.scheme, tail) ∧ u.host = tail.takeWhile isHostChar ∧
        u.rest = tail.dropWhile isHostChar ∧ u.host ≠ [] := by
  unfold parse
  constructor
  · intro h
    split at h
    · cases h
    · rename_i scheme tail hcut
      simp only at h
      split at h
      · cases h
      · rename_i hne
        cases h
        exact ⟨tail, hcut, rfl, rfl, hne⟩
  · rintro ⟨tail, hcut, hhost, hrest, hne⟩
    simp only [hcut, ← hhost, ← hrest, if_neg hne]

/-- Scheme, host and rest as they can be told apart: the scheme does not hold the mark behind it, and
the host ends where the rest begins. -/
structure WellFormed (u : Url) : Prop where
  scheme : ¬ schemeMark <:+: u.scheme
  host_ne : u.host ≠ []
  host : ∀ c ∈ u.host, c ≠ '/' ∧ c ≠ '?'
  rest : ∀ c, u.rest.head? = some c → c = '/' ∨ c = '?'

theorem isHostChar_iff {c : Char} : isHostChar c = true ↔ c ≠ '/' ∧ c ≠ '?' := by
  rw [isHostChar, Bool.and_eq_true, bne_iff_ne, bne_iff_ne]

theorem isHostChar_eq_false_iff {c : Char} : isHostChar c = false ↔ c = '/' ∨ c = '?' := by
  rw [isHostChar, Bool.and_eq_false_iff, bne_eq_false_iff_eq, bne_eq_false_iff_eq]

/-- What `://` ends is all before the first one: it cannot overlap with itself. -/
theorem cut_schemeMark_iff {url scheme tail : Text} :
    cut schemeMark url = some (scheme, tail) ↔
      url = scheme ++ schemeMark ++ tail ∧ ¬ schemeMark <:+: scheme := by
  have hmark : schemeMark = ':' :: "//".toList := rfl
  rw [cut_eq_some_iff, hmark]
  exact cutAt_iff_not_infix (by decide)

/-- A url is read as the parts of which it is the text. -/
theorem parse_eq_ok_iff {url : Text} {u : Url} : parse url = .ok u ↔ u.WellFormed ∧ u.text = url := by
  have hspan {tail : Text} : u.host = tail.takeWhile isHostChar ∧ u.rest = tail.dropWhile isHostChar ↔
      tail = u.host ++ u.rest ∧ (∀ c ∈ u.host, c ≠ '/' ∧ c ≠ '?') ∧
        ∀ c, u.rest.head? = some c → c = '/' ∨ c = '?' := by
    rw [eq_takeWhile_dropWhile_iff]
    simp only [isHostChar_iff, isHostChar_eq_false_iff]
  rw [parse_eq_ok]
  constructor
  · rintro ⟨tail, hcut, hhost, hrest, hne⟩
    obtain ⟨hurl, hscheme⟩ := cut_schemeMark_iff.1 hcut
    obtain ⟨htail, hchars, hstop⟩ := hspan.1 ⟨hhost, hrest⟩
    refine ⟨⟨hscheme, hne, hchars, hstop⟩, ?_⟩
    rw [text, hurl, htail, ← List.append_assoc]
  · rintro ⟨h, htext⟩
    obtain ⟨hhost, hrest⟩ := hspan.2 ⟨rfl, h.host, h.rest⟩
    refine ⟨u.host ++ u.rest, cut_schemeMark_iff.2 ⟨?_, h.scheme⟩, hhost, hrest, h.host_ne⟩
    rw [← htext, text, List.append_assoc]

/-- The same scheme and host with something else behind them. -/
theorem parse_withRest {url : Text} {u : Url} (h : parse url = .ok u) {c : Char}
    (hc : isHostChar c = false) (rest : Text) :
    parse (u.scheme ++ schemeMark ++ u.host ++ c :: rest) =
      .ok { scheme := u.scheme, host := u.host, rest := c :: rest } := by
  obtain ⟨hu, -⟩ := parse_eq_ok_iff.1 h
  refine parse_eq_ok_iff.2 ⟨⟨hu.scheme, hu.host_ne, hu.host, fun d hd => ?_⟩, rfl⟩
  cases hd
  exact isHostChar_eq_false_iff.1 hc

/-- A path is empty or starts with a slash. -/
theorem path_eq (u : Url) : u.path = [] ∨ ∃ rest, u.path = '/' :: rest := by
  unfold path
  split
  · rename_i hhead
    obtain ⟨rest, hrest⟩ := List.head?_eq_some_iff.1 hhead
    exact .inr ⟨rest, hrest⟩
  · exact .inl rfl

theorem path_path (u : Url) : path { scheme := u.scheme, host := u.host, rest := u.path } = u.path := by
  rcases u.path_eq with hnil | ⟨rest, hcons⟩
  · rw [hnil]
    rfl
  · rw [hcons]
    rfl

/-- What stands before the query of a path is empty or starts with a slash as well. -/
theorem head?_splitQuery_path (u : Url) :
    (splitQuery u.path).1 = [] ∨ (splitQuery u.path).1.head? = some '/' := by
  have hprefix := splitQuery_prefix u.path
  cases hfirst : (splitQuery u.path).1 with
  | nil => exact .inl rfl
  | cons c tail =>
    rw [hfirst] at hprefix
    rcases u.path_eq with hnil | ⟨rest, hcons⟩
    · rw [hnil] at hprefix
      cases List.prefix_nil.1 hprefix
    · rw [hcons] at hprefix
      exact .inr (congrArg some (List.cons_prefix_cons.1 hprefix).1)

/-! ## Origin -/

/-- A url whose scheme ends before its query: the query is no part of scheme and host. -/
theorem parse_beforeQuery {before scheme tail query : Text} {u : Url}
    (hcut : cut schemeMark before = some (scheme, tail)) :
    parse (before ++ '?' :: query) = .ok u ↔
      u = { scheme := scheme
            host := tail.takeWhile isHostChar
            rest := tail.dropWhile isHostChar ++ '?' :: query } ∧
        tail.takeWhile isHostChar ≠ [] := by
  have hmark : isHostChar '?' = false := by decide
  have hurl : cut schemeMark (before ++ '?' :: query) = some (scheme, tail ++ '?' :: query) := by
    rw [append_of_cut hcut, List.append_assoc]
    exact cut_replace_right hcut _
  rw [parse_eq_ok, hurl]
  constructor
  · rintro ⟨tail', heq, hhost, hrest, hne⟩
    cases u
    cases heq
    rw [takeWhile_stop hmark] at hhost
    rw [dropWhile_stop hmark] at hrest
    cases hhost
    cases hrest
    exact ⟨rfl, hne⟩
  · rintro ⟨rfl, hne⟩
    exact ⟨_, rfl, (takeWhile_stop hmark _ _).symm, (dropWhile_stop hmark _ _).symm, hne⟩

/-- What stands before the query of such a path. -/
theorem splitQuery_path {scheme host tail : Text} (h : '?' ∉ tail) (query : Text) :
    (splitQuery (path { scheme := scheme, host := host
                        rest := tail.dropWhile isHostChar ++ '?' :: query })).1 =
      tail.dropWhile isHostChar := by
  have hrest : '?' ∉ tail.dropWhile isHostChar := fun hmem =>
    h ((List.dropWhile_sublist _).subset hmem)
  unfold path
  cases hdrop : tail.dropWhile isHostChar with
  | nil => rfl
  | cons c rest =>
    -- No host character, and no question mark either: a slash.
    have hslash : c = '/' := by
      have hstop : isHostChar c = false := by
        have := List.head?_dropWhile_not isHostChar tail
        rw [hdrop] at this
        simpa using this
      have hne : c ≠ '?' := by
        rintro rfl
        exact hrest (hdrop ▸ List.mem_cons_self)
      simpa [isHostChar, hne] using hstop
    rw [hdrop] at hrest
    rw [hslash] at hrest ⊢
    rw [List.cons_append, List.head?_cons, if_pos rfl, ← List.cons_append, splitQuery_mark hrest]

/-- Scheme, host and path do not depend on the query. -/
theorem parse_sameOrigin {before scheme tail query : Text} {u : Url} (hb : '?' ∉ before)
    (hcut : cut schemeMark before = some (scheme, tail))
    (h : parse (before ++ '?' :: query) = .ok u) (query' : Text) :
    ∃ v, parse (before ++ '?' :: query') = .ok v ∧ v.scheme = u.scheme ∧ v.host = u.host ∧
      (splitQuery v.path).1 = (splitQuery u.path).1 := by
  obtain ⟨rfl, hne⟩ := (parse_beforeQuery hcut).1 h
  have htail : '?' ∉ tail := fun hmem => hb (append_of_cut hcut ▸ List.mem_append_right _ hmem)
  refine ⟨_, (parse_beforeQuery hcut).2 ⟨rfl, hne⟩, rfl, rfl, ?_⟩
  rw [splitQuery_path htail, splitQuery_path htail]

end Url

end SigV4
