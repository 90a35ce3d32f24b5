import SigV4.Proofs.UrlGrammar

/-!
# SigV4.Proofs.UrlParts

Urls and their parts stand for each other.

* `Url.text_inj`     — no url is the text of two readings.
* `Url.parse_joined` — scheme, host, path and query are read as they were put together.
* `hostnameOf_eq_ok` — the name of a host is what stands before its first colon, if anything does.
* `urls_come_apart_as_joined` — all of it, with what is refused.
-/

namespace SigV4

/-! ## Parts -/

namespace Url

/-- No url is the text of two readings. -/
theorem text_inj {u v : Url} (hu : u.WellFormed) (hv : v.WellFormed) (h : u.text = v.text) : u = v := by
  have hread := parse_eq_ok_iff.2 ⟨hu, h⟩
  rw [parse_eq_ok_iff.2 ⟨hv, rfl⟩] at hread
  exact (Except.ok.inj hread).symm

/-- A path begins with a slash, if it is not empty. -/
theorem wellFormed_joined {scheme host path : Text} {query : Option Text}
    (hscheme : ¬ schemeMark <:+: scheme) (hne : host ≠ []) (hhost : ∀ c ∈ host, c ≠ '/' ∧ c ≠ '?')
    (hpath : path = [] ∨ path.head? = some '/') :
    WellFormed { scheme := scheme, host := host, rest := joinQuery path query } := by
  refine ⟨hscheme, hne, hhost, fun c hc => ?_⟩
  rcases hpath with rfl | hpath
  · cases query with
    | none => cases hc
    | some query =>
      cases hc
      exact .inr rfl
  · obtain ⟨tail, rfl⟩ := List.head?_eq_some_iff.1 hpath
    cases query
    all_goals
      cases hc
      exact .inl rfl

/-- Parts that are put together come apart again. -/
theorem parse_joined {scheme host path : Text} (hscheme : ¬ schemeMark <:+: scheme) (hne : host ≠ [])
    (hhost : ∀ c ∈ host, c ≠ '/' ∧ c ≠ '?') (hpath : path = [] ∨ path.head? = some '/')
    (hmark : '?' ∉ path) (query : Option Text) :
    parse (scheme ++ schemeMark ++ host ++ joinQuery path query) =
        .ok { scheme := scheme, host := host, rest := joinQuery path query } ∧
      splitQuery (joinQuery path query) = (path, query) :=
  ⟨parse_eq_ok_iff.2 ⟨wellFormed_joined hscheme hne hhost hpath, rfl⟩,
    splitQuery_eq_iff.2 ⟨rfl, hmark⟩⟩

/-- A url that is put together again from what was read of it, without a query that has no path before
it. -/
theorem parse_again {url path : Text} {query : Option Text} {u : Url} (h : parse url = .ok u)
    (hsplit : splitQuery u.path = (path, query)) :
    parse (u.scheme ++ schemeMark ++ u.host ++ joinQuery path query) =
      .ok { scheme := u.scheme, host := u.host, rest := u.path } := by
  obtain ⟨hu, -⟩ := parse_eq_ok_iff.1 h
  obtain ⟨hjoin, hmark⟩ := splitQuery_eq_iff.1 hsplit
  have hpath := u.head?_splitQuery_path
  rw [hsplit] at hpath
  rw [hjoin]
  exact (parse_joined hu.scheme hu.host_ne hu.host hpath hmark query).1

end Url

/-! ## Parts of a url given as text -/

section Parts

variable {url : Text}

theorem hostOf_eq_ok {host : Text} :
    hostOf url = .ok host ↔ ∃ u : Url, u.WellFormed ∧ u.text = url ∧ u.host = host := by
  simp only [hostOf, map_eq_ok, Url.parse_eq_ok_iff, and_assoc]

theorem pathOf_eq_error_iff {e : Error} : pathOf url = .error e ↔ hostOf url = .error e := by
  unfold pathOf hostOf
  cases Url.parse url with
  | error e' => exact Iff.rfl
  | ok u => exact iff_of_false nofun nofun

theorem hostnameOf_eq_ok {name : Text} :
    hostnameOf url = .ok name ↔
      ∃ host, hostOf url = .ok host ∧ name ≠ [] ∧ ':' ∉ name ∧
        (host = name ∨ ∃ port, host = name ++ ':' :: port) := by
  unfold hostnameOf
  cases hostOf url with
  | error e => simp
  | ok host =>
    simp only [Except.ok.injEq, exists_eq_left', ← takeWhile_ne_eq_iff]
    constructor
    · intro h
      split at h
      · cases h
      · rename_i hne
        cases h
        exact ⟨hne, rfl⟩
    · rintro ⟨hne, rfl⟩
      exact if_neg hne

theorem refusesAs_hostOf (url : Text) : RefusesAs .malformedInput (hostOf url) :=
  (refusesAs_parse url).map _

theorem refusesAs_pathOf (url : Text) : RefusesAs .malformedInput (pathOf url) :=
  (refusesAs_parse url).map _

theorem refusesAs_hostnameOf (url : Text) : RefusesAs .malformedInput (hostnameOf url) := by
  unfold hostnameOf
  split
  · rename_i e he
    exact .error (refusesAs_hostOf url e he)
  · simp only
    split
    · exact .error rfl
    · exact .ok _

end Parts

/-- Urls are the texts of their parts, each of one scheme, host and rest. Path and host name are read from
these, and just what has no such parts is refused, as malformed input. A path and its query come apart
at the first question mark. Parts that are put together are read again as they were: any parts that fit
together, and those that were read from a url. -/
theorem urls_come_apart_as_joined :
    (∀ url host : Text,
      hostOf url = .ok host ↔ ∃ u : Url, u.WellFormed ∧ u.text = url ∧ u.host = host) ∧
    (∀ u v : Url, u.WellFormed → v.WellFormed → u.text = v.text → u = v) ∧
    (∀ u : Url, u.WellFormed →
      pathOf u.text = .ok (if u.rest.head? = some '/' then u.rest else [])) ∧
    (∀ url name : Text, hostnameOf url = .ok name ↔
      ∃ host, hostOf url = .ok host ∧ name ≠ [] ∧ ':' ∉ name ∧
        (host = name ∨ ∃ port, host = name ++ ':' :: port)) ∧
    (∀ (url : Text) (e : Error), pathOf url = .error e ↔ hostOf url = .error e) ∧
    (∀ url : Text, RefusesAs .malformedInput (hostOf url) ∧ RefusesAs .malformedInput (pathOf url) ∧
      RefusesAs .malformedInput (hostnameOf url)) ∧
    (∀ s path query : Text,
      splitQuery s = (path, some query) ↔ s = path ++ '?' :: query ∧ '?' ∉ path) ∧
    (∀ s path : Text, splitQuery s = (path, none) ↔ s = path ∧ '?' ∉ s) ∧
    (∀ (scheme host path : Text) (query : Option Text), ¬ schemeMark <:+: scheme → host ≠ [] →
      (∀ c ∈ host, c ≠ '/' ∧ c ≠ '?') → (path = [] ∨ path.head? = some '/') → '?' ∉ path →
      Url.parse (scheme ++ schemeMark ++ host ++ joinQuery path query) =
          .ok { scheme := scheme, host := host, rest := joinQuery path query } ∧
        splitQuery (joinQuery path query) = (path, query)) ∧
    ∀ (url : Text) (u : Url) (path : Text) (query : Option Text),
      Url.parse url = .ok u → splitQuery u.path = (path, query) →
      hostOf (u.scheme ++ schemeMark ++ u.host ++ joinQuery path query) = hostOf url ∧
        pathOf (u.scheme ++ schemeMark ++ u.host ++ joinQuery path query) = pathOf url := by
  refine ⟨fun _ _ => hostOf_eq_ok, fun _ _ => Url.text_inj, fun u hu => ?_, fun _ _ => hostnameOf_eq_ok,
    fun _ _ => pathOf_eq_error_iff,
    fun url => ⟨refusesAs_hostOf url, refusesAs_pathOf url, refusesAs_hostnameOf url⟩,
    fun _ _ _ => splitQuery_eq_iff, fun s path => ?_, fun _ _ _ query hscheme hne hhost hpath hmark =>
    Url.parse_joined hscheme hne hhost hpath hmark query, fun url u path query hu hsplit => ?_⟩
  · rw [pathOf, Url.parse_eq_ok_iff.2 ⟨hu, rfl⟩]
    rfl
  · rw [splitQuery_eq_iff, joinQuery]
    exact and_congr_right fun heq => by rw [heq]
  · rw [hostOf, pathOf, Url.parse_again hu hsplit, hostOf, pathOf, hu]
    exact ⟨rfl, congrArg Except.ok u.path_path⟩

/-- Marks stand in all parts of this url: two slashes in the scheme, a colon in the host, another `://`
in the query. -/
def markedUrl : Url where
  scheme := "a//b?:/".toList
  host := ":x".toList
  rest := "/p?q=://?r".toList

theorem markedUrl_comes_apart :
    markedUrl.WellFormed ∧ pathOf markedUrl.text = .ok "/p?q=://?r".toList ∧
      ¬ ∃ name, hostnameOf markedUrl.text = .ok name := by
  have hscheme : ¬ schemeMark <:+: markedUrl.scheme := by
    rw [← cut_isSome_iff]
    decide
  have hchars : markedUrl.host.all isHostChar = true := by decide
  have hu : markedUrl.WellFormed :=
    ⟨hscheme, by decide, fun c hc => Url.isHostChar_iff.1 (List.all_eq_true.1 hchars c hc),
      fun c hc => .inl (Option.some.inj hc).symm⟩
  obtain ⟨hhost, -, hpath, hname, -⟩ := urls_come_apart_as_joined
  refine ⟨hu, hpath markedUrl hu, ?_⟩
  rintro ⟨name, h⟩
  obtain ⟨host, hread, hne, hcolon, hstart⟩ := (hname _ name).1 h
  have hmarked : hostOf markedUrl.text = .ok markedUrl.host := (hhost _ _).2 ⟨markedUrl, hu, rfl, rfl⟩
  rw [hmarked] at hread
  cases hread
  -- The host begins with its colon, so nothing stands before that.
  have hfirst : markedUrl.host = ':' :: ['x'] := rfl
  cases name with
  | nil => exact hne rfl
  | cons c name =>
    rw [hfirst] at hstart
    rcases hstart with hstart | ⟨port, hstart⟩
    · exact hcolon (hstart ▸ List.mem_cons_self)
    · exact hcolon ((List.cons.inj hstart).1 ▸ List.mem_cons_self)

end SigV4
