import SigV4.Presigned
import SigV4.Proofs.Query
import SigV4.Proofs.Signer
import SigV4.Proofs.Url

/-!
# SigV4.Proofs.Channel

What the query of a url asks for.

* `Free`         — names that are left to the client.
* `AsksFor`      — a url asks for a channel: the decoded reading of its query, nothing refused.
* `ofUrl_eq_ok`  — a channel is read just if the url asks for it, and under free names only.
* `Rearranged`   — the same url with the parameters of the client in another order; it asks for the
  same.
-/

namespace SigV4

/-! ## Parameters of the client -/

/-- Whether a client may use the name of a parameter. -/
def Parameter.Free (p : Parameter) : Prop := p.name ≠ [] ∧ p.name ∉ reservedParameters

theorem decodeParameter_eq_ok {s t : Text} :
    decodeParameter s = .ok t ↔ decodeComponent? s = some t := by
  unfold decodeParameter
  cases decodeComponent? s with
  | none => simp
  | some t' => simp

theorem clientParameter_eq_ok {url piece : Text} {p : Parameter} :
    clientParameter url piece = .ok p ↔ readPiece? piece = some p ∧ p.Free := by
  rw [readPiece?_eq_some, ← decodeParameter_eq_ok, ← decodeParameter_eq_ok]
  unfold clientParameter
  constructor
  · intro h
    simp only at h
    split at h
    · cases h
    · cases h
    · rename_i c cs hname
      split at h
      · cases h
      · rename_i hfree
        obtain ⟨value, hvalue, rfl⟩ := map_eq_ok.1 h
        exact ⟨⟨hname, hvalue⟩, List.cons_ne_nil c cs, hfree⟩
  · rintro ⟨⟨hname, hvalue⟩, hne, hfree⟩
    obtain ⟨name, value⟩ := p
    cases name with
    | nil => exact absurd rfl hne
    | cons c cs =>
      simp only [hname, hvalue, if_neg hfree]
      rfl

theorem clientParameters_eq_ok {url : Text} {l : List Text} :
    ∀ {extra : List Parameter}, clientParameters url l = .ok extra ↔
      (l.filter (· ≠ [])).mapM readPiece? = some extra ∧ ∀ p ∈ extra, p.Free := by
  induction l with
  | nil =>
    intro extra
    constructor
    · intro h
      cases h
      exact ⟨rfl, fun p hp => by cases hp⟩
    · rintro ⟨h, -⟩
      cases h
      rfl
  | cons piece rest ih =>
    intro extra
    cases piece with
    | nil => exact ih
    | cons c cs =>
      have hkept : ((c :: cs) :: rest).filter (· ≠ []) = (c :: cs) :: rest.filter (· ≠ []) := rfl
      rw [hkept, mapM_cons_eq_some]
      simp only [clientParameters]
      constructor
      · intro h
        split at h
        · cases h
        · rename_i p hp
          obtain ⟨extra', hrest, rfl⟩ := map_eq_ok.1 h
          obtain ⟨hread, hfree⟩ := clientParameter_eq_ok.1 hp
          obtain ⟨hreads, hfrees⟩ := ih.1 hrest
          exact ⟨⟨p, extra', hread, hreads, rfl⟩, List.forall_mem_cons.2 ⟨hfree, hfrees⟩⟩
      · rintro ⟨⟨p, extra', hread, hreads, rfl⟩, hfree⟩
        obtain ⟨hp, hextra⟩ := List.forall_mem_cons.1 hfree
        rw [clientParameter_eq_ok.2 ⟨hread, hp⟩, ih.2 ⟨hreads, hextra⟩]
        rfl

/-! ## Channels -/

/-- A url asks for a channel: the first parameter behind the first question mark is its name, which
is not empty, and every piece behind that is not empty is a parameter of the client. -/
def AsksFor (url : Text) (ch : Channel) : Prop :=
  ∃ value rest, (queryOf url).splitOn '&' = (channelParameter ++ ['='] ++ value) :: rest ∧
    value ≠ [] ∧ decodeComponent? value = some ch.name ∧
    (rest.filter (· ≠ [])).mapM readPiece? = some ch.extra

theorem asksFor_unique {url : Text} {ch ch' : Channel} (h : AsksFor url ch)
    (h' : AsksFor url ch') : ch = ch' := by
  obtain ⟨value, rest, hsplit, -, hname, hextra⟩ := h
  obtain ⟨value', rest', hsplit', -, hname', hextra'⟩ := h'
  rw [hsplit] at hsplit'
  obtain ⟨hfirst, hrest⟩ := List.cons.inj hsplit'
  cases List.append_cancel_left hfirst
  cases hrest
  rw [hname] at hname'
  rw [hextra] at hextra'
  cases ch
  cases ch'
  cases hname'
  cases hextra'
  rfl

theorem ofUrl_eq_ok {url : Text} {ch : Channel} :
    Channel.ofUrl url = .ok ch ↔ AsksFor url ch ∧ ∀ p ∈ ch.extra, p.Free := by
  unfold Channel.ofUrl
  constructor
  · intro h
    split at h
    · cases h
    · rename_i first rest hsplit
      split at h
      · cases h
      · cases h
      · rename_i c cs hfirst
        split at h
        · cases h
        · rename_i name hname
          obtain ⟨extra, hextra, rfl⟩ := map_eq_ok.1 h
          obtain ⟨hreads, hfree⟩ := clientParameters_eq_ok.1 hextra
          refine ⟨⟨c :: cs, rest, ?_, List.cons_ne_nil c cs, decodeParameter_eq_ok.1 hname, hreads⟩,
            hfree⟩
          rw [hsplit, append_of_isPrefixOf? hfirst]
  · rintro ⟨⟨value, rest, hsplit, hne, hname, hreads⟩, hfree⟩
    obtain ⟨c, cs, rfl⟩ := List.exists_cons_of_ne_nil hne
    simp only [hsplit, isPrefixOf?_append, decodeParameter_eq_ok.2 hname,
      clientParameters_eq_ok.2 ⟨hreads, hfree⟩]
    rfl

/-- The same url with the pieces behind the channel in another order. Empty ones do not count. -/
structure Rearranged (url url' : Text) : Prop where
  before : (splitQuery url').1 = (splitQuery url).1
  behind : ∃ first rest rest', (queryOf url).splitOn '&' = first :: rest ∧
    (queryOf url').splitOn '&' = first :: rest' ∧
    (rest.filter (· ≠ [])).Perm (rest'.filter (· ≠ []))

theorem asksFor_of_rearranged {url url' : Text} {ch : Channel} (hr : Rearranged url url')
    (h : AsksFor url ch) :
    ∃ extra, AsksFor url' { name := ch.name, extra := extra } ∧ extra.Perm ch.extra := by
  obtain ⟨value, rest, hsplit, hne, hname, hreads⟩ := h
  obtain ⟨first, rest₁, rest', hfirst, hsplit', hperm⟩ := hr.behind
  rw [hsplit] at hfirst
  cases hfirst
  obtain ⟨extra, hreads', hextra⟩ := mapM_perm hperm hreads
  exact ⟨extra, ⟨value, rest', hsplit', hne, hname, hreads'⟩, hextra⟩

/-- A url that asks for a channel has a query. -/
theorem splitQuery_of_asksFor {url : Text} {ch : Channel} (h : AsksFor url ch) :
    url = (splitQuery url).1 ++ '?' :: queryOf url := by
  obtain ⟨value, rest, hsplit, -⟩ := h
  unfold queryOf at *
  cases hquery : splitQuery url with
  | mk path query =>
    cases query with
    | none =>
      rw [hquery] at hsplit
      cases hsplit
    | some q => exact (splitQuery_eq_iff.1 hquery).1

end SigV4
