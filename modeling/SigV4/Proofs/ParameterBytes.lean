import Mathlib.Data.List.Perm.Basic
import SigV4.Proofs.Canonicalization

/-!
# SigV4.Proofs.ParameterBytes

The bytes behind the parameters of a query, before and after it is brought into canonical form.

* `BytePair`         — a name and a value as bytes; `IsText` if both are the form of a text.
* `formPairs`, `plainPairs` — the pairs of a query, with the rule of forms for plus signs and without it.
* `map_bytes_ofForm` — forms are read as texts, so what is no text is mended first.
* `formPairs_canonicalQuery` — the canonical form has the mended bytes of each parameter.
* `canonicalQuery_eq_iff_mended` — and it is shared by all queries with the same mended bytes.
* `canonicalPath_bytes`, `plainPairs_of_ofUrl` — the paths of the object store, and the parameters of a
  url that is presigned, keep their bytes, since what is no text is refused.
* `canonicalQuery_keeps_texts` — hence a query keeps its bytes just if all of them are texts.
-/

namespace SigV4

structure BytePair where
  name : Bytes
  value : Bytes
deriving DecidableEq

def Parameter.bytes (p : Parameter) : BytePair := { name := utf8 p.name, value := utf8 p.value }

/-- The bytes of a text in place of any others: the same ones if they are a text already. -/
def mend (bs : Bytes) : Bytes := utf8 (ofUtf8Lossy bs)

namespace BytePair

/-- The pair of a piece of a query, with some rule for escapes. -/
def ofPiece (decode : Text → Bytes) (piece : Text) : BytePair :=
  let p := Parameter.ofPiece piece
  { name := decode p.name, value := decode p.value }

def mended (p : BytePair) : BytePair := { name := mend p.name, value := mend p.value }

/-- Whether name and value are texts. -/
def IsText (p : BytePair) : Prop := ∃ q : Parameter, p = q.bytes

end BytePair

/-- The bytes of a text in a form, where a plus sign is a space. -/
def formBytes (s : Text) : Bytes := percentDecode (s.map fun c => if c = '+' then ' ' else c)

/-- The names and values of a form-encoded query, as bytes. -/
def formPairs (query : Text) : List BytePair := (pieces query).map (BytePair.ofPiece formBytes)

/-- The same for a query in which a plus sign is one. -/
def plainPairs (query : Text) : List BytePair := (pieces query).map (BytePair.ofPiece percentDecode)

/-! ## Mending -/

theorem mend_utf8 (t : Text) : mend (utf8 t) = utf8 t := by
  simp [mend]

namespace BytePair

theorem isText_mended (p : BytePair) : p.mended.IsText :=
  ⟨{ name := ofUtf8Lossy p.name, value := ofUtf8Lossy p.value }, rfl⟩

theorem mended_bytes (q : Parameter) : q.bytes.mended = q.bytes := by
  simp [mended, Parameter.bytes, mend_utf8]

theorem mended_eq_self_iff {p : BytePair} : p.mended = p ↔ p.IsText := by
  constructor
  · intro h
    rw [← h]
    exact p.isText_mended
  · rintro ⟨q, rfl⟩
    exact mended_bytes q

theorem map_mended_of_isText {l : List BytePair} (h : ∀ p ∈ l, p.IsText) : l.map mended = l := by
  rw [List.map_congr_left fun p hp => mended_eq_self_iff.2 (h p hp), List.map_id']

end BytePair

theorem Parameter.bytes_injective : Function.Injective Parameter.bytes := by
  intro p q h
  obtain ⟨hname, hvalue⟩ := BytePair.mk.inj h
  cases p
  cases q
  cases utf8_inj hname
  cases utf8_inj hvalue
  rfl

/-! ## Forms -/

/-- Forms are read as texts: what is no text is mended. -/
theorem map_bytes_ofForm (query : Text) :
    (ofForm query).map Parameter.bytes = (formPairs query).map BytePair.mended := by
  rw [ofForm, formPairs, List.map_map, List.map_map]
  rfl

theorem formBytes_encodeComponent (s : Text) : formBytes (encodeComponent s) = utf8 s := by
  have hplus := replacePlus_of_not_mem [' ']
    (not_mem_encodeComponent (c := '+') (by decide) (by decide) s)
  rw [formBytes, replacePlus_space, hplus, percentDecode_encodeComponent]

theorem ofPiece_encoded_bytes (p : Parameter) :
    BytePair.ofPiece formBytes p.encoded.text = p.bytes := by
  rw [BytePair.ofPiece, Parameter.ofPiece_encoded]
  simp only [Parameter.encoded, formBytes_encodeComponent, Parameter.bytes]

theorem formPairs_queryText (l : List Parameter) :
    formPairs (queryText (l.map Parameter.encoded)) = l.map Parameter.bytes := by
  rw [formPairs, pieces_queryText, List.map_map]
  exact List.map_congr_left fun p _ => ofPiece_encoded_bytes p

/-- The canonical form of a query has the mended bytes of each parameter. -/
theorem formPairs_canonicalQuery (query : Text) :
    (formPairs (canonicalQuery query)).Perm ((formPairs query).map BytePair.mended) := by
  obtain ⟨l, hperm, -, heq⟩ := exists_canonicalQuery query
  rw [heq, formPairs_queryText, ← map_bytes_ofForm]
  exact hperm.map _

theorem formPairs_canonicalQuery_iff {query : Text} :
    (formPairs (canonicalQuery query)).Perm (formPairs query) ↔
      ∀ p ∈ formPairs query, p.IsText := by
  have hmended := formPairs_canonicalQuery query
  constructor
  · intro h p hp
    -- Each pair of the query is among the mended ones, and these are texts.
    obtain ⟨q, -, rfl⟩ := List.mem_map.1 ((h.symm.trans hmended).mem_iff.1 hp)
    exact q.isText_mended
  · intro h
    rwa [BytePair.map_mended_of_isText h] at hmended

/-- Queries have one canonical form just if they have the same bytes once these are mended. -/
theorem canonicalQuery_eq_iff_mended {query query' : Text} :
    canonicalQuery query = canonicalQuery query' ↔
      ((formPairs query).map BytePair.mended).Perm ((formPairs query').map BytePair.mended) := by
  rw [← map_bytes_ofForm, ← map_bytes_ofForm, List.map_perm_map_iff Parameter.bytes_injective]
  exact ⟨fun h => rawParameters_canonicalQuery_inj.1 (congrArg rawParameters h),
    canonicalQuery_of_perm⟩

theorem canonicalQuery_eq_iff_of_isText {query query' : Text}
    (h : ∀ p ∈ formPairs query, p.IsText) (h' : ∀ p ∈ formPairs query', p.IsText) :
    canonicalQuery query = canonicalQuery query' ↔ (formPairs query).Perm (formPairs query') := by
  rw [canonicalQuery_eq_iff_mended, BytePair.map_mended_of_isText h,
    BytePair.map_mended_of_isText h']

/-! ## Paths and urls -/

/-- A path of the object store keeps its bytes, and is refused if they are no text. -/
theorem Signer.canonicalPath_bytes {s : Signer} (hs : s.service = objectStore) (path : Text) :
    ((∃ c, s.canonicalPath path = .ok c) ↔ ∃ t, percentDecode path = utf8 t) ∧
      ∀ c, s.canonicalPath path = .ok c → percentDecode c = percentDecode path := by
  constructor
  · simp only [canonicalPath_eq_ok_iff hs]
    constructor
    · rintro ⟨c, t, ht, -⟩
      exact ⟨t, ht⟩
    · rintro ⟨t, ht⟩
      exact ⟨_, t, ht, rfl⟩
  · intro c hc
    obtain ⟨t, ht, rfl⟩ := (canonicalPath_eq_ok_iff hs).1 hc
    rw [percentDecode_encodePath, ht]

theorem ofPiece_of_readPiece? {piece : Text} {p : Parameter} (h : readPiece? piece = some p) :
    BytePair.ofPiece percentDecode piece = p.bytes := by
  obtain ⟨hname, hvalue⟩ := readPiece?_eq_some.1 h
  rw [BytePair.ofPiece, ofUtf8?_eq_some_iff.1 hname, ofUtf8?_eq_some_iff.1 hvalue]
  rfl

theorem map_ofPiece {l : List Text} :
    ∀ {params : List Parameter}, l.mapM readPiece? = some params →
      l.map (BytePair.ofPiece percentDecode) = params.map Parameter.bytes := by
  induction l with
  | nil =>
    intro params h
    cases h
    rfl
  | cons piece rest ih =>
    intro params h
    obtain ⟨p, params', hp, hrest, rfl⟩ := mapM_cons_eq_some.1 h
    rw [List.map_cons, List.map_cons, ofPiece_of_readPiece? hp, ih hrest]

/-- The parameters that a url asks for have the bytes that stand in it. -/
theorem plainPairs_of_ofUrl {url : Text} {ch : Channel} (h : Channel.ofUrl url = .ok ch) :
    plainPairs (queryOf url) =
      ({ name := channelParameter, value := ch.name } :: ch.extra).map Parameter.bytes :=
  map_ofPiece (pieces_of_asksFor (ofUrl_eq_ok.1 h).1)

/-! ## All of them -/

/-- The canonical form of a query keeps the bytes of each parameter that is a text, and mends all
others: it keeps the bytes of all parameters just if all are texts. Such queries share a canonical
form just if their bytes are the same; any two queries do if the mended bytes are the same. A path
of the object store and the parameters of a url that is presigned always keep their bytes: what is
no text is refused there. -/
theorem canonicalQuery_keeps_texts (query query' : Text) :
    (formPairs (canonicalQuery query)).Perm ((formPairs query).map BytePair.mended) ∧
    ((formPairs (canonicalQuery query)).Perm (formPairs query) ↔
      ∀ p ∈ formPairs query, p.IsText) ∧
    (canonicalQuery query = canonicalQuery query' ↔
      ((formPairs query).map BytePair.mended).Perm ((formPairs query').map BytePair.mended)) ∧
    ((∀ p ∈ formPairs query, p.IsText) → (∀ p ∈ formPairs query', p.IsText) →
      (canonicalQuery query = canonicalQuery query' ↔
        (formPairs query).Perm (formPairs query'))) ∧
    (∀ (s : Signer) (path : Text), s.service = objectStore →
      ((∃ c, s.canonicalPath path = .ok c) ↔ ∃ t, percentDecode path = utf8 t) ∧
      ∀ c, s.canonicalPath path = .ok c → percentDecode c = percentDecode path) ∧
    ∀ (url : Text) (ch : Channel), Channel.ofUrl url = .ok ch →
      plainPairs (queryOf url) =
        ({ name := channelParameter, value := ch.name } :: ch.extra).map Parameter.bytes :=
  ⟨formPairs_canonicalQuery query, formPairs_canonicalQuery_iff, canonicalQuery_eq_iff_mended,
    canonicalQuery_eq_iff_of_isText, fun _ path hs => Signer.canonicalPath_bytes hs path,
    fun _ _ => plainPairs_of_ofUrl⟩

/-- Bytes that are no text are replaced, and two queries that differ in them become the same. -/
theorem brokenQueries_merge :
    canonicalQuery "a=%FF".toList = "a=%EF%BF%BD".toList ∧
      formPairs "a=%FF".toList = [{ name := [0x61], value := [0xFF] }] ∧
      formPairs (canonicalQuery "a=%FF".toList) =
        [{ name := [0x61], value := [0xEF, 0xBF, 0xBD] }] ∧
      ¬ (formPairs (canonicalQuery "a=%FF".toList)).Perm (formPairs "a=%FF".toList) ∧
      canonicalQuery "a=%FF".toList = canonicalQuery "a=%FE".toList ∧
      ¬ (formPairs "a=%FF".toList).Perm (formPairs "a=%FE".toList) := by
  decide +kernel

end SigV4
