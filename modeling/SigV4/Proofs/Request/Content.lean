import SigV4.Proofs.Header.Merge
import SigV4.Proofs.Query
import SigV4.Proofs.Request.Signing

/-!
# SigV4.Proofs.Request.Content

What the signature of a request depends on.

* `SameContent`       — requests that say the same: they may differ in the blanks of their header
  values, in the order of their parameters and in an authorization header.
* `fieldsToSign_content` — they are given fields with the same header block.
* `signAt_eq`, `authorize_congr` — the header that is added follows from that block, from method and
  path, and from the parameters in any order.
* `signInPlace_content` — so they are both refused, or given the same header (`AuthorizedLike`).
* `Fields.ofWritten?` — fields as they are written: one after the other, in letters of either case.
* `signature_of_content` — requests that say the same are authorized alike, in whatever order their
  names are visited or were written.
-/

namespace SigV4

/-- Whether two requests say the same, as far as a signature is concerned. -/
structure SameContent (r r' : Request) : Prop where
  method : r.method = r'.method
  authority : r.uri.authority = r'.uri.authority
  path : r.uri.path = r'.uri.path
  query : (ofForm (r.uri.query.getD [])).Perm (ofForm (r'.uri.query.getD []))
  fields : ∀ name : FieldName, name ≠ .authorization →
    (r.fields.values name).map FieldValue.signedForm? =
      (r'.fields.values name).map FieldValue.signedForm?

/-! ## Fields -/

theorem Fields.contains_congr {f g : Fields} {name : FieldName}
    (h : (f.values name).map FieldValue.signedForm? = (g.values name).map FieldValue.signedForm?) :
    f.contains name = g.contains name := by
  have hempty : f.values name = [] ↔ g.values name = [] := by
    rw [← List.map_eq_nil_iff, h, List.map_eq_nil_iff]
  rw [Bool.eq_iff_iff, contains_iff_values, contains_iff_values]
  exact not_congr hempty

theorem Fields.stamp_forms {f g : Fields}
    (h : ∀ name : FieldName, name ≠ .authorization →
      (f.values name).map FieldValue.signedForm? = (g.values name).map FieldValue.signedForm?)
    (host : Option FieldValue) (date : FieldValue) (token : Option FieldValue) (name : FieldName) :
    ((f.stamp host date token).values name).map FieldValue.signedForm? =
      ((g.stamp host date token).values name).map FieldValue.signedForm? := by
  rw [values_stamp, values_stamp]
  by_cases hauth : name = .authorization
  · rw [if_pos hauth, if_pos hauth]
  · have hname := h name hauth
    rw [if_neg hauth, if_neg hauth]
    split
    · cases token with
      | none => exact hname
      | some v => rfl
    · split
      · rfl
      · split
        · cases host with
          | none => exact hname
          | some v => rfl
        · exact hname

namespace SameContent

variable {r r' : Request}

theorem newHost_eq (h : SameContent r r') : newHost r = newHost r' := by
  have hcontains := Fields.contains_congr (h.fields .host (by decide))
  unfold newHost
  rw [hcontains, h.authority]

theorem fieldsToSign_content (h : SameContent r r') (c : Credentials) (date : Text) :
    (∃ e, Signer.fieldsToSign r c date = .error e ∧ Signer.fieldsToSign r' c date = .error e) ∨
      ∃ f f', Signer.fieldsToSign r c date = .ok f ∧ Signer.fieldsToSign r' c date = .ok f' ∧
        HeaderBlock.ofFields f = HeaderBlock.ofFields f' := by
  rw [fieldsToSign_eq, fieldsToSign_eq, h.newHost_eq]
  cases newHost r' with
  | error e => exact .inl ⟨e, rfl, rfl⟩
  | ok host =>
    cases fieldValue date with
    | error e => exact .inl ⟨e, rfl, rfl⟩
    | ok dated =>
      cases tokenValue c with
      | error e => exact .inl ⟨e, rfl, rfl⟩
      | ok token =>
        exact .inr ⟨_, _, rfl, rfl,
          HeaderBlock.ofFields_congr (Fields.stamp_forms h.fields host dated token)⟩

end SameContent

/-! ## Signing -/

namespace Signer

/-- The authorization header of a request whose header block is known. -/
def authorize (s : Signer) (t : Instant) (verb : Verb) (r : Request) (block : HeaderBlock)
    (payload : Bytes) (c : Credentials) : Except Error FieldValue := do
  let path ← s.canonicalPath r.uri.path
  let signed ← s.authorization (canonicalOf verb r block path payload) c t.basic
  let value ← fieldValue signed.header
  return value.asSensitive

theorem signAt_eq (s : Signer) (t : Instant) (verb : Verb) (r : Request) (payload : Bytes)
    (c : Credentials) :
    s.signAt t verb r payload c = (do
      let fields ← fieldsToSign r c t.basic
      let block ← HeaderBlock.ofFields fields
      let value ← s.authorize t verb r block payload c
      return { r with fields := fields.insert .authorization value }) := by
  simp only [signAt, authorize, canonicalOf, bind_assoc, pure_bind]

theorem authorize_congr {r r' : Request} (h : SameContent r r') (s : Signer) (t : Instant)
    (verb : Verb) (block : HeaderBlock) (payload : Bytes) (c : Credentials) :
    s.authorize t verb r block payload c = s.authorize t verb r' block payload c := by
  simp only [authorize, canonicalOf, h.path, canonicalQuery_of_perm h.query]

/-- Requests that say the same are both refused, or given the same authorization header. -/
theorem signAt_content {r r' : Request} (h : SameContent r r') (s : Signer) (t : Instant)
    (verb : Verb) (payload : Bytes) (c : Credentials) :
    (∃ e, s.signAt t verb r payload c = .error e ∧ s.signAt t verb r' payload c = .error e) ∨
      ∃ signed signed' v, s.signAt t verb r payload c = .ok signed ∧
        s.signAt t verb r' payload c = .ok signed' ∧
        signed.fields.values .authorization = [v] ∧
        signed'.fields.values .authorization = [v] := by
  rw [signAt_eq, signAt_eq]
  rcases h.fieldsToSign_content c t.basic with ⟨e, he, he'⟩ | ⟨f, f', hf, hf', hblock⟩
  · rw [he, he']
    exact .inl ⟨e, rfl, rfl⟩
  · rw [hf, hf']
    simp only [bind, Except.bind, hblock, authorize_congr h]
    cases HeaderBlock.ofFields f' with
    | error e => exact .inl ⟨e, rfl, rfl⟩
    | ok block =>
      cases hvalue : s.authorize t verb r' block payload c with
      | error e => exact .inl ⟨e, by simp only [hvalue], by simp only [hvalue]⟩
      | ok value =>
        simp only [hvalue]
        exact .inr ⟨_, _, value, rfl, rfl, Fields.values_insert_self _ _ _,
          Fields.values_insert_self _ _ _⟩

end Signer

/-- Whether two attempts come to the same, and to the same authorization header if they succeed. -/
structure Attempt.AuthorizedLike (a b : Attempt) : Prop where
  outcome : a.outcome = b.outcome
  clock : a.clock = b.clock
  authorization : a.outcome = .ok () → ∃ v, a.request.fields.values .authorization = [v] ∧
    b.request.fields.values .authorization = [v]

theorem Signer.signInPlace_content {r r' : Request} (h : SameContent r r') (s : Signer)
    (clock : Clock) (payload : Bytes) (c : Credentials) :
    (s.signInPlace clock r payload c).AuthorizedLike (s.signInPlace clock r' payload c) := by
  have hready : s.ready r c = s.ready r' c := by
    simp only [ready, h.method]
  unfold signInPlace sign
  rw [hready]
  cases s.ready r' c with
  | error e => exact ⟨rfl, rfl, fun hok => by cases hok⟩
  | ok verb =>
    rcases signAt_content h s clock.now.1 verb payload c with
      ⟨e, he, he'⟩ | ⟨signed, signed', v, hsigned, hsigned', hv, hv'⟩
    · simp only [he, he']
      exact ⟨rfl, rfl, fun hok => by cases hok⟩
    · simp only [hsigned, hsigned']
      exact ⟨rfl, rfl, fun _ => ⟨v, hv, hv'⟩⟩

/-! ## Fields as they are written -/

namespace Fields

/-- Adds fields in the order in which they are written, their names in letters of either case;
nothing if one of these is no name. -/
def appendWritten? (f : Fields) : List (Text × FieldValue) → Option Fields
  | [] => some f
  | p :: rest =>
    match FieldName.ofText? p.1 with
    | none => none
    | some name => (f.append name p.2).appendWritten? rest

def ofWritten? (l : List (Text × FieldValue)) : Option Fields := empty.appendWritten? l

/-- The values that are written for a name. -/
def writtenFor (name : FieldName) (l : List (Text × FieldValue)) : List FieldValue :=
  under name.text (l.map fun p => (p.1.map Char.toLower, p.2))

theorem writtenFor_cons {p : Text × FieldValue} {n : FieldName}
    (h : p.1.map Char.toLower = n.text) (name : FieldName) (l : List (Text × FieldValue)) :
    writtenFor name (p :: l) = if n = name then p.2 :: writtenFor name l else writtenFor name l := by
  rw [writtenFor, List.map_cons, under_cons, h]
  by_cases heq : n = name
  · rw [if_pos heq, if_pos (congrArg FieldName.text heq)]
    rfl
  · rw [if_neg heq, if_neg fun htext => heq (FieldName.ext htext)]
    rfl

theorem values_append (f : Fields) (name other : FieldName) (v : FieldValue) :
    (f.append name v).values other =
      if name = other then f.values other ++ [v] else f.values other := by
  by_cases h : name = other
  · subst h
    simp only [values, append, alter, TextMap.find?_alter_self, if_true]
    cases f.map.find? name.text with
    | none => rfl
    | some w => rfl
  · rw [if_neg h, append, values_alter_of_ne f _ (Ne.symm h)]

/-- By induction on what is written: each field adds its value behind those of its name. -/
theorem values_appendWritten? {l : List (Text × FieldValue)} (name : FieldName) :
    ∀ {f g : Fields}, f.appendWritten? l = some g →
      g.values name = f.values name ++ writtenFor name l := by
  induction l with
  | nil =>
    intro f g h
    cases h
    exact (List.append_nil _).symm
  | cons p rest ih =>
    intro f g h
    simp only [appendWritten?] at h
    split at h
    · cases h
    · rename_i n hn
      rw [ih h, values_append, writtenFor_cons (FieldName.text_of_ofText? hn).symm]
      split
      · rw [List.append_assoc, List.singleton_append]
      · rfl

theorem values_ofWritten? {l : List (Text × FieldValue)} {f : Fields} (h : ofWritten? l = some f)
    (name : FieldName) : f.values name = writtenFor name l := by
  rw [values_appendWritten? name h]
  rfl

end Fields

/-- Neither the order of the names nor their case counts, nor do the order of the parameters and an
authorization header that was there before. -/
theorem sameContent_of_written {method : Text} {uri : Uri} {query : Option Text}
    {l l' : List (Text × FieldValue)} {f f' : Fields} (hf : Fields.ofWritten? l = some f)
    (hf' : Fields.ofWritten? l' = some f')
    (hl : ∀ name : FieldName, name ≠ .authorization →
      Fields.writtenFor name l = Fields.writtenFor name l')
    (hquery : (ofForm (uri.query.getD [])).Perm (ofForm (query.getD []))) :
    SameContent { method := method, uri := uri, fields := f }
      { method := method, uri := { uri with query := query }, fields := f' } where
  method := rfl
  authority := rfl
  path := rfl
  query := hquery
  fields := fun name hname => by
    simp only [Fields.values_ofWritten? hf, Fields.values_ofWritten? hf', hl name hname]

namespace Signer

/-- The signature of a request depends on nothing but its content. Requests that say the same are
both refused, or both given the same authorization header. The names of fields may be visited in any
order; they may be written in any order too and in letters of either case, as may parameters, and an
authorization header that is there already makes no difference. -/
theorem signature_of_content (s : Signer) (clock : Clock) (payload : Bytes) (c : Credentials) :
    (∀ r r', SameContent r r' →
      (s.signInPlace clock r payload c).AuthorizedLike (s.signInPlace clock r' payload c)) ∧
    (∀ (f : Fields) (l : List (Text × FieldValue)), (∀ k, under k l = under k f.toList) →
      HeaderBlock.ofPairs l = HeaderBlock.ofFields f) ∧
    ∀ (method : Text) (uri : Uri) (query : Option Text) (l l' : List (Text × FieldValue))
      (f f' : Fields), Fields.ofWritten? l = some f → Fields.ofWritten? l' = some f' →
      (∀ name : FieldName, name ≠ .authorization →
        Fields.writtenFor name l = Fields.writtenFor name l') →
      (ofForm (uri.query.getD [])).Perm (ofForm (query.getD [])) →
      (s.signInPlace clock { method := method, uri := uri, fields := f } payload c).AuthorizedLike
        (s.signInPlace clock
          { method := method, uri := { uri with query := query }, fields := f' } payload c) :=
  ⟨fun _ _ h => signInPlace_content h s clock payload c,
    fun _ _ => HeaderBlock.ofPairs_eq_ofFields,
    fun _ _ _ _ _ _ _ hf hf' hl hquery =>
      signInPlace_content (sameContent_of_written hf hf' hl hquery) s clock payload c⟩

theorem validName_note : ValidName "x-note".toList := by decide

def note : FieldName := ⟨"x-note".toList, validName_note⟩

theorem sendable_staleFields :
    Sendable " two  words".toList ∧ Sendable "stale".toList ∧ Sendable [] := by decide

/-- The fields of `staleRequest` as they are written. -/
def staleFields : List (Text × FieldValue) := [
  ("x-note".toList, ⟨utf8 " two  words".toList, false, sendable_staleFields.1⟩),
  ("authorization".toList, ⟨utf8 "stale".toList, true, sendable_staleFields.2.1⟩),
  ("x-note".toList, ⟨utf8 [], false, sendable_staleFields.2.2⟩)]

/-- The same in capitals, with other blanks and without the authorization. -/
def restyledFields : List (Text × FieldValue) := [
  ("X-Note".toList, ⟨utf8 "two\twords ".toList, false, by decide⟩),
  ("X-NOTE".toList, ⟨utf8 " ".toList, true, by decide⟩)]

/-- `staleRequest` with fields that say the same, and with its parameters in another order. -/
def restyledRequest : Request where
  method := staleRequest.method
  uri := { staleRequest.uri with query := some "z=%FF&y%20=&z=1".toList }
  fields := (Fields.ofWritten? restyledFields).getD .empty

theorem forms_restyledFields {name : FieldName} (h : name ≠ .authorization) :
    (Fields.writtenFor name staleFields).map FieldValue.signedForm? =
      (Fields.writtenFor name restyledFields).map FieldValue.signedForm? := by
  have hnil : Fields.writtenFor name [] = [] := rfl
  have hlower : "x-note".toList.map Char.toLower = note.text := by decide
  have htitle : "X-Note".toList.map Char.toLower = note.text := by decide
  have hcapitals : "X-NOTE".toList.map Char.toLower = note.text := by decide
  have hauth : "authorization".toList.map Char.toLower = FieldName.authorization.text := by decide
  unfold staleFields restyledFields
  rw [Fields.writtenFor_cons hlower, Fields.writtenFor_cons hauth, Fields.writtenFor_cons hlower,
    Fields.writtenFor_cons htitle, Fields.writtenFor_cons hcapitals, if_neg h.symm, hnil]
  split
  · decide +kernel
  · rfl

theorem restyledRequest_same : SameContent staleRequest restyledRequest where
  method := rfl
  authority := rfl
  path := rfl
  query := by decide +kernel
  fields := fun name hname => by
    have hstale : Fields.ofWritten? staleFields = some staleRequest.fields := rfl
    have hrestyled : Fields.ofWritten? restyledFields = some restyledRequest.fields := rfl
    rw [Fields.values_ofWritten? hstale, Fields.values_ofWritten? hrestyled,
      forms_restyledFields hname]

theorem restyledRequest_authorized :
    staleRequest ≠ restyledRequest ∧ SameContent staleRequest restyledRequest ∧
      (gateway.signInPlace (.fixed march) restyledRequest [1, 2] temporary).outcome = .ok () ∧
      ∃ v, (gateway.signInPlace (.fixed march) staleRequest [1, 2]
          temporary).request.fields.values .authorization = [v] ∧
        (gateway.signInPlace (.fixed march) restyledRequest [1, 2]
          temporary).request.fields.values .authorization = [v] := by
  obtain ⟨r', hsigned⟩ := exists_staleRequest_signed
  have hok : (gateway.signInPlace (.fixed march) staleRequest [1, 2] temporary).outcome = .ok () := by
    rw [hsigned]
  have halike := (signature_of_content gateway (.fixed march) [1, 2] temporary).1 _ _
    restyledRequest_same
  refine ⟨by decide +kernel, restyledRequest_same, ?_, halike.authorization hok⟩
  rw [← halike.outcome, hok]

end Signer

end SigV4
