import SigV4.Proofs.Header.Field
import SigV4.Proofs.Signer
import SigV4.Request.Signing

/-!
# SigV4.Proofs.Request.Stamp

The fields that signing adds to those of a request.

* `Fields.stamp`       — fields with a host and a token, where there is one to put, and a time.
* `values_stamp`       — what they have for each name.
* `fieldsToSign_eq_ok` — signing stamps the fields of a request: with the host of its target if it has
  none, with the time, and with the token of temporary credentials.
* `stamp_stamp`        — a second stamp leaves nothing of the first one but its token, and that only
  if it brings none itself (`stamp_put`).
-/

namespace SigV4

theorem fieldValue_eq_ok {s : Text} {v : FieldValue} :
    fieldValue s = .ok v ↔ FieldValue.ofText? s = some v := by
  unfold fieldValue
  cases FieldValue.ofText? s with
  | none => simp
  | some w => simp

/-! ## Stamps -/

namespace Fields

/-- Makes a value the only one of its name, if there is a value. -/
def put (f : Fields) (name : FieldName) : Option FieldValue → Fields
  | none => f
  | some v => f.insert name v

theorem values_put (f : Fields) (name other : FieldName) (v : Option FieldValue) :
    (f.put name v).values other =
      if other = name then (v.map fun w => [w]).getD (f.values other) else f.values other := by
  cases v with
  | none => simp [put]
  | some w => simp [put, values_insert]

theorem contains_put_of_ne {f : Fields} {name other : FieldName} (h : other ≠ name)
    (v : Option FieldValue) : (f.put name v).contains other = f.contains other := by
  cases v with
  | none => rfl
  | some w =>
    have hne : other.text ≠ name.text := fun heq => h (FieldName.ext heq)
    simp only [put, insert, alter, contains, TextMap.find?_alter_of_ne f.map _ hne]

/-- The fields with a host and a token, if there are such, and a time; without an authorization. -/
def stamp (f : Fields) (host : Option FieldValue) (date : FieldValue) (token : Option FieldValue) :
    Fields :=
  (((f.put .host host).insert .date date).put .securityToken token).erase .authorization

theorem values_stamp (f : Fields) (host : Option FieldValue) (date : FieldValue)
    (token : Option FieldValue) (name : FieldName) :
    (f.stamp host date token).values name =
      if name = .authorization then []
      else if name = .securityToken then (token.map fun v => [v]).getD (f.values name)
      else if name = .date then [date]
      else if name = .host then (host.map fun v => [v]).getD (f.values name)
      else f.values name := by
  by_cases hauth : name = .authorization
  · rw [if_pos hauth, hauth]
    exact values_erase_self _ _
  · rw [stamp, values_erase_of_ne hauth, if_neg hauth, values_put, values_insert, values_put]
    by_cases htoken : name = .securityToken
    · subst htoken
      rfl
    · rw [if_neg htoken, if_neg htoken]

/-- A second stamp on fields that were stamped and authorized. -/
theorem stamp_stamp (f : Fields) (host : Option FieldValue) (date date' value : FieldValue)
    (token token' : Option FieldValue) :
    ((f.stamp host date token).insert .authorization value).stamp none date' token' =
      (f.put .securityToken token).stamp host date' token' := by
  apply ext_values
  intro name
  simp only [values_stamp, values_insert, values_put, Option.map_none, Option.getD_none]
  by_cases hauth : name = .authorization
  · simp only [if_pos hauth]
  · by_cases htoken : name = .securityToken
    · simp only [if_neg hauth, if_pos htoken]
    · by_cases hdate : name = .date
      · simp only [if_neg hauth, if_neg htoken, if_pos hdate]
      · simp only [if_neg hauth, if_neg htoken, if_neg hdate, ite_self]

/-- A stamp with a token replaces any that is there. -/
theorem stamp_put (f : Fields) (host : Option FieldValue) (date v : FieldValue)
    (token : Option FieldValue) :
    (f.put .securityToken token).stamp host date (some v) = f.stamp host date (some v) := by
  apply ext_values
  intro name
  simp only [values_stamp, values_put, Option.map_some, Option.getD_some]
  by_cases htoken : name = .securityToken
  · simp only [if_pos htoken]
  · simp only [if_neg htoken]

end Fields

/-! ## Stamping a request -/

/-- The host that a request is given: that of its target, if it has none itself. -/
def newHost (r : Request) : Except Error (Option FieldValue) :=
  if r.fields.contains .host then .ok none
  else
    match r.uri.authority with
    | none => .error .authorityMissing
    | some a => .ok (some a.value)

theorem newHost_eq_ok {r : Request} {host : Option FieldValue} :
    newHost r = .ok host ↔
      (r.fields.contains .host = true ∧ host = none) ∨
        (r.fields.contains .host = false ∧
          ∃ a, r.uri.authority = some a ∧ host = some a.value) := by
  unfold newHost
  cases r.fields.contains .host with
  | true => simp [eq_comm]
  | false =>
    cases r.uri.authority with
    | none => simp
    | some a => simp [eq_comm]

/-- The token of temporary credentials as a value that is kept out of logs. -/
def tokenValue (c : Credentials) : Except Error (Option FieldValue) :=
  match c.sessionToken with
  | none => .ok none
  | some t => (fieldValue t).map fun v => some v.asSensitive

theorem tokenValue_eq_ok {c : Credentials} {token : Option FieldValue}
    (h : tokenValue c = .ok token) :
    (c.sessionToken = none ∧ token = none) ∨
      ∃ t v, c.sessionToken = some t ∧ v.bytes = utf8 t ∧ v.sensitive = true ∧ token = some v := by
  unfold tokenValue at h
  split at h
  · rename_i hnone
    cases h
    exact .inl ⟨hnone, rfl⟩
  · rename_i t hsome
    obtain ⟨v, hv, rfl⟩ := map_eq_ok.1 h
    have hbytes : v.bytes = utf8 t := FieldValue.bytes_of_ofText? (fieldValue_eq_ok.1 hv)
    exact .inr ⟨t, v.asSensitive, hsome, hbytes, rfl, rfl⟩

theorem withHost_eq (r : Request) : withHost r = (newHost r).map (r.fields.put .host) := by
  unfold withHost newHost
  split
  · rfl
  · cases r.uri.authority <;> rfl

theorem withToken_eq (f : Fields) (c : Credentials) :
    withToken f c = (tokenValue c).map (f.put .securityToken) := by
  unfold withToken tokenValue
  cases c.sessionToken with
  | none => rfl
  | some t =>
    simp only
    cases fieldValue t <;> rfl

theorem fieldsToSign_eq (r : Request) (c : Credentials) (date : Text) :
    Signer.fieldsToSign r c date = (do
      let host ← newHost r
      let dated ← fieldValue date
      let token ← tokenValue c
      return r.fields.stamp host dated token) := by
  simp only [Signer.fieldsToSign, withHost_eq, withToken_eq]
  cases newHost r with
  | error e => rfl
  | ok host =>
    cases fieldValue date with
    | error e => rfl
    | ok dated =>
      cases tokenValue c with
      | error e => rfl
      | ok token => rfl

theorem fieldsToSign_eq_ok {r : Request} {c : Credentials} {date : Text} {f : Fields} :
    Signer.fieldsToSign r c date = .ok f ↔
      ∃ host dated token, newHost r = .ok host ∧ fieldValue date = .ok dated ∧
        tokenValue c = .ok token ∧ f = r.fields.stamp host dated token := by
  simp only [fieldsToSign_eq, bind_eq_ok, pure, Except.pure]
  constructor
  · rintro ⟨host, hh, dated, hd, token, ht, hf⟩
    exact ⟨host, dated, token, hh, hd, ht, (Except.ok.inj hf).symm⟩
  · rintro ⟨host, dated, token, hh, hd, ht, rfl⟩
    exact ⟨host, hh, dated, hd, token, ht, rfl⟩

/-- Requests whose fields are stamped alike, each with its own host. -/
theorem fieldsToSign_congr {r r' : Request} {c : Credentials} {host host' : Option FieldValue}
    (hhost : newHost r = .ok host) (hhost' : newHost r' = .ok host')
    (hstamp : ∀ dated token, tokenValue c = .ok token →
      r.fields.stamp host dated token = r'.fields.stamp host' dated token) (date : Text) :
    Signer.fieldsToSign r c date = Signer.fieldsToSign r' c date := by
  rw [fieldsToSign_eq, fieldsToSign_eq, hhost, hhost']
  cases fieldValue date with
  | error e => rfl
  | ok dated =>
    cases htoken : tokenValue c with
    | error e => rfl
    | ok token => exact congrArg Except.ok (hstamp dated token htoken)

end SigV4
