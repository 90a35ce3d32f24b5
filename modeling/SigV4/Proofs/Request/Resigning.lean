import SigV4.Proofs.Request.Outcome

/-!
# SigV4.Proofs.Request.Resigning

What signing a request again leaves of the first time.

* `bearing`            — a request with the token that a signature left.
* `fieldsToSign_again`, `sign_again` — signing again is signing the request that bears the token.
* `fieldsToSign_bearing` — which makes no difference where the credentials bring a token.
* `signInPlace_again`  — the same for whole attempts: where no token is left, they agree.
-/

namespace SigV4
namespace Signer

/-! ## Signing again -/

/-- The request with a token, if there is one. -/
def bearing (r : Request) (token : Option FieldValue) : Request :=
  { r with fields := r.fields.put .securityToken token }

theorem newHost_bearing (r : Request) (token : Option FieldValue) :
    newHost (bearing r token) = newHost r := by
  have hcontains : (bearing r token).fields.contains .host = r.fields.contains .host :=
    Fields.contains_put_of_ne (by decide) token
  unfold newHost
  rw [hcontains]
  rfl

/-- A request that was signed is stamped again as the request that bears the token of then. -/
theorem fieldsToSign_again {r : Request} {c : Credentials} {date : Text} {f : Fields}
    (h : fieldsToSign r c date = .ok f) (value : FieldValue) :
    ∃ token, tokenValue c = .ok token ∧ ∀ (c' : Credentials) (date' : Text),
      fieldsToSign { r with fields := f.insert .authorization value } c' date' =
        fieldsToSign (bearing r token) c' date' := by
  have hhas : FieldName.host.text ∈ (f.insert .authorization value).names :=
    Fields.mem_names_insert.2 (.inr (fieldsToSign_prepared h).host)
  obtain ⟨host, dated, token, hhost, -, htoken, rfl⟩ := fieldsToSign_eq_ok.1 h
  refine ⟨token, htoken, fun c' date' => ?_⟩
  refine fieldsToSign_congr (newHost_eq_ok.2 (.inl ⟨Fields.contains_iff.2 hhas, rfl⟩))
    ((newHost_bearing r token).trans hhost) (fun dated' token' _ => ?_) date'
  exact r.fields.stamp_stamp host dated dated' value token token'

/-- A token makes no difference if there is none, or if the credentials bring another. -/
theorem fieldsToSign_bearing {r : Request} {c : Credentials} {token : Option FieldValue}
    (h : token = none ∨ c.sessionToken.isSome = true) (date : Text) :
    fieldsToSign (bearing r token) c date = fieldsToSign r c date := by
  rcases h with rfl | hsome
  · rfl
  · cases hhost : newHost r with
    | error e =>
      rw [fieldsToSign_eq, fieldsToSign_eq, newHost_bearing, hhost]
      rfl
    | ok host =>
      refine fieldsToSign_congr ((newHost_bearing r token).trans hhost) hhost
        (fun dated token' htoken => ?_) date
      rcases tokenValue_eq_ok htoken with ⟨hnone, -⟩ | ⟨t, v, -, -, -, rfl⟩
      · rw [hnone] at hsome
        cases hsome
      · exact r.fields.stamp_put host dated v token

theorem sign_congr {s : Signer} {clock : Clock} {r r' : Request} {payload : Bytes}
    {c : Credentials} (hmethod : r.method = r'.method) (huri : r.uri = r'.uri)
    (hfields : ∀ date, fieldsToSign r c date = fieldsToSign r' c date) :
    s.sign clock r payload c = s.sign clock r' payload c := by
  obtain ⟨method, uri, f⟩ := r
  obtain ⟨method', uri', f'⟩ := r'
  cases hmethod
  cases huri
  simp only [sign, ready, signAt, hfields]

end Signer

/-- Whether two attempts come to the same. Requests that could not be signed may differ. -/
structure Attempt.Agrees (a b : Attempt) : Prop where
  outcome : a.outcome = b.outcome
  clock : a.clock = b.clock
  request : a.outcome = .ok () → a.request = b.request

theorem Attempt.Agrees.eq_of_ok {a b : Attempt} (h : a.Agrees b) {r : Request} {clock : Clock}
    (hb : b = { outcome := .ok (), request := r, clock := clock }) :
    a = { outcome := .ok (), request := r, clock := clock } := by
  cases hb
  obtain ⟨outcome, clock', request⟩ := h
  cases a
  cases outcome
  cases clock'
  cases request rfl
  rfl

namespace Signer

theorem agrees_of_sign_eq {s : Signer} {clock : Clock} {r r' : Request} {payload : Bytes}
    {c : Credentials} (h : s.sign clock r payload c = s.sign clock r' payload c) :
    (s.signInPlace clock r payload c).Agrees (s.signInPlace clock r' payload c) := by
  unfold signInPlace
  rw [h]
  obtain ⟨outcome, clock'⟩ := s.sign clock r' payload c
  cases outcome with
  | error e => exact ⟨rfl, rfl, fun hok => by cases hok⟩
  | ok r'' => exact ⟨rfl, rfl, fun _ => rfl⟩

section Again

variable {s : Signer} {clock clock' : Clock} {r r' : Request} {payload : Bytes} {c : Credentials}

/-- The token that a signed request carries: a new one, or what it carried before. -/
theorem values_token_of_signed
    (h : s.signInPlace clock r payload c = { outcome := .ok (), request := r', clock := clock' })
    {token : Option FieldValue} (htoken : tokenValue c = .ok token) :
    r'.fields.values .securityToken =
      (token.map fun v => [v]).getD (r.fields.values .securityToken) := by
  obtain ⟨-, verb, -, hsign⟩ := signInPlace_eq_ok.1 h
  obtain ⟨f, block, path, signed, value, hf, -, -, -, -, rfl⟩ := signAt_eq_ok.1 hsign
  obtain ⟨host, dated, token', -, -, htoken', rfl⟩ := fieldsToSign_eq_ok.1 hf
  rw [htoken] at htoken'
  cases htoken'
  exact (Fields.values_insert_of_ne (by decide)).trans
    (r.fields.values_stamp host dated token .securityToken)

/-- Whoever signs a signed request again could as well sign the request with the token of the first
time. -/
theorem sign_again
    (h : s.signInPlace clock r payload c = { outcome := .ok (), request := r', clock := clock' }) :
    ∃ token, tokenValue c = .ok token ∧
      ∀ (s₂ : Signer) (clock₂ : Clock) (payload₂ : Bytes) (c₂ : Credentials),
        s₂.sign clock₂ r' payload₂ c₂ = s₂.sign clock₂ (bearing r token) payload₂ c₂ := by
  obtain ⟨-, verb, -, hsign⟩ := signInPlace_eq_ok.1 h
  obtain ⟨f, block, path, signed, value, hf, -, -, -, -, rfl⟩ := signAt_eq_ok.1 hsign
  obtain ⟨token, htoken, hagain⟩ := fieldsToSign_again hf value.asSensitive
  exact ⟨token, htoken, fun s₂ clock₂ payload₂ c₂ => sign_congr rfl rfl (hagain c₂)⟩

/-- Signing again comes to what signing the request at first would, if the first credentials had no
token or the second ones have one. Otherwise the first token is left: it is signed and carried like a
field of the request itself. -/
theorem signInPlace_again
    (h : s.signInPlace clock r payload c = { outcome := .ok (), request := r', clock := clock' })
    (clock₂ : Clock) (payload₂ : Bytes) (c₂ : Credentials) :
    (c.sessionToken = none ∨ c₂.sessionToken.isSome = true →
      (s.signInPlace clock₂ r' payload₂ c₂).Agrees (s.signInPlace clock₂ r payload₂ c₂)) ∧
    ∀ t, c.sessionToken = some t → c₂.sessionToken = none →
      ∃ v : FieldValue, v.bytes = utf8 t ∧ v.sensitive = true ∧
        (s.signInPlace clock₂ r' payload₂ c₂).Agrees
          (s.signInPlace clock₂ (bearing r (some v)) payload₂ c₂) ∧
        ∀ r₂ clock₃, s.signInPlace clock₂ r' payload₂ c₂ =
            { outcome := .ok (), request := r₂, clock := clock₃ } →
          r₂.fields.values .securityToken = [v] := by
  obtain ⟨token, htoken, hagain⟩ := sign_again h
  have hsame := hagain s clock₂ payload₂ c₂
  constructor
  · intro hcase
    have hbearing : token = none ∨ c₂.sessionToken.isSome = true := by
      refine hcase.imp_left fun hnone => ?_
      rcases tokenValue_eq_ok htoken with ⟨-, hnil⟩ | ⟨t, v, hsome, -⟩
      · exact hnil
      · rw [hnone] at hsome
        cases hsome
    exact agrees_of_sign_eq (hsame.trans (sign_congr rfl rfl (fieldsToSign_bearing hbearing)))
  · intro t ht hnone
    rcases tokenValue_eq_ok htoken with ⟨hnil, -⟩ | ⟨t', v, hsome, hbytes, hsensitive, rfl⟩
    · rw [hnil] at ht
      cases ht
    · rw [hsome] at ht
      cases ht
      refine ⟨v, hbytes, hsensitive, agrees_of_sign_eq hsame, fun r₂ clock₃ h₂ => ?_⟩
      have htoken₂ : tokenValue c₂ = .ok none := by
        rw [tokenValue, hnone]
      exact (values_token_of_signed h₂ htoken₂).trans (values_token_of_signed h htoken)

end Again

theorem staleRequest_signed_again :
    ∃ first, gateway.signInPlace (.fixed march) staleRequest [1, 2] temporary =
        { outcome := .ok (), request := first, clock := .fixed march } ∧
      (gateway.signInPlace (.fixed march) first [3] temporary).Agrees
        (gateway.signInPlace (.fixed march) staleRequest [3] temporary) := by
  obtain ⟨first, h⟩ := exists_staleRequest_signed
  exact ⟨first, h, (signInPlace_again h (.fixed march) [3] temporary).1 (.inr rfl)⟩

/-- The token of the temporary credentials as a field. -/
def leftToken : FieldValue := ⟨utf8 "token".toList, true, by decide⟩

/-- With the keys alone the request is signed again, but not as it would have been at first. -/
theorem staleRequest_keeps_token :
    ∃ first again fresh : Request,
      gateway.signInPlace (.fixed march) staleRequest [1, 2] temporary =
        { outcome := .ok (), request := first, clock := .fixed march } ∧
      gateway.signInPlace (.fixed march) first [1, 2] temporary.keys =
        { outcome := .ok (), request := again, clock := .fixed march } ∧
      gateway.signInPlace (.fixed march) staleRequest [1, 2] temporary.keys =
        { outcome := .ok (), request := fresh, clock := .fixed march } ∧
      again.fields.values .securityToken = [leftToken] ∧
      fresh.fields.values .securityToken = [] ∧ again.fields ≠ fresh.fields := by
  obtain ⟨first, hfirst⟩ := exists_staleRequest_signed
  obtain ⟨token, htoken, hagain⟩ := sign_again hfirst
  have hleft : tokenValue temporary = .ok (some leftToken) := rfl
  rw [hleft] at htoken
  cases htoken
  obtain ⟨f, block, hf, hb⟩ : ∃ f block,
      fieldsToSign (bearing staleRequest (some leftToken)) temporary.keys march.basic = .ok f ∧
        HeaderBlock.ofFields f = .ok block := ⟨_, _, rfl, rfl⟩
  obtain ⟨again, hbearing⟩ : ∃ again,
      gateway.signInPlace (.fixed march) (bearing staleRequest (some leftToken)) [1, 2]
        temporary.keys = { outcome := .ok (), request := again, clock := .fixed march } :=
    exists_signInPlace rfl rfl hf hb rfl (by decide) (by decide) (by decide)
  obtain ⟨f', block', hf', hb'⟩ : ∃ f block,
      fieldsToSign staleRequest temporary.keys march.basic = .ok f ∧
        HeaderBlock.ofFields f = .ok block := ⟨_, _, rfl, rfl⟩
  obtain ⟨fresh, hfresh⟩ : ∃ fresh,
      gateway.signInPlace (.fixed march) staleRequest [1, 2] temporary.keys =
        { outcome := .ok (), request := fresh, clock := .fixed march } :=
    exists_signInPlace rfl rfl hf' hb' rfl (by decide) (by decide) (by decide)
  have hsecond := (agrees_of_sign_eq (hagain gateway (.fixed march) [1, 2] temporary.keys)).eq_of_ok
    hbearing
  have hkept : again.fields.values .securityToken = [leftToken] :=
    values_token_of_signed hbearing rfl
  have hnone : fresh.fields.values .securityToken = [] := values_token_of_signed hfresh rfl
  refine ⟨first, again, fresh, hfirst, hsecond, hfresh, hkept, hnone, fun heq => ?_⟩
  rw [heq, hnone] at hkept
  cases hkept

end Signer
end SigV4
