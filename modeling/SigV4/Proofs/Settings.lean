import SigV4.Proofs.Acceptance
import SigV4.Settings

/-!
# SigV4.Proofs.Settings

What is loaded from environment variables, and what can be signed with it.

* `Environment.FirstOf`   — the value of the first variable of a list that is set and not empty; it is
  what is loaded (`firstSet_eq_some_iff`).
* `Setting`, `get?_load`  — the settings by name: loading does to each of them the same.
* `signerOf_eq_ok`        — signer and credentials, value by value.
* `Usable`                — no part of them is empty, so that no request is refused for their sake
  (`authorization_of_usable`).
* `settings_usable_or_refused` — an environment has all that is needed, or is refused; loading only
  fills what is missing.
-/

namespace SigV4

/-! ## Variables -/

namespace Environment

variable {env : Environment} {names : List Text} {name v : Text}

/-- Whether a variable is there and not empty. -/
def Sets (env : Environment) (name : Text) : Prop := ∃ v, env.get? name = some v ∧ v ≠ []

/-- The value of a variable that is there and not empty. -/
def value? (env : Environment) (name : Text) : Option Text :=
  (env.get? name).filter fun v => !v.isEmpty

/-- A value is that of the first variable of a list that has one. -/
def FirstOf (env : Environment) (names : List Text) (v : Text) : Prop :=
  ∃ before name after, names = before ++ name :: after ∧ (env.get? name = some v ∧ v ≠ []) ∧
    ∀ other ∈ before, ¬ env.Sets other

theorem value?_eq_some_iff : env.value? name = some v ↔ env.get? name = some v ∧ v ≠ [] := by
  simp [value?, Option.filter_eq_some_iff]

theorem value?_eq_none_iff : env.value? name = none ↔ ¬ env.Sets name := by
  simp only [Sets, ← value?_eq_some_iff, Option.eq_none_iff_forall_ne_some, not_exists, ne_eq]

theorem firstSet_eq_findSome? (env : Environment) (names : List Text) :
    env.firstSet names = names.findSome? env.value? := by
  induction names with
  | nil => rfl
  | cons name rest ih =>
    rw [firstSet, List.findSome?_cons, value?, ih]
    cases env.get? name with
    | none => rfl
    | some v => cases v <;> rfl

theorem firstSet_eq_some_iff : env.firstSet names = some v ↔ env.FirstOf names v := by
  rw [firstSet_eq_findSome?, List.findSome?_eq_some_iff]
  simp only [value?_eq_some_iff, value?_eq_none_iff, FirstOf]

theorem firstSet_eq_none_iff : env.firstSet names = none ↔ ∀ name ∈ names, ¬ env.Sets name := by
  rw [firstSet_eq_findSome?, List.findSome?_eq_none_iff]
  simp only [value?_eq_none_iff]

theorem exists_firstSet_iff : (∃ v, env.firstSet names = some v) ↔ ∃ name ∈ names, env.Sets name := by
  rw [← Option.isSome_iff_exists, ← Option.ne_none_iff_isSome, ne_eq, firstSet_eq_none_iff]
  simp

/-- Nothing empty is ever loaded. -/
theorem firstSet_ne_nil (h : env.firstSet names = some v) : v ≠ [] := by
  obtain ⟨-, -, -, -, ⟨-, hne⟩, -⟩ := firstSet_eq_some_iff.1 h
  exact hne

end Environment

/-! ## Settings by name -/

inductive Setting where
  | region | service | accessKeyId | secretAccessKey | sessionToken

namespace Settings

/-- The variables for a setting, in the order in which they are tried. -/
def variablesOf : Setting → List Text
  | .region => regionVariables
  | .service => serviceVariables
  | .accessKeyId => accessKeyVariables
  | .secretAccessKey => secretKeyVariables
  | .sessionToken => tokenVariables

def get? (s : Settings) : Setting → Option Text
  | .region => s.region
  | .service => s.service
  | .accessKeyId => s.accessKeyId
  | .secretAccessKey => s.secretAccessKey
  | .sessionToken => s.sessionToken

variable {s s' : Settings} {env : Environment} {x : Setting} {v : Text}

theorem ext_get? (h : ∀ x, s.get? x = s'.get? x) : s = s' := by
  cases s
  cases s'
  cases h .region
  cases h .service
  cases h .accessKeyId
  cases h .secretAccessKey
  cases h .sessionToken
  rfl

theorem get?_load (s : Settings) (env : Environment) (x : Setting) :
    (s.load env).get? x = (s.get? x).or (env.firstSet (variablesOf x)) := by
  cases x <;> rfl

theorem get?_load_of_some (h : s.get? x = some v) (env : Environment) :
    (s.load env).get? x = some v := by
  rw [get?_load, h, Option.some_or]

theorem get?_load_of_none (h : s.get? x = none) (env : Environment) :
    (s.load env).get? x = env.firstSet (variablesOf x) := by
  rw [get?_load, h, Option.none_or]

theorem load_load (s : Settings) (env : Environment) : (s.load env).load env = s.load env := by
  apply ext_get?
  intro x
  rw [get?_load, get?_load, Option.or_assoc, Option.or_self]

/-! ## Signers and credentials -/

theorem signer_eq_ok {s : Settings} {signer : Signer} :
    s.signer = .ok signer ↔ s.region = some signer.region ∧ signer.region ≠ [] ∧
      s.serviceName = signer.service := by
  obtain ⟨region, service⟩ := signer
  unfold Settings.signer
  cases s.region with
  | none => simp
  | some found =>
    cases found with
    | nil =>
      constructor
      · intro h
        cases h
      · rintro ⟨h, hne, -⟩
        cases h
        exact absurd rfl hne
    | cons c cs =>
      constructor
      · intro h
        cases h
        exact ⟨rfl, List.cons_ne_nil c cs, rfl⟩
      · rintro ⟨h, -, hservice⟩
        cases h
        simp only [hservice]

theorem credentials?_eq_some {s : Settings} {c : Credentials} :
    s.credentials? = some c ↔ s.accessKeyId = some c.accessKeyId ∧
      s.secretAccessKey = some c.secretAccessKey ∧ s.sessionToken = c.sessionToken ∧
      c.expiry = none := by
  obtain ⟨id, secret, token, expiry⟩ := c
  unfold credentials?
  cases s.accessKeyId <;> cases s.secretAccessKey <;> simp [eq_comm]

theorem serviceName_of_ne {s : Settings} (h : s.service ≠ some []) :
    s.serviceName = s.service.getD defaultService := by
  unfold serviceName
  split
  · rename_i hnone
    rw [hnone, Option.getD_none]
  · rename_i hempty
    exact absurd hempty h
  · rename_i service _ hsome
    rw [hsome, Option.getD_some]

/-- Signer and credentials have the values of the variables, and the service may be left out. -/
theorem signerOf_eq_ok {env : Environment} {signer : Signer} {c : Credentials} :
    signerOf env = .ok (signer, c) ↔
      env.firstSet regionVariables = some signer.region ∧
      (env.firstSet serviceVariables).getD defaultService = signer.service ∧
      env.firstSet accessKeyVariables = some c.accessKeyId ∧
      env.firstSet secretKeyVariables = some c.secretAccessKey ∧
      env.firstSet tokenVariables = c.sessionToken ∧ c.expiry = none := by
  have hname : (load {} env).serviceName = (env.firstSet serviceVariables).getD defaultService :=
    serviceName_of_ne fun h => Environment.firstSet_ne_nil h rfl
  have hboth : signerOf env = .ok (signer, c) ↔
      (load {} env).signer = .ok signer ∧ (load {} env).credentials? = some c := by
    simp only [signerOf]
    cases (load {} env).signer with
    | error e => simp
    | ok found => cases (load {} env).credentials? <;> simp
  rw [hboth, signer_eq_ok, credentials?_eq_some, hname]
  constructor
  · rintro ⟨⟨hregion, -, hservice⟩, hkeys⟩
    exact ⟨hregion, hservice, hkeys⟩
  · rintro ⟨hregion, hservice, hkeys⟩
    exact ⟨⟨hregion, Environment.firstSet_ne_nil hregion, hservice⟩, hkeys⟩

theorem exists_signerOf_iff {env : Environment} :
    (∃ p, signerOf env = .ok p) ↔
      (∃ v, env.firstSet regionVariables = some v) ∧
      (∃ v, env.firstSet accessKeyVariables = some v) ∧
      ∃ v, env.firstSet secretKeyVariables = some v := by
  constructor
  · rintro ⟨⟨signer, c⟩, h⟩
    obtain ⟨hregion, -, hid, hsecret, -⟩ := signerOf_eq_ok.1 h
    exact ⟨⟨_, hregion⟩, ⟨_, hid⟩, ⟨_, hsecret⟩⟩
  · rintro ⟨⟨region, hregion⟩, ⟨id, hid⟩, ⟨secret, hsecret⟩⟩
    exact ⟨({ region, service := _ },
      { accessKeyId := id, secretAccessKey := secret, sessionToken := _ }),
      signerOf_eq_ok.2 ⟨hregion, rfl, hid, hsecret, rfl, rfl⟩⟩

theorem refusesAs_signerOf (env : Environment) : RefusesAs .configInvalid (signerOf env) := by
  have hsigner : RefusesAs .configInvalid (load {} env).signer := by
    unfold Settings.signer
    split
    · exact .error rfl
    · exact .error rfl
    · exact .ok _
  simp only [signerOf]
  cases hs : (load {} env).signer with
  | error e => exact .error (hsigner e hs)
  | ok signer =>
    cases (load {} env).credentials? with
    | none => exact .error rfl
    | some c => exact .ok _

end Settings

/-! ## What can be signed -/

/-- Signer and credentials no part of which is empty. -/
structure Usable (s : Signer) (c : Credentials) : Prop where
  region : s.region ≠ []
  service : s.service ≠ []
  keyId : c.accessKeyId ≠ []
  secret : c.secretAccessKey ≠ []
  token : c.sessionToken ≠ some []

theorem usable_of_signerOf {env : Environment} {s : Signer} {c : Credentials}
    (h : Settings.signerOf env = .ok (s, c)) : Usable s c := by
  obtain ⟨hregion, hservice, hid, hsecret, htoken, -⟩ := Settings.signerOf_eq_ok.1 h
  refine ⟨Environment.firstSet_ne_nil hregion, ?_, Environment.firstSet_ne_nil hid,
    Environment.firstSet_ne_nil hsecret, fun hempty => ?_⟩
  · rw [← hservice]
    cases hfirst : env.firstSet Settings.serviceVariables with
    | none => decide
    | some service => exact Environment.firstSet_ne_nil hfirst
  · rw [hempty] at htoken
    exact Environment.firstSet_ne_nil htoken rfl

namespace Signer

/-- Between a usable signer and its authorization there are the time and the request only. -/
theorem authorization_of_usable {s : Signer} {c : Credentials} (h : Usable s c)
    (r : CanonicalRequest) (date : Text) :
    ((∃ signed, s.authorization r c date = .ok signed) ↔
      checkSigningTime date = .ok () ∧ ∃ request, r.text = .ok request) ∧
    ∀ e, s.authorization r c date = .error e →
      checkSigningTime date = .error e ∨ r.text = .error e := by
  have hs : s.check = .ok () := check_iff.2 ⟨h.region, h.service⟩
  have hc : c.check = .ok () := Credentials.check_iff.2 ⟨h.keyId, h.secret⟩
  cases hdate : checkSigningTime date with
  | error e =>
    have hauth : s.authorization r c date = .error e := by
      simp only [authorization, endorse, hs, hc, hdate]
      rfl
    simp [hauth, eq_comm]
  | ok =>
    cases htext : r.text with
    | error e =>
      have hauth : s.authorization r c date = .error e := by
        simp only [authorization, endorse, hs, hc, hdate, htext]
        rfl
      simp [hauth, eq_comm]
    | ok request =>
      obtain ⟨verb, names, hverb, hlast, hnames, -⟩ := CanonicalRequest.text_eq_ok.1 htext
      obtain ⟨signed, hsigned⟩ := exists_authorization hs hc hdate hverb hlast hnames
      simp [hsigned]

end Signer

/-! ## Environments -/

namespace Settings

theorem exists_signerOf_iff_sets {env : Environment} :
    (∃ p, signerOf env = .ok p) ↔
      (env.Sets "AWS_REGION".toList ∨ env.Sets "AWS_DEFAULT_REGION".toList) ∧
      env.Sets "AWS_ACCESS_KEY_ID".toList ∧ env.Sets "AWS_SECRET_ACCESS_KEY".toList := by
  simp only [exists_signerOf_iff, Environment.exists_firstSet_iff, regionVariables,
    accessKeyVariables, secretKeyVariables, List.exists_mem_cons_iff, List.not_mem_nil, false_and,
    exists_false, or_false]

/-- An environment with a region and both keys gives a signer and credentials that only the time or
the request can keep from signing; any other is refused for what it lacks. Settings that are there stay
when others are loaded, empty or not, and each missing one has the value of the first of its variables
that has one. So loading again changes nothing, and from another environment only what is missing
still. -/
theorem settings_usable_or_refused :
    (∀ env : Environment,
      ((∃ p, signerOf env = .ok p) ↔
        (env.Sets "AWS_REGION".toList ∨ env.Sets "AWS_DEFAULT_REGION".toList) ∧
        env.Sets "AWS_ACCESS_KEY_ID".toList ∧ env.Sets "AWS_SECRET_ACCESS_KEY".toList) ∧
      RefusesAs .configInvalid (signerOf env) ∧
      ∀ (s : Signer) (c : Credentials), signerOf env = .ok (s, c) →
        Usable s c ∧
        ∀ (r : CanonicalRequest) (date : Text),
          ((∃ signed, s.authorization r c date = .ok signed) ↔
            checkSigningTime date = .ok () ∧ ∃ request, r.text = .ok request) ∧
          ∀ e, s.authorization r c date = .error e →
            checkSigningTime date = .error e ∨ r.text = .error e) ∧
    ∀ (s : Settings) (env env' : Environment),
      (∀ x v, s.get? x = some v → (s.load env).get? x = some v) ∧
      (∀ x, s.get? x = none →
        (∀ v, (s.load env).get? x = some v ↔ env.FirstOf (variablesOf x) v) ∧
        ((s.load env).get? x = none ↔ ∀ name ∈ variablesOf x, ¬ env.Sets name)) ∧
      (s.load env).load env = s.load env ∧
      ∀ x, ((s.load env).load env').get? x ≠ (s.load env).get? x → (s.load env).get? x = none := by
  constructor
  · intro env
    refine ⟨exists_signerOf_iff_sets, refusesAs_signerOf env, fun s c h => ?_⟩
    have husable := usable_of_signerOf h
    exact ⟨husable, Signer.authorization_of_usable husable⟩
  · intro s env env'
    refine ⟨fun x v h => get?_load_of_some h env, fun x h => ?_, load_load s env, fun x hne => ?_⟩
    · rw [get?_load_of_none h]
      exact ⟨fun v => Environment.firstSet_eq_some_iff, Environment.firstSet_eq_none_iff⟩
    · cases hx : (s.load env).get? x with
      | none => rfl
      | some v =>
        rw [hx] at hne
        exact absurd (get?_load_of_some hx env') hne

/-- Some variables are empty here, the first one for the region among them. -/
def sparse : Environment :=
  TextMap.ofList [
    ("AWS_REGION".toList, []),
    ("AWS_DEFAULT_REGION".toList, "eu-west-1".toList),
    ("AWS_ACCESS_KEY_ID".toList, "AKIDEXAMPLE".toList),
    ("AWS_SECRET_ACCESS_KEY".toList, "wJalrXUtnFEMI".toList),
    ("AWS_SESSION_TOKEN".toList, [])]

/-- It is enough to sign with; a region that is set to nothing would stay, though. -/
theorem sparse_suffices :
    (∃ s c, signerOf sparse = .ok (s, c) ∧ s.region = "eu-west-1".toList ∧
      c.sessionToken = none ∧
      ∃ signed, s.authorization Signer.handwritten c Signer.march.basic = .ok signed) ∧
    (load { region := some [] } sparse).get? .region = some [] ∧
    (load {} sparse).get? .sessionToken = none := by
  obtain ⟨hsigners, hsettings⟩ := settings_usable_or_refused
  obtain ⟨-, -, husable⟩ := hsigners sparse
  refine ⟨?_, (hsettings { region := some [] } sparse sparse).1 .region [] rfl, ?_⟩
  · have hloaded : signerOf sparse =
        .ok ({ region := "eu-west-1".toList, service := defaultService },
          { accessKeyId := "AKIDEXAMPLE".toList, secretAccessKey := "wJalrXUtnFEMI".toList }) := by
      decide +kernel
    obtain ⟨-, haccepts⟩ := husable _ _ hloaded
    have htime : checkSigningTime Signer.march.basic = .ok () := by decide +kernel
    have htext : ∃ request, Signer.handwritten.text = .ok request := exists_ok (by decide +kernel)
    exact ⟨_, _, hloaded, rfl, rfl, (haccepts _ _).1.2 ⟨htime, htext⟩⟩
  · obtain ⟨-, hmissing, -⟩ := hsettings {} sparse sparse
    rw [(hmissing .sessionToken rfl).2]
    have hunset : sparse.firstSet tokenVariables = none := by decide +kernel
    exact Environment.firstSet_eq_none_iff.1 hunset

end Settings
end SigV4
