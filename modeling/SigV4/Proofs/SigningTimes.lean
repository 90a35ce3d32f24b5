import SigV4.Proofs.Presigned
import SigV4.Proofs.Request.Outcome
import SigV4.Proofs.Session
import SigV4.Proofs.Time.Order

/-!
# SigV4.Proofs.SigningTimes

The times of the signatures that are made with a shared tick clock.

* `Reply.signingTime?` — the time that a signed request or a presigned url carries.
* `ScopedBy`           — the credential that comes with it is scoped to a date.
* `signed_perform`     — one action: a signature carries the time that the clock showed, and is scoped
  to its date.
* `NotBefore`          — times of instants that a clock shows from some count of microseconds on.
* `notBefore_run`      — a run carries no time before the floor that its clock had at the start.
* `signing_times_ascend` — so the times of a run never run backwards.
-/

namespace SigV4

/-! ## What signatures carry -/

namespace Reply

/-- Whether a reply is a signed request or a presigned url. -/
def isSignature : Reply → Bool
  | presigned (.ok _) => true
  | signed (.ok _) _ => true
  | _ => false

/-- The time that a signature was made at, as the one who receives it reads it. -/
def signingTime? : Reply → Option Text
  | presigned (.ok url) =>
    ((sentParameters url).find? fun p => p.name = dateParameter).map Parameter.value
  | signed (.ok _) request => some (Signer.signingTime request.fields)
  | _ => none

end Reply

/-- Whether the credential that a signature comes with is scoped to the date of a time. -/
inductive ScopedBy (time : Text) : Action → Reply → Prop where
  | presign {signer : Signer} {url out : Text} {keys : Credentials} :
      (sentParameters out).filter (fun p => p.name = credentialParameter) =
        [{ name := credentialParameter
           value := keys.accessKeyId ++ ['/'] ++
             scope (time.take 8) signer.region signer.service }] →
      ScopedBy time (.presign signer url keys) (.presigned (.ok out))
  | sign {signer : Signer} {request sent : Request} {payload : Bytes} {keys : Credentials}
      {value : FieldValue} {names signature : Text} :
      sent.fields.values .authorization = [value] →
      value.bytes = utf8 (Authorization.text
        { accessKeyId := keys.accessKeyId
          scope := scope (time.take 8) signer.region signer.service
          names := names
          signature := signature }) →
      ScopedBy time (.sign signer request payload keys) (.signed (.ok ()) sent)

namespace Signer

theorem signingTime_of_signAt {s : Signer} {t : Instant} {verb : Verb} {r r' : Request}
    {payload : Bytes} {keys : Credentials} (h : s.signAt t verb r payload keys = .ok r') :
    t.Readable ∧ signingTime r'.fields = t.basic ∧
      ScopedBy t.basic (.sign s r payload keys) (.signed (.ok ()) r') := by
  obtain ⟨f, block, path, signed, value, hf, hb, -, hauth, hvalue, rfl⟩ := signAt_eq_ok.1 h
  obtain ⟨e, he, rfl⟩ := authorization_eq_ok.1 hauth
  obtain ⟨-, -, hdate, request, names, -, -, rfl⟩ := endorse_eq_ok.1 he
  have hkept : (f.insert .authorization value.asSensitive).values .date = f.values .date :=
    Fields.values_insert_of_ne (by decide)
  refine ⟨checkSigningTime_basic.1 hdate, ?_, ?_⟩
  · rw [← signingTime_of_prepared (fieldsToSign_prepared hf) hb]
    simp only [signingTime, hkept]
  · have hbytes := FieldValue.bytes_of_ofText? (fieldValue_eq_ok.1 hvalue)
    exact .sign (Fields.values_insert_self _ _ _) hbytes

theorem signingTime_of_presign {s : Signer} {t : Instant} {url out : Text} {keys : Credentials}
    {expires : Nat} (h : s.presign url keys t.basic expires = .ok out) :
    t.Readable ∧ (Reply.presigned (.ok out)).signingTime? = some t.basic ∧
      ScopedBy t.basic (.presign s url keys) (.presigned (.ok out)) := by
  obtain ⟨-, -, -, hdate, -⟩ := presign_eq_ok.1 h
  obtain ⟨ch, -, hown⟩ := filter_sentParameters h
  refine ⟨checkSigningTime_basic.1 hdate, ?_, .presign ?_⟩
  · have hfilter := hown { name := dateParameter, value := t.basic } (by simp [ownParameters])
    simp only [Reply.signingTime?, ← List.head?_filter, hfilter, List.head?_cons, Option.map_some]
  · exact hown
      { name := credentialParameter
        value := keys.accessKeyId ++ ['/'] ++ scope (t.basic.take 8) s.region s.service }
      (by simp [ownParameters])

end Signer

/-! ## Steps -/

theorem Reply.isSignature_of_signingTime? {reply : Reply} {time : Text}
    (h : reply.signingTime? = some time) : reply.isSignature = true := by
  unfold signingTime? at h
  split at h
  · rfl
  · rfl
  · cases h

namespace TickClock

/-- A signature is made with one reading of the clock: this is the time that it carries. -/
theorem signed_perform {c : TickClock} {a : Action} (h : (c.perform a).1.isSignature = true) :
    a.reads = true ∧ (Clock.instantOfMicros c.read.1).Readable ∧
      (c.perform a).1.signingTime? = some (Clock.instantOfMicros c.read.1).basic ∧
      ScopedBy (Clock.instantOfMicros c.read.1).basic a (c.perform a).1 := by
  cases a with
  | presign signer url keys =>
    cases hout : signer.presign url keys (Clock.instantOfMicros c.read.1).basic
        Signer.defaultExpiry with
    | error e =>
      have hreply : (c.perform (.presign signer url keys)).1 = .presigned (.error e) :=
        congrArg Reply.presigned hout
      rw [hreply] at h
      cases h
    | ok out =>
      have hreply : (c.perform (.presign signer url keys)).1 = .presigned (.ok out) :=
        congrArg Reply.presigned hout
      rw [hreply]
      exact ⟨rfl, Signer.signingTime_of_presign hout⟩
  | sign signer request payload keys =>
    have hreply : (c.perform (.sign signer request payload keys)).1 =
        .signed (signer.signInPlace (.ticking c) request payload keys).outcome
          (signer.signInPlace (.ticking c) request payload keys).request := rfl
    rw [hreply] at h ⊢
    cases houtcome : (signer.signInPlace (.ticking c) request payload keys).outcome with
    | error e =>
      rw [houtcome] at h
      cases h
    | ok done =>
      obtain ⟨verb, hready, hsign⟩ := Signer.exists_of_signed houtcome
      obtain ⟨hreadable, htime, hscoped⟩ := Signer.signingTime_of_signAt hsign
      refine ⟨?_, hreadable, congrArg some htime, hscoped⟩
      show (signer.ready request keys).toBool = true
      rw [hready]
      rfl
  | _ => cases h

/-! ## Runs -/

/-- Whether a text is the time of an instant that a clock shows at some count of microseconds, `m` or
a later one. -/
def NotBefore (m : Nat) (time : Text) : Prop :=
  ∃ n t, m ≤ n ∧ ShowsMicros n t ∧ t.Readable ∧ time = t.basic

theorem NotBefore.of_le {m m' : Nat} {time : Text} (h : NotBefore m' time) (hle : m ≤ m') :
    NotBefore m time := by
  obtain ⟨n, t, hn, ht, hreadable, rfl⟩ := h
  exact ⟨n, t, Nat.le_trans hle hn, ht, hreadable, rfl⟩

/-- Later counts show as later times, in the order of bytes too. -/
theorem NotBefore.basic_le {m : Nat} {t : Instant} {time : Text} (h : NotBefore m time)
    (ht : ShowsMicros m t) (hreadable : t.Readable) : utf8 t.basic ≤ utf8 time := by
  obtain ⟨n, t', hn, ht', hreadable', rfl⟩ := h
  exact Instant.basic_le_of_le hreadable.fourDigits hreadable'.fourDigits (ht.le ht' hn)

theorem floor_le_perform (c : TickClock) (a : Action) :
    c.floor.toNat ≤ (c.perform a).2.floor.toNat := by
  rw [floor_perform]
  split
  · exact Nat.le_max_left _ _
  · exact Nat.le_refl _

/-- By induction on the run: a reading lifts the floor to what it shows, and nothing lowers it. -/
theorem notBefore_run (l : List Action) :
    ∀ c : TickClock, ∀ time ∈ (c.run l).1.filterMap Reply.signingTime?,
      NotBefore c.floor.toNat time := by
  induction l with
  | nil =>
    intro c time h
    cases h
  | cons a rest ih =>
    intro c time h
    rw [run_cons, List.mem_filterMap] at h
    obtain ⟨reply, hmem, htime⟩ := h
    rcases List.mem_cons.1 hmem with rfl | hrest
    · obtain ⟨-, hreadable, hshown, -⟩ :=
        signed_perform (Reply.isSignature_of_signingTime? htime)
      rw [hshown] at htime
      cases htime
      refine ⟨_, _, ?_, Clock.showsMicros c.read.1, hreadable, rfl⟩
      rw [c.toNat_read.1]
      exact Nat.le_max_left _ _
    · exact (ih _ time (List.mem_filterMap.2 ⟨reply, hrest, htime⟩)).of_le (c.floor_le_perform a)

theorem pairwise_run (l : List Action) :
    ∀ c : TickClock, ((c.run l).1.filterMap Reply.signingTime?).Pairwise
      fun time time' => utf8 time ≤ utf8 time' := by
  induction l with
  | nil =>
    intro c
    exact .nil
  | cons a rest ih =>
    intro c
    rw [run_cons]
    cases htime : (c.perform a).1.signingTime? with
    | none =>
      rw [List.filterMap_cons_none htime]
      exact ih _
    | some time =>
      obtain ⟨hreads, hreadable, hshown, -⟩ :=
        signed_perform (Reply.isSignature_of_signingTime? htime)
      rw [hshown] at htime
      cases htime
      rw [List.filterMap_cons_some hshown]
      refine .cons (fun time' h' => ?_) (ih _)
      have hlater := notBefore_run rest _ time' h'
      rw [perform_of_reads hreads, c.toNat_read.2, ← c.toNat_read.1] at hlater
      exact hlater.basic_le (Clock.showsMicros c.read.1) hreadable

/-- Signing times never run backwards under a tick clock, whatever happens to its counter, rate and
reference meanwhile: in the order of their bytes they ascend in the course of every run. Every
signature carries one, and its credential is scoped to the date of that time. -/
theorem signing_times_ascend (c : TickClock) (l : List Action) :
    (((c.run l).1.filterMap Reply.signingTime?).Pairwise
      fun time time' => utf8 time ≤ utf8 time') ∧
    ∀ (i : Nat) (a : Action) (reply : Reply), l[i]? = some a → (c.run l).1[i]? = some reply →
      reply.isSignature = true →
      ∃ time, reply.signingTime? = some time ∧ ScopedBy time a reply := by
  refine ⟨pairwise_run l c, fun i a reply ha hreply hsigned => ?_⟩
  rw [getElem?_run ha c] at hreply
  cases hreply
  obtain ⟨-, -, htime, hscoped⟩ := signed_perform hsigned
  exact ⟨_, htime, hscoped⟩

end TickClock

end SigV4
