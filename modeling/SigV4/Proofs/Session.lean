import SigV4.Proofs.Clock
import SigV4.Session

/-!
# SigV4.Proofs.Session

What a shared tick clock shows in the course of a run.

* `Action.reads`, `Action.tells`, `Action.converts` — actions that read the time now, those that show
  it, and those that convert an older value of the counter.
* `Source.after`   — what an action changes of counter, rate and reference: readings change nothing.
* `Source.readTimes` — the exact times of the readings of a run, in their order.
* `source_perform`, `floor_perform` — one action: readings lift the floor to the exact time, and
  nothing else touches it.
* `source_run`, `floor_run` — a run: the floor is the highest exact time of its readings.
* `Shows`          — what an action shows of a count of microseconds.
* `readings_running_maximum` — every reading shows the highest exact time up to it.
-/

namespace SigV4

/-! ## Actions -/

namespace Action

/-- Whether an action reads the time now. Signing does not before signer and credentials are found
fit. -/
def reads : Action → Bool
  | micros none => true
  | seconds none => true
  | now => true
  | writeNow _ => true
  | presign _ _ _ => true
  | sign signer request _ credentials => (signer.ready request credentials).toBool
  | _ => false

/-- Whether an action shows the time now as a number or an instant. -/
def tells : Action → Bool
  | micros none => true
  | seconds none => true
  | now => true
  | _ => false

/-- Whether an action converts a value of the counter that was captured before. -/
def converts : Action → Bool
  | micros (some _) => true
  | seconds (some _) => true
  | _ => false

theorem reads_of_tells {a : Action} (h : a.tells = true) : a.reads = true := by
  cases a with
  | micros tick =>
    cases tick with
    | none => rfl
    | some tick => cases h
  | seconds tick =>
    cases tick with
    | none => rfl
    | some tick => cases h
  | now => rfl
  | _ => cases h

end Action

namespace Source

def after (s : Source) : Action → Source
  | .setTicks ticks => { s with ticks }
  | .setRate rate => { s with rate }
  | .sync reference => { s with reference }
  | _ => s

theorem after_of_reads {s : Source} {a : Action} (h : a.reads = true) : s.after a = s := by
  cases a with
  | setTicks ticks => cases h
  | setRate rate => cases h
  | sync reference => cases h
  | _ => rfl

/-- The exact times of the readings among some actions. -/
def readTimes (s : Source) : List Action → List Nat
  | [] => []
  | a :: rest => (if a.reads then [s.micros] else []) ++ (s.after a).readTimes rest

theorem readTimes_append (l l' : List Action) :
    ∀ s : Source, s.readTimes (l ++ l') = s.readTimes l ++ (l.foldl after s).readTimes l' := by
  induction l with
  | nil =>
    intro s
    rfl
  | cons a rest ih =>
    intro s
    simp only [List.cons_append, readTimes, ih, List.append_assoc, List.foldl_cons]

end Source

/-! ## Steps -/

namespace TickClock

/-- A clock that was not read yet. -/
def ofSource (s : Source) : TickClock where
  ticks := s.ticks
  rate := s.rate
  reference := s.reference

/-- The clock with other values of counter, rate and reference, and the same floor. -/
def withSource (c : TickClock) (s : Source) : TickClock where
  ticks := s.ticks
  rate := s.rate
  reference := s.reference
  floor := c.floor

theorem clock_signInPlace (signer : Signer) (c : TickClock) (r : Request) (payload : Bytes)
    (keys : Credentials) :
    (signer.signInPlace (.ticking c) r payload keys).clock =
      .ticking (if (signer.ready r keys).toBool then c.read.2 else c) := by
  unfold Signer.signInPlace Signer.sign
  cases signer.ready r keys with
  | error e => rfl
  | ok verb =>
    dsimp only
    cases signer.signAt (Clock.ticking c).now.1 verb r payload keys with
    | error e => rfl
    | ok r' => rfl

theorem perform_of_reads {c : TickClock} {a : Action} (h : a.reads = true) :
    (c.perform a).2 = c.read.2 := by
  cases a with
  | micros tick =>
    cases tick with
    | none => rfl
    | some tick => cases h
  | seconds tick =>
    cases tick with
    | none => rfl
    | some tick => cases h
  | sign signer request payload keys =>
    have hready : (signer.ready request keys).toBool = true := h
    simp only [perform, clock_signInPlace, hready, if_true, ofClock]
  | now => rfl
  | writeNow space => rfl
  | presign parameters request keys => rfl
  | _ => cases h

theorem perform_of_not_reads {c : TickClock} {a : Action} (h : a.reads = false) :
    (c.perform a).2 = c.withSource (c.source.after a) := by
  cases a with
  | micros tick =>
    cases tick with
    | none => cases h
    | some tick => rfl
  | seconds tick =>
    cases tick with
    | none => cases h
    | some tick => rfl
  | sign signer request payload keys =>
    have hready : (signer.ready request keys).toBool = false := h
    simp only [perform, clock_signInPlace, hready, ofClock]
    rfl
  | now => cases h
  | writeNow space => cases h
  | presign parameters request keys => cases h
  | _ => rfl

theorem perform_of_converts {c : TickClock} {a : Action} (h : a.converts = true) :
    (c.perform a).2 = c := by
  cases a with
  | micros tick =>
    cases tick with
    | none => cases h
    | some tick => rfl
  | seconds tick =>
    cases tick with
    | none => cases h
    | some tick => rfl
  | _ => cases h

theorem source_perform (c : TickClock) (a : Action) :
    (c.perform a).2.source = c.source.after a := by
  cases hreads : a.reads with
  | true =>
    rw [perform_of_reads hreads, Source.after_of_reads hreads]
    rfl
  | false =>
    rw [perform_of_not_reads hreads]
    rfl

theorem floor_perform (c : TickClock) (a : Action) :
    (c.perform a).2.floor.toNat =
      (if a.reads then [c.source.micros] else []).foldl max c.floor.toNat := by
  cases hreads : a.reads with
  | true =>
    rw [perform_of_reads hreads, c.toNat_read.2]
    rfl
  | false =>
    rw [perform_of_not_reads hreads]
    rfl

/-! ## Runs -/

theorem run_cons (c : TickClock) (a : Action) (rest : List Action) :
    c.run (a :: rest) =
      ((c.perform a).1 :: ((c.perform a).2.run rest).1, ((c.perform a).2.run rest).2) := rfl

theorem run_append (l l' : List Action) :
    ∀ c : TickClock, c.run (l ++ l') =
      ((c.run l).1 ++ ((c.run l).2.run l').1, ((c.run l).2.run l').2) := by
  induction l with
  | nil =>
    intro c
    rfl
  | cons a rest ih =>
    intro c
    simp only [List.cons_append, run_cons, ih]

theorem length_run (l : List Action) : ∀ c : TickClock, (c.run l).1.length = l.length := by
  induction l with
  | nil =>
    intro c
    rfl
  | cons a rest ih =>
    intro c
    simp only [run_cons, List.length_cons, ih]

theorem source_run (l : List Action) :
    ∀ c : TickClock, (c.run l).2.source = l.foldl Source.after c.source := by
  induction l with
  | nil =>
    intro c
    rfl
  | cons a rest ih =>
    intro c
    rw [run_cons, ih, source_perform, List.foldl_cons]

/-- The floor after a run is the highest of the floor before it and of the exact times of its
readings. -/
theorem floor_run (l : List Action) :
    ∀ c : TickClock, (c.run l).2.floor.toNat = (c.source.readTimes l).foldl max c.floor.toNat := by
  induction l with
  | nil =>
    intro c
    rfl
  | cons a rest ih =>
    intro c
    rw [run_cons, ih, source_perform, floor_perform, Source.readTimes, List.foldl_append]

/-- A reply depends on what was done before it only through the clock. -/
theorem getElem?_run {l : List Action} {i : Nat} {a : Action} (h : l[i]? = some a) (c : TickClock) :
    (c.run l).1[i]? = some ((c.run (l.take i)).2.perform a).1 := by
  obtain ⟨hi, ha⟩ := List.getElem?_eq_some_iff.1 h
  have hsplit : l = l.take i ++ a :: l.drop (i + 1) := by
    rw [← ha, ← List.drop_eq_getElem_cons hi, List.take_append_drop]
  have hlen : ((c.run (l.take i)).1).length = i := by
    rw [length_run, List.length_take, Nat.min_eq_left (Nat.le_of_lt hi)]
  have hrun := run_append (l.take i) (a :: l.drop (i + 1)) c
  rw [← hsplit, run_cons] at hrun
  rw [hrun, List.getElem?_append_right (Nat.le_of_eq hlen), hlen, Nat.sub_self,
    List.getElem?_cons_zero]

end TickClock

/-! ## Readings -/

/-- What an action shows of a count of microseconds. -/
inductive Shows (m : Nat) : Action → Reply → Prop where
  | micros {n : UInt64} : n.toNat = m → Shows m (.micros none) (.count n)
  | seconds {n : UInt64} : n.toNat = m / 1000000 → Shows m (.seconds none) (.count n)
  | now {t : Instant} : ShowsMicros m t → Shows m .now (.instant t)

/-- Replies that show an earlier time and a later one, or the same. -/
inductive Reply.NotAfter : Reply → Reply → Prop where
  | count {n n' : UInt64} : n ≤ n' → Reply.NotAfter (.count n) (.count n')
  | instant {t t' : Instant} : t ≤ t' → Reply.NotAfter (.instant t) (.instant t')

theorem Shows.notAfter {m m' : Nat} {a : Action} {r r' : Reply} (h : Shows m a r)
    (h' : Shows m' a r') (hle : m ≤ m') : r.NotAfter r' := by
  cases h with
  | micros hn =>
    cases h' with
    | micros hn' =>
      refine .count ?_
      rw [UInt64.le_iff_toNat_le, hn, hn']
      exact hle
  | seconds hn =>
    cases h' with
    | seconds hn' =>
      refine .count ?_
      rw [UInt64.le_iff_toNat_le, hn, hn']
      exact Nat.div_le_div_right hle
  | now ht =>
    cases h' with
    | now ht' => exact .instant (ht.le ht' hle)

theorem TickClock.shows_perform (c : TickClock) {a : Action} (h : a.tells = true) :
    Shows (max c.floor.toNat c.source.micros) a (c.perform a).1 := by
  rw [← c.toNat_read.1]
  cases a with
  | micros tick =>
    cases tick with
    | none => exact .micros rfl
    | some tick => cases h
  | seconds tick =>
    cases tick with
    | none => exact .seconds (UInt64.toNat_div c.read.1 1000000)
    | some tick => cases h
  | now => exact .now (Clock.showsMicros c.read.1)
  | _ => cases h

theorem max?_concat (l : List Nat) (n : Nat) : (l ++ [n]).max? = some (max (l.foldl max 0) n) := by
  cases l with
  | nil => simp
  | cons m rest =>
    have hzero : (m :: rest).foldl max 0 = rest.foldl max m := by
      rw [List.foldl_cons, Nat.zero_max]
    rw [List.cons_append, List.max?_cons', List.foldl_append, hzero]
    rfl

theorem max?_mono {l l' : List Nat} {m m' : Nat} (h : l <+: l') (hm : l.max? = some m)
    (hm' : l'.max? = some m') : m ≤ m' :=
  (List.max?_eq_some_iff.1 hm').2 m (h.subset (List.max?_eq_some_iff.1 hm).1)

namespace Source

theorem readTimes_take {l : List Action} {i : Nat} {a : Action} (h : l[i]? = some a)
    (hreads : a.reads = true) (s : Source) :
    s.readTimes (l.take (i + 1)) =
      s.readTimes (l.take i) ++ [((l.take i).foldl after s).micros] := by
  rw [List.take_add_one, h, Option.toList_some, readTimes_append]
  simp only [readTimes, hreads, if_true, List.append_nil]

theorem readTimes_take_mono (s : Source) (l : List Action) {i j : Nat} (h : i ≤ j) :
    s.readTimes (l.take i) <+: s.readTimes (l.take j) := by
  obtain ⟨rest, hrest⟩ := List.take_prefix_take_left (l := l) h
  rw [← hrest, readTimes_append]
  exact List.prefix_append _ _

end Source

namespace TickClock

/-- The invariant carried to one reading: it shows the highest exact time of all readings so far. -/
theorem exists_max_of_tells {l : List Action} {i : Nat} {a : Action} (h : l[i]? = some a)
    (htells : a.tells = true) (s : Source) :
    ∃ m reply, (s.readTimes (l.take (i + 1))).max? = some m ∧
      ((ofSource s).run l).1[i]? = some reply ∧ Shows m a reply := by
  have hsource := source_run (l.take i) (ofSource s)
  have hfloor := floor_run (l.take i) (ofSource s)
  have hshows := ((ofSource s).run (l.take i)).2.shows_perform htells
  rw [hfloor, hsource] at hshows
  refine ⟨_, _, ?_, getElem?_run h (ofSource s), hshows⟩
  rw [Source.readTimes_take h (Action.reads_of_tells htells), max?_concat]
  rfl

/-- What a tick clock shows in the course of a run, from its first reference on. A reading shows the
highest exact time of all readings up to it, each counted from the reference in force at that
moment; so readings never go backwards. To convert an older value of the counter leaves no trace. -/
theorem readings_running_maximum (s : Source) (l : List Action) :
    (∀ (i : Nat) (a : Action), l[i]? = some a → a.tells = true →
      ∃ m reply, (s.readTimes (l.take (i + 1))).max? = some m ∧
        ((ofSource s).run l).1[i]? = some reply ∧ Shows m a reply) ∧
    (∀ (i j : Nat) (a : Action) (reply reply' : Reply), i ≤ j → a.tells = true →
      l[i]? = some a → l[j]? = some a →
      ((ofSource s).run l).1[i]? = some reply → ((ofSource s).run l).1[j]? = some reply' →
      reply.NotAfter reply') ∧
    ∀ (before : List Action) (a : Action) (rest : List Action), l = before ++ a :: rest → a.converts = true →
      (ofSource s).run (before ++ rest) =
        (((ofSource s).run l).1.eraseIdx before.length, ((ofSource s).run l).2) := by
  refine ⟨fun i a h htells => exists_max_of_tells h htells s, ?_, ?_⟩
  · intro i j a reply reply' hij htells hi hj hreply hreply'
    obtain ⟨m, shown, hmax, hshown, hshows⟩ := exists_max_of_tells hi htells s
    obtain ⟨m', shown', hmax', hshown', hshows'⟩ := exists_max_of_tells hj htells s
    have htimes := s.readTimes_take_mono l (Nat.succ_le_succ hij)
    rw [hshown] at hreply
    rw [hshown'] at hreply'
    cases hreply
    cases hreply'
    exact hshows.notAfter hshows' (max?_mono htimes hmax hmax')
  · rintro before a rest rfl hconverts
    rw [run_append, run_append, run_cons, perform_of_converts hconverts]
    have hlen := length_run before (ofSource s)
    rw [List.eraseIdx_append_of_length_le (Nat.le_of_eq hlen), hlen, Nat.sub_self,
      List.eraseIdx_cons_zero]

end TickClock

end SigV4
