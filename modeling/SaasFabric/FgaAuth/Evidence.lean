import SaasFabric.FgaAuth.KeyCache

/-!
# A key is trusted, and refused, by evidence

Of any sequence of calls: what an issuer's entry holds is the issuer's most recent successful
fetch and its most recent attempt.  An answer that uses or refuses a key is that fetch's, within
its window; everything else is that the cache does not know.
-/

namespace SaasFabric
namespace FgaAuth

open Library

variable {κ : Type}

/-! ## What was seen of an issuer -/

namespace Event

/-- A successful fetch of an issuer's keys. -/
def success (issuer : String) (event : Event κ) : Option (Snapshot κ) :=
  if event.called ∧ event.call.registration.issuer = issuer then
    match event.call.fetch with
    | .fetched keys => some { keys, fetchedAt := event.call.now }
    | .failed => none
    | .abandoned => none
  else none

/-- A call to an issuer's key source, by when it was made. -/
def attempt (issuer : String) (event : Event κ) : Option Nat :=
  if event.called ∧ event.call.registration.issuer = issuer then some event.call.now else none

end Event

/-- The successful fetches of an issuer's keys, in order. -/
def successes (issuer : String) (events : List (Event κ)) : List (Snapshot κ) :=
  events.filterMap (Event.success issuer)

/-- The calls to an issuer's key source, in order. -/
def attempts (issuer : String) (events : List (Event κ)) : List Nat :=
  events.filterMap (Event.attempt issuer)

/-- Two calls to a key source that are far enough apart. -/
def Apart (first later : Nat) : Prop := first + REFRESH_MIN_INTERVAL_SECONDS ≤ later

theorem Apart.trans {first second third : Nat} (h : Apart first second)
    (h' : Apart second third) : Apart first third := by
  unfold Apart at *
  omega

/-- What an answer rests on, given everything that was seen before it. -/
structure Justified (before : List (Event κ)) (event : Event κ) : Prop where
  trusted : ∀ key, event.answer = some (.ok key) → ∃ success,
    (successes event.call.registration.issuer (before ++ [event])).getLast? = some success ∧
      success.keys[event.call.keyId]? = some key ∧
        event.call.now - success.fetchedAt ≤ event.call.registration.maxKeyAgeSeconds
  refused : ∀ reason, event.answer = some (.error (.refused reason)) → reason = .unknownKey ∧
    ∃ success,
      (successes event.call.registration.issuer (before ++ [event])).getLast? = some success ∧
        success.keys[event.call.keyId]? = none ∧
          (event.success event.call.registration.issuer = some success ∨
            event.call.now - success.fetchedAt < UNKNOWN_KID_FRESHNESS_SECONDS)
  served : ∀ success key,
    (successes event.call.registration.issuer before).getLast? = some success →
      success.keys[event.call.keyId]? = some key →
        event.call.now - success.fetchedAt ≤ event.call.registration.maxKeyAgeSeconds →
          event.answer = some (.ok key) ∧ event.called = false

/-! ## One call -/

/-- What one call does to an issuer's entry, and when it calls the key source. -/
theorem withKey_entry (entry : Entry κ) (call : Call κ) {next : Entry κ} {event : Event κ}
    (h : entry.withKey call = (next, event)) :
    event.call = call ∧
      next.snapshot = (event.success call.registration.issuer).or entry.snapshot ∧
      next.lastAttemptAt = (event.attempt call.registration.issuer).or entry.lastAttemptAt ∧
      (event.called = true → entry.mayRefresh call.now = true) := by
  unfold Entry.withKey at h
  split at h
  · cases h
    simp [Event.success, Event.attempt]
  · split at h
    · cases h
      simp [Event.success, Event.attempt]
    · rename_i hmay
      have hmay : entry.mayRefresh call.now = true := by simpa using hmay
      dsimp only at h
      split at h
      · rename_i keys hfetch
        cases h
        simp [Event.success, Event.attempt, hfetch, hmay]
      · rename_i hfetch
        cases h
        simp [Event.success, Event.attempt, hfetch, hmay]
      · rename_i hfetch
        cases h
        simp [Event.success, Event.attempt, hfetch, hmay]

/-- A snapshot answers by itself while its keys may be used. -/
theorem cached_eq_some {entry : Entry κ} {call : Call κ} {answer : Except VerificationError κ} :
    entry.cached call = some answer ↔ ∃ held, entry.snapshot = some held ∧
      call.now - held.fetchedAt ≤ call.registration.maxKeyAgeSeconds ∧
        held.answers call = some answer := by
  unfold Entry.cached
  rw [Option.bind_eq_some_iff]
  simp only [Option.filter_eq_some_iff, Snapshot.isStale, Bool.not_eq_true', decide_eq_false_iff_not,
    Nat.not_lt, and_assoc]

/-- What one call answers, of what its issuer's entry held. -/
theorem withKey_answer (entry : Entry κ) (call : Call κ) {next : Entry κ} {event : Event κ}
    (h : entry.withKey call = (next, event)) :
    (∀ key, event.answer = some (.ok key) → ∃ success,
      (event.success call.registration.issuer).or entry.snapshot = some success ∧
        success.keys[call.keyId]? = some key ∧
          call.now - success.fetchedAt ≤ call.registration.maxKeyAgeSeconds) ∧
    (∀ reason, event.answer = some (.error (.refused reason)) → reason = .unknownKey ∧
      ∃ success, (event.success call.registration.issuer).or entry.snapshot = some success ∧
        success.keys[call.keyId]? = none ∧
          (event.success call.registration.issuer = some success ∨
            call.now - success.fetchedAt < UNKNOWN_KID_FRESHNESS_SECONDS)) ∧
    (∀ success key, entry.snapshot = some success → success.keys[call.keyId]? = some key →
      call.now - success.fetchedAt ≤ call.registration.maxKeyAgeSeconds →
        event.answer = some (.ok key) ∧ event.called = false) := by
  unfold Entry.withKey at h
  split at h
  -- Answered from what is held: nothing is fetched, and the snapshot is the evidence.
  · rename_i answer hcached
    obtain ⟨held, hheld, hage, hanswers⟩ := cached_eq_some.mp hcached
    cases h
    have hnone : Event.success call.registration.issuer
        { call, called := false, answer := some answer } = none := by simp [Event.success]
    rw [hnone, Option.none_or, hheld]
    unfold Snapshot.answers at hanswers
    refine ⟨?_, ?_, ?_⟩
    · intro key hkey
      cases hkey
      split at hanswers
      · rename_i hpresent
        cases hanswers
        exact ⟨held, rfl, hpresent, hage⟩
      · split at hanswers <;> cases hanswers
    · intro reason hrefused
      cases hrefused
      split at hanswers
      · cases hanswers
      · rename_i habsent
        split at hanswers
        · rename_i hproves
          cases hanswers
          exact ⟨rfl, held, rfl, habsent, Or.inr (of_decide_eq_true hproves)⟩
        · cases hanswers
    · intro success key hsuccess hpresent _
      cases hsuccess
      rw [hpresent] at hanswers
      exact ⟨hanswers.symm, rfl⟩
  · rename_i hcached
    -- What is held does not answer, so no key in it is young enough to be served.
    have hserved : ∀ success key, entry.snapshot = some success →
        success.keys[call.keyId]? = some key →
          ¬ call.now - success.fetchedAt ≤ call.registration.maxKeyAgeSeconds := by
      intro success key hsuccess hpresent hage
      have hsome : entry.cached call = some (.ok key) := by
        refine cached_eq_some.mpr ⟨success, hsuccess, hage, ?_⟩
        rw [Snapshot.answers, hpresent]
      rw [hcached] at hsome
      cases hsome
    have hlast : ∀ success key, entry.snapshot = some success →
        success.keys[call.keyId]? = some key →
          call.now - success.fetchedAt ≤ call.registration.maxKeyAgeSeconds →
            event.answer = some (.ok key) ∧ event.called = false :=
      fun success key hsuccess hpresent hage =>
        absurd hage (hserved success key hsuccess hpresent)
    split at h
    · cases h
      exact ⟨fun _ hkey => by simp [Entry.unavailable] at hkey,
        fun _ hrefused => by simp [Entry.unavailable] at hrefused, hlast⟩
    · dsimp only at h
      split at h
      -- A fetch that succeeds is its own evidence, of age zero.
      · rename_i keys hfetch
        cases h
        have hsuccess : ∀ answer, Event.success call.registration.issuer
            { call, called := true, answer } = some { keys, fetchedAt := call.now } := by
          simp [Event.success, hfetch]
        rw [hsuccess, Option.some_or]
        refine ⟨?_, ?_, hlast⟩
        · intro key hkey
          refine ⟨_, rfl, ?_, by simp⟩
          dsimp only at hkey ⊢
          split at hkey
          · cases hkey
          · rename_i hpresent
            cases hkey
            exact hpresent
        · intro reason hrefused
          dsimp only at hrefused
          split at hrefused
          · rename_i habsent
            cases hrefused
            exact ⟨rfl, _, rfl, habsent, Or.inl rfl⟩
          · cases hrefused
      · cases h
        exact ⟨fun _ hkey => by simp [Entry.unavailable] at hkey,
          fun _ hrefused => by simp [Entry.unavailable] at hrefused, hlast⟩
      · cases h
        exact ⟨nofun, nofun, hlast⟩

/-- An entry with the same snapshot and a later last attempt answers as the other, or does not
know. -/
theorem withKey_answer_of_later {earlier later : Entry κ} {call : Call κ}
    (hsnapshot : later.snapshot = earlier.snapshot)
    (hmay : later.mayRefresh call.now = true → earlier.mayRefresh call.now = true) :
    (later.withKey call).2.answer = (earlier.withKey call).2.answer ∨
      ∃ reason, (later.withKey call).2.answer = some (.error (.unavailable reason)) := by
  have hcached : later.cached call = earlier.cached call := by
    rw [Entry.cached, Entry.cached, hsnapshot]
  have hreason : later.unavailable call = earlier.unavailable call := by
    rw [Entry.unavailable, Entry.unavailable, Entry.unavailability, Entry.unavailability, hsnapshot]
  unfold Entry.withKey
  rw [hcached]
  split
  · exact Or.inl rfl
  · cases hlater : later.mayRefresh call.now with
    | false => exact Or.inr ⟨_, rfl⟩
    | true =>
        rw [hmay hlater]
        cases call.fetch with
        | fetched keys => exact Or.inl rfl
        | failed => exact Or.inr ⟨_, rfl⟩
        | abandoned => exact Or.inl rfl

/-! ## Runs -/

theorem successes_append (issuer : String) (before later : List (Event κ)) :
    successes issuer (before ++ later) = successes issuer before ++ successes issuer later :=
  List.filterMap_append

theorem attempts_append (issuer : String) (before later : List (Event κ)) :
    attempts issuer (before ++ later) = attempts issuer before ++ attempts issuer later :=
  List.filterMap_append

/-- What was last seen, one event later. -/
theorem getLast?_filterMap_concat {α β : Type} (f : α → Option β) (items : List α) (item : α) :
    ((items ++ [item]).filterMap f).getLast? = (f item).or (items.filterMap f).getLast? := by
  rw [List.filterMap_append, List.getLast?_append]
  cases h : f item with
  | none => simp [h]
  | some value => simp [h]

/-- What a cache holds, and what was answered, after everything that was seen. -/
structure Holds (cache : KeyCache κ) (events : List (Event κ)) : Prop where
  snapshot : ∀ issuer, (cache.entryFor issuer).snapshot = (successes issuer events).getLast?
  lastAttempt : ∀ issuer, (cache.entryFor issuer).lastAttemptAt = (attempts issuer events).getLast?
  apart : ∀ issuer, (attempts issuer events).Pairwise Apart
  justified : ∀ before event later, events = before ++ event :: later → Justified before event

theorem entryFor_withKey (cache : KeyCache κ) (call : Call κ) (issuer : String) :
    (cache.withKey call).1.entryFor issuer =
      if call.registration.issuer = issuer then
        ((cache.entryFor call.registration.issuer).withKey call).1
      else cache.entryFor issuer := by
  show (cache.insert call.registration.issuer
    ((cache.entryFor call.registration.issuer).withKey call).1)[issuer]?.getD .default = _
  split
  · rename_i hsame
    rw [← hsame, getElem?_insert_self, Option.getD_some]
  · rename_i hne
    rw [getElem?_insert_ne _ _ hne]
    rfl

/-- One call keeps it. -/
theorem holds_withKey {cache : KeyCache κ} {events : List (Event κ)} (call : Call κ)
    (h : Holds cache events) : Holds (cache.withKey call).1 (events ++ (cache.withKey call).2) := by
  rcases hwith : (cache.entryFor call.registration.issuer).withKey call with ⟨next, event⟩
  obtain ⟨hcall, hsnapshot, hattempt, hmay⟩ := withKey_entry _ call hwith
  obtain ⟨htrusted, hrefused, hserved⟩ := withKey_answer _ call hwith
  have hevents : (cache.withKey call).2 = [event] := by rw [KeyCache.withKey, hwith]
  have hentry := entryFor_withKey cache call
  rw [hwith] at hentry
  rw [hevents]
  -- An event of one issuer is no success and no attempt of another.
  have hother : ∀ issuer, call.registration.issuer ≠ issuer →
      event.success issuer = none ∧ event.attempt issuer = none := by
    intro issuer hne
    rw [Event.success, Event.attempt, hcall]
    exact ⟨if_neg fun hmine => hne hmine.2, if_neg fun hmine => hne hmine.2⟩
  have hlast : ∀ issuer, (successes issuer (events ++ [event])).getLast? =
      (event.success issuer).or (successes issuer events).getLast? :=
    fun issuer => getLast?_filterMap_concat _ _ _
  refine ⟨fun issuer => ?_, fun issuer => ?_, fun issuer => ?_, ?_⟩
  · rw [hlast, hentry]
    split
    · rename_i hsame
      subst hsame
      rw [hsnapshot, h.snapshot]
    · rename_i hne
      rw [(hother issuer hne).1, Option.none_or, h.snapshot]
  · rw [attempts, getLast?_filterMap_concat, hentry]
    split
    · rename_i hsame
      subst hsame
      rw [hattempt, h.lastAttempt, attempts]
    · rename_i hne
      rw [(hother issuer hne).2, Option.none_or, h.lastAttempt, attempts]
  · rw [attempts_append]
    cases hnew : event.attempt issuer with
    | none =>
        have hnone : attempts issuer [event] = [] := by simp [attempts, hnew]
        rw [hnone, List.append_nil]
        exact h.apart issuer
    | some at_ =>
        have hone : attempts issuer [event] = [at_] := by simp [attempts, hnew]
        rw [hone]
        refine pairwise_concat (R := Apart) (fun _ _ _ => Apart.trans) (h.apart issuer) fun last hseen => ?_
        have hmine : event.called = true ∧ call.registration.issuer = issuer ∧
            call.now = at_ := by
          rw [Event.attempt, hcall] at hnew
          split at hnew
          · rename_i hmine
            cases hnew
            exact ⟨hmine.1, hmine.2, rfl⟩
          · cases hnew
        obtain ⟨hcalled, rfl, rfl⟩ := hmine
        have hallowed := hmay hcalled
        rw [Entry.mayRefresh, h.lastAttempt, hseen] at hallowed
        have hfar : REFRESH_MIN_INTERVAL_SECONDS ≤ call.now - last := by simpa using hallowed
        show last + REFRESH_MIN_INTERVAL_SECONDS ≤ call.now
        unfold REFRESH_MIN_INTERVAL_SECONDS at *
        omega
  · intro before other later hsplit
    rcases List.eq_nil_or_concat later with rfl | ⟨later, final, rfl⟩
    · obtain ⟨rfl, hlast'⟩ := List.append_inj' hsplit rfl
      cases hlast'
      have hissuer := hlast call.registration.issuer
      rw [← h.snapshot] at hissuer
      constructor
      · intro key hkey
        rw [hcall, hissuer]
        exact htrusted key hkey
      · intro reason hreason
        rw [hcall, hissuer]
        exact hrefused reason hreason
      · intro success key hsuccess
        rw [hcall] at hsuccess ⊢
        rw [← h.snapshot] at hsuccess
        exact hserved success key hsuccess
    · rw [List.concat_eq_append, ← List.cons_append, ← List.append_assoc] at hsplit
      exact h.justified before other later (List.append_inj' hsplit rfl).1

/-- A cache holds what was seen, over every sequence of calls. -/
theorem holds_after (calls : List (Call κ)) :
    Holds (KeyCache.after calls) (KeyCache.events calls) := by
  have hstart : Holds (∅ : KeyCache κ) [] := by
    refine ⟨fun issuer => ?_, fun issuer => ?_, fun issuer => ?_, ?_⟩
    · simp [KeyCache.entryFor, Entry.default, successes]
    · simp [KeyCache.entryFor, Entry.default, attempts]
    · simp [attempts]
    · intro before event later hsplit
      simp at hsplit
  have hrun := (KeyCache.machine κ).trace_invariant Holds
    (fun cache events call h => holds_withKey call h) hstart calls
  exact hrun

/-- What a call answers on top of others. -/
def answerAfter (calls : List (Call κ)) (call : Call κ) : Option (Except VerificationError κ) :=
  (((KeyCache.after calls).entryFor call.registration.issuer).withKey call).2.answer

/-- The events of a sequence of calls that continues another. -/
theorem events_append (first later : List (Call κ)) : ∃ continued,
    KeyCache.events (first ++ later) = KeyCache.events first ++ continued ∧
      continued = (KeyCache.machine κ).emitted (KeyCache.after first) later :=
  ⟨_, (KeyCache.machine κ).emitted_append ∅ first later, rfl⟩

/-- Calls that fetch nothing of an issuer leave the next answer as it was, or unknown. -/
theorem answerAfter_of_no_success {first quiet : List (Call κ)} {call : Call κ}
    (hquiet : successes call.registration.issuer
      ((KeyCache.machine κ).emitted (KeyCache.after first) quiet) = []) :
    answerAfter (first ++ quiet) call = answerAfter first call ∨
      ∃ reason, answerAfter (first ++ quiet) call = some (.error (.unavailable reason)) := by
  have hfirst := holds_after first
  have hall := holds_after (first ++ quiet)
  obtain ⟨continued, hevents, rfl⟩ := events_append first quiet
  apply withKey_answer_of_later
  · rw [hall.snapshot, hfirst.snapshot, hevents, successes_append, hquiet, List.append_nil]
  · -- The last attempt is not before the one the earlier entry knew.
    rw [Entry.mayRefresh, Entry.mayRefresh, hall.lastAttempt, hfirst.lastAttempt]
    have hapart := hall.apart call.registration.issuer
    cases hbefore : (attempts call.registration.issuer (KeyCache.events first)).getLast? with
    | none => simp
    | some at_ =>
        cases hlater : (attempts call.registration.issuer
            (KeyCache.events (first ++ quiet))).getLast? with
        | none =>
            rw [List.getLast?_eq_none_iff] at hlater
            rw [hevents, attempts_append, List.append_eq_nil_iff] at hlater
            rw [hlater.1] at hbefore
            cases hbefore
        | some last =>
            have hmem : at_ ∈ attempts call.registration.issuer
                (KeyCache.events (first ++ quiet)) := by
              rw [hevents, attempts_append]
              exact List.mem_append_left _ (List.mem_of_getLast? hbefore)
            simp only [Option.all_some, decide_eq_true_eq]
            rcases eq_or_rel_getLast hapart hmem hlater with rfl | hfar
            · exact id
            · unfold Apart at hfar
              intro hmay
              omega

/-- The key cache never trusts an old key and never refuses without evidence.  Of every sequence
of calls, whatever registrations and key ids they carry, whatever the clock reads and whatever
their fetches come to: every answer is justified by the issuer's most recent successful fetch;
two calls to one issuer's key source are never closer than the minimum interval; and where
nothing was fetched of an issuer between two points, however many fetches failed or were
abandoned there, a call answers at the later point as it would at the earlier, or that it does
not know. -/
theorem cache_answers_by_evidence (calls : List (Call κ)) :
    (∀ before event later, KeyCache.events calls = before ++ event :: later →
      Justified before event) ∧
    (∀ issuer, (attempts issuer (KeyCache.events calls)).Pairwise Apart) ∧
    (∀ first quiet call rest, calls = first ++ quiet ++ call :: rest →
      successes call.registration.issuer
        ((KeyCache.machine κ).emitted (KeyCache.after first) quiet) = [] →
      answerAfter (first ++ quiet) call = answerAfter first call ∨
        ∃ reason, answerAfter (first ++ quiet) call = some (.error (.unavailable reason))) :=
  ⟨(holds_after calls).justified, (holds_after calls).apart,
    fun _ _ _ _ _ hquiet => answerAfter_of_no_success hquiet⟩

/-- An issuer, and calls for a key of its, for one it does not publish while it is away, and for
the first again. -/
def acmeIssuer : IssuerRegistration :=
  { issuer := "acme", jwksUri := "https://acme/certs", maxKeyAgeSeconds := 43200 }

def firstCall : Call Nat :=
  { registration := acmeIssuer, keyId := "kid-1", now := 1000,
    fetch := .fetched (collect [("kid-1", 7)]) }

def failedCall : Call Nat :=
  { registration := acmeIssuer, keyId := "kid-2", now := 1030, fetch := .failed }

def laterCall : Call Nat :=
  { registration := acmeIssuer, keyId := "kid-1", now := 1031, fetch := .abandoned }

/-- The failed fetch is no evidence against the key that is held. -/
theorem failed_fetch_is_no_evidence :
    attempts "acme" (KeyCache.events [firstCall, failedCall, laterCall]) = [1000, 1030] ∧
      (attempts "acme" (KeyCache.events [firstCall, failedCall, laterCall])).Pairwise Apart ∧
      (answerAfter ([firstCall] ++ [failedCall]) laterCall = answerAfter [firstCall] laterCall ∨
        ∃ reason, answerAfter ([firstCall] ++ [failedCall]) laterCall =
          some (.error (.unavailable reason))) := by
  have hall := cache_answers_by_evidence [firstCall, failedCall, laterCall]
  refine ⟨by decide +kernel, hall.2.1 "acme", ?_⟩
  exact hall.2.2 [firstCall] [failedCall] laterCall [] rfl rfl

end FgaAuth
end SaasFabric
