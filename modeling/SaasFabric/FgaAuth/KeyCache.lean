import Mathlib.Tactic.Common
import SaasFabric.Library.Collect
import SaasFabric.Library.Machine

/-!
# Which key a token may be verified against

`fabric-fga-auth`'s key cache: the last key set each issuer was seen to publish, how long its
keys may be used, how long it speaks for what is absent from it, and when the issuer may be
called again.  What a call to the issuer comes to is its environment's.
-/

namespace SaasFabric
namespace FgaAuth

/-- `REFRESH_MIN_INTERVAL_SECONDS`. -/
def REFRESH_MIN_INTERVAL_SECONDS : Nat := 10

/-- `UNKNOWN_KID_FRESHNESS_SECONDS`. -/
def UNKNOWN_KID_FRESHNESS_SECONDS : Nat := 30

/-- `RefusalReason`. -/
inductive RefusalReason where
  | malformed
  | noIssuer
  | unknownIssuer
  | disallowedAlgorithm
  | badSignature
  | unknownKey
  | outsideValidity
  | wrongAudience
  | noSubject
  | unusableSubject
deriving DecidableEq

/-- `UnavailableReason`. -/
inductive UnavailableReason where
  | keysUnreachable
  | keysTooOld
deriving DecidableEq

/-- `VerificationError`. -/
inductive VerificationError where
  | refused (reason : RefusalReason)
  | unavailable (reason : UnavailableReason)
deriving DecidableEq

/-- `IssuerRegistration`, as far as keys are concerned. -/
structure IssuerRegistration where
  issuer : String
  jwksUri : String
  maxKeyAgeSeconds : Nat
deriving DecidableEq

/-- `KeySet`: keys of some kind, by id. -/
abbrev KeySet (κ : Type) := BTreeMap String κ

/-- `Snapshot`: a key set that was fetched, and when. -/
structure Snapshot (κ : Type) where
  keys : KeySet κ
  fetchedAt : Nat

/-- `Entry`: what is held of one issuer. -/
structure Entry (κ : Type) where
  snapshot : Option (Snapshot κ)
  lastAttemptAt : Option Nat

/-- What a call to a key source comes to, where one is made: the keys it publishes, a failure,
or a caller that is gone before there is an answer. -/
inductive Fetch (κ : Type) where
  | fetched (keys : KeySet κ)
  | failed
  | abandoned

/-- One call of `with_key`: its arguments, the clock as it reads it, and what its environment
answers. -/
structure Call (κ : Type) where
  registration : IssuerRegistration
  keyId : String
  now : Nat
  fetch : Fetch κ

/-- What was seen of a call: whether it called the key source, and what it answered, if its
caller stayed for it. -/
structure Event (κ : Type) where
  call : Call κ
  called : Bool
  answer : Option (Except VerificationError κ)

variable {κ : Type}

namespace Snapshot

/-- `Snapshot::is_stale`. -/
def isStale (snapshot : Snapshot κ) (registration : IssuerRegistration) (now : Nat) : Bool :=
  registration.maxKeyAgeSeconds < now - snapshot.fetchedAt

/-- `Snapshot::proves_absence`. -/
def provesAbsence (snapshot : Snapshot κ) (now : Nat) : Bool :=
  now - snapshot.fetchedAt < UNKNOWN_KID_FRESHNESS_SECONDS

/-- What a usable snapshot answers by itself: a key it has, or that the key is absent. -/
def answers (snapshot : Snapshot κ) (call : Call κ) : Option (Except VerificationError κ) :=
  match snapshot.keys[call.keyId]? with
  | some key => some (.ok key)
  | none =>
      if snapshot.provesAbsence call.now then some (.error (.refused .unknownKey)) else none

end Snapshot

namespace Entry

/-- `Entry::default`. -/
def default : Entry κ := { snapshot := none, lastAttemptAt := none }

/-- `Entry::may_refresh`. -/
def mayRefresh (entry : Entry κ) (now : Nat) : Bool :=
  entry.lastAttemptAt.all fun at_ => REFRESH_MIN_INTERVAL_SECONDS ≤ now - at_

/-- `Entry::unavailability`. -/
def unavailability (entry : Entry κ) (registration : IssuerRegistration) (now : Nat) :
    UnavailableReason :=
  if entry.snapshot.any fun snapshot => snapshot.isStale registration now then .keysTooOld
  else .keysUnreachable

/-- What the cache answers without a call. -/
def cached (entry : Entry κ) (call : Call κ) : Option (Except VerificationError κ) :=
  (entry.snapshot.filter fun held => !held.isStale call.registration call.now).bind fun held =>
    held.answers call

/-- The call was not made, or came to nothing. -/
def unavailable (entry : Entry κ) (call : Call κ) : Except VerificationError κ :=
  .error (.unavailable (entry.unavailability call.registration call.now))

/-- The part of `with_key` that is under an issuer's lock. -/
def withKey (entry : Entry κ) (call : Call κ) : Entry κ × Event κ :=
  match entry.cached call with
  | some answer => (entry, { call, called := false, answer := some answer })
  | none =>
      if !entry.mayRefresh call.now then
        (entry, { call, called := false, answer := some (entry.unavailable call) })
      else
        let entry := { entry with lastAttemptAt := some call.now }
        match call.fetch with
        | .fetched keys =>
            -- Decided against the set just fetched, then stored.
            let outcome := match keys[call.keyId]? with
              | none => .error (.refused .unknownKey)
              | some key => .ok key
            ({ entry with snapshot := some { keys, fetchedAt := call.now } },
              { call, called := true, answer := some outcome })
        | .failed => (entry, { call, called := true, answer := some (entry.unavailable call) })
        | .abandoned => (entry, { call, called := true, answer := none })

end Entry

/-- `KeyCache`: an entry for each issuer, created on first use. -/
abbrev KeyCache (κ : Type) := BTreeMap String (Entry κ)

namespace KeyCache

/-- `KeyCache::entry_for`. -/
def entryFor (cache : KeyCache κ) (issuer : String) : Entry κ :=
  cache[issuer]?.getD .default

/-- `KeyCache::with_key`. -/
def withKey (cache : KeyCache κ) (call : Call κ) : KeyCache κ × List (Event κ) :=
  let (entry, event) := (cache.entryFor call.registration.issuer).withKey call
  (cache.insert call.registration.issuer entry, [event])

/-- One cache under a sequence of calls. -/
def machine (κ : Type) : Library.Machine (KeyCache κ) (Call κ) (Event κ) where
  step := withKey

/-- The cache after a sequence of calls. -/
def after (calls : List (Call κ)) : KeyCache κ := (machine κ).final ∅ calls

/-- Everything seen of a sequence of calls. -/
def events (calls : List (Call κ)) : List (Event κ) := (machine κ).emitted ∅ calls

end KeyCache

end FgaAuth
end SaasFabric
