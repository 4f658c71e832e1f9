import IronCrew.Chat.Message

/-!
# What the store takes from its libraries

Timestamps, identifiers and digests come from third-party crates, and the footprint of a message is
a property of the process. The store's own logic is the same over any of them.

An instant is a number of nanoseconds since the epoch. The RFC 3339 reader and writer are not assumed
to be inverse to each other: a deadline is compared through the reader wherever the source does so.
-/

namespace IronCrew

open Outcome

class Platform where
  parseRfc3339 : String → Option Int
  toRfc3339 : Int → String
  -- `DateTime::checked_add_signed`: no result outside the range of dates
  checkedAddSigned : Int → Int → Option Int
  maxUtc : Int
  parseUuid : String → Option Nat
  hyphenated : Nat → String
  -- lowercase hexadecimal digits of the digest
  sha256 : String → String
  estimatedBytes : ChatMessage → Nat
  -- size of an empty message list
  emptyHistoryBytes : Nat

def nanosPerSecond : Int := 1000000000

section Timestamp

variable [Platform]

def parseIdempotencyTimestamp (label value : String) : Except IronCrewError Int :=
  require (.validation (label ++ " is not RFC3339")) (Platform.parseRfc3339 value)

def timestampHasPassed (deadline now : String) : Except IronCrewError Bool := do
  let deadline ← parseIdempotencyTimestamp "idempotency deadline" deadline
  let now ← parseIdempotencyTimestamp "idempotency current time" now
  return deadline ≤ now

def earliestDeadline (current : Option String) (candidate : String) :
    Except IronCrewError (Option String) := do
  let candidateTime ← parseIdempotencyTimestamp "idempotency capacity deadline" candidate
  match current with
  | some current =>
    let currentTime ← parseIdempotencyTimestamp "idempotency capacity deadline" current
    return some (if currentTime ≤ candidateTime then current else candidate)
  | none => return some candidate

/-- Whole seconds until the deadline, rounded up and at least one. The difference of two dates fits
a 64-bit count of milliseconds. -/
def retryAfterSeconds (deadline : Option String) (now : String) : Except IronCrewError Nat :=
  match deadline with
  | none => .ok 60
  | some deadline => do
    let deadline ← parseIdempotencyTimestamp "idempotency capacity deadline" deadline
    let now ← parseIdempotencyTimestamp "idempotency capacity clock" now
    let milliseconds := max ((deadline - now).tdiv 1000000) 1
    return max (((milliseconds + 999).tdiv 1000).toNat) 1

def retentionExpiry (now : String) (ttlSeconds : Nat) : Except IronCrewError String := do
  let now ← parseIdempotencyTimestamp "idempotency current time" now
  ensure (ttlSeconds < 2 ^ 63) (.validation "Idempotency TTL is out of range")
  let expiry ← require (.validation "Idempotency retention expiry overflow")
    (Platform.checkedAddSigned now (ttlSeconds * nanosPerSecond))
  return Platform.toRfc3339 expiry

/-- A lease that cannot be read does not keep a run in flight. -/
def leaseIsExpired (leaseExpiresAt : String) (now : Int) : Bool :=
  leaseExpiresAt.isEmpty || (Platform.parseRfc3339 leaseExpiresAt).all (· ≤ now)

def laterJsonLease (existing proposed : String) : Except IronCrewError String :=
  if existing.isEmpty then .ok proposed
  else do
    let existingTime ← parseIdempotencyTimestamp "existing run lease expiry" existing
    let proposedTime ← parseIdempotencyTimestamp "proposed run lease expiry" proposed
    return if proposedTime ≤ existingTime then existing else proposed

theorem timestampHasPassed_ok_iff {deadline now : String} {passed : Bool} :
    timestampHasPassed deadline now = .ok passed ↔
      ∃ deadlineTime nowTime, Platform.parseRfc3339 deadline = some deadlineTime ∧
        Platform.parseRfc3339 now = some nowTime ∧ decide (deadlineTime ≤ nowTime) = passed := by
  simp only [timestampHasPassed, parseIdempotencyTimestamp, bind_ok_iff, require_ok_iff, pure,
    Except.pure, Except.ok.injEq]
  constructor
  · rintro ⟨deadlineTime, hdeadline, nowTime, hnow, hpassed⟩
    exact ⟨deadlineTime, nowTime, hdeadline, hnow, hpassed⟩
  · rintro ⟨deadlineTime, nowTime, hdeadline, hnow, hpassed⟩
    exact ⟨deadlineTime, hdeadline, nowTime, hnow, hpassed⟩

end Timestamp

/-! ### The lease of a store handle -/

def maxRunLeaseTtlSeconds : Nat := 86400

/-- The identity and lease of one runtime instance; the duration counts nanoseconds. -/
structure RunLeaseConfig where
  instanceId : String
  ttl : Nat
  one_second_le : 10 ^ 9 ≤ ttl
  within_day : ttl / 10 ^ 9 ≤ maxRunLeaseTtlSeconds

def RunLeaseConfig.deadlineFrom [Platform] (lease : RunLeaseConfig) (now : Int) : String :=
  let ttl : Int := (lease.ttl / 10 ^ 9 : Nat) * nanosPerSecond
  Platform.toRfc3339 ((Platform.checkedAddSigned now ttl).getD Platform.maxUtc)

end IronCrew
