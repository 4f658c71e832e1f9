import IronCrew.Engine.Limits
import IronCrew.Run.Status

/-!
# Admission of requests

Every principal has one token bucket for each class of requests. A bucket holds fractions of tokens as
whole units, `tokenUnits` to a token; an instant is a number of nanoseconds.
-/

namespace IronCrew

def tokenUnits : Nat := 1000000000

def admissionNanosPerSecond : Nat := 1000000000

def secondsPerMinute : Nat := 60

def hardMaxRatePerMinute : Nat := 60000

def hardMaxBurst : Nat := 10000

def hardMaxObservationBurst : Nat := 1000

inductive MutationClass where
  | work
  | control
  | observation
  deriving DecidableEq

structure RatePolicy where
  ratePerMinute : Nat
  burst : Nat

/-! ### Configuration -/

/-- `str::parse` for an unsigned 64-bit number: digits, with an optional plus sign. -/
def parseU64 (text : String) : Option Nat :=
  let digits : List Char :=
    match text.toList with
    | '+' :: rest => rest
    | all => all
  let value := digits.foldl (fun value digit => value * 10 + (digit.toNat - '0'.toNat)) 0
  if digits ≠ [] ∧ digits.all Char.isDigit ∧ value < 2 ^ 64 then some value else none

def boundedEnvU64 (name : String) (var : EnvVar) (default low high : Nat) :
    Except IronCrewError Nat := do
  let bounds := toString low ++ " and " ++ toString high
  let value ←
    match var with
    | .present text =>
      match parseU64 text with
      | some value => pure value
      | none => throw (.validation (name ++ " must be an integer between " ++ bounds))
    | .notPresent => pure default
    | .notUnicode => throw (.validation (name ++ " must contain valid UTF-8"))
  if low ≤ value ∧ value ≤ high then return value
  else throw (.validation (name ++ " must be between " ++ bounds))

/-- The variables of one class of requests. -/
structure RateVars where
  rate : EnvVar
  burst : EnvVar

def RatePolicy.fromEnv (label : String) (vars : RateVars) (defaults : RatePolicy)
    (maxBurst : Nat) : Except IronCrewError RatePolicy := do
  let ratePerMinute ← boundedEnvU64 ("IRONCREW_ADMISSION_" ++ label ++ "_RATE_PER_MINUTE") vars.rate
    defaults.ratePerMinute 1 hardMaxRatePerMinute
  let burst ← boundedEnvU64 ("IRONCREW_ADMISSION_" ++ label ++ "_BURST") vars.burst defaults.burst 1
    maxBurst
  return { ratePerMinute, burst }

structure AdmissionPolicies where
  work : RatePolicy
  control : RatePolicy
  observation : RatePolicy

namespace AdmissionPolicies

/-- `AdmissionController::from_env`, with the configuration of the mutations first. -/
def fromEnv (vars : MutationClass → RateVars) : Except IronCrewError AdmissionPolicies := do
  let work ← RatePolicy.fromEnv "WORK" (vars .work) { ratePerMinute := 60, burst := 10 } hardMaxBurst
  let control ← RatePolicy.fromEnv "CONTROL" (vars .control) { ratePerMinute := 120, burst := 20 }
    hardMaxBurst
  let observation ← RatePolicy.fromEnv "OBSERVATION" (vars .observation)
    { ratePerMinute := 600, burst := 20 } hardMaxObservationBurst
  return { work, control, observation }

def policy (policies : AdmissionPolicies) : MutationClass → RatePolicy
  | .work => policies.work
  | .control => policies.control
  | .observation => policies.observation

end AdmissionPolicies

/-! ### Buckets -/

def u128Max : Nat := 2 ^ 128 - 1

def saturatingAddU128 (a b : Nat) : Nat := min (a + b) u128Max

def saturatingMulU128 (a b : Nat) : Nat := min (a * b) u128Max

structure TokenBucket where
  tokens : Nat
  updatedAt : Nat

def RatePolicy.capacity (policy : RatePolicy) : Nat :=
  saturatingMulU128 policy.burst tokenUnits

namespace TokenBucket

def full (policy : RatePolicy) (now : Nat) : TokenBucket :=
  { tokens := policy.capacity, updatedAt := now }

/-- The units that came in since the last call. An instant before the last one counts as the same. -/
def replenished (bucket : TokenBucket) (policy : RatePolicy) (now : Nat) : Nat :=
  saturatingMulU128 (now - bucket.updatedAt) policy.ratePerMinute / secondsPerMinute

def replenish (bucket : TokenBucket) (policy : RatePolicy) (now : Nat) : TokenBucket :=
  { tokens := min (saturatingAddU128 bucket.tokens (bucket.replenished policy now)) policy.capacity
    updatedAt := now }

def retryAfter (policy : RatePolicy) (deficit : Nat) : Nat :=
  let retryNanos := divCeil (saturatingMulU128 deficit secondsPerMinute) policy.ratePerMinute
  let retrySeconds := max (divCeil retryNanos admissionNanosPerSecond) 1
  if retrySeconds < 2 ^ 64 then retrySeconds else 2 ^ 64 - 1

def tryTake (bucket : TokenBucket) (policy : RatePolicy) (now : Nat) :
    TokenBucket × Except Nat Unit :=
  let bucket := bucket.replenish policy now
  if tokenUnits ≤ bucket.tokens then
    ({ bucket with tokens := bucket.tokens - tokenUnits }, .ok ())
  else (bucket, .error (retryAfter policy (tokenUnits - bucket.tokens)))

end TokenBucket

/-! ### The controller -/

inductive AdmissionFailure where
  | unavailable
  | limited (mutation : MutationClass) (retryAfterSeconds : Nat)

abbrev Buckets := String × MutationClass → Option TokenBucket

/-- `now` is sampled before the buckets are locked. -/
def admitPrincipal (policies : AdmissionPolicies) (buckets : Buckets) (principal : String)
    (mutation : MutationClass) (now : Nat) : Buckets × Except AdmissionFailure Unit :=
  let policy := policies.policy mutation
  let bucket := (buckets (principal, mutation)).getD (.full policy now)
  let (bucket, result) := bucket.tryTake policy now
  (Function.update buckets (principal, mutation) (some bucket),
    result.mapError (AdmissionFailure.limited mutation))

end IronCrew
