import IronCrew.Api.Admission
import Mathlib.Tactic.FieldSimp
import Mathlib.Tactic.Linarith
import Mathlib.Tactic.Ring

/-!
# What a token bucket admits

With instants that never go back, the tokens of a bucket pay for every request it admits: in any window
it admits its burst and what came in during the window, and no more. A bucket whose time goes back
collects the same time again.

A rejected call tells the caller when to try again. Each later call rounds the units of its own interval
down, so a caller that asks again in between loses fractions of units. From one unit a nanosecond on,
that is from sixty tokens a minute, the fractions do not matter; below, no answer can be relied on.
-/

namespace IronCrew

open Outcome

structure RatePolicy.Configured (policy : RatePolicy) : Prop where
  rate_pos : 1 ≤ policy.ratePerMinute
  rate_le : policy.ratePerMinute ≤ hardMaxRatePerMinute
  burst_pos : 1 ≤ policy.burst
  burst_le : policy.burst ≤ hardMaxBurst

section Configuration

theorem boundedEnvU64_bounds {name : String} {var : EnvVar} {default low high value : Nat}
    (hvalue : boundedEnvU64 name var default low high = .ok value) : low ≤ value ∧ value ≤ high := by
  have hranged : ∀ read : Nat,
      (if low ≤ read ∧ read ≤ high then (pure read : Except IronCrewError Nat)
        else throw (.validation (name ++ " must be between " ++
          (toString low ++ " and " ++ toString high)))) = .ok value →
        low ≤ value ∧ value ≤ high := by
    intro read hread
    split at hread
    · cases hread
      assumption
    · cases hread
  unfold boundedEnvU64 at hvalue
  cases var with
  | notPresent => exact hranged default hvalue
  | notUnicode => cases hvalue
  | present text =>
    cases hparsed : parseU64 text with
    | none => simp only [hparsed] at hvalue; cases hvalue
    | some read => simp only [hparsed] at hvalue; exact hranged read hvalue

theorem RatePolicy.fromEnv_configured {label : String} {vars : RateVars} {defaults policy : RatePolicy}
    {maxBurst : Nat} (hmax : maxBurst ≤ hardMaxBurst)
    (hpolicy : RatePolicy.fromEnv label vars defaults maxBurst = .ok policy) : policy.Configured := by
  unfold RatePolicy.fromEnv at hpolicy
  obtain ⟨rate, hrate, hpolicy⟩ := bind_ok_iff.mp hpolicy
  obtain ⟨burst, hburst, hpolicy⟩ := bind_ok_iff.mp hpolicy
  cases hpolicy
  obtain ⟨hrateLow, hrateHigh⟩ := boundedEnvU64_bounds hrate
  obtain ⟨hburstLow, hburstHigh⟩ := boundedEnvU64_bounds hburst
  exact ⟨hrateLow, hrateHigh, hburstLow, hburstHigh.trans hmax⟩

theorem AdmissionPolicies.fromEnv_configured {vars : MutationClass → RateVars}
    {policies : AdmissionPolicies} (hpolicies : AdmissionPolicies.fromEnv vars = .ok policies)
    (mutation : MutationClass) : (policies.policy mutation).Configured := by
  unfold AdmissionPolicies.fromEnv at hpolicies
  obtain ⟨work, hwork, hpolicies⟩ := bind_ok_iff.mp hpolicies
  obtain ⟨control, hcontrol, hpolicies⟩ := bind_ok_iff.mp hpolicies
  obtain ⟨observation, hobservation, hpolicies⟩ := bind_ok_iff.mp hpolicies
  cases hpolicies
  cases mutation with
  | work => exact RatePolicy.fromEnv_configured le_rfl hwork
  | control => exact RatePolicy.fromEnv_configured le_rfl hcontrol
  | observation => exact RatePolicy.fromEnv_configured (by decide) hobservation

end Configuration

namespace TokenBucket

variable {policy : RatePolicy} {bucket : TokenBucket} {now : Nat}

/-! ### One call -/

section

variable (bucket : TokenBucket) (policy : RatePolicy) (now : Nat)

theorem replenished_le : secondsPerMinute * bucket.replenished policy now ≤
      policy.ratePerMinute * (now - bucket.updatedAt) := by
  calc secondsPerMinute * bucket.replenished policy now
      ≤ saturatingMulU128 (now - bucket.updatedAt) policy.ratePerMinute := Nat.mul_div_le _ _
    _ ≤ (now - bucket.updatedAt) * policy.ratePerMinute := min_le_left _ _
    _ = policy.ratePerMinute * (now - bucket.updatedAt) := Nat.mul_comm _ _

theorem replenish_tokens_le :
    (bucket.replenish policy now).tokens ≤ bucket.tokens + bucket.replenished policy now :=
  (min_le_left _ _).trans (min_le_left _ _)

theorem replenish_capacity : (bucket.replenish policy now).tokens ≤ policy.capacity :=
  min_le_right _ _

end

def cost : Except Nat Unit → Nat
  | .ok () => tokenUnits
  | .error _ => 0

theorem tryTake_of_enough (henough : tokenUnits ≤ (bucket.replenish policy now).tokens) :
    bucket.tryTake policy now =
      ({ tokens := (bucket.replenish policy now).tokens - tokenUnits, updatedAt := now }, .ok ()) :=
  if_pos henough

theorem tryTake_of_short (hshort : (bucket.replenish policy now).tokens < tokenUnits) :
    bucket.tryTake policy now = (bucket.replenish policy now,
      .error (retryAfter policy (tokenUnits - (bucket.replenish policy now).tokens))) :=
  if_neg (Nat.not_le.mpr hshort)

section

variable (bucket : TokenBucket) (policy : RatePolicy) (now : Nat)

theorem tryTake_admitted_iff :
    (bucket.tryTake policy now).2 = .ok () ↔ tokenUnits ≤ (bucket.replenish policy now).tokens := by
  by_cases henough : tokenUnits ≤ (bucket.replenish policy now).tokens
  · simp [tryTake_of_enough henough, henough]
  · simp [tryTake_of_short (Nat.not_le.mp henough), henough]

@[simp] theorem tryTake_updatedAt : (bucket.tryTake policy now).1.updatedAt = now := by
  by_cases henough : tokenUnits ≤ (bucket.replenish policy now).tokens
  · rw [tryTake_of_enough henough]
  · rw [tryTake_of_short (Nat.not_le.mp henough)]
    rfl

theorem tryTake_tokens : (bucket.tryTake policy now).1.tokens + cost (bucket.tryTake policy now).2 =
      (bucket.replenish policy now).tokens := by
  by_cases henough : tokenUnits ≤ (bucket.replenish policy now).tokens
  · rw [tryTake_of_enough henough]
    exact Nat.sub_add_cancel henough
  · rw [tryTake_of_short (Nat.not_le.mp henough)]
    rfl

end

/-! ### Calls one after the other -/

/-- The instants of the admitted calls, in the order in which the calls took the lock. -/
def admitted (policy : RatePolicy) : TokenBucket → List Nat → List Nat
  | _, [] => []
  | bucket, now :: rest =>
    match bucket.tryTake policy now with
    | (bucket, .ok ()) => now :: admitted policy bucket rest
    | (bucket, .error _) => admitted policy bucket rest

def after (policy : RatePolicy) (bucket : TokenBucket) (instants : List Nat) : TokenBucket :=
  instants.foldl (fun bucket now => (bucket.tryTake policy now).1) bucket

theorem admitted_subset (policy : RatePolicy) (instants : List Nat) (bucket : TokenBucket) :
    ∀ instant ∈ admitted policy bucket instants, instant ∈ instants := by
  induction instants generalizing bucket with
  | nil => intro instant hmem; exact hmem
  | cons now rest ih =>
    intro instant hmem
    unfold admitted at hmem
    split at hmem
    next =>
      rcases List.mem_cons.mp hmem with rfl | hlater
      · exact List.mem_cons_self
      · exact List.mem_cons_of_mem _ (ih _ instant hlater)
    next => exact List.mem_cons_of_mem _ (ih _ instant hmem)

def admittedIn (policy : RatePolicy) (bucket : TokenBucket) (instants : List Nat) (a b : Nat) : Nat :=
  ((admitted policy bucket instants).filter fun instant => a ≤ instant ∧ instant ≤ b).length

variable {a b : Nat}

theorem admittedIn_eq_zero {instants : List Nat}
    (houtside : ∀ instant ∈ instants, ¬ (a ≤ instant ∧ instant ≤ b)) :
    admittedIn policy bucket instants a b = 0 := by
  rw [admittedIn, List.length_eq_zero_iff, List.filter_eq_nil_iff]
  intro instant hmem
  simpa using houtside instant (admitted_subset policy instants bucket instant hmem)

variable {rest : List Nat}

theorem admittedIn_cons_inside (hinside : a ≤ now ∧ now ≤ b) :
    tokenUnits * admittedIn policy bucket (now :: rest) a b =
      cost (bucket.tryTake policy now).2 +
        tokenUnits * admittedIn policy (bucket.tryTake policy now).1 rest a b := by
  unfold admittedIn
  rw [admitted]
  split
  next taken heq =>
    rw [heq, List.filter_cons_of_pos (by simpa using hinside), List.length_cons]
    simp only [cost]
    ring
  next taken seconds heq => rw [heq]; simp [cost]

theorem admittedIn_cons_outside (houtside : ¬ (a ≤ now ∧ now ≤ b)) :
    admittedIn policy bucket (now :: rest) a b =
      admittedIn policy (bucket.tryTake policy now).1 rest a b := by
  unfold admittedIn
  rw [admitted]
  split
  next taken heq => rw [heq, List.filter_cons_of_neg (by simpa using houtside)]
  next taken seconds heq => rw [heq]

theorem admittedIn_le_tokens (policy : RatePolicy) (a b : Nat) (instants : List Nat) :
    ∀ bucket : TokenBucket, a ≤ bucket.updatedAt →
      (bucket.updatedAt :: instants).Pairwise (· ≤ ·) →
      secondsPerMinute * (tokenUnits * admittedIn policy bucket instants a b) ≤
        secondsPerMinute * bucket.tokens + policy.ratePerMinute * (b - bucket.updatedAt) := by
  induction instants with
  | nil => intro bucket _ _; simp [admittedIn, admitted]
  | cons now rest ih =>
    intro bucket hstart hsorted
    obtain ⟨hfirst, hrest⟩ := List.pairwise_cons.mp hsorted
    have hforward : bucket.updatedAt ≤ now := hfirst now List.mem_cons_self
    by_cases hinside : now ≤ b
    · have htail := ih (bucket.tryTake policy now).1 (by simpa using hstart.trans hforward)
        (by simpa using hrest)
      rw [tryTake_updatedAt] at htail
      have htaken := tryTake_tokens bucket policy now
      have htokens := replenish_tokens_le bucket policy now
      have hearned := replenished_le bucket policy now
      have hsplit : policy.ratePerMinute * (now - bucket.updatedAt) +
          policy.ratePerMinute * (b - now) = policy.ratePerMinute * (b - bucket.updatedAt) := by
        rw [← Nat.mul_add]
        congr 1
        omega
      rw [admittedIn_cons_inside ⟨hstart.trans hforward, hinside⟩]
      simp only [secondsPerMinute] at *
      omega
    · -- the calls after this one are past the window as well
      have hnone : admittedIn policy bucket (now :: rest) a b = 0 := by
        apply admittedIn_eq_zero
        intro instant hmem hwithin
        rcases List.mem_cons.mp hmem with rfl | hlater
        · exact hinside hwithin.2
        · have hbound := (List.pairwise_cons.mp hrest).1 instant hlater
          omega
      rw [hnone]
      omega

theorem admittedIn_le_capacity (policy : RatePolicy) (hwindow : a ≤ b) (instants : List Nat) :
    ∀ bucket : TokenBucket, instants.Pairwise (· ≤ ·) →
      secondsPerMinute * (tokenUnits * admittedIn policy bucket instants a b) ≤
        secondsPerMinute * policy.capacity + policy.ratePerMinute * (b - a) := by
  induction instants with
  | nil => intro bucket _; simp [admittedIn, admitted]
  | cons now rest ih =>
    intro bucket hsorted
    obtain ⟨-, hrest⟩ := List.pairwise_cons.mp hsorted
    by_cases hinside : a ≤ now ∧ now ≤ b
    · -- the first call in the window finds at most a full bucket
      have htail := admittedIn_le_tokens policy a b rest
        (bucket.tryTake policy now).1 (by simpa using hinside.1) (by simpa using hsorted)
      rw [tryTake_updatedAt] at htail
      have htaken := tryTake_tokens bucket policy now
      have hfull := replenish_capacity bucket policy now
      have hshorter : policy.ratePerMinute * (b - now) ≤ policy.ratePerMinute * (b - a) :=
        Nat.mul_le_mul_left _ (by omega)
      rw [admittedIn_cons_inside hinside]
      simp only [secondsPerMinute] at *
      omega
    · rw [admittedIn_cons_outside hinside]
      exact ih _ hrest

/-- In calls whose instants never go back, every window admits at most the burst and what the rate
gives for its length. -/
theorem admittedIn_le_rate (policy : RatePolicy) (first : Nat) (rest : List Nat)
    (hforward : (first :: rest).Pairwise (· ≤ ·)) (a b : Nat) (hwindow : a ≤ b) :
    (admittedIn policy (.full policy first) (first :: rest) a b : ℚ) ≤
      policy.burst + policy.ratePerMinute * (((b : ℚ) - a) / admissionNanosPerSecond)
        / secondsPerMinute := by
  have hunits := admittedIn_le_capacity policy hwindow (first :: rest)
    (.full policy first) hforward
  have hcapacity : policy.capacity ≤ policy.burst * tokenUnits := min_le_left _ _
  have hnat : 60000000000 * admittedIn policy (.full policy first) (first :: rest) a b ≤
      60000000000 * policy.burst + policy.ratePerMinute * (b - a) := by
    simp only [secondsPerMinute, tokenUnits] at hunits hcapacity
    omega
  have hcast : (60000000000 : ℚ) * admittedIn policy (.full policy first) (first :: rest) a b ≤
      60000000000 * policy.burst + policy.ratePerMinute * ((b : ℚ) - a) := by
    rw [← Nat.cast_sub hwindow]
    exact_mod_cast hnat
  simp only [admissionNanosPerSecond, secondsPerMinute]
  push_cast
  linarith

theorem admittedIn_le_rate_twoCalls :
    (admittedIn ⟨60, 1⟩ (.full ⟨60, 1⟩ 0) [0, 1000000000] 0 1000000000 : ℚ) ≤
      ((1 : ℕ) : ℚ) + ((60 : ℕ) : ℚ) * ((((1000000000 : ℕ) : ℚ) - ((0 : ℕ) : ℚ)) /
        admissionNanosPerSecond) / secondsPerMinute :=
  admittedIn_le_rate ⟨60, 1⟩ 0 [1000000000] (by simp) 0 1000000000 (by decide)

/-- A call with an earlier instant sets the bucket back: the second before the window is paid twice. -/
theorem admittedIn_exceeds_rate :
    ¬ ∀ policy : RatePolicy, policy.Configured → ∀ (first : Nat) (rest : List Nat) (a b : Nat), a ≤ b →
      (admittedIn policy (.full policy first) (first :: rest) a b : ℚ) ≤
        policy.burst + policy.ratePerMinute * (((b : ℚ) - a) / admissionNanosPerSecond)
          / secondsPerMinute := by
  intro hbound
  have hcount : admittedIn ⟨60, 1⟩ (.full ⟨60, 1⟩ 1000000000) [1000000000, 0, 1000000000]
      1000000000 1000000000 = 2 := by decide
  have hwindow := hbound ⟨60, 1⟩ ⟨by decide, by decide, by decide, by decide⟩ 1000000000
    [0, 1000000000] 1000000000 1000000000 le_rfl
  rw [hcount] at hwindow
  norm_num at hwindow

/-! ### Trying again -/

inductive Reachable (policy : RatePolicy) : TokenBucket → Prop
  | full (now : Nat) : Reachable policy (.full policy now)
  | tryTake {bucket : TokenBucket} (now : Nat) :
      Reachable policy bucket → Reachable policy (bucket.tryTake policy now).1

theorem Reachable.tokens_le (hreachable : Reachable policy bucket) :
    bucket.tokens ≤ policy.capacity := by
  induction hreachable with
  | full now => exact le_rfl
  | @tryTake bucket now _ _ =>
    have htaken := tryTake_tokens bucket policy now
    have hfull := replenish_capacity bucket policy now
    omega

/-- No operation of a call leaves the range of its numbers. -/
structure NoSaturation (policy : RatePolicy) (bucket : TokenBucket) (now : Nat) : Prop where
  elapsed : (now - bucket.updatedAt) * policy.ratePerMinute ≤ u128Max
  capacity : policy.burst * tokenUnits ≤ u128Max
  tokens : bucket.tokens + bucket.replenished policy now ≤ u128Max
  deficit : (tokenUnits - (bucket.replenish policy now).tokens) * secondsPerMinute ≤ u128Max

theorem Reachable.noSaturation (hpolicy : policy.Configured) (hreachable : Reachable policy bucket)
    (hinterval : now - bucket.updatedAt < 2 ^ 64) : NoSaturation policy bucket now := by
  have hrate := hpolicy.rate_le
  have hburst := hpolicy.burst_le
  have htokens := hreachable.tokens_le
  have hproduct : (now - bucket.updatedAt) * policy.ratePerMinute ≤ 2 ^ 64 * hardMaxRatePerMinute :=
    Nat.mul_le_mul hinterval.le hrate
  have hcapacity : policy.capacity ≤ policy.burst * tokenUnits := min_le_left _ _
  have hreplenished := replenished_le bucket policy now
  rw [Nat.mul_comm policy.ratePerMinute] at hreplenished
  simp only [hardMaxRatePerMinute, hardMaxBurst, tokenUnits, secondsPerMinute] at *
  constructor
  · simp only [u128Max]
    omega
  · simp only [u128Max, tokenUnits]
    omega
  · simp only [u128Max]
    omega
  · simp only [u128Max, tokenUnits, secondsPerMinute]
    omega

def RetryHonest (policy : RatePolicy) (rejected : TokenBucket) (now seconds : Nat) : Prop :=
  ∀ polls : List Nat,
    (∀ poll ∈ polls, now ≤ poll ∧ poll ≤ now + seconds * admissionNanosPerSecond) →
    admitted policy rejected polls = [] →
    ∀ later, now + seconds * admissionNanosPerSecond ≤ later →
      ((after policy rejected polls).tryTake policy later).2 = .ok ()

theorem retryAfter_pos (policy : RatePolicy) (deficit : Nat) : 1 ≤ retryAfter policy deficit := by
  unfold retryAfter
  simp only
  split <;> omega

theorem admitted_cons_eq_nil (hnone : admitted policy bucket (now :: rest) = []) :
    (bucket.replenish policy now).tokens < tokenUnits ∧
      admitted policy (bucket.replenish policy now) rest = [] := by
  by_cases henough : tokenUnits ≤ (bucket.replenish policy now).tokens
  · rw [admitted, tryTake_of_enough henough] at hnone
    cases hnone
  · rw [admitted, tryTake_of_short (Nat.not_le.mp henough)] at hnone
    exact ⟨Nat.not_le.mp henough, hnone⟩

theorem replenish_unit (bucket : TokenBucket) (now : Nat)
    (hrate : secondsPerMinute ≤ policy.ratePerMinute) (hburst : 1 ≤ policy.burst) :
    min (bucket.tokens + (now - bucket.updatedAt)) tokenUnits ≤
      (bucket.replenish policy now).tokens := by
  have hproduct : (now - bucket.updatedAt) * secondsPerMinute ≤
      (now - bucket.updatedAt) * policy.ratePerMinute := Nat.mul_le_mul_left _ hrate
  simp only [replenish, replenished, saturatingMulU128, saturatingAddU128, RatePolicy.capacity, u128Max,
    secondsPerMinute, tokenUnits] at *
  omega

theorem retryHonest_of_rate (hrate : secondsPerMinute ≤ policy.ratePerMinute)
    (hburst : 1 ≤ policy.burst) {seconds : Nat} (hseconds : 1 ≤ seconds)
    (polls : List Nat) (hpolls : ∀ poll ∈ polls, now ≤ poll) :
    ∀ bucket : TokenBucket, bucket.updatedAt - now ≤ bucket.tokens →
      now ≤ bucket.updatedAt → admitted policy bucket polls = [] →
      ∀ later, now + seconds * admissionNanosPerSecond ≤ later →
        ((after policy bucket polls).tryTake policy later).2 = .ok () := by
  induction polls with
  | nil =>
    intro bucket htokens hstart _ later hlater
    rw [tryTake_admitted_iff]
    change tokenUnits ≤ (bucket.replenish policy later).tokens
    have hunit := replenish_unit bucket later hrate hburst
    refine le_trans ?_ hunit
    simp only [admissionNanosPerSecond, tokenUnits] at *
    omega
  | cons poll rest ih =>
    intro bucket htokens hstart hrejected later hlater
    obtain ⟨hpoll, hrest⟩ := List.forall_mem_cons.mp hpolls
    obtain ⟨hshort, hrejected⟩ := admitted_cons_eq_nil hrejected
    have hunit := replenish_unit bucket poll hrate hburst
    have hafter : after policy bucket (poll :: rest) =
        after policy (bucket.replenish policy poll) rest := by
      rw [after, List.foldl_cons, tryTake_of_short hshort]
      rfl
    rw [hafter]
    exact ih hrest (bucket.replenish policy poll)
      (by change poll - now ≤ _; omega) hpoll hrejected later hlater

section

variable (hrate : policy.ratePerMinute < secondsPerMinute)
include hrate

theorem replenish_next (hshort : bucket.tokens < tokenUnits)
    (hfull : bucket.tokens ≤ policy.capacity) : bucket.replenish policy (bucket.updatedAt + 1) =
      { tokens := bucket.tokens, updatedAt := bucket.updatedAt + 1 } := by
  have hnothing : bucket.replenished policy (bucket.updatedAt + 1) = 0 := by
    simp only [replenished, saturatingMulU128, Nat.add_sub_cancel_left, Nat.one_mul]
    exact Nat.div_eq_of_lt ((min_le_left _ _).trans_lt hrate)
  have hkept : saturatingAddU128 bucket.tokens 0 = bucket.tokens := by
    simp only [saturatingAddU128, u128Max, tokenUnits] at *
    omega
  rw [replenish, hnothing, hkept, min_eq_left hfull]

theorem admitted_everyNanosecond (count : Nat) :
    ∀ bucket : TokenBucket, bucket.tokens < tokenUnits → bucket.tokens ≤ policy.capacity →
      admitted policy bucket (List.range' (bucket.updatedAt + 1) count) = [] ∧
        after policy bucket (List.range' (bucket.updatedAt + 1) count) =
          { tokens := bucket.tokens, updatedAt := bucket.updatedAt + count } := by
  induction count with
  | zero => intro bucket _ _; exact ⟨rfl, rfl⟩
  | succ count ih =>
    intro bucket hshort hfull
    have hnext := replenish_next hrate hshort hfull
    have htaken : bucket.tryTake policy (bucket.updatedAt + 1) = _ :=
      tryTake_of_short (by rw [hnext]; exact hshort)
    rw [hnext] at htaken
    obtain ⟨hnone, hafter⟩ := ih { tokens := bucket.tokens, updatedAt := bucket.updatedAt + 1 }
      hshort hfull
    rw [List.range'_succ]
    constructor
    · rw [admitted, htaken]
      exact hnone
    · rw [after, List.foldl_cons, htaken]
      refine hafter.trans ?_
      rw [Nat.add_assoc, Nat.add_comm 1]

theorem not_retryHonest_of_rate (hshort : bucket.tokens < tokenUnits)
    (hfull : bucket.tokens ≤ policy.capacity) {seconds : Nat} (hseconds : 1 ≤ seconds) :
    ¬ RetryHonest policy bucket bucket.updatedAt seconds := by
  intro hhonest
  have hsecond : 1 * admissionNanosPerSecond ≤ seconds * admissionNanosPerSecond :=
    Nat.mul_le_mul_right _ hseconds
  have hpositive : 1 ≤ seconds * admissionNanosPerSecond :=
    le_trans (by decide) hsecond
  obtain ⟨count, hcount⟩ : ∃ count, seconds * admissionNanosPerSecond = count + 1 :=
    ⟨_, (Nat.sub_add_cancel hpositive).symm⟩
  obtain ⟨hnone, hafter⟩ := admitted_everyNanosecond hrate count bucket hshort hfull
  -- the last call comes one nanosecond after the polls, at the announced instant
  have hadmitted := hhonest (List.range' (bucket.updatedAt + 1) count)
    (by intro poll hpoll; rw [List.mem_range'_1] at hpoll; omega) hnone
    (bucket.updatedAt + count + 1) (by omega)
  rw [hafter, tryTake_admitted_iff] at hadmitted
  have hnext : (TokenBucket.mk bucket.tokens (bucket.updatedAt + count)).replenish policy
      (bucket.updatedAt + count + 1) = _ := replenish_next hrate hshort hfull
  rw [hnext] at hadmitted
  exact absurd hadmitted (Nat.not_le.mpr hshort)

end

/-- The seconds of a rejected call can be relied on exactly from sixty tokens a minute on. -/
theorem retryHonest_iff (policy : RatePolicy) (hpolicy : policy.Configured) (bucket : TokenBucket)
    (hreachable : Reachable policy bucket) (now seconds : Nat)
    (hrejected : (bucket.tryTake policy now).2 = .error seconds) :
    (RetryHonest policy (bucket.tryTake policy now).1 now seconds ∧
      ∀ instant, instant - bucket.updatedAt < 2 ^ 64 → NoSaturation policy bucket instant) ↔
      60 ≤ policy.ratePerMinute := by
  have hexact : ∀ instant, instant - bucket.updatedAt < 2 ^ 64 → NoSaturation policy bucket instant :=
    fun instant hinterval => hreachable.noSaturation hpolicy hinterval
  have hshort : (bucket.replenish policy now).tokens < tokenUnits := by
    by_contra henough
    rw [tryTake_of_enough (Nat.not_lt.mp henough)] at hrejected
    cases hrejected
  rw [tryTake_of_short hshort] at hrejected ⊢
  have hretry : retryAfter policy (tokenUnits - (bucket.replenish policy now).tokens) = seconds :=
    Except.error.inj hrejected
  have hseconds : 1 ≤ seconds := hretry ▸ retryAfter_pos policy _
  constructor
  · rintro ⟨hhonest, -⟩
    by_contra hrate
    exact not_retryHonest_of_rate (Nat.not_le.mp hrate) hshort (replenish_capacity bucket policy now)
      hseconds hhonest
  · intro hrate
    refine ⟨?_, hexact⟩
    intro polls hpolls hnone
    exact retryHonest_of_rate hrate hpolicy.burst_pos hseconds polls
      (fun poll hpoll => (hpolls poll hpoll).1) (bucket.replenish policy now)
      (by change now - now ≤ _; omega) le_rfl hnone

theorem retryHonest_iff_emptied :
    (RetryHonest ⟨60, 1⟩ ((TokenBucket.mk 0 0).tryTake ⟨60, 1⟩ 0).1 0 1 ∧
      ∀ instant, instant - 0 < 2 ^ 64 → NoSaturation ⟨60, 1⟩ ⟨0, 0⟩ instant) ↔ 60 ≤ 60 :=
  retryHonest_iff ⟨60, 1⟩ ⟨by decide, by decide, by decide, by decide⟩ ⟨0, 0⟩
    (.tryTake 0 (.full 0)) 0 1 (by decide)

/-- At one token a minute, a single poll after a nanosecond makes the announced minute too short. -/
theorem retry_minute_tooShort :
    ¬ ∀ policy : RatePolicy, policy.Configured → ∀ bucket, Reachable policy bucket →
      ∀ now seconds, (bucket.tryTake policy now).2 = .error seconds →
        RetryHonest policy (bucket.tryTake policy now).1 now seconds := by
  intro hhonest
  have hlater := hhonest ⟨1, 1⟩ ⟨by decide, by decide, by decide, by decide⟩ ⟨0, 0⟩
    (.tryTake 0 (.full 0)) 0 60 (by decide) [1] (by decide) (by decide) 60000000000 (by decide)
  revert hlater
  decide

end TokenBucket

/-! ### The buckets of the controller -/

structure AdmissionRequest where
  principal : String
  mutation : MutationClass
  now : Nat

namespace AdmissionRequest

def key (request : AdmissionRequest) : String × MutationClass :=
  (request.principal, request.mutation)

/-- The requests the controller lets through, in the order in which it decides them. -/
def admittedRequests (policies : AdmissionPolicies) (buckets : Buckets) :
    List AdmissionRequest → List AdmissionRequest
  | [] => []
  | request :: rest =>
    let (buckets, result) :=
      admitPrincipal policies buckets request.principal request.mutation request.now
    match result with
    | .ok () => request :: admittedRequests policies buckets rest
    | .error _ => admittedRequests policies buckets rest

def instantsOf (own : String × MutationClass) (requests : List AdmissionRequest) : List Nat :=
  (requests.filter fun request => request.key = own).map AdmissionRequest.now

theorem instantsOf_admittedRequests (policies : AdmissionPolicies) (own : String × MutationClass)
    (requests : List AdmissionRequest) :
    ∀ buckets : Buckets, instantsOf own (admittedRequests policies buckets requests) =
      TokenBucket.admitted (policies.policy own.2)
        ((buckets own).getD (.full (policies.policy own.2) ((instantsOf own requests).headD 0)))
        (instantsOf own requests) := by
  induction requests with
  | nil => intro buckets; rfl
  | cons request rest ih =>
    intro buckets
    cases htaken : ((buckets request.key).getD (.full (policies.policy request.mutation)
        request.now)).tryTake (policies.policy request.mutation) request.now with
    | mk taken result =>
      have hadmit : admitPrincipal policies buckets request.principal request.mutation request.now =
          (Function.update buckets request.key (some taken),
            result.mapError (AdmissionFailure.limited request.mutation)) := by
        rw [key] at htaken
        rw [admitPrincipal, htaken]
        rfl
      have hnext := ih (Function.update buckets request.key (some taken))
      rw [admittedRequests, hadmit]
      by_cases hkey : request.key = own
      · subst hkey
        rw [Function.update_self, Option.getD_some] at hnext
        have hinstants : instantsOf request.key (request :: rest) =
            request.now :: instantsOf request.key rest := by simp [instantsOf]
        rw [hinstants, List.headD_cons, TokenBucket.admitted]
        simp only [key] at htaken ⊢ hnext
        rw [htaken]
        cases result with
        | ok _ => simpa [instantsOf, key, Except.mapError] using hnext
        | error seconds => exact hnext
      · rw [Function.update_of_ne (Ne.symm hkey)] at hnext
        have hinstants : instantsOf own (request :: rest) = instantsOf own rest := by
          simp [instantsOf, hkey]
        rw [hinstants, ← hnext]
        cases result with
        | ok _ => simp [instantsOf, hkey, Except.mapError]
        | error seconds => rfl

/-- What the others send does not count: the controller admits of a principal in a class what its own
bucket admits, and with it never more than the burst and what the rate gives. -/
theorem admittedRequests_own (policies : AdmissionPolicies) (buckets : Buckets)
    (own : String × MutationClass) (requests : List AdmissionRequest) :
    instantsOf own (admittedRequests policies buckets requests) =
        TokenBucket.admitted (policies.policy own.2)
          ((buckets own).getD (.full (policies.policy own.2) ((instantsOf own requests).headD 0)))
          (instantsOf own requests) ∧
      ((instantsOf own requests).Pairwise (· ≤ ·) → ∀ a b, a ≤ b →
        secondsPerMinute * (tokenUnits *
            ((instantsOf own (admittedRequests policies buckets requests)).filter
              fun instant => a ≤ instant ∧ instant ≤ b).length) ≤
          secondsPerMinute * ((policies.policy own.2).burst * tokenUnits) +
            (policies.policy own.2).ratePerMinute * (b - a)) := by
  have hown := instantsOf_admittedRequests policies own requests buckets
  refine ⟨hown, fun hforward a b hwindow => ?_⟩
  rw [hown]
  refine (TokenBucket.admittedIn_le_capacity _ hwindow _ _ hforward).trans ?_
  exact Nat.add_le_add_right (Nat.mul_le_mul_left _ (min_le_left _ _)) _

end AdmissionRequest

end IronCrew
