import Mathlib.Data.Fin.VecNotation
import Mathlib.Data.List.FinRange
import IronCrew.Lib.Checked
import IronCrew.Lib.Json

/-!
# Usage receipts

One provider attempt reports up to six counts. Contradictory counts are discarded on construction
and the receipt is then never complete; a receipt carries the proof that its coverage is the one its
counts justify, so a complete receipt always has a known total.
-/

namespace IronCrew

open Checked

inductive UsageCoverage where
  | complete
  | partially
  | unavailable
  deriving DecidableEq

/-- Normalized counts. `none` means unknown, not zero. -/
structure UsageCounts where
  promptTokens : Option Nat := none
  completionTokens : Option Nat := none
  totalTokens : Option Nat := none
  cachedTokens : Option Nat := none
  cacheWriteTokens : Option Nat := none
  reasoningTokens : Option Nat := none
  deriving DecidableEq

namespace UsageCounts

/-- A total below one of its two parts is dropped. -/
def dropSmallTotal (counts : UsageCounts) : UsageCounts × Bool :=
  match counts.totalTokens with
  | some total =>
    if counts.promptTokens.any (total < ·) || counts.completionTokens.any (total < ·) then
      ({ counts with totalTokens := none }, false)
    else (counts, true)
  | none => (counts, true)

/-- A total that is not the sum of both known parts is dropped. -/
def dropWrongTotal (counts : UsageCounts) : UsageCounts × Bool :=
  match counts.promptTokens, counts.completionTokens, counts.totalTokens with
  | some input, some output, some total =>
    if checkedAdd input output ≠ some total then ({ counts with totalTokens := none }, false)
    else (counts, true)
  | _, _, _ => (counts, true)

def boundDetail (detail parent : Option Nat) : Option Nat × Bool :=
  match detail, parent with
  | some value, some limit => if limit < value then (none, false) else (detail, true)
  | _, _ => (detail, true)

def boundDetails (counts : UsageCounts) : UsageCounts × Bool :=
  let cached := boundDetail counts.cachedTokens counts.promptTokens
  let cacheWrite := boundDetail counts.cacheWriteTokens counts.promptTokens
  let reasoning := boundDetail counts.reasoningTokens counts.completionTokens
  ({ counts with
      cachedTokens := cached.1
      cacheWriteTokens := cacheWrite.1
      reasoningTokens := reasoning.1 },
    cached.2 && cacheWrite.2 && reasoning.2)

def dropCacheOverrun (counts : UsageCounts) : UsageCounts × Bool :=
  match counts.cachedTokens, counts.cacheWriteTokens, counts.promptTokens with
  | some read, some write, some input =>
    if (checkedAdd read write).all (input < ·) then
      ({ counts with cachedTokens := none, cacheWriteTokens := none }, false)
    else (counts, true)
  | _, _, _ => (counts, true)

def normalize (counts : UsageCounts) : UsageCounts × Bool :=
  let small := counts.dropSmallTotal
  let wrong := small.1.dropWrongTotal
  let details := wrong.1.boundDetails
  let cache := details.1.dropCacheOverrun
  (cache.1, small.2 && wrong.2 && details.2 && cache.2)

def anyKnown (counts : UsageCounts) : Bool :=
  counts.promptTokens.isSome || counts.completionTokens.isSome || counts.totalTokens.isSome ||
    counts.cachedTokens.isSome || counts.cacheWriteTokens.isSome || counts.reasoningTokens.isSome

def coverage (counts : UsageCounts) (finalReceipt : Bool) : UsageCoverage :=
  if finalReceipt && counts.promptTokens.isSome && counts.completionTokens.isSome &&
      counts.totalTokens.isSome then
    .complete
  else if counts.anyKnown then .partially
  else .unavailable

end UsageCounts

/-- One provider attempt's latest cumulative receipt. -/
structure UsageReceipt where
  counts : UsageCounts
  finalReceipt : Bool
  coverage : UsageCoverage
  coverage_eq : coverage = counts.coverage finalReceipt
  deriving DecidableEq

namespace UsageReceipt

def fromCounts (counts : UsageCounts) (finalReceipt : Bool) : UsageReceipt where
  counts := counts.normalize.1
  finalReceipt := counts.normalize.2 && finalReceipt
  coverage := counts.normalize.1.coverage (counts.normalize.2 && finalReceipt)
  coverage_eq := rfl

def default : UsageReceipt := fromCounts {} false

instance : Inhabited UsageReceipt := ⟨default⟩

theorem totalTokens_isSome_of_complete (receipt : UsageReceipt)
    (hcomplete : receipt.coverage = .complete) : ∃ total, receipt.counts.totalTokens = some total := by
  have hcoverage := receipt.coverage_eq
  rw [hcomplete, UsageCounts.coverage] at hcoverage
  split at hcoverage
  · rename_i hall
    simp only [Bool.and_eq_true] at hall
    exact Option.isSome_iff_exists.mp hall.2
  · split at hcoverage <;> cases hcoverage

end UsageReceipt

end IronCrew

/-!
## Usage as the providers report it

The `usage` objects of one request are assembled into six counts: input, output, total, cached, cache
write and reasoning. Updates are cumulative, so that a later count replaces an earlier one.
-/

namespace IronCrew

open Checked

inductive ProviderUsage where
  | openAiChat
  | openAiResponses
  | anthropic
  deriving DecidableEq

def ProviderUsage.paths : ProviderUsage → Fin 6 → List String
  | openAiChat =>
    ![["prompt_tokens"],
      ["completion_tokens"],
      ["total_tokens"],
      ["prompt_tokens_details", "cached_tokens"],
      ["prompt_tokens_details", "cache_write_tokens"],
      ["completion_tokens_details", "reasoning_tokens"]]
  | openAiResponses =>
    ![["input_tokens"],
      ["output_tokens"],
      ["total_tokens"],
      ["input_tokens_details", "cached_tokens"],
      ["input_tokens_details", "cache_write_tokens"],
      ["output_tokens_details", "reasoning_tokens"]]
  | anthropic =>
    ![["input_tokens"],
      ["output_tokens"],
      ["total_tokens"],
      ["cache_read_input_tokens"],
      ["cache_creation_input_tokens"],
      ["output_tokens_details", "thinking_tokens"]]

structure StreamUsage where
  provider : ProviderUsage
  fields : Fin 6 → Option Nat
  tainted : Bool

namespace StreamUsage

def new (provider : ProviderUsage) : StreamUsage :=
  { provider, fields := fun _ => none, tainted := false }

/-- `as_u64`. A number beyond 64 bits is read as a float. -/
def count (value : Json) : Except Unit Nat :=
  match value.asU64 with
  | some count => if count < u64Bound then .ok count else .error ()
  | none => .error ()

def field (value : Json) : List String → Option (Except Unit Nat)
  | [] => some (count value)
  | key :: path =>
    match value with
    | .object members => ((Json.object members).get key).bind fun value => field value path
    | _ => some (.error ())

instance neZeroSix : NeZero 6 := ⟨by decide⟩

def updateField (usage : Json) (state : StreamUsage) (index : Fin 6) : StreamUsage :=
  -- Anthropic reports no total
  if index = 2 ∧ state.provider = .anthropic then state
  else
    match field usage (state.provider.paths index) with
    | none => state
    | some (.ok count) =>
      if (state.fields index).all (· ≤ count) then
        { state with fields := Function.update state.fields index (some count) }
      else { state with tainted := true }
    | some (.error ()) => { state with tainted := true }

/-- Null carries no update, and a decrease or a malformed count erases nothing. -/
def update (state : StreamUsage) (usage : Json) : StreamUsage :=
  match usage with
  | .null => state
  | .object members => (List.finRange 6).foldl (updateField (.object members)) state
  | _ => { state with tainted := true }

def sumKnown (values : List (Option Nat)) : Option Nat :=
  (values.reduceOption.foldlM
    (fun (known : Option Nat) value => (checkedAdd (known.getD 0) value).map some) none).join

def assemble (provider : ProviderUsage) (fields : Fin 6 → Option Nat) : UsageCounts × Bool :=
  let counts : UsageCounts :=
    { promptTokens := fields 0
      completionTokens := fields 1
      totalTokens := fields 2
      cachedTokens := fields 3
      cacheWriteTokens := fields 4
      reasoningTokens := fields 5 }
  if provider = .anthropic then
    let inputFields := [fields 0, fields 3, fields 4]
    let input := sumKnown inputFields
    let inputOverflow := input.isNone && inputFields.any Option.isSome
    let total := if inputOverflow then none else sumKnown [input, fields 1]
    ({ counts with promptTokens := input, totalTokens := total },
      [fields 0, fields 1, fields 3, fields 4].all Option.isSome && input.isSome && total.isSome)
  else (counts, true)

def snapshot (state : StreamUsage) (finalReceipt : Bool) : UsageReceipt :=
  let (counts, reported) := assemble state.provider state.fields
  UsageReceipt.fromCounts counts (finalReceipt && (!state.tainted && reported))

end StreamUsage

end IronCrew
