import IronCrew.Mcp.ToolSchema

/-!
# The registry of header plans

The plans in use are replaced by a listing of the tools as a whole. A listing is a transaction: it is
begun, its pages are staged as they come, and after the last page it is validated and committed. A
transaction that is not committed takes its pages with it.
-/

namespace IronCrew.Mcp

open Outcome

structure CachedTool where
  originalSchema : List (String × Json)
  semanticDefinition : Json
  plan : HeaderPlan

abbrev CachedTools := AList fun _ : String => CachedTool

structure PendingListing where
  id : Nat
  baseGeneration : Nat
  tools : CachedTools := ∅
  pages : Nat := 0
  terminal : Bool := false

structure RegistryState where
  generation : Nat := 0
  nextId : Nat := 0
  active : CachedTools := ∅
  pending : Option PendingListing := none

structure ListToolsResult where
  tools : List RmcpTool
  nextCursor : Option String := none

/-- `wrapping_add(1).max(1)` on 64 bits. -/
def nextCount (count : Nat) : Nat := max ((count + 1) % 2 ^ 64) 1

structure CompiledTool where
  name : String
  cached : CachedTool
  sanitized : RmcpTool

section Listing

-- `serde_json::to_value` of a tool
variable (toValue : RmcpTool → Except String Json)

def cacheTool (tool : RmcpTool) (plan : HeaderPlan) (schema : List (String × Json)) :
    Except HeaderPolicyError CompiledTool := do
  let sanitized := { tool with inputSchema := schema }
  let semanticDefinition ← (toValue sanitized).mapError fun error =>
    .invalidSchema ("tool definition: " ++ error)
  return {
    name := tool.name, sanitized
    cached := { originalSchema := tool.inputSchema, semanticDefinition, plan } }

/-- The tools of a page that compile; `names` holds the names of those so far. The others are left
out with a warning. -/
def compilePage (pending : PendingListing) :
    List String → List RmcpTool → Except HeaderPolicyError (List CompiledTool)
  | _, [] => .ok []
  | names, tool :: tools =>
    match compileTool tool with
    | .error _ => compilePage pending names tools
    | .ok (plan, schema) => do
      ensure (tool.name ∉ pending.tools ∧ tool.name ∉ names) (.duplicateTool pending.id tool.name)
      let compiled ← cacheTool toValue tool plan schema
      let rest ← compilePage pending (tool.name :: names) tools
      return compiled :: rest

def insertTools (tools : CachedTools) (compiled : List CompiledTool) : CachedTools :=
  compiled.foldl (fun tools tool => tools.insert tool.name tool.cached) tools

namespace PendingListing

def stagePage (pending : PendingListing) (cursor : Option String) (result : ListToolsResult) :
    PendingListing × ListToolsResult × Except HeaderPolicyError Bool :=
  if pending.terminal ∨ (pending.pages = 0) ≠ (cursor = none) then
    (pending, result, .error (.invalidListingSequence pending.id))
  else
    match compilePage toValue pending [] result.tools with
    | .error error => (pending, result, .error error)
    | .ok compiled =>
      let terminal := result.nextCursor.isNone
      ({ pending with
          tools := insertTools pending.tools compiled, pages := pending.pages + 1, terminal },
        { result with tools := compiled.map CompiledTool.sanitized },
        .ok terminal)

end PendingListing

end Listing

def sortedNames (tools : CachedTools) : List String :=
  tools.keys.mergeSort fun name other => name ≤ other

def unchanged (active pending : CachedTools) (name : String) : Bool :=
  match active.lookup name, pending.lookup name with
  | some tool, some staged =>
    Json.equal JsonNumber.equal staged.semanticDefinition tool.semanticDefinition
  | _, _ => false

def ensureSameSemantics (active pending : CachedTools) : Except HeaderPolicyError Unit :=
  match (sortedNames active).find? fun name => !unchanged active pending name with
  | some name => .error (.refreshSemanticDrift name)
  | none =>
    if active.keys.length = pending.keys.length then .ok ()
    else
      let name := (sortedNames pending).find? fun name => name ∉ active
      .error (.refreshSemanticDrift (name.getD "<tool-set>"))

namespace RegistryState

def beginListing (state : RegistryState) : Except HeaderPolicyError (RegistryState × Nat) :=
  match state.pending with
  | some _ => .error .concurrentListing
  | none =>
    let id := nextCount state.nextId
    .ok ({ state with
      nextId := id, pending := some { id, baseGeneration := state.generation } }, id)

def matchingPending (state : RegistryState) (id : Nat) : Except HeaderPolicyError PendingListing :=
  require (.mismatchedListing id) (state.pending.filter fun pending => pending.id = id)

def stagePage (toValue : RmcpTool → Except String Json) (state : RegistryState)
    (expected : Option Nat) (cursor : Option String) (result : ListToolsResult) :
    RegistryState × ListToolsResult × Except HeaderPolicyError Bool :=
  match state.pending, expected with
  | none, _ => (state, result, .error .noPendingListing)
  | some pending, expected =>
    if expected.any fun id => id ≠ pending.id then
      (state, result, .error (.mismatchedListing (expected.getD 0)))
    else
      let (pending, result, terminal) := pending.stagePage toValue cursor result
      ({ state with pending := some pending }, result, terminal)

def intoValidated (state : RegistryState) (id : Nat) : Except HeaderPolicyError Unit := do
  let pending ← state.matchingPending id
  ensure pending.terminal (.listingIncomplete id)

def finish (state : RegistryState) (id : Nat) (refresh : Bool) :
    Except HeaderPolicyError (RegistryState × Nat) := do
  let pending ← state.matchingPending id
  ensure (pending.baseGeneration = state.generation) (.staleListing id)
  if refresh then ensureSameSemantics state.active pending.tools
  let generation := nextCount state.generation
  return ({ state with generation, active := pending.tools, pending := none }, generation)

def dropListing (state : RegistryState) (id : Nat) : RegistryState :=
  match state.pending with
  | some pending => if pending.id = id then { state with pending := none } else state
  | none => state

end RegistryState

/-! ### Transactions -/

/-- A transaction that is held by some client. -/
structure Listing where
  id : Nat
  validated : Bool
  deriving DecidableEq

/-- The registry with the transactions on it, and the pages staged since the last one was begun. -/
structure Listings where
  registry : RegistryState := {}
  held : List Listing := []
  staged : List ListToolsResult := []

inductive ListingOp where
  | begin
  | stage (expected : Option Nat) (cursor : Option String) (result : ListToolsResult)
  | restore (id : Nat) (tools : List RmcpTool)
  | validate (id : Nat)
  | commit (id : Nat) (refresh : Bool)
  | drop (id : Nat)

namespace Listings

/-- The end of a transaction that is not committed. -/
def abandon (listings : Listings) (id : Nat) : Listings :=
  { listings with
    registry := listings.registry.dropListing id
    held := listings.held.filter fun listing => listing.id ≠ id }

/-- One operation. Those on a transaction need the transaction: before it is validated for validation and
restoring, after it for committing. -/
def step (toValue : RmcpTool → Except String Json) (listings : Listings) : ListingOp → Listings
  | .begin =>
    match listings.registry.beginListing with
    | .error _ => listings
    | .ok (registry, id) =>
      { registry, held := listings.held ++ [{ id, validated := false }], staged := [] }
  | .stage expected cursor result =>
    match listings.registry.stagePage toValue expected cursor result with
    | (registry, _, .error _) => { listings with registry }
    | (registry, _, .ok _) => { listings with registry, staged := listings.staged ++ [result] }
  | .restore _ _ => listings
  | .validate id =>
    if { id, validated := false } ∈ listings.held then
      match listings.registry.intoValidated id with
      | .error _ => listings.abandon id
      | .ok _ =>
        { listings with
          held := listings.held.map fun listing =>
            if listing.id = id then { listing with validated := true } else listing }
    else listings
  | .commit id refresh =>
    if { id, validated := true } ∈ listings.held then
      match listings.registry.finish id refresh with
      | .error _ => listings.abandon id
      | .ok (registry, _) =>
        { listings with registry, held := listings.held.filter fun listing => listing.id ≠ id }
    else listings
  | .drop id => if listings.held.any fun listing => listing.id = id then listings.abandon id else listings

end Listings

end IronCrew.Mcp
