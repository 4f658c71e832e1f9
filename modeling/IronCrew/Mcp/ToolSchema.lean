import IronCrew.Mcp.Manager
import Mathlib.Data.List.Lex
import Mathlib.Data.String.Basic

/-!
# Header plans of MCP tools

A schema may mark properties whose arguments are sent as headers too. Compiling a tool looks at every
place of its input schema that is a schema itself, once to collect the marks and once to take them
out.
-/

namespace IronCrew.Mcp

open Outcome

inductive HeaderPolicyError where
  | missingTool (name : String)
  | invalidSchema (message : String)
  | invalidArgument (path : String)
  | unsafeInteger (path : String)
  | invalidHeader (header : String)
  | concurrentListing
  | noPendingListing
  | mismatchedListing (id : Nat)
  | invalidListingSequence (id : Nat)
  | duplicateTool (id : Nat) (name : String)
  | listingIncomplete (id : Nat)
  | staleListing (id : Nat)
  | refreshSemanticDrift (name : String)

inductive PrimitiveKind where
  | string
  | integer
  | boolean

structure HeaderRule where
  path : List String
  suffix : String
  kind : PrimitiveKind

structure HeaderPlan where
  rules : List HeaderRule

def joinPath (path : List String) : String := ".".intercalate path

/-! ### Places of schemas -/

inductive SchemaChildren where
  | properties
  | map
  | value

def mapKeywords : List String :=
  ["$defs", "definitions", "patternProperties", "dependentSchemas", "dependencies"]

def valueKeywords : List String :=
  ["items", "prefixItems", "contains", "additionalItems", "additionalProperties", "unevaluatedItems",
    "unevaluatedProperties", "propertyNames", "allOf", "anyOf", "oneOf", "not", "if", "then", "else",
    "contentSchema", "extends"]

def schemaChildKind (keyword : String) : Option SchemaChildren :=
  if keyword = "properties" then some .properties
  else if keyword ∈ mapKeywords then some .map
  else if keyword ∈ valueKeywords then some .value
  else none

/-! ### Collecting annotations -/

def isTokenChar (c : Char) : Bool := c.isAlphanum || "!#$%&'*+-.^_`|~".toList.contains c

def isToken (value : String) : Bool := value ≠ "" && value.toList.all isTokenChar

def PrimitiveKind.parse (value : Option Json) (path : String) :
    Except HeaderPolicyError PrimitiveKind :=
  match value.bind Json.asStr with
  | some "string" => .ok .string
  | some "integer" => .ok .integer
  | some "boolean" => .ok .boolean
  | _ =>
    .error (.invalidSchema
      ("property `" ++ path ++ "` must have type string, integer, or boolean"))

structure Inspection where
  seen : List String := []
  rules : List HeaderRule := []

def annotationKey : String := "x-mcp-header"

def inspectAnnotation (path : List String) (reachable : Bool) (schema : List (String × Json))
    (state : Inspection) : Except HeaderPolicyError Inspection :=
  match (Json.object schema).get annotationKey with
  | none => .ok state
  | some raw => do
    let location := joinPath path
    ensure (reachable ∧ path ≠ [])
      (.invalidSchema
        ("annotation at `" ++ location ++ "` is not statically reachable through properties"))
    let suffix ← require (.invalidSchema ("property `" ++ location ++ "` has an invalid header name"))
      (raw.asStr.filter isToken)
    let folded := String.ofList (suffix.toList.map Char.toLower)
    ensure (folded ∉ state.seen) (.invalidSchema ("duplicate header name `" ++ suffix ++ "`"))
    let kind ← PrimitiveKind.parse ((Json.object schema).get "type") location
    return { seen := folded :: state.seen, rules := state.rules ++ [{ path, suffix, kind }] }

mutual

def inspectSchema (path : List String) (reachable : Bool) :
    Json → Inspection → Except HeaderPolicyError Inspection
  | .object schema, state => do
    let state ← inspectAnnotation path reachable schema state
    inspectMembers path reachable schema state
  | _, state => .ok state

def inspectMembers (path : List String) (reachable : Bool) :
    List (String × Json) → Inspection → Except HeaderPolicyError Inspection
  | [], state => .ok state
  | (key, child) :: rest, state => do
    let state ←
      match schemaChildKind key with
      | none => .ok state
      | some kind => inspectChild path reachable kind child state
    inspectMembers path reachable rest state

def inspectChild (path : List String) (reachable : Bool) (kind : SchemaChildren) :
    Json → Inspection → Except HeaderPolicyError Inspection
  | .object members, state =>
    match kind with
    | .properties => inspectProperties path reachable members state
    | .map => inspectMap path members state
    -- a single schema, which is not reached through properties
    | .value => do
      let state ← inspectAnnotation path false members state
      inspectMembers path false members state
  | .array values, state => inspectSchemaValues path values state
  | _, state => .ok state

def inspectProperties (path : List String) (reachable : Bool) :
    List (String × Json) → Inspection → Except HeaderPolicyError Inspection
  | [], state => .ok state
  | (property, schema) :: rest, state => do
    let state ← inspectSchema (path ++ [property]) reachable schema state
    inspectProperties path reachable rest state

def inspectMap (path : List String) :
    List (String × Json) → Inspection → Except HeaderPolicyError Inspection
  | [], state => .ok state
  | (_, schema) :: rest, state => do
    let state ← inspectSchema path false schema state
    inspectMap path rest state

/-- The values of an array, at any depth of arrays. -/
def inspectSchemaValues (path : List String) :
    List Json → Inspection → Except HeaderPolicyError Inspection
  | [], state => .ok state
  | value :: rest, state => do
    let state ← inspectChild path false .value value state
    inspectSchemaValues path rest state

end

/-! ### Taking them out -/

mutual

def stripSchemaAnnotations : Json → Json
  | .object schema => .object (stripMembers schema)
  | value => value

def stripMembers : List (String × Json) → List (String × Json)
  | [] => []
  | (key, child) :: rest =>
    if key = annotationKey then stripMembers rest
    else
      (key,
        match schemaChildKind key with
        | none => child
        | some kind => stripChild kind child) :: stripMembers rest

def stripChild (kind : SchemaChildren) : Json → Json
  | .object members =>
    match kind with
    | .properties => .object (stripMap members)
    | .map => .object (stripMap members)
    | .value => .object (stripMembers members)
  | .array values => .array (stripSchemaValues values)
  | value => value

def stripMap : List (String × Json) → List (String × Json)
  | [] => []
  | (key, schema) :: rest => (key, stripSchemaAnnotations schema) :: stripMap rest

def stripSchemaValues : List Json → List Json
  | [] => []
  | value :: rest => stripChild .value value :: stripSchemaValues rest

end

def compileTool (tool : RmcpTool) : Except HeaderPolicyError (HeaderPlan × List (String × Json)) := do
  let state ← inspectSchema [] true (.object tool.inputSchema) {}
  return ({ rules := state.rules.mergeSort fun left right => left.path ≤ right.path },
    stripMembers tool.inputSchema)

end IronCrew.Mcp
