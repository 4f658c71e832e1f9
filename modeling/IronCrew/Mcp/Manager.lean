import Mathlib.Data.List.AList
import IronCrew.Lib.Json
import IronCrew.Lib.Outcome

/-!
# Names of MCP servers and tools

A tool of a server is known under the label of the server and its own name. The label is checked when
the configuration is read, the composed name when the tool is registered.
-/

namespace IronCrew.Mcp

structure McpError where
  server : String
  message : String

structure RmcpTool where
  name : String
  description : Option String := none
  inputSchema : List (String × Json)
  -- the other fields of the definition
  rest : Json := .null

def isLabelStart (c : Char) : Bool := 'a' ≤ c && c ≤ 'z'

def isLabelChar (c : Char) : Bool := isLabelStart c || c.isDigit || c == '_' || c == '-'

/-- `^[a-z][a-z0-9_-]{0,15}$`. -/
def matchesServerLabel (label : List Char) : Bool :=
  match label with
  | [] => false
  | first :: rest => isLabelStart first && rest.length ≤ 15 && rest.all isLabelChar

def validateServerLabel (label : String) : Except String Unit :=
  if matchesServerLabel label.toList then .ok ()
  else
    .error ("MCP server label '" ++ label ++
      "' is invalid. Must match ^[a-z][a-z0-9_-]\x7b0,15\x7d$")

def composedName (serverLabel rawToolName : String) : String :=
  "mcp__" ++ serverLabel ++ "__" ++ rawToolName

def makeToolName (serverLabel rawToolName : String) : Except String String :=
  let composed := composedName serverLabel rawToolName
  if 64 < composed.utf8ByteSize then
    .error (s!"Composed MCP tool name '{composed}' exceeds 64 characters ({composed.utf8ByteSize})")
  else if composed.toList.all fun c => c.isAlphanum || c == '_' || c == '-' then .ok composed
  else .error (s!"Composed MCP tool name '{composed}' contains unsupported characters")

end IronCrew.Mcp

/-!
## Connecting to MCP servers

All servers of a configuration are connected, then all are asked for their tools, and only then are the
tools put into the registry. The connections are kept in a hash map, so the order in which they are gone
through is any.
-/

namespace IronCrew.Mcp

open Outcome

structure McpServerConfig where
  label : String
  executionIdentityFingerprint : Option String := none

structure McpBridgeTool (κ : Type) where
  ironcrewName : String
  serverToolName : String
  description : String
  parameters : Json
  client : κ
  serverLabel : String
  executionIdentityFingerprint : Option String
  resultMaxBytes : Nat
  maxContentItems : Nat

/-- The limits that are read from the environment for each tool, and the encoder of schemas. -/
structure BridgeEnv where
  maxDescription : Except McpError Nat := .ok (16 * 1024)
  maxSchema : Except McpError Nat := .ok (64 * 1024)
  resultMaxBytes : Except McpError Nat := .ok 262144
  maxContentItems : Except McpError Nat := .ok 256
  schemaBytes : Json → Except String Nat

inductive RegisteredTool (κ τ : Type) where
  | own (tool : τ)
  | bridge (tool : McpBridgeTool κ)

abbrev ToolRegistry (κ τ : Type) := AList fun _ : String => RegisteredTool κ τ

variable {κ τ : Type}

def fromRmcpTool (env : BridgeEnv) (serverLabel : String) (tool : RmcpTool) (client : κ)
    (fingerprint : Option String) : Except McpError (McpBridgeTool κ) := do
  let ironcrewName ← (makeToolName serverLabel tool.name).mapError fun message =>
    { server := serverLabel, message }
  let description := tool.description.getD "(no description)"
  let maxDescription ← env.maxDescription
  ensure (description.utf8ByteSize ≤ maxDescription)
    { server := serverLabel, message := s!"MCP tool description exceeds {maxDescription} bytes" }
  let maxSchema ← env.maxSchema
  let schemaBytes ← (env.schemaBytes (.object tool.inputSchema)).mapError fun error =>
    { server := serverLabel, message := "Failed to encode MCP tool schema: " ++ error }
  ensure (schemaBytes ≤ maxSchema)
    { server := serverLabel, message := s!"MCP tool schema exceeds {maxSchema} bytes" }
  let resultMaxBytes ← env.resultMaxBytes
  let maxContentItems ← env.maxContentItems
  return {
    ironcrewName, serverToolName := tool.name, description, parameters := .object tool.inputSchema, client
    serverLabel, executionIdentityFingerprint := fingerprint, resultMaxBytes, maxContentItems }

namespace ToolRegistry

def register (registry : ToolRegistry κ τ) (tool : McpBridgeTool κ) : ToolRegistry κ τ :=
  registry.insert tool.ironcrewName (.bridge tool)

end ToolRegistry

structure McpServers (κ : Type) where
  connect : McpServerConfig → Except McpError κ
  listAllTools : κ → Except McpError (List RmcpTool)

section Connect

variable (env : BridgeEnv) (servers : McpServers κ)

/-- The connections by label, unless one of them failed. The labels are the keys of one table. -/
def connectClients (config : List McpServerConfig) : Except McpError (List (String × κ)) :=
  config.mapM fun server => do
    let client ← servers.connect server
    return (server.label, client)

def discover (clients : List (String × κ)) : Except McpError (List (String × κ × List RmcpTool)) :=
  clients.mapM fun (label, client) => do
    let tools ← (servers.listAllTools client).mapError fun error => { error with server := label }
    return (label, client, tools)

def bridgeTools (config : List McpServerConfig) (discovered : String × κ × List RmcpTool) :
    List (McpBridgeTool κ) :=
  let (label, client, tools) := discovered
  tools.filterMap fun tool =>
    let fingerprint := (config.find? fun server => server.label = label).bind
      McpServerConfig.executionIdentityFingerprint
    (fromRmcpTool env label tool client fingerprint).toOption

/-- `iterate` is the order in which the map of clients is gone through. -/
def connectAll (iterate : List (String × κ) → List (String × κ)) (config : List McpServerConfig)
    (registry : ToolRegistry κ τ) : Except McpError (ToolRegistry κ τ) := do
  let clients ← connectClients servers config
  let discovered ← discover servers (iterate clients)
  return (discovered.flatMap (bridgeTools env config)).foldl ToolRegistry.register registry

end Connect

end IronCrew.Mcp
