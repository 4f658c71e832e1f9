import IronCrew.Lib.Runs
import IronCrew.Mcp.Manager

/-!
# Which server a tool belongs to

The composed name is the label, two underscores and the name of the tool, and both parts may have
underscores of their own. So the name tells the label only if no label goes on where another one ends
in a way that the name of a tool completes. Registration replaces what has the same name; under that
condition, and when no name is taken already, it never does, and its order does not matter.
-/

namespace IronCrew.Mcp

open Outcome

/-! ### Composed names -/

/-- A tool of the server with the shorter label has the name of one with the longer label. -/
def Clash (short long shortTool longTool : String) : Prop :=
  (long = short ++ "_" ∧ shortTool = "_" ++ longTool) ∨
    ∃ rest, long = short ++ "__" ++ rest ∧ shortTool = rest ++ "__" ++ longTool

theorem Clash.composedName_eq {short long shortTool longTool : String}
    (hclash : Clash short long shortTool longTool) :
    composedName short shortTool = composedName long longTool := by
  rcases hclash with ⟨rfl, rfl⟩ | ⟨rest, rfl, rfl⟩
  · simp only [composedName, ← String.toList_inj, String.toList_append, List.append_assoc]
    rfl
  · simp only [composedName, ← String.toList_inj, String.toList_append, List.append_assoc]

theorem clash_of_prefix {tail tool other : List Char} (htail : tail ≠ [])
    (hname : ['_', '_'] ++ tool = tail ++ (['_', '_'] ++ other)) :
    (tail = ['_'] ∧ tool = '_' :: other) ∨
      ∃ rest, tail = ['_', '_'] ++ rest ∧ tool = rest ++ (['_', '_'] ++ other) := by
  match tail, htail with
  | [c], _ =>
    obtain ⟨hc, hrest⟩ := List.cons_eq_cons.mp hname
    obtain ⟨-, htool⟩ := List.cons_eq_cons.mp hrest
    exact .inl ⟨by rw [← hc], htool⟩
  | c :: d :: rest, _ =>
    obtain ⟨hc, hrest⟩ := List.cons_eq_cons.mp hname
    obtain ⟨hd, htool⟩ := List.cons_eq_cons.mp hrest
    exact .inr ⟨rest, by rw [← hc, ← hd]; rfl, htool⟩

theorem composedName_eq_iff {label other tool otherTool : String} :
    composedName label tool = composedName other otherTool ↔
      (label = other ∧ tool = otherTool) ∨ Clash label other tool otherTool ∨
        Clash other label otherTool tool := by
  constructor
  · intro heq
    have hlists : label.toList ++ (['_', '_'] ++ tool.toList) =
        other.toList ++ (['_', '_'] ++ otherTool.toList) := by
      have hchars := congrArg String.toList heq
      simp only [composedName, String.toList_append, List.append_assoc] at hchars
      exact List.append_cancel_left hchars
    have hclash : ∀ {short long shortTool longTool : String} {tail : List Char}, tail ≠ [] →
        long.toList = short.toList ++ tail →
        ['_', '_'] ++ shortTool.toList = tail ++ (['_', '_'] ++ longTool.toList) →
        Clash short long shortTool longTool := by
      intro short long shortTool longTool tail htail hlong hname
      rcases clash_of_prefix htail hname with ⟨rfl, htool⟩ | ⟨rest, rfl, htool⟩
      · exact .inl ⟨String.toList_inj.mp (by simpa using hlong), String.toList_inj.mp (by simpa using htool)⟩
      · refine .inr ⟨String.ofList rest, String.toList_inj.mp ?_, String.toList_inj.mp ?_⟩
        · simpa using hlong
        · simpa using htool
    rcases List.append_eq_append_iff.mp hlists with ⟨tail, hother, hname⟩ | ⟨tail, hlabel, hname⟩
    · by_cases htail : tail = []
      · subst htail
        refine .inl ⟨String.toList_inj.mp (by simpa using hother.symm), String.toList_inj.mp ?_⟩
        simpa using hname
      · exact .inr (.inl (hclash htail hother hname))
    · by_cases htail : tail = []
      · subst htail
        refine .inl ⟨String.toList_inj.mp (by simpa using hlabel), String.toList_inj.mp ?_⟩
        simpa using hname.symm
      · exact .inr (.inr (hclash htail hlabel hname))
  · rintro (⟨rfl, rfl⟩ | hclash | hclash)
    · rfl
    · exact hclash.composedName_eq
    · exact hclash.composedName_eq.symm

theorem makeToolName_eq {serverLabel rawToolName name : String}
    (hname : makeToolName serverLabel rawToolName = .ok name) :
    name = composedName serverLabel rawToolName := by
  unfold makeToolName at hname
  dsimp only at hname
  split at hname
  · cases hname
  · split at hname
    · exact (Except.ok.inj hname).symm
    · cases hname

/-! ### Registration -/

section Registration

variable {κ τ : Type}

theorem fromRmcpTool_name {env : BridgeEnv} {serverLabel : String} {tool : RmcpTool} {client : κ}
    {fingerprint : Option String} {bridge : McpBridgeTool κ}
    (hbridge : fromRmcpTool env serverLabel tool client fingerprint = .ok bridge) :
    bridge.ironcrewName = composedName bridge.serverLabel bridge.serverToolName ∧
      bridge.serverLabel = serverLabel ∧ bridge.serverToolName = tool.name ∧ bridge.client = client := by
  unfold fromRmcpTool at hbridge
  simp only [bind_ok_iff, mapError_ok_iff] at hbridge
  obtain ⟨name, hname, _, -, _, -, _, -, _, -, _, -, _, -, _, -, hreturn⟩ := hbridge
  obtain rfl := Except.ok.inj hreturn
  exact ⟨makeToolName_eq hname, rfl, rfl, rfl⟩

namespace ToolRegistry

variable {tools : List (McpBridgeTool κ)}

theorem lookup_foldl_of_notMem {name : String}
    (hname : ∀ tool ∈ tools, tool.ironcrewName ≠ name) (registry : ToolRegistry κ τ) :
    (tools.foldl register registry).lookup name = registry.lookup name := by
  induction tools generalizing registry with
  | nil => rfl
  | cons tool tools ih =>
    obtain ⟨htool, htools⟩ := List.forall_mem_cons.mp hname
    rw [List.foldl_cons, ih htools, register, AList.lookup_insert_ne htool.symm]

theorem lookup_foldl_of_mem {tool : McpBridgeTool κ} (hmem : tool ∈ tools)
    (hone : ∀ other ∈ tools, other.ironcrewName = tool.ironcrewName → other = tool)
    (registry : ToolRegistry κ τ) :
    (tools.foldl register registry).lookup tool.ironcrewName = some (.bridge tool) := by
  induction tools generalizing registry with
  | nil => cases hmem
  | cons head tools ih =>
    obtain ⟨hhead, htools⟩ := List.forall_mem_cons.mp hone
    rw [List.foldl_cons]
    by_cases hlater : tool ∈ tools
    · exact ih hlater htools _
    · have hfirst : tool = head := by
        rcases List.mem_cons.mp hmem with heq | hrest
        · exact heq
        · exact absurd hrest hlater
      have hnone : ∀ other ∈ tools, other.ironcrewName ≠ tool.ironcrewName := fun other hother heq =>
        hlater (htools other hother heq ▸ hother)
      rw [lookup_foldl_of_notMem hnone, register, hfirst, AList.lookup_insert]

end ToolRegistry

end Registration

/-! ### A whole connection -/

section Connect

variable {κ τ : Type} (env : BridgeEnv) (servers : McpServers κ) (config : List McpServerConfig)

def Answers : Prop :=
  ∀ server ∈ config, ∃ client tools, servers.connect server = .ok client ∧
    servers.listAllTools client = .ok tools

def Registered (bridge : McpBridgeTool κ) : Prop :=
  ∃ server ∈ config, ∃ client tools, servers.connect server = .ok client ∧
    servers.listAllTools client = .ok tools ∧
      ∃ tool ∈ tools, fromRmcpTool env server.label tool client
        server.executionIdentityFingerprint = .ok bridge

/-- Names tell the servers apart, every registered tool is found under its name with the server that
advertised it, no other tool is replaced, and the order of the connections makes no difference. -/
def Identifies (registry : ToolRegistry κ τ) : Prop :=
  (∀ first second, Registered env servers config first → Registered env servers config second →
    (first.serverLabel, first.serverToolName) ≠ (second.serverLabel, second.serverToolName) →
      first.ironcrewName ≠ second.ironcrewName) ∧
  ∀ iterate, (∀ clients, (iterate clients).Perm clients) → ∀ result,
    connectAll env servers iterate config registry = .ok result →
      (∀ bridge, Registered env servers config bridge →
        result.lookup bridge.ironcrewName = some (.bridge bridge)) ∧
      (∀ name tool, registry.lookup name = some tool → result.lookup name = some tool) ∧
      ∀ iterate', (∀ clients, (iterate' clients).Perm clients) → ∀ result',
        connectAll env servers iterate' config registry = .ok result' →
          ∀ name, result'.lookup name = result.lookup name

structure Apart (registry : ToolRegistry κ τ) : Prop where
  noClash : ∀ first second, Registered env servers config first →
    Registered env servers config second →
      ¬ Clash first.serverLabel second.serverLabel first.serverToolName second.serverToolName
  -- a server that lists a name twice lists one tool
  listedOnce : ∀ first second, Registered env servers config first →
    Registered env servers config second → first.serverLabel = second.serverLabel →
      first.serverToolName = second.serverToolName → first = second
  unused : ∀ bridge, Registered env servers config bridge → ∀ tool,
    registry.lookup (composedName bridge.serverLabel bridge.serverToolName) = some tool →
      tool = .bridge bridge

variable {env servers config}

theorem find?_label {server : McpServerConfig} (hdistinct : (config.map McpServerConfig.label).Nodup)
    (hserver : server ∈ config) :
    config.find? (fun other => other.label = server.label) = some server := by
  induction config with
  | nil => cases hserver
  | cons head config ih =>
    rw [List.map_cons, List.nodup_cons] at hdistinct
    rcases List.mem_cons.mp hserver with rfl | hrest
    · exact List.find?_cons_of_pos (decide_eq_true rfl)
    · have hne : ¬ head.label = server.label := fun heq =>
        hdistinct.1 (heq ▸ List.mem_map_of_mem hrest)
      rw [List.find?_cons_of_neg (by simpa using hne), ih hdistinct.2 hrest]

theorem mem_bridgeTools (hdistinct : (config.map McpServerConfig.label).Nodup)
    {server : McpServerConfig} (hserver : server ∈ config) {client : κ} {tools : List RmcpTool}
    {bridge : McpBridgeTool κ} :
    bridge ∈ bridgeTools env config (server.label, client, tools) ↔
      ∃ tool ∈ tools, fromRmcpTool env server.label tool client
        server.executionIdentityFingerprint = .ok bridge := by
  have hfind := find?_label hdistinct hserver
  have hoption : ∀ x : Except McpError (McpBridgeTool κ), x.toOption = some bridge ↔ x = .ok bridge := by
    intro x
    cases x <;> simp [Except.toOption]
  simp only [bridgeTools, List.mem_filterMap, hfind, Option.bind_some, hoption]

theorem connectAll_eq (hanswers : Answers servers config)
    (hdistinct : (config.map McpServerConfig.label).Nodup)
    {iterate : List (String × κ) → List (String × κ)}
    (hiterate : ∀ clients, (iterate clients).Perm clients) (registry : ToolRegistry κ τ) :
    ∃ bridges : List (McpBridgeTool κ), (∀ bridge, bridge ∈ bridges ↔ Registered env servers config bridge) ∧
      connectAll env servers iterate config registry =
        .ok (bridges.foldl ToolRegistry.register registry) := by
  have hconnect : ∀ server ∈ config, ∃ entry, (do
      let client ← servers.connect server
      return (server.label, client) : Except McpError (String × κ)) = .ok entry := by
    intro server hserver
    obtain ⟨client, _, hclient, -⟩ := hanswers server hserver
    exact ⟨(server.label, client), by rw [hclient]; rfl⟩
  obtain ⟨clients, hclients, hmem⟩ := Runs.mapM_ok hconnect
  have hclient : ∀ entry, entry ∈ iterate clients ↔
      ∃ server ∈ config, servers.connect server = .ok entry.2 ∧ server.label = entry.1 := by
    intro entry
    rw [(hiterate clients).mem_iff, hmem]
    refine exists_congr fun server => and_congr_right fun _ => ?_
    rw [bind_ok_iff]
    constructor
    · rintro ⟨client, hconnect, hreturn⟩
      obtain rfl := Except.ok.inj hreturn
      exact ⟨hconnect, rfl⟩
    · rintro ⟨hconnect, hlabel⟩
      exact ⟨entry.2, hconnect, by rw [hlabel]; rfl⟩
  have hlist : ∀ entry ∈ iterate clients, ∃ found, (do
      let tools ← (servers.listAllTools entry.2).mapError fun error => { error with server := entry.1 }
      return (entry.1, entry.2, tools) : Except McpError (String × κ × List RmcpTool)) = .ok found := by
    intro entry hentry
    obtain ⟨server, hserver, hconnect, -⟩ := (hclient entry).mp hentry
    obtain ⟨client, tools, hanswer, htools⟩ := hanswers server hserver
    obtain rfl := Except.ok.inj (hanswer.symm.trans hconnect)
    exact ⟨(entry.1, entry.2, tools), by rw [htools]; rfl⟩
  obtain ⟨discovered, hdiscovered, hfound⟩ := Runs.mapM_ok hlist
  refine ⟨discovered.flatMap (bridgeTools env config), fun bridge => ?_, ?_⟩
  · rw [List.mem_flatMap]
    constructor
    · rintro ⟨found, hmember, hbridge⟩
      obtain ⟨entry, hentry, hread⟩ := (hfound found).mp hmember
      obtain ⟨server, hserver, hconnect, hlabel⟩ := (hclient entry).mp hentry
      rw [bind_ok_iff] at hread
      obtain ⟨tools, htools, hreturn⟩ := hread
      obtain rfl := Except.ok.inj hreturn
      rw [mapError_ok_iff] at htools
      rw [← hlabel, mem_bridgeTools hdistinct hserver] at hbridge
      exact ⟨server, hserver, entry.2, tools, hconnect, htools, hbridge⟩
    · rintro ⟨server, hserver, client, tools, hconnect, htools, hbridge⟩
      refine ⟨(server.label, client, tools), (hfound _).mpr ⟨(server.label, client), ?_, ?_⟩,
        (mem_bridgeTools hdistinct hserver).mpr hbridge⟩
      · exact (hclient _).mpr ⟨server, hserver, hconnect, rfl⟩
      · dsimp only
        rw [htools]
        rfl
  · have hconnected : connectClients servers config = .ok clients := hclients
    have hlisted : discover servers (iterate clients) = .ok discovered := hdiscovered
    simp only [connectAll, hconnected, hlisted, ok_bind]
    rfl

theorem Registered.name {bridge : McpBridgeTool κ} (hbridge : Registered env servers config bridge) :
    bridge.ironcrewName = composedName bridge.serverLabel bridge.serverToolName := by
  obtain ⟨_, _, _, _, _, _, _, _, hmade⟩ := hbridge
  exact (fromRmcpTool_name hmade).1

variable {registry : ToolRegistry κ τ}

theorem Apart.eq_of_name (hapart : Apart env servers config registry) {first second : McpBridgeTool κ}
    (hfirst : Registered env servers config first) (hsecond : Registered env servers config second)
    (hname : first.ironcrewName = second.ironcrewName) : first = second := by
  rw [hfirst.name, hsecond.name, composedName_eq_iff] at hname
  rcases hname with ⟨hlabel, htool⟩ | hclash | hclash
  · exact hapart.listedOnce first second hfirst hsecond hlabel htool
  · exact absurd hclash (hapart.noClash first second hfirst hsecond)
  · exact absurd hclash (hapart.noClash second first hsecond hfirst)

theorem Apart.identifies (hanswers : Answers servers config)
    (hdistinct : (config.map McpServerConfig.label).Nodup)
    (hapart : Apart env servers config registry) : Identifies env servers config registry := by
  refine ⟨fun first second hfirst hsecond hne hname => ?_, fun iterate hiterate result hresult => ?_⟩
  · rw [hapart.eq_of_name hfirst hsecond hname] at hne
    exact hne rfl
  -- whatever the order, a name gives the one tool registered under it, or what was there before
  have hlookup : ∀ {iterate}, (∀ clients, (iterate clients).Perm clients) → ∀ {result},
      connectAll env servers iterate config registry = .ok result →
      (∀ bridge, Registered env servers config bridge →
        result.lookup bridge.ironcrewName = some (.bridge bridge)) ∧
      ∀ name, (∀ bridge, Registered env servers config bridge → bridge.ironcrewName ≠ name) →
        result.lookup name = registry.lookup name := by
    intro iterate hiterate result hresult
    obtain ⟨bridges, hmem, hconnected⟩ := @connectAll_eq κ τ env servers config hanswers hdistinct iterate
      hiterate registry
    obtain rfl := Except.ok.inj (hconnected.symm.trans hresult)
    refine ⟨fun bridge hbridge => ?_, fun name hname => ?_⟩
    · exact ToolRegistry.lookup_foldl_of_mem ((hmem bridge).mpr hbridge)
        (fun other hother heq => hapart.eq_of_name ((hmem other).mp hother) hbridge heq) registry
    · exact ToolRegistry.lookup_foldl_of_notMem
        (fun bridge hbridge => hname bridge ((hmem bridge).mp hbridge)) registry
  obtain ⟨hregistered, hothers⟩ := hlookup hiterate hresult
  refine ⟨hregistered, fun name tool htool => ?_, fun iterate' hiterate' result' hresult' name => ?_⟩
  · by_cases hname : ∃ bridge, Registered env servers config bridge ∧ bridge.ironcrewName = name
    · obtain ⟨bridge, hbridge, rfl⟩ := hname
      have hsame := hapart.unused bridge hbridge tool (by rw [← hbridge.name, htool])
      rw [hregistered bridge hbridge, hsame]
    · rw [hothers name fun bridge hbridge heq => hname ⟨bridge, hbridge, heq⟩, htool]
  · obtain ⟨hregistered', hothers'⟩ := hlookup hiterate' hresult'
    by_cases hname : ∃ bridge, Registered env servers config bridge ∧ bridge.ironcrewName = name
    · obtain ⟨bridge, hbridge, rfl⟩ := hname
      rw [hregistered bridge hbridge, hregistered' bridge hbridge]
    · have hnone : ∀ bridge, Registered env servers config bridge → bridge.ironcrewName ≠ name :=
        fun bridge hbridge heq => hname ⟨bridge, hbridge, heq⟩
      rw [hothers name hnone, hothers' name hnone]

theorem Identifies.apart (hanswers : Answers servers config)
    (hdistinct : (config.map McpServerConfig.label).Nodup)
    (hidentifies : Identifies env servers config registry) : Apart env servers config registry := by
  obtain ⟨hnames, hruns⟩ := hidentifies
  obtain ⟨bridges, -, hconnected⟩ := @connectAll_eq κ τ env servers config hanswers hdistinct _
    (fun clients => List.Perm.refl clients) registry
  obtain ⟨hfound, hkept, -⟩ := hruns _ (fun clients => List.Perm.refl clients) _ hconnected
  refine ⟨fun first second hfirst hsecond hclash => ?_,
    fun first second hfirst hsecond hlabel htool => ?_, fun bridge hbridge tool htool => ?_⟩
  · refine hnames first second hfirst hsecond (fun heq => ?_) ?_
    · have hlabel : first.serverLabel.length = second.serverLabel.length :=
        congrArg String.length (congrArg Prod.fst heq)
      have hone : "_".length = 1 := by decide
      have htwo : "__".length = 2 := by decide
      rcases hclash with ⟨hlong, -⟩ | ⟨rest, hlong, -⟩
      · rw [hlong, String.length_append] at hlabel
        omega
      · rw [hlong, String.length_append, String.length_append] at hlabel
        omega
    · rw [hfirst.name, hsecond.name, hclash.composedName_eq]
  · have hname : first.ironcrewName = second.ironcrewName := by
      rw [hfirst.name, hsecond.name, hlabel, htool]
    have hsame := hfound first hfirst
    rw [hname, hfound second hsecond] at hsame
    exact (RegisteredTool.bridge.inj (Option.some.inj hsame)).symm
  · have hsame := hkept _ tool htool
    rw [← hbridge.name, hfound bridge hbridge] at hsame
    exact (Option.some.inj hsame).symm

/-- The name of a tool identifies its server exactly when no two labels clash, no server lists a name
twice, and no name is taken. -/
theorem identifies_iff (registry : ToolRegistry κ τ) (hanswers : Answers servers config)
    (hdistinct : (config.map McpServerConfig.label).Nodup) :
    Identifies env servers config registry ↔ Apart env servers config registry :=
  ⟨Identifies.apart hanswers hdistinct, Apart.identifies hanswers hdistinct⟩

end Connect

namespace Sample

def env : BridgeEnv := { schemaBytes := fun _ => .ok 2 }

/-- A server with the label `label` lists the tools `tools label`. -/
def servers (tools : String → List RmcpTool) : McpServers String where
  connect server := .ok server.label
  listAllTools label := .ok (tools label)

theorem answers (tools : String → List RmcpTool) (config : List McpServerConfig) :
    Answers (servers tools) config :=
  fun server _ => ⟨server.label, tools server.label, rfl, rfl⟩

def clashing (label : String) : List RmcpTool :=
  if label = "a" then [{ name := "b__c", inputSchema := [] }]
  else [{ name := "c", inputSchema := [] }]

def labels : List McpServerConfig := [{ label := "a" }, { label := "a__b" }]

def bridge (label tool : String) : McpBridgeTool String where
  ironcrewName := composedName label tool
  serverToolName := tool
  description := "(no description)"
  parameters := .object []
  client := label
  serverLabel := label
  executionIdentityFingerprint := none
  resultMaxBytes := 262144
  maxContentItems := 256

end Sample

open Sample in
theorem not_identifies_underscores :
    (∀ server ∈ labels, validateServerLabel server.label = .ok ()) ∧
      ¬ Identifies env (servers clashing) labels (∅ : ToolRegistry String Unit) := by
  refine ⟨by decide, fun hidentifies => ?_⟩
  have hapart := hidentifies.apart (answers clashing labels) (by decide)
  have hfirst : Registered env (servers clashing) labels (bridge "a" "b__c") :=
    ⟨{ label := "a" }, List.mem_cons_self, "a", _, rfl, rfl, _, List.mem_singleton.mpr rfl, rfl⟩
  have hsecond : Registered env (servers clashing) labels (bridge "a__b" "c") :=
    ⟨{ label := "a__b" }, List.mem_cons_of_mem _ List.mem_cons_self, "a__b", _, rfl, rfl, _, List.mem_singleton.mpr rfl, rfl⟩
  exact hapart.noClash _ _ hfirst hsecond (.inr ⟨"b", by decide, by decide⟩)

open Sample in
theorem identifies_iff_clashing :
    Identifies env (servers clashing) labels (∅ : ToolRegistry String Unit) ↔
      Apart env (servers clashing) labels (∅ : ToolRegistry String Unit) :=
  identifies_iff _ (answers clashing labels) (by decide)

end IronCrew.Mcp
