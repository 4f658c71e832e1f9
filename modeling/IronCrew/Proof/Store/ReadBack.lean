import IronCrew.Proof.Store.Deletion

/-!
# Saved conversations are read back

What the writer lets through passes every check of the reader but one: the estimate of the history is
made anew, from the memory that the decoder allocates.
-/

namespace IronCrew

open Checked Outcome

variable {messages : List ChatMessage}

theorem validateChatHistory_of_fits {estimate other : List ChatMessage → Nat}
    {maxMessages maxBytes : Nat} {complete : Bool}
    (hvalid : validateChatHistory estimate messages maxMessages maxBytes complete = .ok ())
    (hfits : other messages ≤ maxBytes) :
    validateChatHistory other messages maxMessages maxBytes complete = .ok () := by
  simp only [validateChatHistory, ensure_bind_ok_iff] at hvalid ⊢
  obtain ⟨hmessages, hbytes, hcount, -, hprotocol⟩ := hvalid
  exact ⟨hmessages, hbytes, hcount, hfits, hprotocol⟩

theorem length_le_of_validateChatHistory {estimate : List ChatMessage → Nat}
    {maxMessages maxBytes : Nat} {complete : Bool}
    (hvalid : validateChatHistory estimate messages maxMessages maxBytes complete = .ok ()) :
    messages.length ≤ hardStoredConversationMessages := by
  obtain ⟨hmessages, hvalid⟩ := ensure_bind_ok_iff.mp hvalid
  obtain ⟨_, hvalid⟩ := ensure_bind_ok_iff.mp hvalid
  obtain ⟨hcount, _⟩ := ensure_bind_ok_iff.mp hvalid
  unfold hardStoredConversationMessages
  omega

theorem historyMaxBytes_le_of_validate [Platform] {execution : ConversationExecution}
    (hvalid : execution.validate = .ok ()) :
    execution.historyMaxBytes ≤ hardChatHistoryMaxBytes := by
  obtain ⟨_, hvalid⟩ := ensure_bind_ok_iff.mp hvalid
  obtain ⟨incarnation, _, hvalid⟩ := bind_ok_iff.mp hvalid
  obtain ⟨_, hvalid⟩ := ensure_bind_ok_iff.mp hvalid
  obtain ⟨_, hvalid⟩ := unit_bind_ok_iff.mp hvalid
  obtain ⟨_, hvalid⟩ := unit_bind_ok_iff.mp hvalid
  exact (ensure_ok_iff.mp hvalid).2.2.2

namespace HeldConversation

theorem outline_copyWith (number : JsonNumber → JsonNumber) (record : HeldConversation) :
    (record.copyWith number).outline = record.outline := by
  have hmessages (message : HeldMessage) : (message.copyWith number).outline = message.outline :=
    message.outline_copyWith number
  simp [copyWith, outline, Function.comp_def, hmessages]

variable [Platform] {sizes : Sizes} {record held : HeldConversation}

theorem validateAfterDecode_of_validateForWrite (hwrite : record.validateForWrite sizes = .ok ())
    (hsame : held.outline = { record.outline with revision := held.revision })
    (hfits : chatHistoryEstimatedBytes sizes held.messages ≤ record.execution.historyMaxBytes) :
    held.validateAfterDecode sizes = .ok () := by
  obtain ⟨husage, hwrite⟩ := unit_bind_ok_iff.mp hwrite
  obtain ⟨hid, hwrite⟩ := unit_bind_ok_iff.mp hwrite
  obtain ⟨hmetadata, hwrite⟩ := unit_bind_ok_iff.mp hwrite
  obtain ⟨hexecution, hhistory⟩ := unit_bind_ok_iff.mp hwrite
  have hheldUsage : held.usage = record.usage := congrArg ConversationRecord.usage hsame
  have hheldId : held.id = record.id := congrArg ConversationRecord.id hsame
  have hheldExecution : held.execution = record.execution :=
    congrArg ConversationRecord.execution hsame
  have hheldMessages : held.outline.messages = record.outline.messages := by rw [hsame]
  have hvalid := mapError_ok_iff.mp hhistory
  have hcount : held.messages.length ≤ hardStoredConversationMessages := by
    calc held.messages.length = held.outline.messages.length := by simp [outline]
      _ ≤ hardStoredConversationMessages := by
        rw [hheldMessages]
        exact length_le_of_validateChatHistory hvalid
  have hhard := historyMaxBytes_le_of_validate hexecution
  have hheldHistory : held.validateHistory sizes = .ok () := by
    unfold validateHistory
    rw [hheldMessages, hheldExecution]
    exact mapError_ok_iff.mpr (validateChatHistory_of_fits hvalid hfits)
  refine unit_bind_ok_iff.mpr ⟨by rw [hheldUsage]; exact husage, ?_⟩
  refine unit_bind_ok_iff.mpr ⟨by rw [hheldId]; exact hid, ?_⟩
  refine unit_bind_ok_iff.mpr ⟨by rw [hsame]; exact hmetadata, ?_⟩
  refine ensure_bind_ok_iff.mpr ⟨hcount, ensure_bind_ok_iff.mpr ⟨by omega, ?_⟩⟩
  rw [hheldExecution, hexecution]
  exact hheldHistory

end HeldConversation

namespace TextStore

variable [Platform] {store : TextStore} {writer reader : ConversationCodec}
  {texts texts' : ConversationTexts} {active : Except IronCrewError Bool}
  {record held : HeldConversation} {n : Nat}

theorem saveConversation_eq_ok (hsave : store.saveConversation writer texts active record =
    .ok (n, texts')) :
    record.validateForWrite store.sizes = .ok () ∧
      ∃ text, text = writer.toWriterPretty (record.copy.withRevision n) ∧
        text.utf8ByteSize ≤ store.recordMaxBytes ∧
        ConversationJson.preflightConversationRecordJson text = .ok () ∧
        texts' = texts.insert (conversationKey record.flowPath record.id) (.ok text) := by
  obtain ⟨_, hwrite, hsave⟩ := bind_ok_iff.mp hsave
  obtain ⟨busy, _, hsave⟩ := bind_ok_iff.mp hsave
  cases busy with
  | true => cases hsave
  | false =>
    obtain ⟨current, _, hsave⟩ := bind_ok_iff.mp hsave
    obtain ⟨_, hsave⟩ := ensure_bind_ok_iff.mp hsave
    obtain ⟨next, _, hsave⟩ := bind_ok_iff.mp hsave
    obtain ⟨written, hwritten, hsave⟩ := bind_ok_iff.mp hsave
    obtain ⟨rfl, rfl⟩ := Prod.mk.inj (Except.ok.inj hsave)
    obtain ⟨text, htext, hwritten⟩ := bind_ok_iff.mp hwritten
    obtain ⟨hsize, htext⟩ := ensure_bind_ok_iff.mp htext
    obtain rfl := Except.ok.inj htext
    obtain ⟨_, hpreflight, hwritten⟩ := bind_ok_iff.mp hwritten
    exact ⟨hwrite, _, rfl, hsize, hpreflight, (Except.ok.inj hwritten).symm⟩

theorem read_of_saveConversation {number : JsonNumber → JsonNumber}
    (hsave : store.saveConversation writer texts active record = .ok (n, texts'))
    (hdecode : reader.fromStr (writer.toWriterPretty (record.copy.withRevision n)) = .ok held)
    (hround : held.copy = (record.copyWith number).withRevision n)
    (hfits : chatHistoryEstimatedBytes store.sizes held.messages ≤
      record.execution.historyMaxBytes) (id : String) :
    ∃ text, texts'.lookup (conversationKey record.flowPath record.id) = some (.ok text) ∧
      store.readJsonRecord texts' (conversationKey record.flowPath record.id) = .ok text ∧
      store.decodeRecord reader id text = .ok held := by
  obtain ⟨hwrite, text, rfl, hsize, hpreflight, rfl⟩ := saveConversation_eq_ok hsave
  have hlookup := AList.lookup_insert texts (a := conversationKey record.flowPath record.id)
    (b := Except.ok (writer.toWriterPretty (record.copy.withRevision n)))
  have hsame : held.outline = { record.outline with revision := held.revision } := by
    have hrevision : held.revision = n := congrArg HeldConversation.revision hround
    calc held.outline = held.copy.outline := (held.outline_copyWith _).symm
      _ = { (record.copyWith number).outline with revision := n } := by rw [hround]; rfl
      _ = { record.outline with revision := held.revision } := by
        rw [record.outline_copyWith, hrevision]
  have hvalid := HeldConversation.validateAfterDecode_of_validateForWrite hwrite hsame hfits
  refine ⟨_, hlookup, ?_, ?_⟩
  · unfold readJsonRecord
    rw [hlookup]
    exact ensure_bind_ok_iff.mpr ⟨hsize, rfl⟩
  · refine unit_bind_ok_iff.mpr ⟨hpreflight, bind_ok_iff.mpr ⟨held, ?_, ?_⟩⟩
    · rw [hdecode]
      rfl
    · exact unit_bind_ok_iff.mpr ⟨hvalid, rfl⟩

def recordOf (store : TextStore) (codec : ConversationCodec) (texts : ConversationTexts)
    (id : String) (key : Option String × String) : Option HeldConversation :=
  (store.readRecordForWalk codec texts key).filter (·.id = id)

/-- The answer of a walk over more files than the limit. -/
def scanExceeded (store : TextStore) : IronCrewError :=
  .validation ("JSON store scan exceeds IRONCREW_JSON_STORE_MAX_SCAN_ENTRIES (" ++
    toString store.scanMaxEntries ++ "); use PostgreSQL for larger stores")

theorem walkConversationRecords_first (id : String) (keys : List (Option String × String))
    (scanned : Nat) (found : Option HeldConversation) (hscanned : scanned ≤ store.scanMaxEntries) :
    store.walkConversationRecords reader texts (fun found record =>
        if found.isNone && record.id = id then some record else found) scanned found keys =
      if store.scanMaxEntries < scanned + keys.length then .error store.scanExceeded
      else .ok (found.or (keys.findSome? (store.recordOf reader texts id))) := by
  induction keys generalizing scanned found with
  | nil =>
    rw [if_neg (by simpa using hscanned)]
    simp [walkConversationRecords]
  | cons key keys ih =>
    rw [walkConversationRecords, JsonFileStore.consumeScanEntry]
    by_cases hlimit : scanned < store.scanMaxEntries
    · have hlength : scanned + 1 + keys.length = scanned + (key :: keys).length := by
        rw [List.length_cons]
        omega
      rw [ensure_of hlimit]
      dsimp only [bind, Except.bind]
      rw [ih (scanned + 1) _ hlimit, hlength]
      refine congrArg (ite _ _) (congrArg Except.ok ?_)
      rw [List.findSome?_cons, recordOf]
      cases store.readRecordForWalk reader texts key with
      | none => rfl
      | some record =>
        by_cases hid : record.id = id <;> cases found <;> simp [Option.filter, hid]
    · rw [ensure, if_neg hlimit, if_pos (by rw [List.length_cons]; omega)]
      rfl

theorem saveConversation_new {text : String} (hwrite : record.validateForWrite store.sizes = .ok ())
    (hmissing : texts.lookup (conversationKey record.flowPath record.id) = none)
    (hrevision : record.revision = 0)
    (htext : writer.toWriterPretty (record.copy.withRevision 1) = text)
    (hsize : text.utf8ByteSize ≤ store.recordMaxBytes)
    (hpreflight : ConversationJson.preflightConversationRecordJson text = .ok ()) :
    store.saveConversation writer texts (.ok false) record =
      .ok (1, texts.insert (conversationKey record.flowPath record.id) (.ok text)) := by
  have hload : store.loadConversationFile writer texts
      (conversationKey record.flowPath record.id) record.id = .ok none := by
    rw [loadConversationFile, hmissing]
    rfl
  have hcurrent : record.outline.isCurrent (Option.map HeldConversation.outline none) :=
    decide_eq_true hrevision
  refine unit_bind_ok_iff.mpr ⟨hwrite, bind_ok_iff.mpr ⟨false, rfl, ?_⟩⟩
  refine bind_ok_iff.mpr ⟨none, hload, ensure_bind_ok_iff.mpr ⟨hcurrent, ?_⟩⟩
  refine bind_ok_iff.mpr ⟨1, by rw [hrevision]; rfl, bind_ok_iff.mpr ⟨_, ?_, rfl⟩⟩
  refine bind_ok_iff.mpr ⟨text, ?_, unit_bind_ok_iff.mpr ⟨hpreflight, rfl⟩⟩
  rw [serializeJsonRecord, htext]
  exact ensure_bind_ok_iff.mpr ⟨hsize, rfl⟩

end TextStore

/-- Whenever the decoded history fits its own limit: a record of a flow is read back with the new
revision, and a lookup without a flow, which searches every flow, returns the first readable record of
the id, among which is the one written. -/
theorem savedConversation_reads_back [Platform] {store : TextStore} {writer reader : ConversationCodec}
    {texts texts' : ConversationTexts} {active : Except IronCrewError Bool}
    {record held : HeldConversation} {n : Nat} {number : JsonNumber → JsonNumber}
    (hsave : store.saveConversation writer texts active record = .ok (n, texts'))
    (hdecode : reader.fromStr (writer.toWriterPretty (record.copy.withRevision n)) = .ok held)
    (hround : held.copy = (record.copyWith number).withRevision n)
    (hfits : chatHistoryEstimatedBytes store.sizes held.messages ≤
      record.execution.historyMaxBytes) :
    (∀ order, record.flowPath.isSome → ∃ got,
      store.getConversation reader texts' order record.flowPath record.id = .ok (some got) ∧
        got.copy = (record.copyWith number).withRevision n) ∧
    (∀ order, record.flowPath = none →
      if store.scanMaxEntries < texts'.keys.length then
        store.getConversation reader texts' order none record.id = .error store.scanExceeded
      else
        ∃ got, store.getConversation reader texts' order none record.id = .ok (some got) ∧
          (arrangeFiles order texts'.keys).findSome? (store.recordOf reader texts' record.id) =
            some got ∧
          ((∀ key ∈ texts'.keys, key ≠ TextStore.conversationKey none record.id →
              store.recordOf reader texts' record.id key = none) →
            got.copy = (record.copyWith number).withRevision n)) := by
  obtain ⟨hwrite, _⟩ := TextStore.saveConversation_eq_ok hsave
  obtain ⟨_, hwrite⟩ := unit_bind_ok_iff.mp hwrite
  have hid : validateSessionId record.id = .ok () := (unit_bind_ok_iff.mp hwrite).1
  have hfields : held.flowPath = record.flowPath ∧ held.id = record.id :=
    ⟨congrArg (·.flowPath) hround, congrArg (·.id) hround⟩
  obtain ⟨text, hlookup, hread, hrecord⟩ :=
    TextStore.read_of_saveConversation hsave hdecode hround hfits record.id
  constructor
  · intro order hflow
    obtain ⟨flow, hflow⟩ := Option.isSome_iff_exists.mp hflow
    rw [hflow] at hlookup hread hfields ⊢
    have hload : store.loadConversationFile reader texts'
        (TextStore.conversationKey (some flow) record.id) record.id = .ok (some held) := by
      rw [TextStore.loadConversationFile, hlookup]
      exact bind_ok_iff.mpr ⟨text, hread, bind_ok_iff.mpr ⟨held, hrecord, rfl⟩⟩
    refine ⟨held, unit_bind_ok_iff.mpr ⟨hid, bind_ok_iff.mpr ⟨some held, hload, ?_⟩⟩, hround⟩
    rw [Option.filter_some, if_pos (by simpa using hfields.1)]
    rfl
  · intro order hflow
    rw [hflow] at hlookup hread
    have hown : store.recordOf reader texts' record.id
        (TextStore.conversationKey none record.id) = some held := by
      rw [TextStore.recordOf, TextStore.readRecordForWalk, hread]
      dsimp only
      rw [show (TextStore.conversationKey none record.id).2 = record.id from rfl, hrecord,
        Except.toOption, Option.filter_some, if_pos (by simpa using hfields.2)]
    have hkeys := arrangeFiles_perm order texts'.keys
    have hmem : TextStore.conversationKey none record.id ∈ texts'.keys := by
      rw [← AList.mem_keys, ← AList.lookup_isSome, hlookup]
      rfl
    have hget : store.getConversation reader texts' order none record.id =
        if store.scanMaxEntries < texts'.keys.length then .error store.scanExceeded
        else .ok ((arrangeFiles order texts'.keys).findSome?
          (store.recordOf reader texts' record.id)) := by
      rw [TextStore.getConversation, hid]
      exact (TextStore.walkConversationRecords_first record.id _ 0 none (Nat.zero_le _)).trans
        (by rw [Nat.zero_add, hkeys.length_eq, Option.none_or])
    rw [hget]
    by_cases hlimit : store.scanMaxEntries < texts'.keys.length
    · rw [if_pos hlimit, if_pos hlimit]
    · rw [if_neg hlimit, if_neg hlimit]
      cases hfirst : (arrangeFiles order texts'.keys).findSome?
          (store.recordOf reader texts' record.id) with
      | none =>
        have hnone := List.findSome?_eq_none_iff.mp hfirst _ (hkeys.mem_iff.mpr hmem)
        rw [hown] at hnone
        cases hnone
      | some got =>
        refine ⟨got, rfl, rfl, fun hothers => ?_⟩
        obtain ⟨key, hkey, hgot⟩ := List.exists_of_findSome?_eq_some hfirst
        by_cases hkeyOwn : key = TextStore.conversationKey none record.id
        · rw [hkeyOwn, hown] at hgot
          rw [← Option.some.inj hgot, hround]
        · rw [hothers key (hkeys.mem_iff.mp hkey) hkeyOwn] at hgot
          cases hgot

/-! ### A conversation with one tool call -/

namespace Sample

def transcript (spare : Nat) : List HeldMessage :=
  [{ role := ⟨"system", 0⟩, content := some ⟨"You are an analyst.", 0⟩ },
    { role := ⟨"user", 0⟩, content := some ⟨"Look it up.", 0⟩ },
    { role := ⟨"assistant", 0⟩
      content := none
      toolCalls := some ⟨[⟨⟨"call-1", 0⟩, ⟨"function", 0⟩, ⟨"search", 0⟩, ⟨"\x7b\x7d", 0⟩⟩], spare⟩ },
    { role := ⟨"tool", 0⟩, content := some ⟨"none", 0⟩, toolCallId := some ⟨"call-1", 0⟩ }]

def heldConversation (flowPath : Option String) (historyMaxBytes spare revision : Nat) :
    HeldConversation :=
  { usage := {}
    id := "chat-1"
    flowName := "Research"
    flowPath
    agentName := "analyst"
    execution := { conversation.execution with historyMaxBytes }
    messages := transcript spare
    createdAt := "2026-07-19T12:00:00+00:00"
    updatedAt := "2026-07-19T12:00:00+00:00"
    revision }

def zeroCount (name : String) : List String :=
  ["      \"" ++ name ++ "\": \x7b\n        \"known\": \"0\",\n",
    "        \"complete\": true\n      \x7d"]

/-- The printed form of that conversation at revision 1, one piece after the other. -/
def document (flowPath : Option String) (historyMaxBytes : Nat) : List String :=
  ["\x7b\n  \"usage\": \x7b\n    \"budget\": \x7b\n      \"state\": \"disabled\",\n",
    "      \"limit\": null,\n      \"charged\": \"0\",\n",
    "      \"retained\": \"0\",\n      \"reserved\": \"0\",\n",
    "      \"in_flight\": \"0\"\n    \x7d,\n    \"settled\": \x7b\n",
    "      \"requests\": \"0\",\n      \"coverage\": \"complete\",\n"] ++
  (["prompt_tokens", "completion_tokens", "total_tokens", "cached_tokens",
    "cache_write_tokens"].flatMap fun name => zeroCount name ++ [",\n"]) ++
  zeroCount "reasoning_tokens" ++
  ["\n    \x7d,\n    \"in_flight\": \"0\",\n    \"coverage\": \"complete\"\n  \x7d,\n",
    "  \"id\": \"chat-1\",\n  \"flow_name\": \"Research\",\n"] ++
  (flowPath.map fun flow => "  \"flow_path\": \"" ++ flow ++ "\",\n").toList ++
  ["  \"agent_name\": \"analyst\",\n  \"execution\": \x7b\n",
    "    \"schema_version\": 1,\n",
    "    \"incarnation_id\": \"0190cafe-0000-7000-8000-000000000001\",\n",
    "    \"source_fingerprint\": \"sha256:11111111111111111111111111",
    "11111111111111111111111111111111111111\",\n",
    "    \"definition_fingerprint\": \"sha256:2222222222222222222222",
    "222222222222222222222222222222222222222222\",\n",
    "    \"max_history\": 100,\n    \"history_max_bytes\": "] ++
  [toString historyMaxBytes] ++
  ["\n  \x7d,\n  \"messages\": [\n    \x7b\n      \"role\": \"system\",\n",
    "      \"content\": \"You are an analyst.\"\n    \x7d,\n    \x7b\n",
    "      \"role\": \"user\",\n      \"content\": \"Look it up.\"\n    \x7d,\n",
    "    \x7b\n      \"role\": \"assistant\",\n      \"content\": null,\n",
    "      \"tool_calls\": [\n        \x7b\n          \"id\": \"call-1\",\n",
    "          \"type\": \"function\",\n          \"function\": \x7b\n",
    "            \"name\": \"search\",\n            \"arguments\": \"\x7b\x7d\"\n",
    "          \x7d\n        \x7d\n      ]\n    \x7d,\n    \x7b\n",
    "      \"role\": \"tool\",\n      \"content\": \"none\",\n",
    "      \"tool_call_id\": \"call-1\"\n    \x7d\n  ],\n",
    "  \"created_at\": \"2026-07-19T12:00:00+00:00\",\n",
    "  \"updated_at\": \"2026-07-19T12:00:00+00:00\",\n  \"revision\": 1\n\x7d"]

@[irreducible]
def text (flowPath : Option String) (historyMaxBytes : Nat) : String :=
  String.join (document flowPath historyMaxBytes)

/-- The record behind a text: the texts of the samples are told apart by their lengths. A vector that
is filled one by one has room for four. -/
def decodeLength : Nat → Except String HeldConversation
  | 1896 => .ok (heldConversation (some "research") 781 3 1)
  | 1897 => .ok (heldConversation (some "research") 1069 3 1)
  | 1870 => .ok (heldConversation none 1069 3 1)
  | _ => .error "expected value at line 1 column 1"

def codec : ConversationCodec where
  toWriterPretty record := text record.flowPath record.execution.historyMaxBytes
  fromStr text := decodeLength text.utf8ByteSize

def textStore : TextStore :=
  { store "pod-1" with
    conversationsDir := "/data/.ironcrew/conversations"
    recordMaxBytes := 16777216
    sizes := ⟨24, 24, 144, 96, 48, 32, 24⟩ }

def utf8Bytes (text : String) : List UInt8 := text.toUTF8.data.toList

theorem utf8Bytes_join (parts : List String) :
    utf8Bytes (String.join parts) = parts.flatMap utf8Bytes := by
  induction parts with
  | nil => rfl
  | cons first parts ih =>
    rw [String.join_cons, List.flatMap_cons, ← ih]
    simp [utf8Bytes]

structure Printed (flowPath : Option String) (historyMaxBytes length : Nat) : Prop where
  size : (text flowPath historyMaxBytes).utf8ByteSize = length
  preflight : ConversationJson.preflightConversationRecordJson (text flowPath historyMaxBytes) = .ok ()

theorem Printed.of_pieces {flowPath : Option String} {historyMaxBytes length : Nat}
    (hlength : length ≤ ConversationJson.hardStoredConversationMessagesBytes)
    (hpieces : (document flowPath historyMaxBytes).flatMap utf8Bytes |> fun bytes =>
      bytes.length = length ∧ ConversationJson.parseDocument "record" .object
        (.stored ConversationJson.hardStoredConversationMessagesBytes) bytes = .ok ()) :
    Printed flowPath historyMaxBytes length := by
  obtain ⟨hbytes, hparse⟩ := hpieces
  rw [← utf8Bytes_join, ← text] at hbytes hparse
  exact ⟨hbytes, ensure_bind_ok_iff.mpr ⟨hbytes.trans_le hlength, hparse⟩⟩

theorem printed_tight : Printed (some "research") 781 1896 :=
  Printed.of_pieces (by decide) (by decide +kernel)

theorem printed_roomy : Printed (some "research") 1069 1897 :=
  Printed.of_pieces (by decide) (by decide +kernel)

theorem printed_flat : Printed none 1069 1870 :=
  Printed.of_pieces (by decide) (by decide +kernel)

def stored (flowPath : Option String) (historyMaxBytes : Nat) (texts : ConversationTexts) :
    ConversationTexts :=
  letI := platform
  texts.insert (TextStore.conversationKey flowPath "chat-1")
    (.ok (text flowPath historyMaxBytes))

section

variable {flowPath : Option String} {historyMaxBytes length : Nat}

theorem save_stored {texts : ConversationTexts}
    (hwrite : letI := platform
      (heldConversation flowPath historyMaxBytes 0 0).validateForWrite textStore.sizes = .ok ())
    (hmissing : letI := platform
      texts.lookup (TextStore.conversationKey flowPath "chat-1") = none)
    (hprinted : Printed flowPath historyMaxBytes length) (hlength : length ≤ 16777216) :
    letI := platform
    textStore.saveConversation codec texts (.ok false)
        (heldConversation flowPath historyMaxBytes 0 0) =
      .ok (1, stored flowPath historyMaxBytes texts) :=
  letI := platform
  TextStore.saveConversation_new hwrite hmissing rfl rfl
    (hprinted.size.trans_le hlength) hprinted.preflight

theorem decodeRecord_text {held : HeldConversation}
    (hprinted : Printed flowPath historyMaxBytes length) (hdecode : decodeLength length = .ok held)
    (id : String) : letI := platform
    textStore.decodeRecord codec id (text flowPath historyMaxBytes) =
      (held.validateAfterDecode textStore.sizes >>= fun _ => .ok held) := by
  let _ := platform
  have hfromStr : codec.fromStr (text flowPath historyMaxBytes) = .ok held :=
    (congrArg decodeLength hprinted.size).trans hdecode
  rw [TextStore.decodeRecord, hprinted.preflight, hfromStr]
  rfl

theorem readJsonRecord_text {texts : ConversationTexts} {key : Option String × String}
    (hprinted : Printed flowPath historyMaxBytes length) (hlength : length ≤ 16777216)
    (hlookup : texts.lookup key = some (.ok (text flowPath historyMaxBytes))) :
    textStore.readJsonRecord texts key = .ok (text flowPath historyMaxBytes) := by
  rw [TextStore.readJsonRecord, hlookup]
  exact ensure_bind_ok_iff.mpr ⟨hprinted.size.trans_le hlength, rfl⟩

end

end Sample

/-- With room for the vector that the decoder allocates, the conversation is read back. -/
theorem savedConversation_reads_back_roomy :
    letI := Sample.platform
    ∃ texts', Sample.textStore.saveConversation Sample.codec ∅ (.ok false)
        (Sample.heldConversation (some "research") 1069 0 0) = .ok (1, texts') ∧
      ∃ got, Sample.textStore.getConversation Sample.codec texts' [] (some "research") "chat-1" =
          .ok (some got) ∧
        got.copy = (Sample.heldConversation (some "research") 1069 0 0).copy.withRevision 1 := by
  let _ := Sample.platform
  have hsave : Sample.textStore.saveConversation Sample.codec ∅ (.ok false)
      (Sample.heldConversation (some "research") 1069 0 0) =
        .ok (1, Sample.stored (some "research") 1069 ∅) :=
    Sample.save_stored (by decide +kernel) (AList.lookup_empty _) Sample.printed_roomy (by decide)
  have hdecode : Sample.codec.fromStr (Sample.codec.toWriterPretty
      ((Sample.heldConversation (some "research") 1069 0 0).copy.withRevision 1)) =
        .ok (Sample.heldConversation (some "research") 1069 3 1) := by
    exact congrArg Sample.decodeLength Sample.printed_roomy.size
  have hfits : chatHistoryEstimatedBytes Sample.textStore.sizes
      (Sample.heldConversation (some "research") 1069 3 1).messages ≤ 1069 := by decide +kernel
  have hround : (Sample.heldConversation (some "research") 1069 3 1).copy =
      ((Sample.heldConversation (some "research") 1069 0 0).copyWith fun number => number).withRevision
        1 := rfl
  have hback := savedConversation_reads_back hsave hdecode hround hfits
  exact ⟨_, hsave, hback.1 [] rfl⟩

/-- A conversation at its own byte limit is written, and its file is rejected when it is read; and a
conversation without a flow is not found behind one of a flow. -/
theorem savedConversation_not_read_back :
    letI := Sample.platform
    (∃ texts', Sample.textStore.saveConversation Sample.codec ∅ (.ok false)
        (Sample.heldConversation (some "research") 781 0 0) = .ok (1, texts') ∧
      ∃ error, Sample.textStore.getConversation Sample.codec texts' [] (some "research") "chat-1" =
        .error error) ∧
    ∃ texts', Sample.textStore.saveConversation Sample.codec
        (Sample.stored (some "research") 1069 ∅) (.ok false)
        (Sample.heldConversation none 1069 0 0) = .ok (1, texts') ∧
      ∃ got, Sample.textStore.getConversation Sample.codec texts' ["research/chat-1"] none "chat-1" =
          .ok (some got) ∧ got.flowPath = some "research" := by
  let _ := Sample.platform
  constructor
  · refine ⟨_, Sample.save_stored (by decide +kernel) (AList.lookup_empty _) Sample.printed_tight
      (by decide), ?_⟩
    have hlookup : AList.lookup (TextStore.conversationKey (some "research") "chat-1")
        (Sample.stored (some "research") 781 ∅) = some (.ok (Sample.text (some "research") 781)) :=
      AList.lookup_insert _
    have hinvalid : ∃ error, (Sample.heldConversation (some "research") 781 3 1).validateAfterDecode
        Sample.textStore.sizes = .error error := ⟨_, rfl⟩
    obtain ⟨error, hinvalid⟩ := hinvalid
    refine ⟨error, ?_⟩
    have hload : Sample.textStore.loadConversationFile Sample.codec
        (Sample.stored (some "research") 781 ∅)
        (TextStore.conversationKey (some "research") "chat-1") "chat-1" = .error error := by
      rw [TextStore.loadConversationFile, hlookup,
        Sample.readJsonRecord_text Sample.printed_tight (by decide) hlookup]
      dsimp only [bind, Except.bind]
      rw [Sample.decodeRecord_text Sample.printed_tight rfl, hinvalid]
      rfl
    have hid : validateSessionId "chat-1" = .ok () := by decide
    rw [TextStore.getConversation, hid]
    dsimp only [bind, Except.bind]
    rw [hload]
  · refine ⟨_, Sample.save_stored (by decide +kernel) (by decide +kernel) Sample.printed_flat
      (by decide), ?_⟩
    have hid : validateSessionId "chat-1" = .ok () := by decide
    have hother : TextStore.conversationKey (some "research") "chat-1" ≠
        TextStore.conversationKey none "chat-1" := by simp [TextStore.conversationKey]
    have hlookup : AList.lookup (TextStore.conversationKey (some "research") "chat-1")
        (Sample.stored none 1069 (Sample.stored (some "research") 1069 ∅)) =
          some (.ok (Sample.text (some "research") 1069)) :=
      (AList.lookup_insert_ne hother).trans (AList.lookup_insert _)
    have hfirst : Sample.textStore.recordOf Sample.codec
        (Sample.stored none 1069 (Sample.stored (some "research") 1069 ∅)) "chat-1"
        (TextStore.conversationKey (some "research") "chat-1") =
          some (Sample.heldConversation (some "research") 1069 3 1) := by
      have hvalid : (Sample.heldConversation (some "research") 1069 3 1).validateAfterDecode
          Sample.textStore.sizes = .ok () := by decide +kernel
      rw [TextStore.recordOf, TextStore.readRecordForWalk,
        Sample.readJsonRecord_text Sample.printed_roomy (by decide) hlookup]
      dsimp only
      rw [Sample.decodeRecord_text Sample.printed_roomy rfl, hvalid]
      rfl
    have hkeys : arrangeFiles ["research/chat-1"]
        (Sample.stored none 1069 (Sample.stored (some "research") 1069 ∅)).keys =
          [TextStore.conversationKey (some "research") "chat-1",
            TextStore.conversationKey none "chat-1"] := by decide +kernel
    refine ⟨Sample.heldConversation (some "research") 1069 3 1, ?_, rfl⟩
    rw [TextStore.getConversation, hid, hkeys]
    refine (TextStore.walkConversationRecords_first "chat-1" _ 0 none (Nat.zero_le _)).trans ?_
    rw [if_neg (by decide), List.findSome?_cons, hfirst]
    rfl

end IronCrew
