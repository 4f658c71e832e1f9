import IronCrew.Proof.FlowEvents
import IronCrew.Proof.Lifecycle
import IronCrew.Proof.Engine.MessageBus
import IronCrew.Proof.Engine.EventReplay
import IronCrew.Proof.Engine.DurableEvents
import IronCrew.Proof.Engine.Orchestrator
import IronCrew.Proof.Store.Quota
import IronCrew.Proof.Store.Reconcile
import IronCrew.Proof.Engine.WaitStatus
import IronCrew.Proof.Llm.Anthropic
import IronCrew.Proof.Llm.OpenAiResponses
import IronCrew.Proof.Store.ReadBack
import IronCrew.Proof.Lua.Delegation
import IronCrew.Proof.Tools.ProjectFs
import IronCrew.Proof.Finalization
import IronCrew.Proof.ConversationMessage
import IronCrew.Proof.Abort
import IronCrew.Proof.Admission
import IronCrew.Proof.Engine.Executor
import IronCrew.Proof.Store.Postgres.Completion
import IronCrew.Proof.Engine.Foreach
import IronCrew.Proof.Engine.EventBound
import IronCrew.Proof.Engine.PendingBounds
import IronCrew.Proof.Journal.Retry
import IronCrew.Proof.Fingerprint
import IronCrew.Proof.Engine.HumanInput
import IronCrew.Proof.Engine.SqlSplit
import IronCrew.Proof.Engine.ResultBudget
import IronCrew.Proof.UsageMerge
import IronCrew.Proof.Journal.Cursor
import IronCrew.Proof.Utils.EmbeddedAddress
import IronCrew.Proof.Store.FilePaths
import IronCrew.Proof.Engine.MemoryEviction
import IronCrew.Proof.Llm.Accounting
import IronCrew.Proof.Store.RunsSince
import IronCrew.Proof.Store.ConversationJson
import IronCrew.Proof.Lua.DialogPrompt
import IronCrew.Proof.Store.Postgres.AdvisoryLocks
import IronCrew.Proof.Lua.StreamingTurn
import IronCrew.Proof.Tools.DispatchTimeout
import IronCrew.Proof.Llm.AnthropicRequest
import IronCrew.Proof.Utils.LineBuffer
import IronCrew.Proof.Llm.StreamTools
import IronCrew.Proof.Engine.Addressing
import IronCrew.Proof.Mcp.Manager
import IronCrew.Proof.Mcp.ToolHeaders
import IronCrew.Proof.Journal.PruneSummary
import IronCrew.Proof.Engine.BoundedTexts
import IronCrew.Proof.Lua.Limits
import IronCrew.Proof.RunAdmission
import IronCrew.Proof.Lua.Conversation
import IronCrew.Proof.Chat.LuaLiteral
import IronCrew.Proof.Tools.HttpRequest
