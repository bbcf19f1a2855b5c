import InvisibleString.Builds.Records
import InvisibleString.Chat.FrameStore
import InvisibleString.Chat.RunView
import InvisibleString.Chat.Timeline
import InvisibleString.Compiler.Approval
import InvisibleString.Compiler.Canonical
import InvisibleString.Compiler.Codegen
import InvisibleString.Compiler.Compile
import InvisibleString.Compiler.Hash
import InvisibleString.Compiler.Literals
import InvisibleString.Compiler.Manifest
import InvisibleString.Compiler.Passages
import InvisibleString.Compiler.Tree
import InvisibleString.Compiler.Types
import InvisibleString.Connections.Probe
import InvisibleString.Connections.Reach
import InvisibleString.Connections.Siblings
import InvisibleString.Copilot.Agreement
import InvisibleString.Copilot.Builder
import InvisibleString.Copilot.Diff
import InvisibleString.Copilot.Draft
import InvisibleString.Copilot.Session
import InvisibleString.Copilot.Turn
import InvisibleString.Delivery.ThreadKey
import InvisibleString.Dispatch.Admission
import InvisibleString.Lib.Checks
import InvisibleString.Lib.Endless
import InvisibleString.Lib.EventLoop
import InvisibleString.Lib.Fibers
import InvisibleString.Lib.Json
import InvisibleString.Lib.JsonEquality
import InvisibleString.Lib.OrderedMap
import InvisibleString.Lib.Paths
import InvisibleString.Lib.Prototype
import InvisibleString.Lib.Scanner
import InvisibleString.Lib.Signals
import InvisibleString.Lib.Since
import InvisibleString.Lib.SortBy
import InvisibleString.Lib.Spans
import InvisibleString.Lib.Text
import InvisibleString.Lib.Transition
import InvisibleString.Lib.Utf8
import InvisibleString.Logs.Logger
import InvisibleString.Logs.Redaction
import InvisibleString.Net.Forbidden
import InvisibleString.Net.GuardedFetch
import InvisibleString.Net.Literals
import InvisibleString.Oauth.Addressing
import InvisibleString.Oauth.Bearer
import InvisibleString.Oauth.Challenge
import InvisibleString.Oauth.Consent
import InvisibleString.Oauth.Rules
import InvisibleString.Oauth.Secrets
import InvisibleString.Pipeline.Cancellation
import InvisibleString.Pipeline.Config
import InvisibleString.Pipeline.Driver
import InvisibleString.Pipeline.EventLog
import InvisibleString.Pipeline.Heeding
import InvisibleString.Pipeline.History
import InvisibleString.Pipeline.Instances
import InvisibleString.Pipeline.Nesting
import InvisibleString.Pipeline.Plan
import InvisibleString.Pipeline.Refine
import InvisibleString.Pipeline.Resumption
import InvisibleString.Pipeline.Runner
import InvisibleString.Pipeline.Statements
import InvisibleString.Pipeline.StepStore
import InvisibleString.Pipeline.Truncation
import InvisibleString.Pipeline.Walk
import InvisibleString.Runtime.AgentEnv
import InvisibleString.Runtime.Agents
import InvisibleString.Runtime.Bursts
import InvisibleString.Runtime.DispatchTokens
import InvisibleString.Runtime.EnvNames
import InvisibleString.Runtime.Eviction
import InvisibleString.Runtime.Holdings
import InvisibleString.Runtime.Inflight
import InvisibleString.Runtime.Ports
import InvisibleString.Runtime.Registration
import InvisibleString.Runtime.Scheduler
import InvisibleString.Runtime.SessionLock
import InvisibleString.Runtime.Sessions
import InvisibleString.Runtime.Settlement
import InvisibleString.Runtime.Wiring
import InvisibleString.Runtime.Workers
import InvisibleString.Search.RegistryDocs
import InvisibleString.Search.RegistrySync
import InvisibleString.Shared.Conditions
import InvisibleString.Shared.Markdown
import InvisibleString.Shared.Missing
import InvisibleString.Shared.OutputSchema
import InvisibleString.Shared.References
import InvisibleString.Shared.Scope
import InvisibleString.Shared.Template
import InvisibleString.Sse.Follow
import InvisibleString.Sse.Wire
import InvisibleString.Tailer.Cursor
import InvisibleString.Tailer.Events
import InvisibleString.Tailer.ExactlyOnce
import InvisibleString.Tailer.Exit
import InvisibleString.Tailer.Keeps
import InvisibleString.Tailer.Ndjson
import InvisibleString.Tailer.Recovery
import InvisibleString.Tailer.Resume
import InvisibleString.Tailer.Session
import InvisibleString.Tailer.SessionLog
import InvisibleString.Tailer.Store
import InvisibleString.Tailer.Tail
import InvisibleString.Tailer.Turns
import InvisibleString.Tailer.Verdict
import InvisibleString.Triggers.Ingress
import InvisibleString.Triggers.Mirror
import InvisibleString.Triggers.NextFire
import InvisibleString.Triggers.RateLimit
import InvisibleString.Triggers.Ticker
import InvisibleString.Web.Editor
import InvisibleString.Web.Hydrate
import InvisibleString.Web.Lifecycle
import InvisibleString.Web.MessageQueue
