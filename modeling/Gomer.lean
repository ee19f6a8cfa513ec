import Gomer.Lib.Drain
import Gomer.Lib.Trace
import Gomer.Database.Ledger
import Gomer.SuperAdmin.Credits
import Gomer.SuperAdmin.Workspaces
import Gomer.Usage.Atomicity
import Gomer.System.Overdraw
import Gomer.System.Conservation
import Gomer.System.CarryForward
import Gomer.System.Sequential
import Gomer.System.Accounting
import Gomer.System.SpendingOrder
import Gomer.Billing.Webhook
import Gomer.System.TopupRace
import Gomer.System.RenewalRace
import Gomer.Billing.Sync
import Gomer.System.Mirror
import Gomer.System.Resubscription
import Gomer.Lib.Json
import Gomer.Slack.Interactions
import Gomer.Lib.Bcrypt
import Gomer.System.Approvals
import Gomer.Auth.Tokens
import Gomer.System.Rotation
import Gomer.Auth.Domains
import Gomer.Lib.Render
import Gomer.Lib.Tenant
import Gomer.Spaces.Records
import Gomer.Spaces.Spec
import Gomer.Spaces.ClosedSpecs
import Gomer.Spaces.RecordData
import Gomer.Spaces.Seeds
import Gomer.Spaces.SeedReferences
import Gomer.Spaces.Isolation
import Gomer.Integrations.Connections
import Gomer.Integrations.Privacy
import Gomer.Ai.McpBridge
import Gomer.Ai.MetaAdsTools
import Gomer.Ai.Tools
import Gomer.Ai.Run
import Gomer.Ai.Gateway
import Gomer.Ai.Transcript
import Gomer.Ai.Approval
import Gomer.Ai.Metering
import Gomer.Lib.Heap
import Gomer.Lib.Trailing
import Gomer.Ai.Anthropic
import Gomer.Ai.TranscriptCache
import Gomer.Lib.Occurrence
import Gomer.Lib.Orm
import Gomer.Schedules.Services
import Gomer.System.Schedules
import Gomer.Database.SubscriptionCreditModel
import Gomer.System.Migration
import Gomer.Schedules.Exports
import Gomer.System.Destination
import Gomer.System.Resumption
import Gomer.System.Watermark
import Gomer.System.ExportNow
import Gomer.System.Guardrails
import Gomer.Lib.Paging
import Gomer.Lib.Paired
import Gomer.Lib.Polling
import Gomer.System.Slots
import Gomer.Spaces.MagicLinks
import Gomer.System.Redemption
import Gomer.System.Refreshes
import Gomer.System.Administration
import Gomer.Slack.Events
import Gomer.System.CustomerTable
import Gomer.System.Deactivation
import Gomer.Lib.Serial
import Gomer.Lib.StableSort
import Gomer.Usage.Planning
import Gomer.Billing.FanOut
import Gomer.Billing.PaidPeriod
import Gomer.System.Alerts
import Gomer.System.RateLimit
import Gomer.System.Redelivery
import Gomer.System.Trial
import Gomer.Usage.Analytics
import Gomer.Spaces.PageEdits
import Gomer.Spaces.Pages
import Gomer.System.PageState
import Gomer.Ai.Attachment
import Gomer.Slack.Conversations
import Gomer.System.Threads
import Gomer.Lib.RoundRobin
import Gomer.Lib.Rounding
import Gomer.Rules.Scaling
import Gomer.Rules.Coverage
import Gomer.Lib.Calendar
import Gomer.Schedules.Lookback
import Gomer.Usage.Series
import Gomer.Billing.Signature
import Gomer.Lib.Tally
import Gomer.Integrations.Revenue
import Gomer.Lib.Throwing
import Gomer.Lib.Utf8
import Gomer.System.Ticks
import Gomer.Users.InviteBatch
import Gomer.Users.Invites
import Gomer.Lib.Supplied
import Gomer.System.Settings
import Gomer.Lib.FormUrlencoded
import Gomer.System.Logging
import Gomer.Ai.Scope
import Gomer.Lib.JsonText
import Gomer.Ai.GatewayReplies
import Gomer.Lib.TextCache
import Gomer.Ai.ToolListing
import Gomer.Integrations.AppTools
import Gomer.System.MetaHandshake
import Gomer.System.ApprovalTexts
import Gomer.System.SlackWrites
import Gomer.Ai.AnthropicReplies
import Gomer.System.SpaceRuns
import Gomer.System.SheetLog
