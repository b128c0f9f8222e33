import NewApi.Lib.Transition
import NewApi.Lib.Rows
import NewApi.Lib.Ledger
import NewApi.Lib.Hold
import NewApi.Lib.Latch
import NewApi.Lib.ReadCommitted
import NewApi.Common
import NewApi.Calendar
import NewApi.SubscriptionPlan
import NewApi.Subscription
import NewApi.SubscriptionSpec
import NewApi.SubscriptionStore
import NewApi.SubscriptionRefund
import NewApi.SubscriptionGroup
import NewApi.SubscriptionUsage
import NewApi.BillingSession
import NewApi.BillingSessionSpec
import NewApi.BillingOpening
import NewApi.BillingLifecycle
import NewApi.Task
import NewApi.TaskBilling
import NewApi.TaskPolling
import NewApi.TaskPollingSpec
import NewApi.TaskOnce
import NewApi.TaskFailure
import NewApi.TopUp
import NewApi.TopUpLifecycle
import NewApi.TopUpAtomic
import NewApi.TopUpCredit
import NewApi.Redemption
import NewApi.UserQuota
import NewApi.BatchUpdate
import NewApi.OrderLock
import NewApi.Channel
import NewApi.ChannelCache
import NewApi.RelayRetry
import NewApi.ChannelPolling
import NewApi.GroupSettlement
import NewApi.LowBalanceReset
import NewApi.MaintenanceLoops
import NewApi.ClaudeStream
import NewApi.ClaudeEnvelope
import NewApi.Lib.BlockStream
import NewApi.ClaudeBlocks
import NewApi.Lib.Keyed
import NewApi.ClaudeContent
import NewApi.ClaudeResponse
import NewApi.ClaudeBilling
import NewApi.Remix
import NewApi.TextLedgers
import NewApi.StreamScanner
import NewApi.OpenAIStream
import NewApi.Realtime
import NewApi.Midjourney
import NewApi.GeminiStream
import NewApi.ResponsesStream
import NewApi.RateLimit
import NewApi.IpGuard
import NewApi.IpGuardBurst
import NewApi.RedisRateLimit
import NewApi.ChannelStatus
import NewApi.SeparatedText
import NewApi.ChannelUpstream
import NewApi.MultiKey
import NewApi.Abilities
import NewApi.SubscriptionOrders
import NewApi.SubscriptionFulfilment
import NewApi.SubscriptionPurchase
import NewApi.Lib.Chain
import NewApi.ModelMapping
import NewApi.ExprCache
import NewApi.Lib.Glob
import NewApi.HybridCache
import NewApi.ChannelAffinity
import NewApi.TwoFA
import NewApi.Lib.GoJson
import NewApi.Config
import NewApi.Lib.NetAddr
import NewApi.SsrfProtection
import NewApi.Lib.Levels
import NewApi.Lib.WeightedPick
import NewApi.ChannelChoice
import NewApi.ChannelDatabase
import NewApi.Lib.Blocks
import NewApi.AutoGroups
import NewApi.RealtimeBilling
import NewApi.MidjourneyCharge
import NewApi.TieredTokens
import NewApi.TaskSupervision
import NewApi.CivilCalendar
import NewApi.SubscriptionReset
import NewApi.KeySelection
import NewApi.ClaudeUsagePatch
import NewApi.MoveValue
import NewApi.WildcardPaths
import NewApi.WildcardEdit
import NewApi.WildcardDelete
import NewApi.GeminiUsage
import NewApi.TextQuota
import NewApi.RatioParity
import NewApi.PreCharge
import NewApi.ThinkToContent
import NewApi.MarkdownImages
import NewApi.OpenAIToGemini
import NewApi.GeminiSchema
import NewApi.ResponsesToolCalls
import NewApi.ChatToResponses
import NewApi.Lib.RankedSearch
import NewApi.Lib.WireFormat
import NewApi.ToolPrices
import NewApi.FileSource
import NewApi.HashCache
import NewApi.Volcengine
import NewApi.HeifBoxes
