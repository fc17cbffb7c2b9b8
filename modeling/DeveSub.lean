import DeveSub.Lib.Text
import DeveSub.Lib.Fallible
import DeveSub.Lib.Json
import DeveSub.Lib.JsonText
import DeveSub.Lib.IpAddr
import DeveSub.Lib.UriText
import DeveSub.Lib.Percent
import DeveSub.Lib.Base64
import DeveSub.Lib.F64
import DeveSub.Lib.YamlScalar
import DeveSub.Lib.YamlBlock
import DeveSub.Lib.YamlJson
import DeveSub.Lib.Ulid
import DeveSub.Lib.Database
import DeveSub.Lib.Program
import DeveSub.Domain.Node
import DeveSub.Domain.Source
import DeveSub.Compatibility.CheckNode
import DeveSub.Protocol.Common
import DeveSub.Protocol.Uri
import DeveSub.Protocol.Url
import DeveSub.Protocol.Container
import DeveSub.Protocol.Mihomo
import DeveSub.Protocol.SingBox
import DeveSub.Emitter.Common
import DeveSub.Emitter.Uri
import DeveSub.Emitter.Mihomo
import DeveSub.Emitter.SingBox
import DeveSub.Emitter.V2Ray
import DeveSub.Emitter.Profile
import DeveSub.Compatibility.Profiles
import DeveSub.Domain.Template
import DeveSub.Storage.Schema
import DeveSub.Storage.GenerationCache
import DeveSub.Storage.Sources
import DeveSub.Storage.RefreshJobs
import DeveSub.Storage.NodePool
import DeveSub.Storage.Reconcile
import DeveSub.Storage.NodeOverrides
import DeveSub.Application.Ports
import DeveSub.Application.PoolEvolution
import DeveSub.Application.Selection
import DeveSub.Application.Pipeline
import DeveSub.Application.Generation
import DeveSub.Application.System
import DeveSub.Properties.WithdrawalFloor
import DeveSub.Properties.CacheCoherence
import DeveSub.Properties.Recency
import DeveSub.Properties.EmittedJson
import DeveSub.Properties.EmittedUri
import DeveSub.Properties.UriQuery
import DeveSub.Properties.UriTransport
import DeveSub.Properties.UriDefaults
import DeveSub.Properties.UriRoundTrip
import DeveSub.Properties.UriShadowsocks
import DeveSub.Properties.UriVmess
import DeveSub.Properties.SingBoxRows
import DeveSub.Properties.MihomoRows
import DeveSub.Properties.WireGuard
import DeveSub.Properties.MihomoTls
import DeveSub.Properties.MihomoLayout
import DeveSub.Properties.MihomoYaml
import DeveSub.Domain.Identity
import DeveSub.Storage.Identity
import DeveSub.Application.TwoFactor
import DeveSub.Properties.Enrollment
import DeveSub.Properties.TotpReplay
import DeveSub.Properties.RecoveryUse
import DeveSub.Application.Refresh
import DeveSub.Application.RefreshSteps
import DeveSub.Properties.RefreshLease
import DeveSub.Security.Ssrf
import DeveSub.Properties.SsrfTransition
import DeveSub.Adapters.HttpFetcher
import DeveSub.Properties.FetchPinning
import DeveSub.Properties.EditedRefresh
import DeveSub.Lib.Aggregate
import DeveSub.Domain.Subscription
import DeveSub.Storage.Traffic
import DeveSub.Properties.TrafficProjections
import DeveSub.Properties.TrafficSummaries
import DeveSub.Domain.Probe
import DeveSub.Adapters.ProbePanel
import DeveSub.Storage.Probe
import DeveSub.Application.Probe
import DeveSub.Properties.ProbeDeltas
import DeveSub.Properties.AddressTexts
import DeveSub.Properties.UriSecrets
import DeveSub.Storage.Identities
import DeveSub.Storage.EntryLoop
import DeveSub.Storage.ImportLoop
import DeveSub.Application.PoolRows
import DeveSub.Properties.PoolInvariant
import DeveSub.Properties.Reconciliation
import DeveSub.Properties.Imports
import DeveSub.Lib.CycleSearch
import DeveSub.Domain.NodeChain
import DeveSub.Properties.NodeChains
import DeveSub.Lib.Stateful
import DeveSub.Yaml.Parser
import DeveSub.Lib.CycleRecursion
import DeveSub.Domain.Graph
import DeveSub.Lib.Elimination
import DeveSub.Domain.TemplateChain
import DeveSub.Application.ClashRules
import DeveSub.Application.Clash
import DeveSub.Properties.GroupCycles
import DeveSub.Lib.Labels
import DeveSub.Application.ClashMembership
import DeveSub.Properties.NodeNames
import DeveSub.Properties.GroupMembers
import DeveSub.Properties.QualifiedNames
import DeveSub.Properties.RuleExpressions
import DeveSub.Properties.ClosedJobs
import DeveSub.Properties.PanelSamples
import DeveSub.Properties.Bandwidths
import DeveSub.Properties.StoredHosts
import DeveSub.Properties.QuotedScalars
import DeveSub.Lib.Calendar
import DeveSub.Lib.SortedMap
import DeveSub.Application.TrafficHistory
import DeveSub.Properties.TrafficHistory
import DeveSub.Properties.PoolListing
import DeveSub.Properties.OneActive
