import AssetGraph.Cache.Metrics
import AssetGraph.Config.File
import AssetGraph.Item.Wire
import AssetGraph.Json.Reader
import AssetGraph.Json.Writer
import AssetGraph.Proofs.Cache.Results
import AssetGraph.Proofs.Cache.Unexpired
import AssetGraph.Proofs.Resolve.Event
import AssetGraph.Rdap.Decode
import AssetGraph.Resolve.Execute
import AssetGraph.Proofs.Resolve.Asking
import AssetGraph.Proofs.Resolve.Service
import AssetGraph.Proofs.Resolve.History
import AssetGraph.Proofs.Resolve.Stores
import AssetGraph.Proofs.Resolve.Allocations
import AssetGraph.Proofs.Resolve.Frame
import AssetGraph.Proofs.Resolve.KnownAllocation
import AssetGraph.Proofs.Resolve.Cancellation
import AssetGraph.Proofs.Resolve.Recall
import AssetGraph.Proofs.Cache.Contents
import AssetGraph.Proofs.Resolve.Outcomes
import AssetGraph.Proofs.Resolve.Transparency
import AssetGraph.Proofs.Resolve.Replay
import AssetGraph.Proofs.Resolve.Origin
import AssetGraph.Proofs.Resolve.Freshness
import AssetGraph.Proofs.Network.Bits
import AssetGraph.Proofs.Rdap.Attributes
import AssetGraph.Proofs.Resolve.LocalAnswer
import AssetGraph.Proofs.Resolve.Attribution
import AssetGraph.Proofs.Resolve.Causality
import AssetGraph.Proofs.Resolve.EdgeText
import AssetGraph.Proofs.Resolve.Malformed
import AssetGraph.Proofs.Resolve.Identification
import AssetGraph.Proofs.Cache.Counters
import AssetGraph.Proofs.Resolve.Footprint
import AssetGraph.Proofs.Resolve.Bypass
import AssetGraph.Proofs.Resolve.Commutation
import AssetGraph.Proofs.Cache.RangeHistory
import AssetGraph.Proofs.Network.Interval
import AssetGraph.Proofs.Cache.ResultHistory
import AssetGraph.Proofs.Cache.Accounting
import AssetGraph.Proofs.Cache.Coverage
import AssetGraph.Proofs.Network.Subset
import AssetGraph.Proofs.Network.Covering
import AssetGraph.Proofs.Dns.Candidates
import AssetGraph.Proofs.Resolve.SuffixWalk
import AssetGraph.Proofs.Rdap.Url
import AssetGraph.Proofs.Resolve.RegistryUrl
import AssetGraph.Proofs.Http.Target
import AssetGraph.Proofs.Resolve.Pages
import AssetGraph.Proofs.Http.Location
import AssetGraph.Proofs.Resolve.Redirects
import AssetGraph.Proofs.Dns.Answers
import AssetGraph.Proofs.Resolve.Names
import AssetGraph.Proofs.Resolve.Addresses
import AssetGraph.Proofs.Resolve.NameGetting
import AssetGraph.Proofs.Resolve.NameReferences
import AssetGraph.Proofs.Address.Properties
import AssetGraph.Proofs.Address.ReverseName
import AssetGraph.Proofs.Json.Ordered
import AssetGraph.Proofs.Json.Record
import AssetGraph.Proofs.Rdap.Card
import AssetGraph.Proofs.Rdap.Fields
import AssetGraph.Proofs.Rdap.CardProperties
import AssetGraph.Proofs.Item.Wire
import AssetGraph.Proofs.Item.Attributes
import AssetGraph.Proofs.Config.Overrides
import AssetGraph.Proofs.Config.File
import AssetGraph.Proofs.Cache.GuardedSearch
