import YarnCopilot.Common.Word
import YarnCopilot.Common.Varint
import YarnCopilot.Common.Session
import YarnCopilot.Common.Alike
import YarnCopilot.Common.Run
import YarnCopilot.Common.Text
import YarnCopilot.Common.Strings
import YarnCopilot.Common.Range
import YarnCopilot.Common.Replace
import YarnCopilot.Common.Path
import YarnCopilot.Common.FileTree
import YarnCopilot.Common.Format
import YarnCopilot.Common.KeyedList
import YarnCopilot.Common.MapLoop
import YarnCopilot.Common.MergePatch
import YarnCopilot.Common.Quantity
import YarnCopilot.Common.QuantityText
import YarnCopilot.Common.Simulation
import YarnCopilot.Security.DigestMd5
import YarnCopilot.Security.Challenge
import YarnCopilot.Security.Response
import YarnCopilot.Ipc.Wire
import YarnCopilot.Ipc.Messages
import YarnCopilot.Ipc.Client
import YarnCopilot.Security.Ugi
import YarnCopilot.Ipc.Protobuf
import YarnCopilot.Ipc.Writers
import YarnCopilot.Ipc.Replies
import YarnCopilot.Ipc.Segmentation
import YarnCopilot.Ipc.Handshake
import YarnCopilot.Ipc.Calls
import YarnCopilot.Ipc.Exchange
import YarnCopilot.Ipc.Authentication
import YarnCopilot.Config.YarnConfiguration
import YarnCopilot.Config.Layers
import YarnCopilot.Client.YarnClient
import YarnCopilot.Client.Discovery
import YarnCopilot.Client.Failover
import YarnCopilot.Client.Rpc
import YarnCopilot.Cache.NodesSyncer
import YarnCopilot.Cache.Snapshot
import YarnCopilot.Cache.Lookup
import YarnCopilot.Cache.Usage
import YarnCopilot.Metrics.YarnCollector
import YarnCopilot.NodeResource.YarnResource
import YarnCopilot.NodeResource.Json
import YarnCopilot.NodeResource.AllocationMap
import YarnCopilot.NodeResource.Reconcile
import YarnCopilot.NodeResource.AbsentFields
import YarnCopilot.NodeResource.NodeId
import YarnCopilot.NodeResource.Capacity
import YarnCopilot.NodeResource.OriginAllocatable
import YarnCopilot.NodeResource.Exits
import YarnCopilot.NodeResource.Frame
import YarnCopilot.NodeResource.Operator
import YarnCopilot.NodeResource.Clusters
import YarnCopilot.NodeResource.Allocators
import YarnCopilot.NodeResource.HaOperator
import YarnCopilot.NodeResource.Failovers
import YarnCopilot.NodeResource.HaClusters
import YarnCopilot.NodeResource.Interleaving
import YarnCopilot.NodeResource.Convergence
import YarnCopilot.NodeResource.Provenance
import YarnCopilot.NodeResource.EndToEnd
import YarnCopilot.Agent.Cgroup
import YarnCopilot.Agent.Mirror
import YarnCopilot.Agent.Recovery
import YarnCopilot.Agent.NodeManager
import YarnCopilot.Agent.Loop
import YarnCopilot.Agent.Flapping
import YarnCopilot.Agent.Lifecycle
import YarnCopilot.Agent.Provenance
import YarnCopilot.Agent.Shares
import YarnCopilot.Agent.Server
import YarnCopilot.Runtime.Manager
import YarnCopilot.Runtime.Plugin
import YarnCopilot.Metrics.Scrapes
