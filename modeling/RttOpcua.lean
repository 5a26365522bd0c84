import RttOpcua.Basic
import RttOpcua.Lib.Threads
import RttOpcua.Lib.Tally
import RttOpcua.Lib.Slot
import RttOpcua.Lib.Executor
import RttOpcua.Lib.Progress
import RttOpcua.Server.State
import RttOpcua.Server.Step
import RttOpcua.Server.Lemmas.Lifecycle
import RttOpcua.Server.Lemmas.Tasks
import RttOpcua.Server.Lemmas.Origin
import RttOpcua.Server.Lemmas.Report
import RttOpcua.Server.Lemmas.Apart
import RttOpcua.Server.Theorems
import RttOpcua.Server.Queue
import RttOpcua.Lease.State
import RttOpcua.Lease.Step
import RttOpcua.Lease.Lemmas.Count
import RttOpcua.Lease.Lemmas.Shutdown
import RttOpcua.Lease.Theorems
import RttOpcua.Lease.Return
import RttOpcua.Lease.Lemmas.InFlight
import RttOpcua.Lease.Lemmas.Control
import RttOpcua.Lease.Lemmas.Retain
import RttOpcua.Lease.Lemmas.Return
import RttOpcua.Proxy.State
import RttOpcua.Proxy.Step
import RttOpcua.Proxy.Lemmas.Access
import RttOpcua.Proxy.Lemmas.Ports
import RttOpcua.Proxy.Lemmas.Pause
import RttOpcua.Proxy.Lemmas.Return
import RttOpcua.Proxy.Lemmas.Samples
import RttOpcua.Proxy.Lemmas.Synchronize
import RttOpcua.Proxy.Theorems
import RttOpcua.Proxy.Return
import RttOpcua.Lib.OrdMap
import RttOpcua.Lib.Kahn
import RttOpcua.Model.Path
import RttOpcua.Model.Selector
import RttOpcua.Model.Interface
import RttOpcua.Model.Plan
import RttOpcua.Model.Snapshot
import RttOpcua.Model.Transaction
import RttOpcua.Model.Publish
import RttOpcua.Lib.Unique
import RttOpcua.Model.Lemmas.Path
import RttOpcua.Model.Lemmas.Selector
import RttOpcua.Model.Lemmas.Inventory
import RttOpcua.Model.Lemmas.Plan
import RttOpcua.Model.Lemmas.Creation
import RttOpcua.Model.Lemmas.Rollback
import RttOpcua.Model.Lemmas.Publish
import RttOpcua.Model.Lemmas.Revision
import RttOpcua.Model.Lemmas.Diagnostics
import RttOpcua.Model.Lemmas.Describe
import RttOpcua.Model.Escape
import RttOpcua.Model.Subtree
import RttOpcua.Model.Theorems
import RttOpcua.Model.Signature
import RttOpcua.Model.Selection
import RttOpcua.Types.Registry
import RttOpcua.Types.Endpoint
import RttOpcua.Types.Protocol
import RttOpcua.Types.Lemmas.Registry
import RttOpcua.Types.Lemmas.Codecs
import RttOpcua.Types.Lemmas.Endpoint
import RttOpcua.Types.Lemmas.Order
import RttOpcua.Types.Lemmas.Protocol
import RttOpcua.Types.Theorems
import RttOpcua.Model.Lemmas.Discovery
import RttOpcua.Model.Lemmas.Bundle
import RttOpcua.Model.Lemmas.Snapshot
import RttOpcua.Model.Lemmas.Space
import RttOpcua.Model.Lemmas.Hosts
import RttOpcua.Values.Codec
import RttOpcua.Values.ProxySource
import RttOpcua.Values.Methods
import RttOpcua.Values.Canonical
import RttOpcua.Values.Lemmas.Codecs
import RttOpcua.Values.Lemmas.ProxySource
import RttOpcua.Values.Theorems
import RttOpcua.Dispatch.Invoke
import RttOpcua.Dispatch.Theorems
import RttOpcua.Remote.Session
import RttOpcua.Remote.Operation
import RttOpcua.Remote.Discovery
import RttOpcua.Remote.Staging
import RttOpcua.Remote.Store
import RttOpcua.Remote.Call
import RttOpcua.Remote.Lemmas.Mirror
import RttOpcua.Remote.Theorems
import RttOpcua.Remote.Interface
import RttOpcua.Remote.Access
import RttOpcua.Remote.Transparent
import RttOpcua.Lib.Relay
import RttOpcua.Lib.RemoteObject
import RttOpcua.Remote.Port
import RttOpcua.Remote.InputPort
import RttOpcua.Remote.OutputPort
import RttOpcua.Remote.Value
