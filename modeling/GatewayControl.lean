import GatewayControl.Authority.Route
import GatewayControl.Authority.Tunnel
import GatewayControl.Authority.Zone
import GatewayControl.Cli.Arguments
import GatewayControl.Cli.Failure
import GatewayControl.Cli.Invocation
import GatewayControl.Cli.Output
import GatewayControl.Cli.Run
import GatewayControl.Config.Basic
import GatewayControl.Config.Setting
import GatewayControl.Crypto.Aes
import GatewayControl.Crypto.Curve25519
import GatewayControl.Crypto.Gcm
import GatewayControl.Crypto.Sha2
import GatewayControl.Decimal.Binary64
import GatewayControl.Decimal.Shortest
import GatewayControl.Directory
import GatewayControl.Dns.Json
import GatewayControl.Dns.Name
import GatewayControl.Dns.Record
import GatewayControl.Dns.RecordSet
import GatewayControl.Error
import GatewayControl.Files
import GatewayControl.Gateway
import GatewayControl.Identity
import GatewayControl.Json.Diagnosis
import GatewayControl.Json.Shape
import GatewayControl.Json.Tree
import GatewayControl.Json.Value
import GatewayControl.Key
import GatewayControl.Main
import GatewayControl.Net.Http
import GatewayControl.Net.Ip
import GatewayControl.Net.Percent
import GatewayControl.Net.Url
import GatewayControl.Program
import GatewayControl.Provision
import GatewayControl.Routing.Entry
import GatewayControl.Secret
import GatewayControl.Simulation.Run
import GatewayControl.Simulation.Step
import GatewayControl.Simulation.World
import GatewayControl.Store.Call
import GatewayControl.Store.Memory
import GatewayControl.Store.Saved
import GatewayControl.Store.Tables
import GatewayControl.Store.View
import GatewayControl.Text.Base64
import GatewayControl.Text.Bytes
import GatewayControl.Text.CharTable
import GatewayControl.Text.Hex
import GatewayControl.Text.Quoted
import GatewayControl.Toml.Document
import GatewayControl.Toml.Reader
import GatewayControl.Tunnel.Device
import GatewayControl.Tunnel.Namespace
import GatewayControl.Tunnel.Pool
import GatewayControl.Tunnel.Script
import GatewayControl.Workload
import GatewayControl.Proofs.Authority.Atomicity
import GatewayControl.Proofs.Authority.Cascade
import GatewayControl.Proofs.Authority.Coherence
import GatewayControl.Proofs.Authority.Frame
import GatewayControl.Proofs.Authority.History
import GatewayControl.Proofs.Authority.Idempotence
import GatewayControl.Proofs.Authority.Independence
import GatewayControl.Proofs.Authority.LabelContest
import GatewayControl.Proofs.Authority.LabelRace
import GatewayControl.Proofs.Authority.LabelStore
import GatewayControl.Proofs.Authority.NameRetry
import GatewayControl.Proofs.Authority.OwnerLinear
import GatewayControl.Proofs.Authority.OwnerRace
import GatewayControl.Proofs.Authority.OwnerRecords
import GatewayControl.Proofs.Authority.OwnerRetry
import GatewayControl.Proofs.Authority.ReleaseUndo
import GatewayControl.Proofs.Authority.RouteInvariant
import GatewayControl.Proofs.Authority.RouteLinear
import GatewayControl.Proofs.Authority.RouteRounds
import GatewayControl.Proofs.Authority.SealedRegistration
import GatewayControl.Proofs.Authority.Unmanaged
import GatewayControl.Proofs.Authority.ZoneAlone
import GatewayControl.Proofs.Authority.ZoneMachine
import GatewayControl.Proofs.Authority.ZoneRefinement
import GatewayControl.Proofs.Authority.ZoneTree
import GatewayControl.Proofs.Authority.ZoneView
import GatewayControl.Proofs.Cli.RouteOutput
import GatewayControl.Proofs.Cli.WorkloadFile
import GatewayControl.Proofs.Crypto.Gcm
import GatewayControl.Proofs.Decimal.Rounding
import GatewayControl.Proofs.Decimal.ShortestDigits
import GatewayControl.Proofs.Dns.AddressBook
import GatewayControl.Proofs.Dns.AddressSet
import GatewayControl.Proofs.Dns.InsertionOrder
import GatewayControl.Proofs.Dns.NameGrammar
import GatewayControl.Proofs.Dns.NameText
import GatewayControl.Proofs.Dns.RecordCodec
import GatewayControl.Proofs.Dns.RecordTable
import GatewayControl.Proofs.Dns.StoredForm
import GatewayControl.Proofs.Dns.Unmanaged
import GatewayControl.Proofs.Except
import GatewayControl.Proofs.Json.FloatText
import GatewayControl.Proofs.Json.NumberText
import GatewayControl.Proofs.Json.Reread
import GatewayControl.Proofs.Json.Spelling
import GatewayControl.Proofs.Json.Written
import GatewayControl.Proofs.Net.IpText
import GatewayControl.Proofs.Net.Percent
import GatewayControl.Proofs.Net.UrlPath
import GatewayControl.Proofs.Net.UserUrl
import GatewayControl.Proofs.Operation.Alone
import GatewayControl.Proofs.Operation.Atomicity
import GatewayControl.Proofs.Operation.Contention
import GatewayControl.Proofs.Operation.Disturbance
import GatewayControl.Proofs.Operation.Footprint
import GatewayControl.Proofs.Operation.Idempotence
import GatewayControl.Proofs.Operation.Interleaving
import GatewayControl.Proofs.Operation.Interruption
import GatewayControl.Proofs.Operation.Linearization
import GatewayControl.Proofs.Operation.Reliance
import GatewayControl.Proofs.Operation.Rounds
import GatewayControl.Proofs.Operation.Since
import GatewayControl.Proofs.Provision.Atomicity
import GatewayControl.Proofs.Provision.Batch
import GatewayControl.Proofs.Provision.Idempotence
import GatewayControl.Proofs.Provision.RouteBatch
import GatewayControl.Proofs.Provision.StartupOrder
import GatewayControl.Proofs.Provision.TunnelBatch
import GatewayControl.Proofs.Provision.Undo
import GatewayControl.Proofs.Provision.ZoneBatch
import GatewayControl.Proofs.Routing.EntryCodec
import GatewayControl.Proofs.Store.Cell
import GatewayControl.Proofs.Store.Interchange
import GatewayControl.Proofs.Store.Reversal
import GatewayControl.Proofs.Store.TableCell
import GatewayControl.Proofs.Text.Base64
import GatewayControl.Proofs.Text.Base64Canonical
import GatewayControl.Proofs.Text.Case
import GatewayControl.Proofs.Text.Digits
import GatewayControl.Proofs.Text.Hex
import GatewayControl.Proofs.Text.Trim
import GatewayControl.Proofs.Tunnel.NamespaceFaults
import GatewayControl.Proofs.Tunnel.PeerTable
