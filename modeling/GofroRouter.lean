import GofroRouter.Lib.Bytes
import GofroRouter.Lib.Ipv4
import GofroRouter.Lib.Nft
import GofroRouter.Relay.Codec
import GofroRouter.Lib.Wire
import GofroRouter.Lib.Text
import GofroRouter.Lib.Directory
import GofroRouter.Agent.Pins.Steps
import GofroRouter.Agent.Pins.Invariant
import GofroRouter.Agent.Pins.Kept
import GofroRouter.Agent.Pins.Effects
import GofroRouter.Agent.Pins.Retry
import GofroRouter.Agent.Pins.Safety
import GofroRouter.Agent.Model
import GofroRouter.Agent.Config
import GofroRouter.Lib.Sim
import GofroRouter.Lib.Keyed
import GofroRouter.Lib.Intervals
import GofroRouter.Agent.Geodata.Select
import GofroRouter.Agent.Geodata.Bounds
import GofroRouter.Agent.Routing
import GofroRouter.Agent.NormalForm
import GofroRouter.Agent.Profile
import GofroRouter.Agent.Dataplane.Render
import GofroRouter.Agent.Dataplane.Budget
import GofroRouter.Agent.Dataplane.Table
import GofroRouter.Agent.Dataplane.Mark
import GofroRouter.Lib.Conntrack
import GofroRouter.Agent.Dataplane.Warp
import GofroRouter.Agent.FakeDns.Upstream
import GofroRouter.Agent.FakeDns.Reverse
import GofroRouter.Agent.FakeDns.Store
import GofroRouter.Agent.FakeDns.Lifetime
import GofroRouter.Lib.Closure
import GofroRouter.Lib.Ordered
import GofroRouter.Agent.Stats
import GofroRouter.Agent.Devices
import GofroRouter.Agent.FakeDns.Resolver
import GofroRouter.Agent.Dataplane.Kernel
import GofroRouter.Agent.FakeDns.Enforce
import GofroRouter.Agent.FakeDns.Answers
import GofroRouter.Agent.FakeDns.Process
import GofroRouter.Agent.FakeDns.Maps
import GofroRouter.Lib.Fallible
import GofroRouter.Agent.Controller.Update
import GofroRouter.Agent.Controller.Spec
import GofroRouter.Agent.Controller.Servers
import GofroRouter.Agent.Controller.Runs
import GofroRouter.Agent.Controller.Consistency
import GofroRouter.Agent.Controller.Outcome
import GofroRouter.Agent.Controller.Listed
import GofroRouter.Agent.Controller.Reloaded
import GofroRouter.Agent.Enrollment
import GofroRouter.Lib.Scrypt
import GofroRouter.Kdf.Scrypt
import GofroRouter.Agent.Auth.Requests
import GofroRouter.Agent.Auth.Steps
import GofroRouter.Agent.Auth.Sessions
import GofroRouter.Agent.Auth.Throttle
import GofroRouter.Web.RouterState
import GofroRouter.Web.Stale
import GofroRouter.Web.Rules
import GofroRouter.Web.Bootstrap
import GofroRouter.Deploy.Prepare
import GofroRouter.Deploy.Faithful
import GofroRouter.Lib.Json
import GofroRouter.Lib.Crash
import GofroRouter.Lib.WireGuard
import GofroRouter.Lib.IpAddr
import GofroRouter.Server.Address
import GofroRouter.Server.Store
import GofroRouter.Server.Managed
import GofroRouter.Server.Status
import GofroRouter.Server.Commands
import GofroRouter.Server.Spec
import GofroRouter.Server.Atomic
import GofroRouter.Server.Revoked
import GofroRouter.Server.Addresses
import GofroRouter.Server.Roles
import GofroRouter.Server.Names
import GofroRouter.Server.Clean
import GofroRouter.Lib.Utf16
import GofroRouter.Agent.Managed
import GofroRouter.Agent.ManagedStatus
import GofroRouter.Relay.Server
import GofroRouter.Relay.Sessions
import GofroRouter.Relay.Failures
import GofroRouter.Web.Friends
import GofroRouter.Agent.Saved
import GofroRouter.Deploy.Guard
import GofroRouter.Agent.Imported
import GofroRouter.Lib.Pattern
import GofroRouter.Server.Ssh
import GofroRouter.Agent.Remote.Requests
import GofroRouter.Server.Registry
import GofroRouter.Agent.Remote.Operations
