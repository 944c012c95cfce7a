import PyMesh.Library.Run
import PyMesh.Library.Copies
import PyMesh.Library.Resumption
import PyMesh.Library.Table
import PyMesh.Library.FirstFit
import PyMesh.Library.FailStop
import PyMesh.Library.Holdings
import PyMesh.Library.Text
import PyMesh.Library.Bytes
import PyMesh.Library.Policy
import PyMesh.Library.Tlv
import PyMesh.Library.Rfc1035
import PyMesh.Library.Rfc1035Messages
import PyMesh.Library.Dict
import PyMesh.Library.Lines
import PyMesh.Library.Sections
import PyMesh.Library.Template
import PyMesh.Library.Words
import PyMesh.Library.Utf8
import PyMesh.Library.UrlQuery
import PyMesh.Ipaddress.Address
import PyMesh.Ipaddress.Parse
import PyMesh.Ipaddress.Str
import PyMesh.Protocol.Messages
import PyMesh.Identity.Keys
import PyMesh.Storage.Models
import PyMesh.Storage.Database
import PyMesh.Controller.Allocator
import PyMesh.Controller.Auth
import PyMesh.Controller.Nodes
import PyMesh.Controller.Peers
import PyMesh.Controller.Api
import PyMesh.Controller.Sessions
import PyMesh.Controller.Config
import PyMesh.Controller.Registration
import PyMesh.Controller.Renumbering
import PyMesh.Controller.Pools
import PyMesh.Controller.Reachable
import PyMesh.Controller.Numbering
import PyMesh.Controller.Flush
import PyMesh.Controller.Failure
import PyMesh.Controller.Closure
import PyMesh.Controller.Identities
import PyMesh.Controller.Isolation
import PyMesh.Controller.Ownership
import PyMesh.Controller.TokenRace
import PyMesh.Controller.Suspended
import PyMesh.Controller.RegisterRace
import PyMesh.Controller.RenumberRace
import PyMesh.Networking.Wireguard
import PyMesh.Networking.WireguardFailure
import PyMesh.Networking.WireguardRequests
import PyMesh.Networking.WireguardRuns
import PyMesh.Daemon.Sync
import PyMesh.Controller.Acl
import PyMesh.Networking.Firewall
import PyMesh.Networking.FirewallFailure
import PyMesh.Relay.Protocol
import PyMesh.Discovery.Stun
import PyMesh.Discovery.StunAttributes
import PyMesh.Discovery.Nat
import PyMesh.Discovery.Endpoints
import PyMesh.Dns.Parser
import PyMesh.Dns.Names
import PyMesh.Dns.Tld
import PyMesh.Controller.Registry
import PyMesh.Controller.Publishing
import PyMesh.Dns.Server
import PyMesh.Dns.Queries
import PyMesh.Dns.LocalAnswers
import PyMesh.Dns.Live
import PyMesh.Dns.Foreign
import PyMesh.Dns.Upstream
import PyMesh.Dns.Staleness
import PyMesh.Dns.RegistryRows
import PyMesh.Controller.Federation
import PyMesh.Controller.Mutual
import PyMesh.Controller.Stability
import PyMesh.Controller.Provenance
import PyMesh.Controller.Routes
import PyMesh.Controller.AclStore
import PyMesh.Controller.AclRenumbering
import PyMesh.Relay.Server
import PyMesh.Library.Datagrams
import PyMesh.Relay.Client
import PyMesh.Discovery.Punching
import PyMesh.Networking.Hosts
import PyMesh.Networking.HostsLines
import PyMesh.Networking.HostsBlock
import PyMesh.Networking.MagicDns
import PyMesh.Networking.MagicDnsProtocol
import PyMesh.Networking.MagicDnsQueries
import PyMesh.Dns.QuestionTypes
import PyMesh.Networking.Interfaces
import PyMesh.Daemon.Resolvers
import PyMesh.Daemon.Addresses
import PyMesh.Daemon.Mesh
import PyMesh.Daemon.Lifecycle
import PyMesh.Cli.Forward
import PyMesh.Cli.Publish
import PyMesh.Identity.Base64
import PyMesh.Dns.Doh
import PyMesh.Identity.Node
import PyMesh.Cli.Routes
import PyMesh.Daemon.Paths
import PyMesh.Cli.Targets
import PyMesh.Daemon.Identity
