import PyMesh.Storage.Database
import PyMesh.Identity.Keys
import PyMesh.Controller.Allocator

/-! Registration of nodes in a network. -/
namespace PyMesh

open Relational Resumption

namespace NodeManager

/-- The row that `get_or_create_network` adds for a name it does not find. -/
def newNetwork (networkName : String) : Network :=
  { id := "net-" ++ networkName, name := networkName }

def networkNamed (networkName : String) (db : Database) : Option Network :=
  db.networks.rows.find? fun n => n.name = networkName

def getOrCreateNetwork (networkName : String) : Session Network := do
  match ← execute (networkNamed networkName) with
  | some net => return net
  | none =>
    let net := newNetwork networkName
    commit (Database.insertNetwork net)
    refresh fun db => db.networks.find net.id

/-- The addresses held in a network. -/
def existingIps (networkId : String) (db : Database) : List (IPv4Address × IPv6Address) :=
  (db.nodes.rows.filter fun n => n.networkId = networkId).map fun n => (n.meshIpv4, n.meshIpv6)

/-- What a registration writes to a node that exists. -/
def reregister (req : NodeRegistrationRequest) (now : Nat) (node : NodeModel) : NodeModel :=
  { node with
    hostname := req.hostname
    wireguardPublicKey := req.publicKey
    listenPort := req.listenPort
    os := req.os
    version := req.version
    endpoints := req.endpoints
    tags := req.tags
    online := true
    lastSeen := now }

/-- The row of a node that registers for the first time. -/
def newNode (req : NodeRegistrationRequest) (now : Nat) (nodeId networkId : String)
    (v4 : IPv4Address) (v6 : IPv6Address) : NodeModel where
  id := nodeId
  networkId := networkId
  hostname := req.hostname
  meshIpv4 := v4
  meshIpv6 := v6
  wireguardPublicKey := req.publicKey
  identityPublicKey := req.publicKey
  listenPort := req.listenPort
  os := req.os
  version := req.version
  endpoints := req.endpoints
  tags := req.tags
  online := true
  lastSeen := now

/-- `now` is what the clock shows when the row is written. -/
def registerNode (req : NodeRegistrationRequest) (networkName : String) (now : Nat) :
    Session NodeModel := do
  let network ← getOrCreateNetwork networkName
  let existing ← execute (existingIps network.id)
  let allocatedV4 := existing.map Prod.fst
  let allocatedV6 := existing.map Prod.snd
  let allocator ← Prog.ofExcept (IPAllocator.make network.ipv4Prefix network.ipv6Prefix)
  let nodeId ← Prog.ofExcept (deriveNodeId req.publicKey)
  match ← execute fun db => db.nodes.find nodeId with
  | some existingNode =>
    commit (Database.updateNode existingNode.id (reregister req now))
    refresh fun db => db.nodes.find existingNode.id
  | none =>
    let (v4, v6) ← Prog.ofExcept (allocator.allocate allocatedV4 allocatedV6)
    let node := newNode req now nodeId network.id v4 v6
    commit (Database.insertNode node)
    refresh fun db => db.nodes.find node.id

def getNode (nodeId : String) : Session (Option NodeModel) :=
  execute fun db => db.nodes.find nodeId

/-- `order` is the order in which the SELECT returns the rows. -/
def listNodes (order : RowOrder NodeModel) (networkId : Option String) :
    Session (List NodeModel) :=
  execute fun db => order.arrange <| match truthy networkId with
    | none => db.nodes.rows
    | some id => db.nodes.rows.filter fun n => n.networkId = id

end NodeManager

end PyMesh
