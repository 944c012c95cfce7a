import PyMesh.Controller.Auth
import PyMesh.Controller.Nodes
import PyMesh.Controller.Peers

/-! The REST endpoints of the controller as sessions, and their sequential runs. -/
namespace PyMesh

open LTS Relational Resumption Text

/-- What a successful request answers. -/
inductive Response where
  | token (token : String)
  | joinToken (token authUrl : String)
  | registered (res : NodeRegistrationResponse)
  | nodeDeleted (id : String)
  | networkConfig (config : NetworkConfigResponse)
  | heartbeat (res : HeartbeatResponse)
  | route (res : SubnetRouteModel)
  | routeDeleted (id : String)
  | subnetUpdated (ipv4Prefix : String) (ipv6Prefix : Option String) (nodesReallocated : Nat)
deriving DecidableEq

namespace Api

def createJoinToken (tokenStr description : String) : Session Response := do
  let token ← AuthManager.createToken tokenStr "default" description none
  return .joinToken token ("/join?token=" ++ token)

/-- The token of an `Authorization` header that carries one:
`authorization.split(" ", 1)[1]` after `authorization.startswith("Bearer ")`. -/
def bearerToken (authorization : Option String) : Option String :=
  match truthy authorization with
  | none => none
  | some header =>
    if startsWith header "Bearer " then some (String.ofList (header.toList.drop "Bearer ".length))
    else none

def unauthorized : Exc := .httpException 401 "Invalid or expired join token"

/-- Optional token verification if provided. -/
def verifyToken (authorization : Option String) : Session Unit :=
  match bearerToken authorization with
  | none => return ()
  | some tokenStr => do
    let valid ← AuthManager.validateToken tokenStr
    if !valid then throw unauthorized

def registrationResponse (node : NodeModel) : NodeRegistrationResponse where
  nodeId := node.id
  hostname := node.hostname
  meshIpv4 := IPv4Address.str node.meshIpv4
  meshIpv6 := IPv6Address.str node.meshIpv6
  wireguardPublicKey := node.wireguardPublicKey
  networkName := "pymesh"

def registerNode (authorization : Option String) (req : NodeRegistrationRequest) (now : Nat) :
    Session Response := do
  verifyToken authorization
  let node ← NodeManager.registerNode req "pymesh" now
  return .registered (registrationResponse node)

def nodeNotFound : Exc := .httpException 404 "Node not found"

def deleteNode (nodeId : String) : Session Response := do
  -- `result.rowcount` is known when the DELETE has run, before its commit.
  let rowcount ← execute fun db => (db.nodes.rows.filter fun n => n.id = nodeId).length
  commit fun db => .ok { db with nodes := db.nodes.delete fun n => n.id = nodeId }
  if rowcount = 0 then throw nodeNotFound
  return .nodeDeleted nodeId

def getNetworkConfig (nodeOrder : RowOrder NodeModel) (routeOrder : RowOrder SubnetRoute)
    (nodeId : String) : Session Response :=
  tryCatch (do return .networkConfig (← PeerManager.buildNetworkConfig nodeOrder routeOrder nodeId))
    fun e => match e with
      | .valueError msg => throw (.httpException 404 msg)
      | e => throw e

/-- What a heartbeat writes to its node. -/
def beat (req : HeartbeatRequest) (now : Nat) (node : NodeModel) : NodeModel :=
  { node with
    online := true
    lastSeen := now
    natType := req.natType
    endpoints := if req.endpoints = [] then node.endpoints else req.endpoints }

def heartbeat (nodeId : String) (req : HeartbeatRequest) (now : Nat) : Session Response := do
  match ← NodeManager.getNode nodeId with
  | none => throw nodeNotFound
  | some node =>
    commit (Database.updateNode node.id (beat req now))
    return .heartbeat {}

/-- The row of a new route. `uuid` is what `uuid.uuid4().hex[:8]` gives. -/
def dbRoute (route : SubnetRouteModel) (uuid : String) : SubnetRoute where
  id := (truthy route.id).getD ("route-" ++ uuid)
  networkId := "net-pymesh"
  pfx := route.pfx
  viaNodeId := route.viaNodeId
  advertisedBy := route.advertisedBy
  enabled := route.enabled

def addRoute (route : SubnetRouteModel) (uuid : String) : Session Response := do
  let dbRoute := dbRoute route uuid
  commit (Database.insertRoute dbRoute)
  return .route
    { id := some dbRoute.id
      pfx := dbRoute.pfx
      viaNodeId := dbRoute.viaNodeId
      advertisedBy := dbRoute.advertisedBy
      enabled := dbRoute.enabled }

def deleteRoute (routeId : String) : Session Response := do
  commit fun db => .ok { db with subnetRoutes := db.subnetRoutes.delete fun r => r.id = routeId }
  return .routeDeleted routeId

def invalidCidr : Exc := .httpException 400 "Invalid IPv4 or IPv6 CIDR prefix syntax."

/-- The loop of `update_network_subnet` over the nodes: their new addresses in order. -/
def reallocate (allocator : IPAllocator) :
    List NodeModel → List IPv4Address → List IPv6Address →
      Except Exc (List (NodeModel × IPv4Address × IPv6Address))
  | [], _, _ => .ok []
  | node :: nodes, allocatedV4, allocatedV6 => do
    let (v4, v6) ← allocator.allocate allocatedV4 allocatedV6
    let rest ← reallocate allocator nodes (v4 :: allocatedV4) (v6 :: allocatedV6)
    return (node, v4, v6) :: rest

/-- The UPDATE of a node's row. A column whose value has not changed since the row was read
is not part of it. -/
def renumberRow (new : List (NodeModel × IPv4Address × IPv6Address)) (row : NodeModel) :
    NodeModel :=
  match new.find? fun x => x.1.id = row.id with
  | none => row
  | some (read, v4, v6) =>
    { row with
      meshIpv4 := if v4 = read.meshIpv4 then row.meshIpv4 else v4
      meshIpv6 := if v6 = read.meshIpv6 then row.meshIpv6 else v6 }

/-- The UPDATE of the network row that was read as `read`, by the same rule. -/
def recordPrefixes (read : Network) (ipv4Prefix : String) (ipv6Prefix : Option String)
    (row : Network) : Network :=
  let ipv6Prefix := (truthy ipv6Prefix).getD read.ipv6Prefix
  { row with
    ipv4Prefix := if ipv4Prefix = read.ipv4Prefix then row.ipv4Prefix else ipv4Prefix
    ipv6Prefix := if ipv6Prefix = read.ipv6Prefix then row.ipv6Prefix else ipv6Prefix }

/-- The flush of `update_network_subnet`: the network row, then one UPDATE for each node in
the order of the flush. -/
def flushSubnet (network : Network) (ipv4Prefix : String) (ipv6Prefix : Option String)
    (new : List (NodeModel × IPv4Address × IPv6Address)) (flushOrder : RowOrder NodeModel)
    (db : Database) : Except Exc Database := do
  let db ← Database.updateNetwork network.id (recordPrefixes network ipv4Prefix ipv6Prefix) db
  let ids := (flushOrder.arrange (new.map Prod.fst)).map NodeModel.id
  Database.updateNodes ids (renumberRow new) db

def updateNetworkSubnet (ipv4Prefix : String) (ipv6Prefix : Option String)
    (selectOrder flushOrder : RowOrder NodeModel) : Session Response := do
  if !IPAllocator.validateCidr ipv4Prefix ipv6Prefix then throw invalidCidr
  let network ← NodeManager.getOrCreateNetwork "pymesh"
  let nodes ← NodeManager.listNodes selectOrder (some network.id)
  let allocator ← Prog.ofExcept
    (IPAllocator.make ipv4Prefix ((truthy ipv6Prefix).getD defaultIpv6Prefix))
  let new ← Prog.ofExcept (reallocate allocator nodes [] [])
  commit (flushSubnet network ipv4Prefix ipv6Prefix new flushOrder)
  return .subnetUpdated ipv4Prefix ipv6Prefix nodes.length

end Api

/-- A request to the modelled endpoints. What the server draws or observes while it
answers (a token, a uuid, the clock, the orders of rows) is part of it. -/
inductive Request where
  | join (tokenStr description : String)
  /-- `AuthManager.create_token` called with a limit, which no endpoint does. -/
  | createToken (tokenStr networkId description : String) (maxUses : Option Int)
  | registerNode (authorization : Option String) (req : NodeRegistrationRequest) (now : Nat)
  | heartbeat (nodeId : String) (req : HeartbeatRequest) (now : Nat)
  | deleteNode (nodeId : String)
  | addRoute (route : SubnetRouteModel) (uuid : String)
  | deleteRoute (routeId : String)
  | networkConfig (nodeOrder : RowOrder NodeModel) (routeOrder : RowOrder SubnetRoute)
      (nodeId : String)
  | updateNetworkSubnet (ipv4Prefix : String) (ipv6Prefix : Option String)
      (selectOrder flushOrder : RowOrder NodeModel)

/-- The session that answers a request. -/
def Request.session : Request → Session Response
  | .join tokenStr description => Api.createJoinToken tokenStr description
  | .createToken tokenStr networkId description maxUses => do
    return .token (← AuthManager.createToken tokenStr networkId description maxUses)
  | .registerNode authorization req now => Api.registerNode authorization req now
  | .heartbeat nodeId req now => Api.heartbeat nodeId req now
  | .deleteNode nodeId => Api.deleteNode nodeId
  | .addRoute route uuid => Api.addRoute route uuid
  | .deleteRoute routeId => Api.deleteRoute routeId
  | .networkConfig nodeOrder routeOrder nodeId =>
    Api.getNetworkConfig nodeOrder routeOrder nodeId
  | .updateNetworkSubnet ipv4Prefix ipv6Prefix selectOrder flushOrder =>
    Api.updateNetworkSubnet ipv4Prefix ipv6Prefix selectOrder flushOrder

/-- A request served alone: the outcome and the committed database. -/
def serve (db : Database) (r : Request) : Except Exc Response × Database := r.session.run db

/-- The step relation of the controller that serves one request after the other. -/
def Serves (db : Database) (r : Request) (db' : Database) : Prop := db' = (serve db r).2

/-- The databases that some sequence of requests leads to. -/
def Reachable (db : Database) : Prop := ∃ rs, Run Serves Database.empty rs db

end PyMesh
