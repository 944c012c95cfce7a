import PyMesh.Controller.Renumbering

/-! The points at which a registration and a renumbering stand suspended, with the local
variables that are still needed. -/
namespace PyMesh

open Relational Resumption

/-- What stands between two accesses of a registration. -/
inductive RegisterPoint where
  | selectToken (tokenStr : String)
  | countUse (tokenStr : String) (tokenObj : AuthToken)
  | selectNetwork
  | createNetwork
  | refreshNetwork
  | selectIps (network : Network)
  | selectNode (network : Network) (existing : List (IPv4Address × IPv6Address))
      (allocator : IPAllocator) (nodeId : String)
  | updateNode (existingNode : NodeModel)
  /-- `existing` is no longer read, but says what the address was chosen from. -/
  | insertNode (existing : List (IPv4Address × IPv6Address)) (node : NodeModel)
  | refreshNode (nodeId : String)
  | done (res : Except Exc Response)

/-- A registration that has been sent. -/
structure Registering where
  req : NodeRegistrationRequest
  now : Nat
  point : RegisterPoint

namespace Registering

/-- The first access of a registration. -/
def start (authorization : Option String) (req : NodeRegistrationRequest) (now : Nat) :
    Registering :=
  ⟨req, now, match Api.bearerToken authorization with
    | none => .selectNetwork
    | some tokenStr => .selectToken tokenStr⟩

/-- The end of the endpoint. -/
def respond (register : Session NodeModel) : Session Response := do
  let node ← register
  return .registered (Api.registrationResponse node)

/-- `register_node` from the SELECT of the node on. -/
def fromNode (req : NodeRegistrationRequest) (now : Nat) (network : Network)
    (existing : List (IPv4Address × IPv6Address)) (allocator : IPAllocator) (nodeId : String) :
    Session NodeModel := do
  match ← execute fun db => db.nodes.find nodeId with
  | some existingNode => NodeManager.rewriteNode req now existingNode
  | none =>
    let (v4, v6) ← Prog.ofExcept
      (allocator.allocate (existing.map Prod.fst) (existing.map Prod.snd))
    NodeManager.storeNode (NodeManager.newNode req now nodeId network.id v4 v6)

/-- `register_node` from the SELECT of the addresses on. -/
def fromIps (req : NodeRegistrationRequest) (now : Nat) (network : Network) :
    Session NodeModel := do
  let existing ← execute (NodeManager.existingIps network.id)
  let allocator ← Prog.ofExcept (IPAllocator.make network.ipv4Prefix network.ipv6Prefix)
  let nodeId ← Prog.ofExcept (deriveNodeId req.publicKey)
  fromNode req now network existing allocator nodeId

/-- What is left of a registration. -/
def prog (f : Registering) : Session Response :=
  match f.point with
  | .selectToken tokenStr => do
    let valid ← AuthManager.validateToken tokenStr
    if !valid then throw Api.unauthorized
    respond (NodeManager.registerNode f.req "pymesh" f.now)
  | .countUse tokenStr tokenObj => do
    commit (Database.updateToken tokenStr (AuthManager.countUse tokenObj))
    respond (NodeManager.registerNode f.req "pymesh" f.now)
  | .selectNetwork => respond (NodeManager.registerNode f.req "pymesh" f.now)
  | .createNetwork => do
    commit (Database.insertNetwork (NodeManager.newNetwork "pymesh"))
    let network ← refresh fun db => db.networks.find (NodeManager.newNetwork "pymesh").id
    respond (fromIps f.req f.now network)
  | .refreshNetwork => do
    let network ← refresh fun db => db.networks.find (NodeManager.newNetwork "pymesh").id
    respond (fromIps f.req f.now network)
  | .selectIps network => respond (fromIps f.req f.now network)
  | .selectNode network existing allocator nodeId =>
    respond (fromNode f.req f.now network existing allocator nodeId)
  | .updateNode existingNode => respond (NodeManager.rewriteNode f.req f.now existingNode)
  | .insertNode _ node => respond (NodeManager.storeNode node)
  | .refreshNode nodeId => respond (refresh fun db => db.nodes.find nodeId)
  | .done res => .ofExcept res

def result (f : Registering) : Option (Except Exc Response) :=
  match f.point with
  | .done res => some res
  | _ => none

/-- The commit that is due at a point, if it is one. -/
def flush (f : Registering) (db : Database) : Except Exc Database :=
  match f.point with
  | .countUse tokenStr tokenObj => db.updateToken tokenStr (AuthManager.countUse tokenObj)
  | .createNetwork => db.insertNetwork (NodeManager.newNetwork "pymesh")
  | .updateNode existingNode =>
    db.updateNode existingNode.id (NodeManager.reregister f.req f.now)
  | .insertNode _ node => db.insertNode node
  | _ => .ok db

/-- The point after the access that is due, when the access raises nothing. -/
def nextPoint (f : Registering) (db : Database) : RegisterPoint :=
  match f.point with
  | .selectToken tokenStr => match db.authTokens.find tokenStr with
    | none => .done (.error Api.unauthorized)
    | some tokenObj =>
      if AuthManager.exhausted tokenObj then .done (.error Api.unauthorized)
      else .countUse tokenStr tokenObj
  | .countUse _ _ => .selectNetwork
  | .selectNetwork => match NodeManager.networkNamed "pymesh" db with
    | some network => .selectIps network
    | none => .createNetwork
  | .createNetwork => .refreshNetwork
  | .refreshNetwork => match db.networks.find (NodeManager.newNetwork "pymesh").id with
    | some network => .selectIps network
    | none => .done (.error .invalidRequestError)
  | .selectIps network => match IPAllocator.make network.ipv4Prefix network.ipv6Prefix with
    | .error e => .done (.error e)
    | .ok allocator => match deriveNodeId f.req.publicKey with
      | .error e => .done (.error e)
      | .ok nodeId =>
        .selectNode network (NodeManager.existingIps network.id db) allocator nodeId
  | .selectNode network existing allocator nodeId => match db.nodes.find nodeId with
    | some existingNode => .updateNode existingNode
    | none => match allocator.allocate (existing.map Prod.fst) (existing.map Prod.snd) with
      | .error e => .done (.error e)
      | .ok (v4, v6) =>
        .insertNode existing (NodeManager.newNode f.req f.now nodeId network.id v4 v6)
  | .updateNode existingNode => .refreshNode existingNode.id
  | .insertNode _ node => .refreshNode node.id
  | .refreshNode nodeId => match db.nodes.find nodeId with
    | some node => .done (.ok (.registered (Api.registrationResponse node)))
    | none => .done (.error .invalidRequestError)
  | .done res => .done res

theorem faithful (f : Registering) : prog f = .endedOr (result f)
    (.access (flush f) fun db => prog { f with point := nextPoint f db }) := by
  obtain ⟨req, now, point⟩ := f
  cases point with
  | selectToken tokenStr =>
    refine (Prog.bind_assoc _ _ _).trans (Prog.read_bind_eq fun db => ?_)
    simp only [nextPoint]
    cases db.authTokens.find tokenStr with
    | none => rfl
    | some tokenObj => cases hx : AuthManager.exhausted tokenObj <;> simp [hx, prog, Prog.bind_assoc]
  | countUse tokenStr tokenObj => exact Prog.commit_bind_eq fun _ _ _ => rfl
  | selectNetwork =>
    refine (Prog.bind_assoc _ _ _).trans ((Prog.bind_assoc _ _ _).trans
      (Prog.read_bind_eq fun db => ?_))
    simp only [nextPoint]
    cases NodeManager.networkNamed "pymesh" db with
    | none =>
      simp only [prog, respond, fromIps, fromNode, Prog.bind_assoc]
      rfl
    | some network => rfl
  | createNetwork => exact Prog.commit_bind_eq fun _ _ _ => rfl
  | refreshNetwork =>
    refine (Prog.bind_assoc _ _ _).trans (Prog.read_bind_eq fun db => ?_)
    simp only [nextPoint]
    cases db.networks.find (NodeManager.newNetwork "pymesh").id <;> rfl
  | selectIps network =>
    refine (Prog.bind_assoc _ _ _).trans (Prog.read_bind_eq fun db => ?_)
    simp only [nextPoint]
    cases IPAllocator.make network.ipv4Prefix network.ipv6Prefix with
    | error e => rfl
    | ok allocator => cases deriveNodeId req.publicKey <;> rfl
  | selectNode network existing allocator nodeId =>
    refine (Prog.bind_assoc _ _ _).trans (Prog.read_bind_eq fun db => ?_)
    simp only [nextPoint]
    cases db.nodes.find nodeId with
    | some existingNode => rfl
    | none =>
      cases allocator.allocate (existing.map Prod.fst) (existing.map Prod.snd) <;> rfl
  | updateNode existingNode =>
    exact (Prog.bind_assoc _ _ _).trans (Prog.commit_bind_eq fun _ _ _ => rfl)
  | insertNode existing node =>
    exact (Prog.bind_assoc _ _ _).trans (Prog.commit_bind_eq fun _ _ _ => rfl)
  | refreshNode nodeId =>
    refine (Prog.bind_assoc _ _ _).trans (Prog.read_bind_eq fun db => ?_)
    simp only [nextPoint]
    cases db.nodes.find nodeId <;> rfl
  | done res => rfl

theorem prog_start (authorization : Option String) (req : NodeRegistrationRequest) (now : Nat) :
    prog (start authorization req now) = Api.registerNode authorization req now := by
  simp only [start, Api.registerNode, Api.verifyToken]
  cases Api.bearerToken authorization with
  | none => rfl
  | some tokenStr =>
    simp only [prog, respond, Prog.bind_assoc]
    refine congrArg _ (funext fun valid => ?_)
    cases valid <;> rfl

end Registering

/-- The registrations. -/
def registration : Frames Database Exc Response where
  Frame := Registering
  prog := Registering.prog
  result := Registering.result
  flush := Registering.flush
  after f db := { f with point := f.nextPoint db }
  raised f e := { f with point := .done (.error e) }
  prog_raised _ _ := rfl
  faithful := Registering.faithful

/-- What stands between two accesses of `PUT /network/subnet`. -/
inductive RenumberPoint where
  | selectNetwork
  | createNetwork
  | refreshNetwork
  | selectNodes (network : Network)
  | commitSubnet (network : Network) (nodes : List NodeModel)
      (new : List (NodeModel × IPv4Address × IPv6Address))
  | done (res : Except Exc Response)

/-- A `PUT /network/subnet` that has been sent. -/
structure Renumbering where
  ipv4Prefix : String
  ipv6Prefix : Option String
  selectOrder : RowOrder NodeModel
  flushOrder : RowOrder NodeModel
  point : RenumberPoint

namespace Renumbering

/-- The prefixes are checked before the first access. -/
def start (ipv4Prefix : String) (ipv6Prefix : Option String)
    (selectOrder flushOrder : RowOrder NodeModel) : Renumbering :=
  ⟨ipv4Prefix, ipv6Prefix, selectOrder, flushOrder,
    if IPAllocator.validateCidr ipv4Prefix ipv6Prefix then .selectNetwork
    else .done (.error Api.invalidCidr)⟩

/-- `update_network_subnet` from the SELECT of the nodes on. -/
def fromNodes (f : Renumbering) (network : Network) : Session Response := do
  let nodes ← NodeManager.listNodes f.selectOrder (some network.id)
  let allocator ← Prog.ofExcept
    (IPAllocator.make f.ipv4Prefix ((truthy f.ipv6Prefix).getD defaultIpv6Prefix))
  let new ← Prog.ofExcept (Api.reallocate allocator nodes [] [])
  commit (Api.flushSubnet network f.ipv4Prefix f.ipv6Prefix new f.flushOrder)
  return .subnetUpdated f.ipv4Prefix f.ipv6Prefix nodes.length

/-- What is left of the request. -/
def prog (f : Renumbering) : Session Response :=
  match f.point with
  | .selectNetwork => NodeManager.getOrCreateNetwork "pymesh" >>= f.fromNodes
  | .createNetwork => do
    commit (Database.insertNetwork (NodeManager.newNetwork "pymesh"))
    let network ← refresh fun db => db.networks.find (NodeManager.newNetwork "pymesh").id
    f.fromNodes network
  | .refreshNetwork => do
    let network ← refresh fun db => db.networks.find (NodeManager.newNetwork "pymesh").id
    f.fromNodes network
  | .selectNodes network => f.fromNodes network
  | .commitSubnet network nodes new => do
    commit (Api.flushSubnet network f.ipv4Prefix f.ipv6Prefix new f.flushOrder)
    return .subnetUpdated f.ipv4Prefix f.ipv6Prefix nodes.length
  | .done res => .ofExcept res

def result (f : Renumbering) : Option (Except Exc Response) :=
  match f.point with
  | .done res => some res
  | _ => none

/-- The commit that is due at a point, if it is one. -/
def flush (f : Renumbering) (db : Database) : Except Exc Database :=
  match f.point with
  | .createNetwork => db.insertNetwork (NodeManager.newNetwork "pymesh")
  | .commitSubnet network _ new =>
    Api.flushSubnet network f.ipv4Prefix f.ipv6Prefix new f.flushOrder db
  | _ => .ok db

/-- The rows that `list_nodes` returns. -/
def listed (f : Renumbering) (network : Network) (db : Database) : List NodeModel :=
  f.selectOrder.arrange <| match truthy (some network.id) with
    | none => db.nodes.rows
    | some id => db.nodes.rows.filter fun n => n.networkId = id

/-- The point after the access that is due, when the access raises nothing. -/
def nextPoint (f : Renumbering) (db : Database) : RenumberPoint :=
  match f.point with
  | .selectNetwork => match NodeManager.networkNamed "pymesh" db with
    | some network => .selectNodes network
    | none => .createNetwork
  | .createNetwork => .refreshNetwork
  | .refreshNetwork => match db.networks.find (NodeManager.newNetwork "pymesh").id with
    | some network => .selectNodes network
    | none => .done (.error .invalidRequestError)
  | .selectNodes network => match usedPool f.ipv4Prefix f.ipv6Prefix with
    | .error e => .done (.error e)
    | .ok allocator => match Api.reallocate allocator (f.listed network db) [] [] with
      | .error e => .done (.error e)
      | .ok new => .commitSubnet network (f.listed network db) new
  | .commitSubnet _ nodes _ =>
    .done (.ok (.subnetUpdated f.ipv4Prefix f.ipv6Prefix nodes.length))
  | .done res => .done res

theorem faithful (f : Renumbering) : prog f = .endedOr (result f)
    (.access (flush f) fun db => prog { f with point := nextPoint f db }) := by
  obtain ⟨ipv4Prefix, ipv6Prefix, selectOrder, flushOrder, point⟩ := f
  cases point with
  | selectNetwork =>
    refine (Prog.bind_assoc _ _ _).trans (Prog.read_bind_eq fun db => ?_)
    simp only [nextPoint]
    cases NodeManager.networkNamed "pymesh" db with
    | none => exact (Prog.bind_assoc _ _ _).symm
    | some network => rfl
  | createNetwork => exact Prog.commit_bind_eq fun _ _ _ => rfl
  | refreshNetwork =>
    refine (Prog.bind_assoc _ _ _).trans (Prog.read_bind_eq fun db => ?_)
    simp only [nextPoint]
    cases db.networks.find (NodeManager.newNetwork "pymesh").id <;> rfl
  | selectNodes network =>
    refine Prog.read_bind_eq fun db => ?_
    simp only [nextPoint, usedPool, listed]
    cases IPAllocator.make ipv4Prefix ((truthy ipv6Prefix).getD defaultIpv6Prefix) with
    | error e => rfl
    | ok allocator =>
      simp only [Prog.ofExcept_ok, Prog.ret_bind]
      cases Api.reallocate allocator _ [] [] <;> rfl
  | commitSubnet network nodes new => exact Prog.commit_bind_eq fun _ _ _ => rfl
  | done res => rfl

theorem prog_start (ipv4Prefix : String) (ipv6Prefix : Option String)
    (selectOrder flushOrder : RowOrder NodeModel) :
    prog (start ipv4Prefix ipv6Prefix selectOrder flushOrder) =
      Api.updateNetworkSubnet ipv4Prefix ipv6Prefix selectOrder flushOrder := by
  simp only [start, Api.updateNetworkSubnet]
  cases IPAllocator.validateCidr ipv4Prefix ipv6Prefix <;> rfl

end Renumbering

def renumbering : Frames Database Exc Response where
  Frame := Renumbering
  prog := Renumbering.prog
  result := Renumbering.result
  flush := Renumbering.flush
  after f db := { f with point := f.nextPoint db }
  raised f e := { f with point := .done (.error e) }
  prog_raised _ _ := rfl
  faithful := Renumbering.faithful

end PyMesh
