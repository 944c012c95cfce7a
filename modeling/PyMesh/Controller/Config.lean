import PyMesh.Controller.Sessions

/-! The config of one node as a function of the tables. -/
namespace PyMesh

open Relational Resumption

namespace PeerManager

/-- The rows behind the peers of a node. -/
def otherNodes (nodeOrder : RowOrder NodeModel) (db : Database) (targetNode : NodeModel) :
    List NodeModel :=
  nodeOrder.arrange <| db.nodes.rows.filter fun n =>
    n.networkId = targetNode.networkId && n.id != targetNode.id

/-- The rows behind the routes of a node. -/
def enabledRoutes (routeOrder : RowOrder SubnetRoute) (db : Database) (targetNode : NodeModel) :
    List SubnetRoute :=
  routeOrder.arrange <| db.subnetRoutes.rows.filter fun r =>
    r.networkId = targetNode.networkId && r.enabled

def networkConfig (nodeOrder : RowOrder NodeModel) (routeOrder : RowOrder SubnetRoute)
    (db : Database) (targetNode : NodeModel) : NetworkConfigResponse where
  nodeId := targetNode.id
  meshIpv4 := IPv4Address.str targetNode.meshIpv4
  meshIpv6 := IPv6Address.str targetNode.meshIpv6
  peers := (otherNodes nodeOrder db targetNode).map
    (peerConfig (enabledRoutes routeOrder db targetNode))
  routes := (enabledRoutes routeOrder db targetNode).map formattedRoute
  dnsDomain := "mesh"

variable {nodeOrder : RowOrder NodeModel} {routeOrder : RowOrder SubnetRoute} {db : Database}
  {nodeId : String} {targetNode n : NodeModel} {r : SubnetRoute}

theorem run_buildNetworkConfig (nodeOrder : RowOrder NodeModel)
    (routeOrder : RowOrder SubnetRoute) (db : Database) (nodeId : String) :
    (buildNetworkConfig nodeOrder routeOrder nodeId).run db =
      (match db.nodes.find nodeId with
        | none => .error (.valueError ("Node " ++ nodeId ++ " not found."))
        | some targetNode => .ok (networkConfig nodeOrder routeOrder db targetNode), db) := by
  rw [buildNetworkConfig, execute, Prog.run_read_bind]
  cases hn : db.nodes.find nodeId with
  | none => rfl
  | some targetNode =>
    have hid : targetNode.id = nodeId := (Table.find_eq_some_iff.mp hn).2
    rw [← hid]
    rfl

/-- The config is only read. -/
theorem run_eq_of_fst {c : NetworkConfigResponse}
    (h : ((buildNetworkConfig nodeOrder routeOrder nodeId).run db).1 = .ok c) :
    (buildNetworkConfig nodeOrder routeOrder nodeId).run db = (.ok c, db) := by
  rw [run_buildNetworkConfig] at h ⊢
  exact Prod.ext h rfl

theorem mem_otherNodes : n ∈ otherNodes nodeOrder db targetNode ↔
    n ∈ db.nodes.rows ∧ n.networkId = targetNode.networkId ∧ n.id ≠ targetNode.id := by
  simp [otherNodes, nodeOrder.mem]

theorem mem_enabledRoutes : r ∈ enabledRoutes routeOrder db targetNode ↔
    r ∈ db.subnetRoutes.rows ∧ r.networkId = targetNode.networkId ∧ r.enabled = true := by
  simp [enabledRoutes, routeOrder.mem]

end PeerManager

end PyMesh
