import PyMesh.Storage.Database
import PyMesh.Ipaddress.Str

/-! The network config that the controller builds for one node. -/
namespace PyMesh

open Relational Resumption

namespace PeerManager

/-- `route_map.get(id, [])`: the prefixes routed via a node, in the order of the routes. -/
def routeMap (routes : List SubnetRoute) (nodeId : String) : List String :=
  (routes.filter fun r => r.viaNodeId = nodeId).map SubnetRoute.pfx

def allowedIps (routes : List SubnetRoute) (p : NodeModel) : List String :=
  [IPv4Address.str p.meshIpv4 ++ "/32", IPv6Address.str p.meshIpv6 ++ "/128"] ++
    routeMap routes p.id

def peerConfig (routes : List SubnetRoute) (p : NodeModel) : PeerConfig where
  nodeId := p.id
  hostname := p.hostname
  publicKey := p.wireguardPublicKey
  meshIpv4 := IPv4Address.str p.meshIpv4
  meshIpv6 := IPv6Address.str p.meshIpv6
  allowedIps := allowedIps routes p
  endpoints := p.endpoints
  persistentKeepalive := 25

def formattedRoute (r : SubnetRoute) : RouteEntry where
  id := r.id
  pfx := r.pfx
  viaNodeId := r.viaNodeId
  advertisedBy := r.advertisedBy

/-- The two orders are those in which the SELECTs return their rows. -/
def buildNetworkConfig (nodeOrder : RowOrder NodeModel) (routeOrder : RowOrder SubnetRoute)
    (nodeId : String) : Session NetworkConfigResponse := do
  match ← execute fun db => db.nodes.find nodeId with
  | none => throw (.valueError ("Node " ++ nodeId ++ " not found."))
  | some targetNode =>
    let otherNodes ← execute fun db => nodeOrder.arrange <| db.nodes.rows.filter fun n =>
      n.networkId = targetNode.networkId && n.id != nodeId
    let routes ← execute fun db => routeOrder.arrange <| db.subnetRoutes.rows.filter fun r =>
      r.networkId = targetNode.networkId && r.enabled
    return {
      nodeId := targetNode.id
      meshIpv4 := IPv4Address.str targetNode.meshIpv4
      meshIpv6 := IPv6Address.str targetNode.meshIpv6
      peers := otherNodes.map (peerConfig routes)
      routes := routes.map formattedRoute
      dnsDomain := "mesh" }

end PeerManager

end PyMesh
