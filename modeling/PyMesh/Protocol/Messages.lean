import Mathlib.Data.Int.Notation

/-! The messages of the controller's API and the exceptions its handlers raise. -/
namespace PyMesh

/-- `Optional[str]` as the source tests it: `None` and the empty text are false. -/
def truthy (s : Option String) : Option String := s.filter (· ≠ "")

theorem truthy_some {s : String} (h : s ≠ "") : truthy (some s) = some s :=
  Option.filter_eq_some_iff.mpr ⟨rfl, decide_eq_true h⟩

/-- What ends a request other than a response. Everything but an `HTTPException` is
answered with status 500. -/
inductive Exc where
  | httpException (statusCode : Nat) (detail : String)
  | valueError (msg : String)
  | binasciiError (msg : String)
  | addressValueError
  | runtimeError (msg : String)
  /-- A PRIMARY KEY or UNIQUE constraint was violated in a flush. -/
  | integrityError
  /-- An UPDATE matched no row. -/
  | staleDataError
  /-- A refresh found no row. -/
  | invalidRequestError
deriving DecidableEq

structure NodeRegistrationRequest where
  hostname : String
  publicKey : String
  listenPort : Int := 51820
  os : String := "linux"
  version : String := "0.1.0"
  endpoints : List String := []
  tags : List String := []

structure NodeRegistrationResponse where
  nodeId : String
  hostname : String
  meshIpv4 : String
  meshIpv6 : String
  wireguardPublicKey : String
  networkName : String := "pymesh"
deriving DecidableEq

structure PeerConfig where
  nodeId : String
  hostname : String
  publicKey : String
  meshIpv4 : String
  meshIpv6 : String
  allowedIps : List String
  endpoints : List String
  persistentKeepalive : Int := 25
deriving DecidableEq

/-- An entry of `NetworkConfigResponse.routes`, which the source writes as a dict. -/
structure RouteEntry where
  id : String
  pfx : String
  viaNodeId : String
  advertisedBy : String
deriving DecidableEq

structure NetworkConfigResponse where
  nodeId : String
  meshIpv4 : String
  meshIpv6 : String
  peers : List PeerConfig
  routes : List RouteEntry := []
  dnsDomain : String := "mesh"
deriving DecidableEq

structure HeartbeatRequest where
  nodeId : String
  endpoints : List String := []
  natType : String := "unknown"

structure HeartbeatResponse where
  status : String := "ok"
  peersChanged : Bool := false
deriving DecidableEq

structure SubnetRouteModel where
  id : Option String := none
  pfx : String
  viaNodeId : String
  advertisedBy : String
  enabled : Bool := true
deriving DecidableEq

end PyMesh
