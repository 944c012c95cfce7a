import PyMesh.Library.Table
import PyMesh.Ipaddress.Address
import PyMesh.Protocol.Messages

/-! The rows of the controller's tables and their constraints. -/
namespace PyMesh

open Relational

def defaultIpv4Prefix : String := "100.64.0.0/10"

def defaultIpv6Prefix : String := "fd00:7079:6d65::/48"

structure Network where
  id : String
  name : String
  ipv4Prefix : String := defaultIpv4Prefix
  ipv6Prefix : String := defaultIpv6Prefix
deriving DecidableEq

/-- A row of `nodes`. An address column holds the text of an address, and texts and
addresses correspond one to one (`IPv4Address.str_injective`, `IPv6Address.str_injective`). -/
structure NodeModel where
  id : String
  networkId : String
  hostname : String
  meshIpv4 : IPv4Address
  meshIpv6 : IPv6Address
  wireguardPublicKey : String
  identityPublicKey : String
  listenPort : Int
  os : String
  version : String
  endpoints : List String
  tags : List String
  online : Bool
  natType : String := "unknown"
  lastSeen : Nat
deriving DecidableEq

structure SubnetRoute where
  id : String
  networkId : String
  pfx : String
  viaNodeId : String
  advertisedBy : String
  enabled : Bool
deriving DecidableEq

structure AuthToken where
  token : String
  networkId : String
  description : String
  usedCount : Int := 0
  maxUses : Option Int
deriving DecidableEq

instance : Row Network String where
  key n := n.id
  Clash a b := a.id = b.id ∨ a.name = b.name
  clash_symm h := h.imp Eq.symm Eq.symm
  clash_of_key h := Or.inl h

instance : DecidableRel (Row.Clash : Network → Network → Prop) :=
  fun a b => inferInstanceAs (Decidable (a.id = b.id ∨ a.name = b.name))

instance : Row NodeModel String where
  key n := n.id
  Clash a b := a.id = b.id ∨ a.meshIpv4 = b.meshIpv4 ∨ a.meshIpv6 = b.meshIpv6
  clash_symm h := h.imp Eq.symm (Or.imp Eq.symm Eq.symm)
  clash_of_key h := Or.inl h

instance : DecidableRel (Row.Clash : NodeModel → NodeModel → Prop) :=
  fun a b => inferInstanceAs
    (Decidable (a.id = b.id ∨ a.meshIpv4 = b.meshIpv4 ∨ a.meshIpv6 = b.meshIpv6))

instance : Row SubnetRoute String where
  key r := r.id
  Clash a b := a.id = b.id
  clash_symm := Eq.symm
  clash_of_key := id

instance : DecidableRel (Row.Clash : SubnetRoute → SubnetRoute → Prop) :=
  fun a b => inferInstanceAs (Decidable (a.id = b.id))

instance : Row AuthToken String where
  key t := t.token
  Clash a b := a.token = b.token
  clash_symm := Eq.symm
  clash_of_key := id

instance : DecidableRel (Row.Clash : AuthToken → AuthToken → Prop) :=
  fun a b => inferInstanceAs (Decidable (a.token = b.token))

theorem node_clash_iff {a b : NodeModel} : Row.Clash a b ↔
    a.id = b.id ∨ a.meshIpv4 = b.meshIpv4 ∨ a.meshIpv6 = b.meshIpv6 := Iff.rfl

theorem network_clash_iff {a b : Network} : Row.Clash a b ↔ a.id = b.id ∨ a.name = b.name :=
  Iff.rfl

@[simp] theorem key_network (n : Network) : Row.key n = n.id := rfl

@[simp] theorem key_node (n : NodeModel) : Row.key n = n.id := rfl

@[simp] theorem key_route (r : SubnetRoute) : Row.key r = r.id := rfl

@[simp] theorem key_token (t : AuthToken) : Row.key t = t.token := rfl

/-- The tables that the modelled endpoints read and write. Foreign keys are declared in the
source, but the default SQLite engine does not enforce them. -/
@[ext]
structure Database where
  networks : Table Network
  nodes : Table NodeModel
  subnetRoutes : Table SubnetRoute
  authTokens : Table AuthToken

namespace Database

/-- The tables as `init_db` creates them. -/
def empty : Database := ⟨.empty, .empty, .empty, .empty⟩

end Database

/-- The order in which a SELECT without ORDER BY returns its rows, or in which a flush emits
its UPDATEs: any permutation. -/
structure RowOrder (ρ : Type) where
  arrange : List ρ → List ρ
  perm : ∀ l, (arrange l).Perm l

/-- The order of the table itself. -/
def RowOrder.stored {ρ : Type} : RowOrder ρ := ⟨id, fun _ => .refl _⟩

theorem RowOrder.mem {ρ : Type} (o : RowOrder ρ) {l : List ρ} {r : ρ} :
    r ∈ o.arrange l ↔ r ∈ l := (o.perm l).mem_iff

end PyMesh
