import PyMesh.Controller.Identities

/-! Registrations in one network, with and without the nodes of another. -/
namespace PyMesh

open FirstFit LTS Relational Resumption

variable {db db' : Database} {A B id networkName : String} {now : Nat} {node : NodeModel}
  {req : NodeRegistrationRequest} {al : IPAllocator} {v4 : IPv4Address} {v6 : IPv6Address}

/-- The tables without the nodes of a network. -/
def withoutNodes (networkName : String) (db : Database) : Database :=
  { db with nodes := db.nodes.delete fun n => n.networkId = "net-" ++ networkName }

/-- No node of any network has the id or one of the addresses. -/
def Unclaimed (id : String) (v4 : IPv4Address) (v6 : IPv6Address) (db : Database) : Prop :=
  ∀ n ∈ db.nodes.rows, n.id ≠ id ∧ n.meshIpv4 ≠ v4 ∧ n.meshIpv6 ≠ v6

namespace NodeManager

end NodeManager

section Without

theorem Sound.withoutNodes (hs : Sound db) (A : String) : Sound (withoutNodes A db) where
  keyed n hn := hs.keyed n (Table.mem_delete.mp hn).1
  named := hs.named
  parsed := hs.parsed

theorem Unclaimed.withoutNodes (h : Unclaimed id v4 v6 db) (A : String) :
    Unclaimed id v4 v6 (withoutNodes A db) :=
  fun n hn => h n (Table.mem_delete.mp hn).1

end Without

end PyMesh
