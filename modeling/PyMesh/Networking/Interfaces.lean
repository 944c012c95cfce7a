import Mathlib.Data.List.Basic
import PyMesh.Ipaddress.Parse
import PyMesh.Protocol.Messages

/-! `InterfaceManager` and `RouteManager`: what their commands leave in the kernel. -/
namespace PyMesh

/-- The addresses of the mesh interface, each with its prefix length, and the routes into it. -/
structure MeshInterface (α π : Type) where
  addresses : List (α × Nat)
  routes : List π

/-- How the kernel reads the texts of a command, and that it tells an IPv4 address from an IPv6
address. -/
structure Kernel (α π : Type) where
  readAddress : String → Option α
  readAddress_ne : ∀ (a : IPv4Address) (b : IPv6Address),
    readAddress (IPv4Address.str a) ≠ readAddress (IPv6Address.str b)
  readRoute : String → Option π

namespace MeshInterface

variable {α π : Type} [DecidableEq α] [DecidableEq π]

def empty : MeshInterface α π := ⟨[], []⟩

/-- `ipr.addr("add", …)`: an address that is there already stays, which the source takes for a
success. -/
def addrAdd (k : Kernel α π) (address : String) (mask : Nat) (d : MeshInterface α π) :
    Option (MeshInterface α π) :=
  (k.readAddress address).map fun a => { d with addresses := d.addresses.insert (a, mask) }

/-- `ipr.route("add", …)`. -/
def routeAdd (k : Kernel α π) (dst : String) (d : MeshInterface α π) :
    Option (MeshInterface α π) :=
  (k.readRoute dst).map fun r => { d with routes := d.routes.insert r }

end MeshInterface

namespace InterfaceManager

variable {α π : Type} [DecidableEq α]

/-- The interface after commands that all succeed, be they those of pyroute2 or of the `ip`
tool; `none` if one fails. -/
def assignAddresses (k : Kernel α π) (ipv4Address : String) (ipv6Address : Option String)
    (d : MeshInterface α π) : Option (MeshInterface α π) := do
  let d ← d.addrAdd k ipv4Address 10
  match truthy ipv6Address with
  | none => return d
  | some ipv6Address => d.addrAdd k ipv6Address 48

variable {k : Kernel α π} {d d' : MeshInterface α π} {ipv4Address : String}
  {ipv6Address : Option String}

/-- What a success leaves: the addresses of the call besides those that were there. -/
theorem mem_assignAddresses (h : assignAddresses k ipv4Address ipv6Address d = some d') :
    d'.routes = d.routes ∧ ∀ x, x ∈ d'.addresses ↔ x ∈ d.addresses ∨
      (k.readAddress ipv4Address = some x.1 ∧ x.2 = 10) ∨
      (∃ t, truthy ipv6Address = some t ∧ k.readAddress t = some x.1 ∧ x.2 = 48) := by
  unfold assignAddresses at h
  obtain ⟨d₁, h₁, h⟩ := Option.bind_eq_some_iff.mp h
  obtain ⟨a, ha, rfl⟩ := Option.map_eq_some_iff.mp h₁
  have hpair : ∀ (b : α) (n : Nat) (x : α × Nat), x = (b, n) ↔ some b = some x.1 ∧ x.2 = n := by
    rintro b n ⟨c, m⟩
    simp [eq_comm]
  cases ht : truthy ipv6Address with
  | none =>
    rw [ht] at h
    cases h
    refine ⟨rfl, fun x => ?_⟩
    simp only [List.mem_insert_iff, hpair, ← ha, reduceCtorEq, false_and, exists_false, or_false]
    exact or_comm
  | some t =>
    rw [ht] at h
    obtain ⟨b, hb, rfl⟩ := Option.map_eq_some_iff.mp h
    refine ⟨rfl, fun x => ?_⟩
    simp only [List.mem_insert_iff, hpair, ← ha, ← hb, Option.some.injEq, exists_eq_left']
    rw [or_comm, or_comm (b := x ∈ d.addresses), or_assoc]

/-- A success shows that the kernel could read the addresses. -/
theorem readable_of_assignAddresses (h : assignAddresses k ipv4Address ipv6Address d = some d') :
    (∃ a, k.readAddress ipv4Address = some a) ∧
      ∀ t, truthy ipv6Address = some t → ∃ a, k.readAddress t = some a := by
  unfold assignAddresses at h
  obtain ⟨d₁, h₁, h⟩ := Option.bind_eq_some_iff.mp h
  obtain ⟨a, ha, rfl⟩ := Option.map_eq_some_iff.mp h₁
  refine ⟨⟨a, ha⟩, fun t ht => ?_⟩
  rw [ht] at h
  obtain ⟨b, hb, rfl⟩ := Option.map_eq_some_iff.mp h
  exact ⟨b, hb⟩

end InterfaceManager

namespace RouteManager

variable {α π : Type} [DecidableEq π]

def addSubnetRoute (k : Kernel α π) (destinationSubnet : String) (d : MeshInterface α π) :
    Option (MeshInterface α π) :=
  d.routeAdd k destinationSubnet

/-- One call after the other. -/
def addSubnetRoutes (k : Kernel α π) (destinations : List String) (d : MeshInterface α π) :
    Option (MeshInterface α π) :=
  destinations.foldlM (fun d dst => addSubnetRoute k dst d) d

variable {k : Kernel α π} {d d' : MeshInterface α π} {destinations : List String}

theorem mem_addSubnetRoutes (h : addSubnetRoutes k destinations d = some d') :
    d'.addresses = d.addresses ∧ ∀ r, r ∈ d'.routes ↔
      r ∈ d.routes ∨ ∃ dst ∈ destinations, k.readRoute dst = some r := by
  induction destinations generalizing d with
  | nil =>
    cases h
    simp
  | cons dst destinations ih =>
    rw [addSubnetRoutes, List.foldlM_cons] at h
    obtain ⟨d₁, h₁, h⟩ := Option.bind_eq_some_iff.mp h
    obtain ⟨r₁, hr₁, rfl⟩ := Option.map_eq_some_iff.mp h₁
    obtain ⟨haddr, hroutes⟩ := ih h
    refine ⟨haddr, fun r => ?_⟩
    rw [hroutes, List.mem_insert_iff]
    simp only [List.mem_cons, or_and_right, exists_or, exists_eq_left, hr₁, Option.some.injEq]
    rw [or_comm (b := r ∈ d.routes), or_assoc, eq_comm]

theorem readable_of_addSubnetRoutes (h : addSubnetRoutes k destinations d = some d') :
    ∀ dst ∈ destinations, ∃ r, k.readRoute dst = some r := by
  induction destinations generalizing d with
  | nil => simp
  | cons dst destinations ih =>
    rw [addSubnetRoutes, List.foldlM_cons] at h
    obtain ⟨d₁, h₁, h⟩ := Option.bind_eq_some_iff.mp h
    obtain ⟨r₁, hr₁, -⟩ := Option.map_eq_some_iff.mp h₁
    intro dst' hdst'
    rcases List.mem_cons.mp hdst' with rfl | hdst'
    · exact ⟨r₁, hr₁⟩
    · exact ih h dst' hdst'

end RouteManager

end PyMesh
