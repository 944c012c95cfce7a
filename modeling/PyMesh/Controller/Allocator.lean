import PyMesh.Library.FirstFit
import PyMesh.Ipaddress.Str
import PyMesh.Protocol.Messages
import PyMesh.Storage.Models

/-! `IPAllocator`: the lowest free IPv4 host, and the IPv6 address at the same offset. -/
namespace PyMesh

open FirstFit Text

structure IPAllocator where
  ipv4Net : IPv4Network
  ipv6Net : IPv6Network

namespace IPAllocator

/-- `IPAllocator(ipv4_cidr, ipv6_cidr)`. -/
def make (ipv4Cidr ipv6Cidr : String) : Except Exc IPAllocator :=
  match IPv4Network.parse ipv4Cidr, IPv6Network.parse ipv6Cidr with
  | some ipv4Net, some ipv6Net => .ok ⟨ipv4Net, ipv6Net⟩
  | _, _ => .error .addressValueError

/-- The hosts that the loop of `allocate` skips. -/
def reserved (al : IPAllocator) (host : IPv4Address) : Bool :=
  let hostStr := IPv4Address.str host
  hostStr == IPv4Address.str al.ipv4Net.networkAddress || endsWith hostStr ".1"

def allocate (al : IPAllocator) (allocatedV4 : List IPv4Address)
    (_allocatedV6 : List IPv6Address) : Except Exc (IPv4Address × IPv6Address) :=
  let next := al.ipv4Net.hosts.find? fun host => !al.reserved host && decide (host ∉ allocatedV4)
  match next with
  | none => .error (.runtimeError "IPv4 subnet exhaustion in mesh pool.")
  | some nextV4 =>
    -- Derive IPv6 from IPv4 host offset
    let hostInt := nextV4.toNat - al.ipv4Net.networkAddress.toNat
    match al.ipv6Net.networkAddress.add hostInt with
    | none => .error .addressValueError
    | some nextV6 => .ok (nextV4, nextV6)

def validateCidr (ipv4Cidr : String) (ipv6Cidr : Option String) : Bool :=
  (IPv4Network.parse ipv4Cidr).isSome &&
    match truthy ipv6Cidr with
    | some cidr => (IPv6Network.parse cidr).isSome
    | none => true

/-- The hosts that can be handed out, in ascending order. -/
def eligible (al : IPAllocator) : List IPv4Address :=
  al.ipv4Net.hosts.filter fun host => !al.reserved host

/-- The IPv6 address at the offset of an IPv4 address. -/
def derive6 (al : IPAllocator) (v4 : IPv4Address) : Option IPv6Address :=
  al.ipv6Net.networkAddress.add (al.ipv4Net.offset v4)

variable {al : IPAllocator} {host v4 : IPv4Address} {v6 : IPv6Address}
  {allocatedV4 : List IPv4Address} {allocatedV6 : List IPv6Address} {e : Exc}

theorem reserved_iff : al.reserved host = true ↔
    host = al.ipv4Net.networkAddress ∨ host.toNat % 256 = 1 := by
  simp only [reserved, Bool.or_eq_true, beq_iff_eq, IPv4Address.endsWith_dotOne,
    IPv4Address.str_injective.eq_iff]

theorem mem_eligible : host ∈ al.eligible ↔
    host ∈ al.ipv4Net.hosts ∧ host ≠ al.ipv4Net.networkAddress ∧ host.toNat % 256 ≠ 1 := by
  simp only [eligible, List.mem_filter, Bool.not_eq_true', ← Bool.not_eq_true, reserved_iff,
    not_or]

theorem eligible_mem_net (h : host ∈ al.eligible) : host ∈ al.ipv4Net :=
  IPNetwork.hosts_mem (mem_eligible.mp h).1

theorem eligible_pairwise (al : IPAllocator) :
    al.eligible.Pairwise fun a b => a.toNat < b.toNat :=
  al.ipv4Net.hosts_pairwise.filter _

theorem eligible_nodup (al : IPAllocator) : al.eligible.Nodup :=
  al.eligible_pairwise.imp fun h he => by simp [he] at h

/-- `allocate` is first fit on the eligible hosts, followed by the IPv6 derivation. -/
theorem allocate_eq : al.allocate allocatedV4 allocatedV6 =
    match firstFit al.eligible allocatedV4 with
    | none => .error (.runtimeError "IPv4 subnet exhaustion in mesh pool.")
    | some nextV4 => match al.derive6 nextV4 with
      | none => .error .addressValueError
      | some nextV6 => .ok (nextV4, nextV6) := by
  have hf : al.ipv4Net.hosts.find? (fun host => !al.reserved host && decide (host ∉ allocatedV4)) =
      firstFit al.eligible allocatedV4 := by
    rw [firstFit, eligible, List.find?_filter]
    refine congrArg (fun p => List.find? p _) (funext fun host => ?_)
    simp
  simp only [allocate, hf]
  cases firstFit al.eligible allocatedV4 <;> rfl

theorem allocate_eq_ok_iff : al.allocate allocatedV4 allocatedV6 = .ok (v4, v6) ↔
    firstFit al.eligible allocatedV4 = some v4 ∧ al.derive6 v4 = some v6 := by
  rw [allocate_eq]
  cases hf : firstFit al.eligible allocatedV4 with
  | none => simp
  | some a =>
    cases hd : al.derive6 a with
    | none =>
      simp only [hd, reduceCtorEq, Option.some.injEq, false_iff]
      rintro ⟨rfl, h⟩
      simp [hd] at h
    | some b =>
      simp only [hd, Except.ok.injEq, Prod.mk.injEq, Option.some.injEq]
      constructor
      · rintro ⟨rfl, rfl⟩
        exact ⟨rfl, hd⟩
      · rintro ⟨rfl, h⟩
        exact ⟨rfl, Option.some.inj (hd.symm.trans h)⟩

/-- An error of `allocate` says that the pool is exhausted, or that the derived address does
not fit into 128 bits. -/
theorem allocate_error (h : al.allocate allocatedV4 allocatedV6 = .error e) :
    (e = .runtimeError "IPv4 subnet exhaustion in mesh pool." ∧
      ∀ host ∈ al.eligible, host ∈ allocatedV4) ∨
    (e = .addressValueError ∧ ∃ v4, firstFit al.eligible allocatedV4 = some v4 ∧
      al.derive6 v4 = none) := by
  rw [allocate_eq] at h
  cases hf : firstFit al.eligible allocatedV4 with
  | none =>
    rw [hf] at h
    cases h
    exact Or.inl ⟨rfl, firstFit_eq_none_iff.mp hf⟩
  | some a =>
    rw [hf] at h
    cases hd : al.derive6 a with
    | none =>
      simp only [hd] at h
      cases h
      exact Or.inr ⟨rfl, a, rfl, hd⟩
    | some b => simp [hd] at h

theorem derive6_eq_some_iff : al.derive6 v4 = some v6 ↔
    v6.toNat = al.ipv6Net.networkAddress.toNat + al.ipv4Net.offset v4 :=
  Address.add_eq_some_iff

/-- Inside the IPv4 prefix the derivation keeps different addresses different. -/
theorem derive6_inj {a b : IPv4Address} (ha : a ∈ al.ipv4Net) (hb : b ∈ al.ipv4Net)
    (h : al.derive6 a = some v6) (h' : al.derive6 b = some v6) : a = b := by
  have hla := (IPNetwork.mem_iff.mp ha).1
  have hlb := (IPNetwork.mem_iff.mp hb).1
  have ho := (derive6_eq_some_iff.mp h).symm.trans (derive6_eq_some_iff.mp h')
  unfold IPNetwork.offset at ho
  exact Address.ext (by omega)

theorem make_eq_ok_iff {ipv4Cidr ipv6Cidr : String} : make ipv4Cidr ipv6Cidr = .ok al ↔
    IPv4Network.parse ipv4Cidr = some al.ipv4Net ∧
      IPv6Network.parse ipv6Cidr = some al.ipv6Net := by
  unfold make
  cases IPv4Network.parse ipv4Cidr with
  | none => simp
  | some n4 =>
    cases IPv6Network.parse ipv6Cidr with
    | none => simp
    | some n6 =>
      simp only [Except.ok.injEq, Option.some.injEq]
      constructor
      · rintro rfl
        exact ⟨rfl, rfl⟩
      · rintro ⟨rfl, rfl⟩
        rfl

end IPAllocator

end PyMesh
