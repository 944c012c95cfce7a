import PyMesh.Library.Text
import Mathlib.Data.List.Pairwise
import Mathlib.Algebra.Order.Ring.Nat

/-! Python's `ipaddress`: addresses, networks and the hosts of a network. -/
namespace PyMesh

/-- `_BaseAddress`: an integer of 32 bits for IPv4 and of 128 bits for IPv6. -/
@[ext]
structure Address (width : Nat) where
  toNat : Nat
  lt : toNat < 2 ^ width
deriving DecidableEq

abbrev IPv4Address := Address 32

abbrev IPv6Address := Address 128

namespace Address

variable {w : Nat} {a b : Address w}

def ofNat (n : Nat) : Address w := ⟨n % 2 ^ w, Nat.mod_lt n (Nat.two_pow_pos w)⟩

/-- `__add__`, which raises `AddressValueError` above the largest address. -/
def add (a : Address w) (n : Nat) : Option (Address w) :=
  if h : a.toNat + n < 2 ^ w then some ⟨a.toNat + n, h⟩ else none

@[simp] theorem toNat_ofNat {n : Nat} (h : n < 2 ^ w) : (ofNat n : Address w).toNat = n :=
  Nat.mod_eq_of_lt h

theorem add_eq_some_iff {n : Nat} : a.add n = some b ↔ b.toNat = a.toNat + n := by
  unfold add
  split
  · rw [Option.some.injEq, Address.ext_iff]
    exact eq_comm
  · rename_i h
    constructor
    · intro hn; cases hn
    · intro hb; exact (h (hb ▸ b.lt)).elim

end Address

/-- `_BaseNetwork` as `strict=False` leaves it, with the host bits masked away. -/
structure IPNetwork (width : Nat) where
  networkAddress : Address width
  prefixlen : Nat
  prefixlen_le : prefixlen ≤ width
  aligned : 2 ^ (width - prefixlen) ∣ networkAddress.toNat
deriving DecidableEq

abbrev IPv4Network := IPNetwork 32

abbrev IPv6Network := IPNetwork 128

namespace IPNetwork

variable {w : Nat} {net : IPNetwork w} {a b : Address w}

/-- The network of an address and a prefix length: `packed & int(self.netmask)`. -/
def ofAddress (a : Address w) (p : Nat) (hp : p ≤ w) : IPNetwork w where
  networkAddress := ⟨a.toNat - a.toNat % 2 ^ (w - p), Nat.lt_of_le_of_lt (Nat.sub_le _ _) a.lt⟩
  prefixlen := p
  prefixlen_le := hp
  aligned := Nat.dvd_sub_mod a.toNat

def numAddresses (net : IPNetwork w) : Nat := 2 ^ (w - net.prefixlen)

/-- `address in network`. -/
instance : Membership (Address w) (IPNetwork w) where
  mem net a := net.networkAddress.toNat ≤ a.toNat ∧
    a.toNat < net.networkAddress.toNat + net.numAddresses

instance (a : Address w) (net : IPNetwork w) : Decidable (a ∈ net) :=
  inferInstanceAs (Decidable (_ ∧ _))

theorem mem_iff : a ∈ net ↔ net.networkAddress.toNat ≤ a.toNat ∧
    a.toNat < net.networkAddress.toNat + net.numAddresses := Iff.rfl

/-- An aligned network ends inside the address space. -/
theorem end_le (net : IPNetwork w) :
    net.networkAddress.toNat + net.numAddresses ≤ 2 ^ w := by
  obtain ⟨k, hk⟩ := net.aligned
  have hw : 2 ^ w = 2 ^ (w - net.prefixlen) * 2 ^ net.prefixlen := by
    rw [← pow_add, Nat.sub_add_cancel net.prefixlen_le]
  have hlt := net.networkAddress.lt
  rw [hk, hw] at hlt
  rw [numAddresses, hk, hw, ← Nat.mul_succ]
  exact Nat.mul_le_mul_left _ (Nat.lt_of_mul_lt_mul_left hlt)

/-- The distance of an address from the start of the network. -/
def offset (net : IPNetwork w) (a : Address w) : Nat := a.toNat - net.networkAddress.toNat

/-- The addresses that `hosts()` yields, as integers in the order in which it yields them:
both addresses of a /31, the address of a /32, else all but the first and the last. -/
def hostInts (net : IPv4Network) : List Nat :=
  let network := net.networkAddress.toNat
  if net.prefixlen = 31 then List.range' network 2
  else if net.prefixlen = 32 then [network]
  else List.range' (network + 1) (net.numAddresses - 2)

def hosts (net : IPv4Network) : List IPv4Address := net.hostInts.map Address.ofNat

theorem hostInts_mem {net : IPv4Network} {n : Nat} (h : n ∈ net.hostInts) :
    net.networkAddress.toNat ≤ n ∧ n < net.networkAddress.toNat + net.numAddresses := by
  unfold hostInts at h
  unfold numAddresses at h ⊢
  split at h
  · rename_i hp
    simp only [List.mem_range'_1, hp] at h ⊢
    omega
  · split at h
    · rename_i hp
      simp only [List.mem_singleton, hp] at h ⊢
      omega
    · simp only [List.mem_range'_1] at h
      omega

theorem hostInts_pairwise (net : IPv4Network) : net.hostInts.Pairwise (· < ·) := by
  unfold hostInts
  split
  · exact List.pairwise_lt_range' 1
  · split
    · exact List.pairwise_singleton _ _
    · exact List.pairwise_lt_range' 1

theorem mem_hosts_iff {net : IPv4Network} {a : IPv4Address} :
    a ∈ net.hosts ↔ a.toNat ∈ net.hostInts := by
  rw [hosts, List.mem_map]
  constructor
  · rintro ⟨n, hn, rfl⟩
    have hlt : n < 2 ^ 32 := Nat.lt_of_lt_of_le (hostInts_mem hn).2 net.end_le
    rwa [Address.toNat_ofNat hlt]
  · intro h
    exact ⟨a.toNat, h, Address.ext (Address.toNat_ofNat a.lt)⟩

theorem hosts_mem {net : IPv4Network} {a : IPv4Address} (h : a ∈ net.hosts) : a ∈ net :=
  hostInts_mem (mem_hosts_iff.mp h)

/-- `hosts()` is ascending. -/
theorem hosts_pairwise (net : IPv4Network) :
    net.hosts.Pairwise fun a b => a.toNat < b.toNat := by
  rw [hosts, List.pairwise_map]
  refine net.hostInts_pairwise.imp_of_mem fun {m n} hm hn h => ?_
  have hlt : ∀ k ∈ net.hostInts, k < 2 ^ 32 := fun k hk =>
    Nat.lt_of_lt_of_le (hostInts_mem hk).2 net.end_le
  rwa [Address.toNat_ofNat (hlt m hm), Address.toNat_ofNat (hlt n hn)]

end IPNetwork

end PyMesh
