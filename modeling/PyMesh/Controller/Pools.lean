import PyMesh.Controller.Renumbering

/-! Which addresses `IPAllocator.allocate` hands out and which it keeps back, and the numbering
that the loop of `update_network_subnet` makes of it. -/
namespace PyMesh

open FirstFit

namespace IPAllocator

variable {al : IPAllocator} {host v4 : IPv4Address} {v6 : IPv6Address}
  {allocatedV4 : List IPv4Address} {allocatedV6 : List IPv6Address} {e : Exc}

/-- The error of a pool in which nothing is left. -/
def exhausted : Exc := .runtimeError "IPv4 subnet exhaustion in mesh pool."

/-- The address is the network address, the broadcast address of a prefix that has one, or the
address after the network address, which is the controller's. -/
def KeptBack (net : IPv4Network) (host : IPv4Address) : Prop :=
  host = net.networkAddress ∨
    (net.prefixlen ≤ 30 ∧ host.toNat = net.networkAddress.toNat + net.numAddresses - 1) ∨
    host.toNat = net.networkAddress.toNat + 1

instance (net : IPv4Network) (host : IPv4Address) : Decidable (KeptBack net host) :=
  inferInstanceAs (Decidable (_ ∨ _))

/-- `allocate` keeps those addresses back, and nothing else. -/
def KeepsBack (al : IPAllocator) (allocatedV4 : List IPv4Address)
    (allocatedV6 : List IPv6Address) : Prop :=
  (∀ v4 v6, al.allocate allocatedV4 allocatedV6 = .ok (v4, v6) → ¬ KeptBack al.ipv4Net v4) ∧
  (al.allocate allocatedV4 allocatedV6 = .error exhausted →
    ∀ host ∈ al.ipv4Net.hosts, ¬ KeptBack al.ipv4Net host → host ∈ allocatedV4)

/-- The controller's address ends in `.1` or is taken, unless there is no such address or its
IPv6 address does not exist. -/
def ControllerKept (al : IPAllocator) (allocatedV4 : List IPv4Address) : Prop :=
  al.ipv4Net.networkAddress.toNat % 256 = 0 ∨ al.ipv4Net.prefixlen = 32 ∨
    (∃ a ∈ allocatedV4, a.toNat = al.ipv4Net.networkAddress.toNat + 1) ∨
    2 ^ 128 ≤ al.ipv6Net.networkAddress.toNat + 1

/-- When all hosts are taken that do not end in `.1`, those that do are taken too, the
controller's apart. -/
def OnesTaken (al : IPAllocator) (allocatedV4 : List IPv4Address) : Prop :=
  (∀ host ∈ al.eligible, host ∈ allocatedV4) → ∀ host ∈ al.ipv4Net.hosts, host.toNat % 256 = 1 →
    ¬ KeptBack al.ipv4Net host → host ∈ allocatedV4

/-- No host is the broadcast address. -/
theorem hosts_not_broadcast (h : host ∈ al.ipv4Net.hosts) (hp : al.ipv4Net.prefixlen ≤ 30) :
    host.toNat ≠ al.ipv4Net.networkAddress.toNat + al.ipv4Net.numAddresses - 1 := by
  have hn := IPNetwork.mem_hosts_iff.mp h
  rw [IPNetwork.hostInts, if_neg (by omega), if_neg (by omega), List.mem_range'_1] at hn
  omega

/-- The controller's address is a host unless the prefix is a single address. -/
theorem exists_controller (hp : al.ipv4Net.prefixlen ≠ 32) : ∃ host ∈ al.ipv4Net.hosts,
    host.toNat = al.ipv4Net.networkAddress.toNat + 1 := by
  have hle := al.ipv4Net.prefixlen_le
  have hsize : 2 ≤ al.ipv4Net.numAddresses ∧
      (al.ipv4Net.prefixlen ≤ 30 → 4 ≤ al.ipv4Net.numAddresses) := by
    have hpow : ∀ k ≤ 32 - al.ipv4Net.prefixlen, 2 ^ k ≤ al.ipv4Net.numAddresses :=
      fun k hk => Nat.pow_le_pow_right (by decide) hk
    exact ⟨hpow 1 (by omega), fun h => hpow 2 (by omega)⟩
  have hend := al.ipv4Net.end_le
  refine ⟨⟨al.ipv4Net.networkAddress.toNat + 1, by omega⟩, IPNetwork.mem_hosts_iff.mpr ?_, rfl⟩
  unfold IPNetwork.hostInts
  split
  · simp [List.mem_range'_1]
  · simp only [List.mem_range'_1]
    omega

theorem not_keptBack_of_eligible (h : host ∈ al.eligible)
    (hc : host.toNat ≠ al.ipv4Net.networkAddress.toNat + 1) : ¬ KeptBack al.ipv4Net host := by
  obtain ⟨hhost, hnet, -⟩ := mem_eligible.mp h
  rintro (hk | ⟨hp, hk⟩ | hk)
  · exact hnet hk
  · exact hosts_not_broadcast hhost hp hk
  · exact hc hk

/-- The controller's address is handed out exactly where it is free, does not end in `.1` and has
an IPv6 address: it is the first host then. -/
theorem controller_allocated_iff (al : IPAllocator) (allocatedV4 : List IPv4Address)
    (allocatedV6 : List IPv6Address) :
    (∃ v4 v6, al.allocate allocatedV4 allocatedV6 = .ok (v4, v6) ∧
      v4.toNat = al.ipv4Net.networkAddress.toNat + 1) ↔ ¬ ControllerKept al allocatedV4 := by
  simp only [allocate_eq_ok_iff, ControllerKept, not_or, not_exists, not_and, Nat.not_le]
  constructor
  · rintro ⟨v4, v6, ⟨hfit, h6⟩, hc⟩
    obtain ⟨hhost, -, hone⟩ := mem_eligible.mp (firstFit_mem hfit)
    refine ⟨by omega, ?_, ?_, ?_⟩
    · intro hp
      have hn := IPNetwork.mem_hosts_iff.mp hhost
      simp only [IPNetwork.hostInts, hp] at hn
      simp at hn
      omega
    · intro a ha hac
      have he : a = v4 := Address.ext (hac.trans hc.symm)
      exact firstFit_not_held hfit (he ▸ ha)
    · have hlt := v6.lt
      have hsum := derive6_eq_some_iff.mp h6
      unfold IPNetwork.offset at hsum
      omega
  · rintro ⟨hbase, hp, hfree, h6⟩
    obtain ⟨c, hhost, hc⟩ := exists_controller hp
    have helig : c ∈ al.eligible := by
      refine mem_eligible.mpr ⟨hhost, ?_, by omega⟩
      rintro rfl
      omega
    have hnot : c ∉ allocatedV4 := fun hmem => hfree c hmem hc
    obtain ⟨v4, hfit⟩ : ∃ v4, firstFit al.eligible allocatedV4 = some v4 := by
      cases hf : firstFit al.eligible allocatedV4 with
      | none => exact (hnot (firstFit_eq_none_iff.mp hf c helig)).elim
      | some v4 => exact ⟨v4, rfl⟩
    -- Every host that can be handed out lies behind the network address.
    have hle : al.ipv4Net.networkAddress.toNat + 1 ≤ v4.toNat := by
      obtain ⟨hv, hne, -⟩ := mem_eligible.mp (firstFit_mem hfit)
      have hge := (IPNetwork.mem_iff.mp (IPNetwork.hosts_mem hv)).1
      have hne' : v4.toNat ≠ al.ipv4Net.networkAddress.toNat := fun he => hne (Address.ext he)
      omega
    have hv4 : v4.toNat = al.ipv4Net.networkAddress.toNat + 1 := by
      rcases firstFit_le al.eligible_pairwise hfit helig hnot with he | hlt
      · rw [← he, hc]
      · omega
    have hoff : al.ipv4Net.offset v4 = 1 := by
      unfold IPNetwork.offset
      omega
    refine ⟨v4, ⟨al.ipv6Net.networkAddress.toNat + 1, h6⟩, ⟨hfit, ?_⟩, hv4⟩
    rw [derive6_eq_some_iff, hoff]

theorem allocate_exhausted_iff : al.allocate allocatedV4 allocatedV6 = .error exhausted ↔
    ∀ host ∈ al.eligible, host ∈ allocatedV4 := by
  constructor
  · intro h
    rcases allocate_error h with ⟨-, hall⟩ | ⟨he, -⟩
    · exact hall
    · simp [exhausted] at he
  · intro h
    rw [allocate_eq, firstFit_eq_none_iff.mpr h]
    rfl

/-- The reserved addresses are kept back and no others, if and only if the controller's is and
no host is lost that ends in `.1` like the controller's. -/
theorem keepsBack_iff (al : IPAllocator) (allocatedV4 : List IPv4Address)
    (allocatedV6 : List IPv6Address) : KeepsBack al allocatedV4 allocatedV6 ↔
      ControllerKept al allocatedV4 ∧ OnesTaken al allocatedV4 := by
  rw [KeepsBack, allocate_exhausted_iff, OnesTaken]
  refine and_congr ?_ (imp_congr_right fun hall => ?_)
  · rw [← not_iff_not, ← controller_allocated_iff al allocatedV4 allocatedV6]
    simp only [not_forall, not_not]
    constructor
    · rintro ⟨v4, v6, h, hk⟩
      by_contra hno
      have hc : v4.toNat ≠ al.ipv4Net.networkAddress.toNat + 1 := fun hc => hno ⟨v4, v6, h, hc⟩
      exact not_keptBack_of_eligible (firstFit_mem (allocate_eq_ok_iff.mp h).1) hc hk
    · rintro ⟨v4, v6, h, hc⟩
      exact ⟨v4, v6, h, Or.inr (Or.inr hc)⟩
  · constructor
    · exact fun h host hhost _ hk => h host hhost hk
    · intro h host hhost hk
      by_cases hone : host.toNat % 256 = 1
      · exact h host hhost hone hk
      · exact hall host (mem_eligible.mpr ⟨hhost, fun he => hk (Or.inl he), hone⟩)

/-- `fd00::/64` -/
def unique6 : IPv6Network := .ofAddress ⟨0xfd00 * 2 ^ 112, by decide⟩ 64 (by decide)

/-- `10.0.0.128/25` -/
def upperHalf : IPAllocator := ⟨.ofAddress ⟨0x0a000080, by decide⟩ 25 (by decide), unique6⟩

/-- `10.0.0.0/23` -/
def twoBlocks : IPAllocator := ⟨.ofAddress ⟨0x0a000000, by decide⟩ 23 (by decide), unique6⟩

/-- The controller's address `10.0.0.129` is handed out first; `10.0.1.1` is never. -/
theorem keepsBack_fails : (∃ v4 v6, upperHalf.allocate [] [] = .ok (v4, v6) ∧
      v4.toNat = 0x0a000081 ∧ KeptBack upperHalf.ipv4Net v4) ∧
    ∃ host ∈ twoBlocks.ipv4Net.hosts, twoBlocks.allocate twoBlocks.eligible [] = .error exhausted ∧
      host.toNat = 0x0a000101 ∧ ¬ KeptBack twoBlocks.ipv4Net host ∧ host ∉ twoBlocks.eligible := by
  constructor
  · obtain ⟨v4, v6, h, hc⟩ := (controller_allocated_iff upperHalf [] []).mpr (by
      simp only [ControllerKept]
      decide)
    exact ⟨v4, v6, h, hc, Or.inr (Or.inr hc)⟩
  · refine ⟨⟨0x0a000101, by decide⟩, IPNetwork.mem_hosts_iff.mpr ?_, ?_, rfl, ?_, ?_⟩
    · rw [IPNetwork.hostInts, if_neg (by decide), if_neg (by decide), List.mem_range'_1]
      decide
    · exact allocate_exhausted_iff.mpr fun host h => h
    · decide
    · exact fun h => (mem_eligible.mp h).2.2 (by decide)

end IPAllocator

namespace Api

variable {al : IPAllocator} {nodes : List NodeModel}
  {new : List (NodeModel × IPv4Address × IPv6Address)}

/-- The hosts of a prefix that are not the network address and do not end in `.1`. -/
def usable (net : IPv4Network) : List IPv4Address :=
  net.hosts.filter fun host => host ≠ net.networkAddress ∧ host.toNat % 256 ≠ 1

theorem usable_eq (al : IPAllocator) : usable al.ipv4Net = al.eligible := by
  rw [usable, IPAllocator.eligible]
  refine List.filter_congr fun host _ => ?_
  rw [Bool.eq_iff_iff]
  simp [← Bool.not_eq_true, IPAllocator.reserved_iff]

theorem new_hosts (h : reallocate al nodes [] [] = .ok new) :
    new.map (fun x => x.2.1) = al.eligible.take nodes.length := by
  obtain ⟨hlen, hmap, -⟩ := reallocate_eq_ok_iff.mp h
  have hsnd := congrArg (List.map Prod.snd) hmap
  rw [List.map_map, places, List.zip_eq_zip_take_min, Nat.min_eq_left hlen,
    List.take_length] at hsnd
  rwa [List.map_snd_zip (by simp)] at hsnd

theorem new_derive6 (h : reallocate al nodes [] [] = .ok new)
    {x : NodeModel × IPv4Address × IPv6Address} (hx : x ∈ new) :
    x.2.1 ∈ al.eligible ∧ al.derive6 x.2.1 = some x.2.2 := by
  have hmem : x.2.1 ∈ new.map fun x => x.2.1 := List.mem_map_of_mem hx
  rw [new_hosts h] at hmem
  exact ⟨List.mem_of_mem_take hmem, (reallocate_eq_ok_iff.mp h).2.2 x hx⟩

theorem new_hosts_nodup (h : reallocate al nodes [] [] = .ok new) :
    (new.map fun x => x.2.1).Nodup := by
  rw [new_hosts h]
  exact al.eligible_nodup.sublist (List.take_sublist _ _)

/-- The derivation keeps the IPv6 addresses apart. -/
theorem new_addresses_nodup (h : reallocate al nodes [] [] = .ok new) :
    (new.map fun x => x.2.2).Nodup := by
  have hnodup := List.Nodup.of_map _ (new_hosts_nodup h)
  refine List.Nodup.map_on (fun x hx y hy h6 => ?_) hnodup
  obtain ⟨hxe, hxd⟩ := new_derive6 h hx
  obtain ⟨hye, hyd⟩ := new_derive6 h hy
  rw [← h6] at hyd
  have h4 : x.2.1 = y.2.1 := IPAllocator.derive6_inj (IPAllocator.eligible_mem_net hxe)
    (IPAllocator.eligible_mem_net hye) hxd hyd
  exact List.inj_on_of_nodup_map (new_hosts_nodup h) hx hy h4

theorem derive6_eq_none_iff {host : IPv4Address} : al.derive6 host = none ↔
    2 ^ 128 ≤ al.ipv6Net.networkAddress.toNat +
      (host.toNat - al.ipv4Net.networkAddress.toNat) := by
  unfold IPAllocator.derive6 Address.add IPNetwork.offset
  split <;> simp <;> omega

/-- The loop fails for want of a host or of an IPv6 address. -/
theorem reallocate_error_iff : (∃ e, reallocate al nodes [] [] = .error e) ↔
    al.eligible.length < nodes.length ∨
      ∃ host ∈ al.eligible.take nodes.length, al.derive6 host = none := by
  constructor
  · rintro ⟨e, he⟩
    by_contra hno
    obtain ⟨hlen, h6⟩ := not_or.mp hno
    obtain ⟨new, hnew⟩ := exists_reallocate (Nat.not_lt.mp hlen) fun host hh => by
      rw [Option.isSome_iff_ne_none]
      exact fun hn => h6 ⟨host, hh, hn⟩
    rw [hnew] at he
    cases he
  · intro hbad
    cases hr : reallocate al nodes [] [] with
    | error e => exact ⟨e, rfl⟩
    | ok new =>
      obtain ⟨hlen, h6⟩ := bounds_of_reallocate hr
      rcases hbad with hlt | ⟨host, hh, hn⟩
      · omega
      · have hsome := h6 host hh
        rw [hn] at hsome
        cases hsome

/-- The loop of `update_network_subnet` gives the node at place `i` the usable host at place `i`
and the IPv6 address at its offset, so no address is given twice and none is left out; it fails
exactly when there are too few hosts or one of those IPv6 addresses does not exist. -/
theorem reallocate_closed_form (al : IPAllocator) (nodes : List NodeModel) :
    (usable al.ipv4Net).Pairwise (fun a b => a.toNat < b.toNat) ∧
    (∀ new, reallocate al nodes [] [] = .ok new →
      new.map Prod.fst = nodes ∧
      new.map (fun x => x.2.1) = (usable al.ipv4Net).take nodes.length ∧
      (∀ x ∈ new, x.2.2.toNat = al.ipv6Net.networkAddress.toNat +
        (x.2.1.toNat - al.ipv4Net.networkAddress.toNat)) ∧
      (new.map fun x => x.2.1).Nodup ∧ (new.map fun x => x.2.2).Nodup) ∧
    ((∃ e, reallocate al nodes [] [] = .error e) ↔
      (usable al.ipv4Net).length < nodes.length ∨
      ∃ i < nodes.length, ∃ host, (usable al.ipv4Net)[i]? = some host ∧
        2 ^ 128 ≤ al.ipv6Net.networkAddress.toNat +
          (host.toNat - al.ipv4Net.networkAddress.toNat)) := by
  rw [usable_eq]
  refine ⟨al.eligible_pairwise, fun new h => ?_, ?_⟩
  · refine ⟨new_fst h, new_hosts h, fun x hx => ?_, new_hosts_nodup h, new_addresses_nodup h⟩
    exact IPAllocator.derive6_eq_some_iff.mp (new_derive6 h hx).2
  · rw [reallocate_error_iff]
    refine or_congr_right ?_
    simp only [derive6_eq_none_iff, List.mem_iff_getElem?, List.getElem?_take]
    constructor
    · rintro ⟨host, ⟨i, hi⟩, h6⟩
      split at hi
      · rename_i hlt
        exact ⟨i, hlt, host, hi, h6⟩
      · cases hi
    · rintro ⟨i, hlt, host, hi, h6⟩
      exact ⟨host, ⟨i, by rw [if_pos hlt, hi]⟩, h6⟩

end Api

end PyMesh
