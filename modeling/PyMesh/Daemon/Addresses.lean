import PyMesh.Daemon.Sync
import PyMesh.Networking.Interfaces

/-! What the syncs of a daemon leave on its mesh interface. -/
namespace PyMesh

open LTS Text PeerManager

namespace DaemonLifecycle

variable {α π : Type} [DecidableEq α] [DecidableEq π]

/-- The prefixes of the config's routes via other nodes. -/
def subnets (nodeId : String) (config : NetworkConfigResponse) : List String :=
  (config.routes.filter fun r => r.viaNodeId ≠ nodeId).map RouteEntry.pfx

/-- The part of a sync that has fetched `config` which is about the interface; no command of it
fails. -/
def Readdresses (k : Kernel α π) (nodeId : String) (d : MeshInterface α π)
    (config : NetworkConfigResponse) (d' : MeshInterface α π) : Prop :=
  (InterfaceManager.assignAddresses k config.meshIpv4 (some config.meshIpv6) d >>=
    RouteManager.addSubnetRoutes k (subnets nodeId config)) = some d'

/-- The prefix lengths that the controller has recorded for the network of a node. -/
def prefixlens (db : Database) (nodeId : String) : Option (Nat × Nat) := do
  let node ← db.nodes.find nodeId
  let network ← db.networks.find node.networkId
  let net4 ← IPv4Network.parse network.ipv4Prefix
  let net6 ← IPv6Network.parse network.ipv6Prefix
  return (net4.prefixlen, net6.prefixlen)

/-- The interface carries the two addresses of the config with the recorded prefix lengths and no
others, and exactly the routes via other nodes. -/
def Conveyed (k : Kernel α π) (db : Database) (nodeId : String) (config : NetworkConfigResponse)
    (d : MeshInterface α π) : Prop :=
  (∃ len4 len6, prefixlens db nodeId = some (len4, len6) ∧
    ∀ x, x ∈ d.addresses ↔ (k.readAddress config.meshIpv4 = some x.1 ∧ x.2 = len4) ∨
      (k.readAddress config.meshIpv6 = some x.1 ∧ x.2 = len6)) ∧
  ∀ r, r ∈ d.routes ↔ ∃ dst ∈ subnets nodeId config, k.readRoute dst = some r

/-- The kernel can read what a sync passes to it. -/
def Readable (k : Kernel α π) (nodeId : String) (config : NetworkConfigResponse) : Prop :=
  (∃ a, k.readAddress config.meshIpv4 = some a) ∧
  (∀ t, truthy (some config.meshIpv6) = some t → ∃ a, k.readAddress t = some a) ∧
  ∀ dst ∈ subnets nodeId config, ∃ r, k.readRoute dst = some r

variable {k : Kernel α π} {d d' : MeshInterface α π} {config c : NetworkConfigResponse}
  {cs : List NetworkConfigResponse} {db : Database} {nodeOrder : RowOrder NodeModel}
  {routeOrder : RowOrder SubnetRoute} {nodeId : String}

theorem mem_of_readdresses (h : Readdresses k nodeId d config d') :
    (∀ x, x ∈ d'.addresses ↔ x ∈ d.addresses ∨
      (k.readAddress config.meshIpv4 = some x.1 ∧ x.2 = 10) ∨
      (∃ t, truthy (some config.meshIpv6) = some t ∧ k.readAddress t = some x.1 ∧ x.2 = 48)) ∧
    ∀ r, r ∈ d'.routes ↔ r ∈ d.routes ∨ ∃ dst ∈ subnets nodeId config, k.readRoute dst = some r := by
  obtain ⟨d₁, h₁, h₂⟩ := Option.bind_eq_some_iff.mp h
  obtain ⟨hroutes, haddr⟩ := InterfaceManager.mem_assignAddresses h₁
  obtain ⟨haddr', hroutes'⟩ := RouteManager.mem_addSubnetRoutes h₂
  refine ⟨fun x => ?_, fun r => ?_⟩
  · rw [haddr', haddr]
  · rw [hroutes', hroutes]

theorem readable_of_readdresses (h : Readdresses k nodeId d config d') :
    Readable k nodeId config := by
  obtain ⟨d₁, h₁, h₂⟩ := Option.bind_eq_some_iff.mp h
  obtain ⟨h4, h6⟩ := InterfaceManager.readable_of_assignAddresses h₁
  exact ⟨h4, h6, RouteManager.readable_of_addSubnetRoutes h₂⟩

/-- After any syncs the interface carries what all the configs together have. -/
theorem mem_of_run (h : Run (Readdresses k nodeId) MeshInterface.empty cs d) :
    (∀ x, x ∈ d.addresses ↔ ∃ e ∈ cs,
      (k.readAddress e.meshIpv4 = some x.1 ∧ x.2 = 10) ∨
      (∃ t, truthy (some e.meshIpv6) = some t ∧ k.readAddress t = some x.1 ∧ x.2 = 48)) ∧
    (∀ r, r ∈ d.routes ↔ ∃ e ∈ cs, ∃ dst ∈ subnets nodeId e, k.readRoute dst = some r) ∧
    ∀ e ∈ cs, Readable k nodeId e := by
  induction h with
  | refl => simp [MeshInterface.empty]
  | tail _ hs ih =>
    obtain ⟨haddr, hroutes⟩ := mem_of_readdresses hs
    obtain ⟨ihaddr, ihroutes, ihread⟩ := ih
    refine ⟨fun x => ?_, fun r => ?_, fun e he => ?_⟩
    · rw [haddr, ihaddr]
      simp only [List.mem_append, List.mem_singleton, or_and_right, exists_or, exists_eq_left]
    · rw [hroutes, ihroutes]
      simp only [List.mem_append, List.mem_singleton, or_and_right, exists_or, exists_eq_left]
    · rcases List.mem_append.mp he with he | he
      · exact ihread e he
      · rw [List.mem_singleton.mp he]
        exact readable_of_readdresses hs

/-- The addresses of a config that the controller has built. -/
theorem addresses_of_built
    (hc : (buildNetworkConfig nodeOrder routeOrder nodeId).run db = (.ok c, db))
    (hs : Readdresses k nodeId d c d') : ∃ a b, k.readAddress c.meshIpv4 = some a ∧
      k.readAddress c.meshIpv6 = some b ∧ a ≠ b ∧ truthy (some c.meshIpv6) = some c.meshIpv6 := by
  obtain ⟨h4, h6, -⟩ := readable_of_readdresses hs
  obtain ⟨n, -, -, rfl⟩ := exists_target hc
  have hne : IPv6Address.str n.meshIpv6 ≠ "" := by
    intro h
    have hcolon := IPv6Address.colon_mem_str n.meshIpv6
    rw [h] at hcolon
    cases hcolon
  obtain ⟨a, ha⟩ := h4
  obtain ⟨b, hb⟩ := h6 _ (truthy_some hne)
  refine ⟨a, b, ha, hb, ?_, truthy_some hne⟩
  rintro rfl
  exact k.readAddress_ne n.meshIpv4 n.meshIpv6 (ha.trans hb.symm)

/-- Two addresses were added: the list is exact for some lengths if and only if these are the
lengths that were added, and the list had no other addresses before. -/
theorem exact_iff {β : Type} {xs ys : List (β × Nat)} {a b : β} {n m len4 len6 : Nat} (hab : a ≠ b)
    (hmem : ∀ x, x ∈ ys ↔ x ∈ xs ∨ x = (a, n) ∨ x = (b, m)) :
    (∀ x, x ∈ ys ↔ x = (a, len4) ∨ x = (b, len6)) ↔
      len4 = n ∧ len6 = m ∧ ∀ x ∈ xs, x = (a, n) ∨ x = (b, m) := by
  constructor
  · intro h
    have h4 : (a, n) = (a, len4) ∨ (a, n) = (b, len6) :=
      (h (a, n)).mp ((hmem _).mpr (Or.inr (Or.inl rfl)))
    have h6 : (b, m) = (a, len4) ∨ (b, m) = (b, len6) :=
      (h (b, m)).mp ((hmem _).mpr (Or.inr (Or.inr rfl)))
    simp only [Prod.mk.injEq, hab, hab.symm, true_and, false_and, or_false, false_or] at h4 h6
    subst h4 h6
    exact ⟨rfl, rfl, fun x hx => (h x).mp ((hmem x).mpr (Or.inl hx))⟩
  · rintro ⟨rfl, rfl, h⟩ x
    rw [hmem]
    exact or_iff_right_of_imp (h x)

/-- The addresses of the syncs so far are those of one config. -/
theorem earlier_addresses_iff {a b : α} (h : Run (Readdresses k nodeId) MeshInterface.empty cs d) :
    (∀ x ∈ d.addresses, x = (a, 10) ∨ x = (b, 48)) ↔ ∀ e ∈ cs, k.readAddress e.meshIpv4 = some a ∧
      (e.meshIpv6 ≠ "" → k.readAddress e.meshIpv6 = some b) := by
  obtain ⟨haddr, -, hread⟩ := mem_of_run h
  constructor
  · refine fun hall e he => ⟨?_, fun hne => ?_⟩
    · obtain ⟨x, hx⟩ := (hread e he).1
      have hin := (haddr (x, 10)).mpr ⟨e, he, Or.inl ⟨hx, rfl⟩⟩
      rcases hall (x, 10) hin with hxa | hxb
      · rw [hx, (Prod.mk.inj hxa).1]
      · cases (Prod.mk.inj hxb).2
    · obtain ⟨x, hx⟩ := (hread e he).2.1 _ (truthy_some hne)
      have hin := (haddr (x, 48)).mpr ⟨e, he, Or.inr ⟨_, truthy_some hne, hx, rfl⟩⟩
      rcases hall (x, 48) hin with hxa | hxb
      · cases (Prod.mk.inj hxa).2
      · rw [hx, (Prod.mk.inj hxb).1]
  · rintro hsame ⟨x, n⟩ hin
    obtain ⟨e, he, ⟨hx, rfl⟩ | ⟨t, ht, hx, rfl⟩⟩ := (haddr (x, n)).mp hin
    · rw [(hsame e he).1] at hx
      exact Or.inl (by rw [Option.some.inj hx])
    · obtain ⟨rfl, hne⟩ : e.meshIpv6 = t ∧ e.meshIpv6 ≠ "" := by
        obtain ⟨he', hne⟩ := Option.filter_eq_some_iff.mp ht
        cases he'
        exact ⟨rfl, of_decide_eq_true hne⟩
      rw [(hsame e he).2 hne] at hx
      exact Or.inr (by rw [Option.some.inj hx])

/-- The routes of the syncs so far are routes of one config. -/
theorem earlier_routes_iff (h : Run (Readdresses k nodeId) MeshInterface.empty cs d) :
    (∀ r ∈ d.routes, ∃ dst ∈ subnets nodeId c, k.readRoute dst = some r) ↔
      ∀ e ∈ cs, ∀ dst ∈ subnets nodeId e, ∃ dst' ∈ subnets nodeId c,
        k.readRoute dst' = k.readRoute dst := by
  obtain ⟨-, hroutes, hread⟩ := mem_of_run h
  constructor
  · intro hall e he dst hdst
    obtain ⟨r, hdr⟩ := (hread e he).2.2 dst hdst
    obtain ⟨dst', hdst', hr⟩ := hall r ((hroutes r).mpr ⟨e, he, dst, hdst, hdr⟩)
    exact ⟨dst', hdst', hr.trans hdr.symm⟩
  · intro hkept r hr
    obtain ⟨e, he, dst, hdst, hdr⟩ := (hroutes r).mp hr
    obtain ⟨dst', hdst', hr'⟩ := hkept e he dst hdst
    exact ⟨dst', hdst', hr'.trans hdr⟩

/-- Whatever configs came before, a sync leaves the addresses of its config with the recorded
prefix lengths, and the routes of its config, if and only if these lengths are 10 and 48, no
config before had other addresses, and none had a route that this one has not. -/
theorem conveyed_iff (hc : (buildNetworkConfig nodeOrder routeOrder nodeId).run db = (.ok c, db))
    (h : Run (Readdresses k nodeId) MeshInterface.empty cs d) (hs : Readdresses k nodeId d c d') :
    Conveyed k db nodeId c d' ↔ prefixlens db nodeId = some (10, 48) ∧
      (∀ e ∈ cs, k.readAddress e.meshIpv4 = k.readAddress c.meshIpv4 ∧
        (e.meshIpv6 ≠ "" → k.readAddress e.meshIpv6 = k.readAddress c.meshIpv6)) ∧
      ∀ e ∈ cs, ∀ dst ∈ subnets nodeId e, ∃ dst' ∈ subnets nodeId c,
        k.readRoute dst' = k.readRoute dst := by
  obtain ⟨a, b, ha, hb, hab, htruthy⟩ := addresses_of_built hc hs
  obtain ⟨haddr, hroutes⟩ := mem_of_readdresses hs
  have hmem : ∀ x, x ∈ d'.addresses ↔ x ∈ d.addresses ∨ x = (a, 10) ∨ x = (b, 48) := by
    rintro ⟨x, n⟩
    rw [haddr, ha, htruthy]
    simp only [Option.some.injEq, exists_eq_left', hb, Prod.mk.injEq, eq_comm (a := x)]
  have hlens : (∃ len4 len6, prefixlens db nodeId = some (len4, len6) ∧
      ∀ x, x ∈ d'.addresses ↔ (k.readAddress c.meshIpv4 = some x.1 ∧ x.2 = len4) ∨
        (k.readAddress c.meshIpv6 = some x.1 ∧ x.2 = len6)) ↔
      prefixlens db nodeId = some (10, 48) ∧ ∀ x ∈ d.addresses, x = (a, 10) ∨ x = (b, 48) := by
    have hpair : ∀ (x : α × Nat) e n, (some e = some x.1 ∧ x.2 = n) ↔ x = (e, n) := by
      simp [Prod.ext_iff, eq_comm]
    simp only [ha, hb, hpair, exact_iff hab hmem]
    constructor
    · rintro ⟨_, _, hp, rfl, rfl, hbefore⟩
      exact ⟨hp, hbefore⟩
    · rintro ⟨hp, hbefore⟩
      exact ⟨10, 48, hp, rfl, rfl, hbefore⟩
  have hkept : (∀ r, r ∈ d'.routes ↔ ∃ dst ∈ subnets nodeId c, k.readRoute dst = some r) ↔
      ∀ r ∈ d.routes, ∃ dst ∈ subnets nodeId c, k.readRoute dst = some r := by
    refine forall_congr' fun r => ?_
    rw [hroutes]
    exact or_iff_right_iff_imp
  rw [Conveyed, hlens, hkept, earlier_addresses_iff h, earlier_routes_iff h, ha, hb, and_assoc]

/-- A kernel that knows addresses and routes by their texts. -/
def textKernel : Kernel String String where
  readAddress := some
  readAddress_ne a b h := by
    have hcolon := IPv6Address.colon_mem_str b
    rw [← Option.some.inj h] at hcolon
    exact IPv4Address.str_noColon a hcolon
  readRoute := some

/-- The sync on `textKernel`. -/
def readdress (c : NetworkConfigResponse) (d : MeshInterface String String) :
    Option (MeshInterface String String) :=
  InterfaceManager.assignAddresses textKernel c.meshIpv4 (some c.meshIpv6) d >>=
    RouteManager.addSubnetRoutes textKernel (subnets (idOf ownKey) c)

def routeViaPeer : Request :=
  .addRoute
    { id := some "r1", pfx := "10.9.0.0/16", viaNodeId := idOf peerKey,
      advertisedBy := idOf peerKey } ""

/-- A route is added between two syncs. -/
theorem conveyed_iff_added : ∃ c₁ c d d',
    fetched [registerKey ownKey, registerKey peerKey] = .ok c₁ ∧
    fetched [registerKey ownKey, registerKey peerKey, routeViaPeer] = .ok c ∧
    Run (Readdresses textKernel (idOf ownKey)) MeshInterface.empty [c₁] d ∧
    Readdresses textKernel (idOf ownKey) d c d' ∧ subnets (idOf ownKey) c = ["10.9.0.0/16"] ∧
    Conveyed textKernel
      (serveAll .empty [registerKey ownKey, registerKey peerKey, routeViaPeer]) (idOf ownKey) c d' := by
  have h : ∃ c₁, fetched [registerKey ownKey, registerKey peerKey] = .ok c₁ ∧
      ∃ c, fetched [registerKey ownKey, registerKey peerKey, routeViaPeer] = .ok c ∧
        (∃ d ∈ readdress c₁ .empty, ∃ _d' ∈ readdress c d, True) ∧
        subnets (idOf ownKey) c = ["10.9.0.0/16"] ∧
        prefixlens (serveAll .empty [registerKey ownKey, registerKey peerKey, routeViaPeer])
          (idOf ownKey) = some (10, 48) ∧
        (c₁.meshIpv4 = c.meshIpv4 ∧ c₁.meshIpv6 = c.meshIpv6) ∧ subnets (idOf ownKey) c₁ = [] := by
    decide +kernel
  obtain ⟨c₁, hc₁, c, hc, ⟨d, hd, d', hd', -⟩, hroute, hp, ⟨h4, h6⟩, hnil⟩ := h
  have hrun : Run (Readdresses textKernel (idOf ownKey)) MeshInterface.empty [c₁] d := .single hd
  refine ⟨c₁, c, d, d', hc₁, hc, hrun, hd', hroute, ?_⟩
  refine (conveyed_iff (run_eq_of_fst hc) hrun hd').mpr ⟨hp, ?_, ?_⟩
  · intro e he
    rw [List.mem_singleton.mp he, h4, h6]
    exact ⟨rfl, fun _ => rfl⟩
  · intro e he dst hdst
    rw [List.mem_singleton.mp he, hnil] at hdst
    cases hdst

/-- The network is renumbered between two syncs, and the route deleted: the old address and the
old route stay, and the new address has the prefix length of the old network. -/
theorem conveyed_fails : ∃ c₁ c d d',
    fetched [registerKey ownKey, registerKey peerKey, routeViaPeer] = .ok c₁ ∧
    fetched [registerKey ownKey, registerKey peerKey, routeViaPeer, .deleteRoute "r1",
      putSubnet "10.200.0.0/16" "fd00:7079:6d65::/48"] = .ok c ∧
    Run (Readdresses textKernel (idOf ownKey)) MeshInterface.empty [c₁] d ∧
    Readdresses textKernel (idOf ownKey) d c d' ∧
    ("100.64.0.2", 10) ∈ d'.addresses ∧ ("10.200.0.2", 10) ∈ d'.addresses ∧
    d'.routes = ["10.9.0.0/16"] ∧ ¬ Conveyed textKernel
      (serveAll .empty [registerKey ownKey, registerKey peerKey, routeViaPeer, .deleteRoute "r1",
        putSubnet "10.200.0.0/16" "fd00:7079:6d65::/48"]) (idOf ownKey) c d' := by
  have h : ∃ c₁, fetched [registerKey ownKey, registerKey peerKey, routeViaPeer] = .ok c₁ ∧
      ∃ c, fetched [registerKey ownKey, registerKey peerKey, routeViaPeer, .deleteRoute "r1",
          putSubnet "10.200.0.0/16" "fd00:7079:6d65::/48"] = .ok c ∧
        (∃ d ∈ readdress c₁ .empty, ∃ d' ∈ readdress c d, d'.addresses =
          [("10.200.0.2", 10), ("fd00:7079:6d65::2", 48), ("100.64.0.2", 10)] ∧
          d'.routes = ["10.9.0.0/16"]) ∧ subnets (idOf ownKey) c = [] := by
    decide +kernel
  obtain ⟨c₁, hc₁, c, hc, ⟨d, hd, d', hd', haddr, hstay⟩, hnil⟩ := h
  refine ⟨c₁, c, d, d', hc₁, hc, .single hd, hd', by simp [haddr], by simp [haddr], hstay, ?_⟩
  rintro ⟨-, hr⟩
  obtain ⟨dst, hdst, -⟩ := (hr "10.9.0.0/16").mp (by simp [hstay])
  rw [hnil] at hdst
  cases hdst

end DaemonLifecycle

end PyMesh
