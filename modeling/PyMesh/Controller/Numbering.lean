import PyMesh.Controller.Reachable

/-! The addresses of the nodes and the prefixes that their network records. -/
namespace PyMesh

open FirstFit LTS Relational Resumption

/-- The addresses of every node stand in the relation `P` to the prefixes of its network. -/
def Numbered (P : IPAllocator → IPv4Address → IPv6Address → Prop) (db : Database) : Prop :=
  ∀ node ∈ db.nodes.rows, ∃ net ∈ db.networks.rows, net.id = node.networkId ∧
    ∃ al, IPAllocator.make net.ipv4Prefix net.ipv6Prefix = .ok al ∧
      P al node.meshIpv4 node.meshIpv6

instance {P : IPAllocator → IPv4Address → IPv6Address → Prop}
    [∀ al v4 v6, Decidable (P al v4 v6)] (db : Database) : Decidable (Numbered P db) :=
  inferInstanceAs (Decidable (∀ node ∈ db.nodes.rows, _))

/-- A request gives a node the two addresses, and the pool is what is recorded after it. -/
inductive Hands (db : Database) : Request → IPAllocator → IPv4Address → IPv6Address → Prop
  | register {authorization : Option String} {req : NodeRegistrationRequest} {now : Nat}
      {id : String} {al : IPAllocator} {v4 : IPv4Address} {v6 : IPv6Address}
      (ha : Api.accepted authorization db = true) (hk : deriveNodeId req.publicKey = .ok id)
      (hn : db.nodes.find id = none) (hal : recordedPool db = .ok al)
      (hv : al.allocate (heldV4 db) (heldV6 db) = .ok (v4, v6)) :
      Hands db (.registerNode authorization req now) al v4 v6
  | renumber {ipv4Prefix : String} {ipv6Prefix : Option String}
      {selectOrder flushOrder : RowOrder NodeModel} {used al : IPAllocator} {node : NodeModel}
      {v4 : IPv4Address} {v6 : IPv6Address}
      (hu : usedPool ipv4Prefix ipv6Prefix = .ok used) (hal : recordedPool db = .ok al)
      (hg : Api.Renumberable used (selectOrder.arrange db.nodes.rows)
        (flushOrder.arrange (selectOrder.arrange db.nodes.rows)))
      (hpl : (node, v4) ∈ Api.places used (selectOrder.arrange db.nodes.rows))
      (h6 : used.derive6 v4 = some v6) :
      Hands db (.updateNetworkSubnet ipv4Prefix ipv6Prefix selectOrder flushOrder)
        ⟨used.ipv4Net, if (truthy ipv6Prefix).isSome then used.ipv6Net else al.ipv6Net⟩ v4 v6

variable {P : IPAllocator → IPv4Address → IPv6Address → Prop} {db db' : Database} {r : Request}
  {rs : List Request} {res : Except Exc Response} {al al' : IPAllocator} {node : NodeModel}
  {v4 : IPv4Address} {v6 : IPv6Address}

theorem numbered_iff (hw : Wellformed db) : Numbered P db ↔
    ∀ al, recordedPool db = .ok al → ∀ node ∈ db.nodes.rows, P al node.meshIpv4 node.meshIpv6 := by
  constructor
  · intro h al hal node hm
    obtain ⟨net, hnet, _, al', hal', hp⟩ := h node hm
    rcases hw.networks with hn | hn
    · simp [hn] at hnet
    · rw [hn, List.mem_singleton] at hnet
      rw [hnet] at hal'
      rw [recordedPool, hal'] at hal
      obtain rfl := Except.ok.inj hal
      exact hp
  · intro h node hm
    obtain ⟨al, hal⟩ := hw.parsed
    rcases hw.networks with hn | hn
    · simp [hw.opened hn] at hm
    · refine ⟨recorded db, by simp [hn], ?_, al, hal, h al hal node hm⟩
      rw [hw.id, hw.members node hm]

/-- The node had its addresses before the request, and the pool was the one recorded now. -/
def Stood (db : Database) (al : IPAllocator) (node : NodeModel) : Prop :=
  recordedPool db = .ok al ∧ ∃ old ∈ db.nodes.rows, old.id = node.id ∧
    old.meshIpv4 = node.meshIpv4 ∧ old.meshIpv6 = node.meshIpv6

theorem stood_of_map {f : NodeModel → NodeModel}
    (hf : ∀ n, (f n).id = n.id ∧ (f n).meshIpv4 = n.meshIpv4 ∧ (f n).meshIpv6 = n.meshIpv6)
    (hal : recordedPool db = .ok al) (hm : node ∈ db.nodes.rows.map f) : Stood db al node := by
  obtain ⟨old, ho, rfl⟩ := List.mem_map.mp hm
  obtain ⟨hid, h4, h6⟩ := hf old
  exact ⟨hal, old, ho, hid.symm, h4.symm, h6.symm⟩

theorem stood_of_mem (hal : recordedPool db = .ok al) (hm : node ∈ db.nodes.rows) :
    Stood db al node :=
  ⟨hal, node, hm, rfl, rfl, rfl⟩

theorem Registers.addresses {authorization : Option String} {req : NodeRegistrationRequest}
    {now : Nat} (h : Registers authorization req now db res db') (hw : Wellformed db)
    (hal : recordedPool db' = .ok al) (hm : node ∈ db'.nodes.rows) :
    Stood db al node ∨
      Hands db (.registerNode authorization req now) al node.meshIpv4 node.meshIpv6 := by
  have hadmitted : recordedPool (Api.admitted authorization db) = recordedPool db := by
    rw [recordedPool, Api.recorded_admitted hw]
    rfl
  cases h with
  | refused => exact Or.inl (stood_of_mem hal hm)
  | badKey =>
    exact Or.inl (stood_of_mem (hadmitted ▸ hal) (Api.nodes_admitted authorization hw ▸ hm))
  | known ha hk hn ht =>
    refine Or.inl (stood_of_map (fun n => ?_) (hadmitted ▸ hal) (ht ▸ hm))
    split
    · exact ⟨rfl, rfl, rfl⟩
    · exact ⟨rfl, rfl, rfl⟩
  | noAddress =>
    exact Or.inl (stood_of_mem (hadmitted ▸ hal) (Api.nodes_admitted authorization hw ▸ hm))
  | taken =>
    exact Or.inl (stood_of_mem (hadmitted ▸ hal) (Api.nodes_admitted authorization hw ▸ hm))
  | @added id al' v4 v6 t ha hk hn hal' hv h6 ht =>
    have hp : recordedPool db = .ok al := hadmitted ▸ hal
    rcases List.mem_append.mp (ht ▸ hm) with hm | hm
    · exact Or.inl (stood_of_mem hp hm)
    · rw [List.mem_singleton.mp hm]
      rw [hp] at hal'
      obtain rfl := Except.ok.inj hal'
      exact Or.inr (.register ha hk hn hp hv)

theorem Renumbers.addresses {ipv4Prefix : String} {ipv6Prefix : Option String}
    {selectOrder flushOrder : RowOrder NodeModel}
    (h : Renumbers ipv4Prefix ipv6Prefix selectOrder flushOrder db res db') (hw : Wellformed db)
    (hal : recordedPool db' = .ok al) (hm : node ∈ db'.nodes.rows) :
    Stood db al node ∨
      Hands db (.updateNetworkSubnet ipv4Prefix ipv6Prefix selectOrder flushOrder) al
        node.meshIpv4 node.meshIpv6 := by
  obtain ⟨t₀, _, he⟩ := NodeManager.ensureNetwork_frame hw
  have hens : (NodeManager.ensureNetwork db).nodes = db.nodes := by rw [he]
  have hpool : recordedPool (NodeManager.ensureNetwork db) = recordedPool db := by
    rw [recordedPool, NodeManager.recorded_ensureNetwork hw]
    rfl
  cases h with
  | invalid => exact Or.inl (stood_of_mem hal hm)
  | noAddress => exact Or.inl (stood_of_mem (hpool ▸ hal) (hens ▸ hm))
  | obstructed => exact Or.inl (stood_of_mem (hpool ▸ hal) (hens ▸ hm))
  | @done used new tn t hv hu hr hf htn ht =>
    right
    obtain ⟨al₀, hal₀⟩ := hw.parsed
    have hnew := make_renumbered hu hal₀
    rw [recordedPool, recorded_renumbered hw htn, hnew] at hal
    obtain rfl := Except.ok.inj hal
    obtain ⟨old, ho, rfl⟩ := List.mem_map.mp (ht ▸ hm)
    have hp := selectOrder.perm db.nodes.rows
    obtain ⟨v4, v6, hpl, hder, hrow⟩ := Api.exists_new hp hr ho
    obtain ⟨hlen, h6⟩ := Api.bounds_of_reallocate hr
    rw [hrow]
    exact .renumber hu hal₀ ⟨hlen, h6, hf⟩ hpl hder

/-- The addresses of a node after a request are those it had before, or the request has
handed them out. -/
theorem Answers.addresses (h : Answers db r res db') (hw : Wellformed db)
    (hal : recordedPool db' = .ok al) (hm : node ∈ db'.nodes.rows) :
    Stood db al node ∨ Hands db r al node.meshIpv4 node.meshIpv6 := by
  cases h with
  | joined => exact Or.inl (stood_of_mem hal hm)
  | joinTaken => exact Or.inl (stood_of_mem hal hm)
  | tokenCreated => exact Or.inl (stood_of_mem hal hm)
  | tokenTaken => exact Or.inl (stood_of_mem hal hm)
  | register h => exact h.addresses hw hal hm
  | beat hn ht =>
    refine Or.inl (stood_of_map (fun n => ?_) hal (ht ▸ hm))
    split
    · exact ⟨rfl, rfl, rfl⟩
    · exact ⟨rfl, rfl, rfl⟩
  | beatUnknown => exact Or.inl (stood_of_mem hal hm)
  | deleted => exact Or.inl (stood_of_mem hal (Table.mem_delete.mp hm).1)
  | deleteUnknown => exact Or.inl (stood_of_mem hal hm)
  | routeAdded => exact Or.inl (stood_of_mem hal hm)
  | routeTaken => exact Or.inl (stood_of_mem hal hm)
  | routeDeleted => exact Or.inl (stood_of_mem hal hm)
  | config => exact Or.inl (stood_of_mem hal hm)
  | renumber h => exact h.addresses hw hal hm

/-- What holds of all addresses that the requests of a run hand out holds of all nodes. -/
theorem numbered_run {G : Database → Request → Prop}
    (hG : ∀ a r al v4 v6, Wellformed a → Numbered P a → G a r → Hands a r al v4 v6 → P al v4 v6)
    (h : Run (Guarded Serves G) Database.empty rs db) : Numbered P db := by
  refine (Run.invariant (I := fun a => Wellformed a ∧ Numbered P a) (run_answers h)
    ⟨wellformed_empty, by simp [Numbered, Database.empty]⟩ ?_).2
  rintro a r b ⟨hw, hn⟩ ⟨-, hg, res, hans⟩
  refine ⟨hans.wellformed hw, (numbered_iff (hans.wellformed hw)).mpr ?_⟩
  intro al hal node hm
  rcases hans.addresses hw hal hm with ⟨hp, old, ho, -, h4, h6⟩ | hh
  · rw [← h4, ← h6]
    exact (numbered_iff hw).mp hn al hp old ho
  · exact hG a r al _ _ hw hn hg hh

section Inside

/-- Both addresses lie in the prefixes of the pool. -/
def Inside (al : IPAllocator) (v4 : IPv4Address) (v6 : IPv6Address) : Prop :=
  v4 ∈ al.ipv4Net ∧ v6 ∈ al.ipv6Net

instance (al : IPAllocator) (v4 : IPv4Address) (v6 : IPv6Address) : Decidable (Inside al v4 v6) :=
  inferInstanceAs (Decidable (_ ∧ _))

theorem hands_ipv4 (h : Hands db r al v4 v6) : v4 ∈ al.ipv4Net := by
  cases h with
  | register ha hk hn hal hv =>
    exact IPAllocator.eligible_mem_net (firstFit_mem (IPAllocator.allocate_eq_ok_iff.mp hv).1)
  | renumber hu hal hg hpl h6 =>
    exact IPAllocator.eligible_mem_net (List.mem_of_mem_take (Api.mem_take_of_places hpl))

/-- Whatever the requests, the IPv4 addresses stay in their prefix. -/
theorem ipv4_inside (h : Run Serves Database.empty rs db) :
    Numbered (fun al v4 _ => v4 ∈ al.ipv4Net) db :=
  numbered_run (G := fun _ _ => True) (fun _ _ _ _ _ _ _ _ hh => hands_ipv4 hh)
    (h.mono fun _ _ _ hs => ⟨trivial, hs⟩)

/-- The IPv6 prefix is wide enough for the offset of the IPv4 addresses that a request hands
out: of the lowest free host in a registration, of the first hosts of the new prefix in a
renumbering that goes through. -/
def FitsIPv6 (db : Database) : Request → Prop
  | .registerNode authorization req _ => ∀ id al, CanAdd authorization req db id al →
      ∃ host ∈ al.eligible, host ∉ heldV4 db ∧ al.ipv4Net.offset host < al.ipv6Net.numAddresses
  | .updateNetworkSubnet ipv4Prefix ipv6Prefix selectOrder flushOrder => ∀ used al,
      usedPool ipv4Prefix ipv6Prefix = .ok used → recordedPool db = .ok al →
      Api.Renumberable used (selectOrder.arrange db.nodes.rows)
        (flushOrder.arrange (selectOrder.arrange db.nodes.rows)) →
      ∀ host ∈ used.eligible.take db.nodes.rows.length, ∀ v6, used.derive6 host = some v6 →
        v6 ∈ if (truthy ipv6Prefix).isSome then used.ipv6Net else al.ipv6Net
  | _ => True

theorem hands_ipv6 (hg : FitsIPv6 db r) (h : Hands db r al v4 v6) : v6 ∈ al.ipv6Net := by
  cases h with
  | @register authorization req now id _ _ _ ha hk hn hal hv =>
    obtain ⟨hff, h6⟩ := IPAllocator.allocate_eq_ok_iff.mp hv
    obtain ⟨host, hh, hfree, hlt⟩ := hg id al (canAdd_of_allocate ha hk hn hal hv)
    have hle : v4.toNat ≤ host.toNat := by
      rcases firstFit_le al.eligible_pairwise hff hh hfree with rfl | hlt
      · exact Nat.le_refl _
      · exact Nat.le_of_lt hlt
    have hv6 := IPAllocator.derive6_eq_some_iff.mp h6
    rw [IPNetwork.mem_iff]
    unfold IPNetwork.offset at hv6 hlt
    omega
  | @renumber ipv4Prefix ipv6Prefix selectOrder flushOrder used al _ _ _ hu hal hgo hpl h6 =>
    have htake := Api.mem_take_of_places hpl
    rw [(selectOrder.perm db.nodes.rows).length_eq] at htake
    exact hg used al hu hal hgo v4 htake v6 h6

/-- In a run of requests whose IPv6 prefixes are wide enough, every node is inside both
prefixes, and no two nodes share an address. -/
theorem nodes_inside_prefixes (h : Run (Guarded Serves FitsIPv6) Database.empty rs db) :
    Numbered Inside db ∧ ∀ a ∈ db.nodes.rows, ∀ b ∈ db.nodes.rows, a ≠ b →
      a.meshIpv4 ≠ b.meshIpv4 ∧ a.meshIpv6 ≠ b.meshIpv6 := by
  constructor
  · exact numbered_run (fun _ _ _ _ _ _ _ hg hh => ⟨hands_ipv4 hh, hands_ipv6 hg hh⟩) h
  · intro a ha b hb hne
    have hc := Table.not_clash ha hb hne
    exact ⟨fun h4 => hc (Or.inr (Or.inl h4)), fun h6 => hc (Or.inr (Or.inr h6))⟩

/-- Two registrations under the default prefixes, and a renumbering to others. -/
theorem nodes_inside_prefixes_renumbered : ∃ db, Run (Guarded Serves FitsIPv6) Database.empty
    [registerKey "Yw==", registerKey "Yg==", putSubnet "10.0.0.0/29" "fd01::/126"] db ∧
    (db.nodes.rows.map fun n => (IPv4Address.str n.meshIpv4, IPv6Address.str n.meshIpv6)) =
      [("10.0.0.2", "fd01::2"), ("10.0.0.3", "fd01::3")] ∧
    Numbered Inside db ∧ ∀ a ∈ db.nodes.rows, ∀ b ∈ db.nodes.rows, a ≠ b →
      a.meshIpv4 ≠ b.meshIpv4 ∧ a.meshIpv6 ≠ b.meshIpv6 := by
  have hfirst : FitsIPv6 .empty (registerKey "Yw==") := by
    intro id al hcan
    have hal := hcan.pool
    clear hcan
    revert al
    decide +kernel
  have hsecond : FitsIPv6 (serveAll .empty [registerKey "Yw=="]) (registerKey "Yg==") := by
    intro id al hcan
    have hal := hcan.pool
    clear hcan
    revert al
    decide +kernel
  have hput : FitsIPv6 (serveAll .empty [registerKey "Yw==", registerKey "Yg=="])
      (putSubnet "10.0.0.0/29" "fd01::/126") := by
    intro used al hu _ hgo
    clear hgo
    have hsome : (truthy (some "fd01::/126")).isSome = true := by decide
    rw [if_pos hsome]
    revert used
    decide +kernel
  have hrun : Run (Guarded Serves FitsIPv6) Database.empty
      [registerKey "Yw==", registerKey "Yg==", putSubnet "10.0.0.0/29" "fd01::/126"]
      (serveAll .empty
        [registerKey "Yw==", registerKey "Yg==", putSubnet "10.0.0.0/29" "fd01::/126"]) :=
    .tail (.tail (.tail .refl ⟨hfirst, rfl⟩) ⟨hsecond, rfl⟩) ⟨hput, rfl⟩
  exact ⟨_, hrun, by decide +kernel, nodes_inside_prefixes hrun⟩

/-- An IPv6 prefix of two addresses is accepted, and the first host has offset 2. -/
theorem nodes_inside_prefixes_fails : ∃ db, Run Serves Database.empty
    [registerKey "YQ==", putSubnet "10.0.0.0/24" "fd00::/127"] db ∧ ¬ Numbered Inside db :=
  ⟨_, run_serves_iff.mpr rfl, by decide +kernel⟩

end Inside

section Coupled

/-- The addresses have the same distance from the starts of their prefixes. -/
def Coupled (al : IPAllocator) (v4 : IPv4Address) (v6 : IPv6Address) : Prop :=
  (v6.toNat : Int) - al.ipv6Net.networkAddress.toNat =
    (v4.toNat : Int) - al.ipv4Net.networkAddress.toNat

instance (al : IPAllocator) (v4 : IPv4Address) (v6 : IPv6Address) :
    Decidable (Coupled al v4 v6) :=
  inferInstanceAs (Decidable (_ = _))

theorem coupled_derive6 (h4 : v4 ∈ al.ipv4Net) (h6 : al.derive6 v4 = some v6) :
    Coupled al v4 v6 := by
  have hle := (IPNetwork.mem_iff.mp h4).1
  have hv6 := IPAllocator.derive6_eq_some_iff.mp h6
  unfold IPNetwork.offset at hv6
  unfold Coupled
  omega

/-- The IPv6 addresses of a renumbering that goes through count from the start of the prefix
that is recorded after it. Without an IPv6 prefix in the request they count from the default
one, whatever is recorded. -/
def CountsFromRecorded (db : Database) : Request → Prop
  | .updateNetworkSubnet ipv4Prefix ipv6Prefix selectOrder flushOrder => ∀ used al,
      usedPool ipv4Prefix ipv6Prefix = .ok used → recordedPool db = .ok al →
      Api.Renumberable used (selectOrder.arrange db.nodes.rows)
        (flushOrder.arrange (selectOrder.arrange db.nodes.rows)) →
      db.nodes.rows = [] ∨ (truthy ipv6Prefix).isSome ∨
        used.ipv6Net.networkAddress = al.ipv6Net.networkAddress
  | _ => True

theorem hands_coupled (hg : CountsFromRecorded db r) (h : Hands db r al v4 v6) :
    Coupled al v4 v6 := by
  cases h with
  | register ha hk hn hal hv =>
    obtain ⟨hff, h6⟩ := IPAllocator.allocate_eq_ok_iff.mp hv
    exact coupled_derive6 (IPAllocator.eligible_mem_net (firstFit_mem hff)) h6
  | @renumber ipv4Prefix ipv6Prefix selectOrder flushOrder used al node _ _ hu hal hgo hpl h6 =>
    have hin : v4 ∈ used.ipv4Net :=
      IPAllocator.eligible_mem_net (List.mem_of_mem_take (Api.mem_take_of_places hpl))
    have hc := coupled_derive6 hin h6
    rcases hg used al hu hal hgo with hnil | hsome | hbase
    · obtain ⟨i, hi, _⟩ := Api.mem_places.mp hpl
      have hm := selectOrder.mem.mp (List.mem_of_getElem? hi)
      simp [hnil] at hm
    · rw [if_pos hsome]
      exact hc
    · unfold Coupled at hc ⊢
      rw [hbase] at hc
      split
      · rw [hbase]
        exact hc
      · exact hc

/-- When all nodes are coupled, a free IPv4 address comes with a free IPv6 address. -/
theorem pick_free (hw : Wellformed db) (hc : Numbered Coupled db) (hal : recordedPool db = .ok al)
    (hv : al.allocate (heldV4 db) (heldV6 db) = .ok (v4, v6)) : v6 ∉ heldV6 db := by
  obtain ⟨hff, h6⟩ := IPAllocator.allocate_eq_ok_iff.mp hv
  intro hheld
  obtain ⟨node, hm, rfl⟩ := mem_heldV6.mp hheld
  have hnode := (numbered_iff hw).mp hc al hal node hm
  have hpick := coupled_derive6 (IPAllocator.eligible_mem_net (firstFit_mem hff)) h6
  have h4 : node.meshIpv4 = v4 := by
    refine Address.ext ?_
    unfold Coupled at hnode hpick
    omega
  exact firstFit_not_held hff (mem_heldV4.mpr ⟨node, hm, h4⟩)

/-- In a run whose renumberings count from the recorded prefix, every node is coupled to the
recorded prefixes, and a registration never picks an IPv6 address that is held. -/
theorem nodes_coupled (h : Run (Guarded Serves CountsFromRecorded) Database.empty rs db) :
    Numbered Coupled db ∧
      (∀ al v4 v6, recordedPool db = .ok al →
        al.allocate (heldV4 db) (heldV6 db) = .ok (v4, v6) → v6 ∉ heldV6 db) ∧
      ∀ authorization req now,
        (serve db (.registerNode authorization req now)).1 ≠ .error .integrityError := by
  have hw := wellformed_run h.of_guarded
  have hc : Numbered Coupled db :=
    numbered_run (fun _ _ _ _ _ _ _ hg hh => hands_coupled hg hh) h
  refine ⟨hc, fun al v4 v6 hal hv => pick_free hw hc hal hv, fun authorization req now he => ?_⟩
  have hreg := registers hw authorization req now
  rw [he] at hreg
  generalize (serve db (.registerNode authorization req now)).2 = db' at hreg
  cases hreg with
  | badKey ha hk => rcases deriveNodeId_error hk with ⟨_, h⟩ | ⟨_, h⟩ <;> cases h
  | noAddress ha hk hn hal hv =>
    rcases IPAllocator.allocate_error hv with ⟨h, _⟩ | ⟨h, _⟩ <;> cases h
  | taken ha hk hn hal hv h6 => exact pick_free hw hc hal hv h6

/-- A registration and a renumbering that gives both prefixes. -/
theorem nodes_coupled_renumbered :
    let db := serveAll .empty [registerKey "YQ==", putSubnet "10.0.0.0/24" "fd01::/64"]
    Numbered Coupled db ∧
      (∀ al v4 v6, recordedPool db = .ok al →
        al.allocate (heldV4 db) (heldV6 db) = .ok (v4, v6) → v6 ∉ heldV6 db) ∧
      ∀ authorization req now,
        (serve db (.registerNode authorization req now)).1 ≠ .error .integrityError := by
  have hreg : CountsFromRecorded .empty (registerKey "YQ==") := trivial
  have hput : ∀ db, CountsFromRecorded db (putSubnet "10.0.0.0/24" "fd01::/64") :=
    fun _ _ _ _ _ _ => Or.inr (Or.inl (by decide))
  exact nodes_coupled (.tail (.tail .refl ⟨hreg, rfl⟩) ⟨hput _, rfl⟩)

/-- With an empty IPv6 prefix the nodes move to the default one, and the network keeps
the prefix of the renumbering before. -/
theorem nodes_coupled_fails : ∃ db, Run Serves Database.empty [registerKey "YQ==",
    putSubnet "10.0.0.0/24" "fd01::/64", putSubnet "10.0.0.0/24" ""] db ∧
      ¬ Numbered Coupled db :=
  ⟨_, run_serves_iff.mpr rfl, by decide +kernel⟩

end Coupled

end PyMesh
