import PyMesh.Controller.Registration
import Mathlib.Data.List.Nodup

/-! The ways in which `PUT /network/subnet` can end that is served alone. -/
namespace PyMesh

open FirstFit Relational Resumption

namespace Api

variable {al used : IPAllocator} {nodes : List NodeModel} {allocatedV4 : List IPv4Address}
  {allocatedV6 : List IPv6Address} {new : List (NodeModel × IPv4Address × IPv6Address)} {k : Nat}
  {v4 : IPv4Address} {v6 : IPv6Address}

/-- The nodes with the hosts at their places: the loop hands the hosts out in order. -/
def places (al : IPAllocator) (nodes : List NodeModel) : List (NodeModel × IPv4Address) :=
  nodes.zip al.eligible

theorem mem_places {a : NodeModel} :
    (a, v4) ∈ places al nodes ↔ ∃ i : Nat, nodes[i]? = some a ∧ al.eligible[i]? = some v4 := by
  simp [places, List.mem_iff_getElem?, List.getElem?_zip_eq_some]

theorem mem_take_of_places {x : NodeModel × IPv4Address} (h : x ∈ places al nodes) :
    x.2 ∈ al.eligible.take nodes.length := by
  obtain ⟨i, hi, he⟩ := mem_places.mp h
  have hlt : i < nodes.length := (List.getElem?_eq_some_iff.mp hi).1
  exact List.mem_iff_getElem?.mpr ⟨i, by rw [List.getElem?_take_of_lt hlt, he]⟩

theorem exists_place {host : IPv4Address} (h : host ∈ al.eligible.take nodes.length) :
    ∃ a, (a, host) ∈ places al nodes := by
  obtain ⟨i, hi⟩ := List.mem_iff_getElem?.mp h
  rw [List.getElem?_take] at hi
  split at hi
  · rename_i hlt
    exact ⟨nodes[i], mem_places.mpr ⟨i, List.getElem?_eq_getElem hlt, hi⟩⟩
  · cases hi

/-- No host stands at two places. -/
theorem places_inj {a b : NodeModel} (ha : (a, v4) ∈ places al nodes)
    (hb : (b, v4) ∈ places al nodes) : a = b := by
  obtain ⟨i, hi, hei⟩ := mem_places.mp ha
  obtain ⟨j, hj, hej⟩ := mem_places.mp hb
  have hij : i = j := by
    have hlt := (List.getElem?_eq_some_iff.mp hei).1
    exact (List.getElem?_inj hlt al.eligible_nodup).mp (hei.trans hej.symm)
  rw [hij] at hi
  exact Option.some.inj (hi.symm.trans hj)

/-- No node has two places. -/
theorem places_unique {a : NodeModel} {host : IPv4Address} (hn : nodes.Nodup)
    (h : (a, v4) ∈ places al nodes) (h' : (a, host) ∈ places al nodes) : v4 = host := by
  obtain ⟨i, hi, hei⟩ := mem_places.mp h
  obtain ⟨j, hj, hej⟩ := mem_places.mp h'
  have hij : i = j := by
    have hlt := (List.getElem?_eq_some_iff.mp hi).1
    exact (List.getElem?_inj hlt hn).mp (hi.trans hj.symm)
  rw [hij] at hei
  exact Option.some.inj (hei.symm.trans hej)

/-- The loop goes through for a node and those after it if the node gets its addresses and the
loop goes through for the others with these allocated. -/
theorem reallocate_cons_iff {node : NodeModel} :
    reallocate al (node :: nodes) allocatedV4 allocatedV6 = .ok new ↔ ∃ v4 v6 rest,
      al.allocate allocatedV4 allocatedV6 = .ok (v4, v6) ∧
      reallocate al nodes (v4 :: allocatedV4) (v6 :: allocatedV6) = .ok rest ∧
      new = (node, v4, v6) :: rest := by
  rw [reallocate]
  cases al.allocate allocatedV4 allocatedV6 with
  | error e => simp [bind, Except.bind]
  | ok x =>
    obtain ⟨a, b⟩ := x
    simp only [bind, Except.bind]
    cases hr : reallocate al nodes (a :: allocatedV4) (b :: allocatedV6) with
    | error e => simp [hr]
    | ok rest =>
      constructor
      · intro h
        exact ⟨a, b, rest, rfl, hr, (Except.ok.inj h).symm⟩
      · rintro ⟨a', b', rest', hx, hr', rfl⟩
        cases hx
        rw [hr] at hr'
        cases hr'
        rfl

/-- With the first `k` hosts handed out, the loop goes on with the others in their order. -/
theorem reallocate_eq_ok_iff_of_take (h4 : ∀ a, a ∈ allocatedV4 ↔ a ∈ al.eligible.take k) :
    reallocate al nodes allocatedV4 allocatedV6 = .ok new ↔
      nodes.length ≤ (al.eligible.drop k).length ∧
        new.map (fun x => (x.1, x.2.1)) = nodes.zip (al.eligible.drop k) ∧
          ∀ x ∈ new, al.derive6 x.2.1 = some x.2.2 := by
  induction nodes generalizing k allocatedV4 allocatedV6 new with
  | nil =>
    simp only [reallocate, Except.ok.injEq, List.zip_nil_left, List.map_eq_nil_iff,
      List.length_nil, Nat.zero_le, true_and]
    constructor
    · rintro rfl
      simp
    · exact fun h => h.1.symm
  | cons node nodes ih =>
    have hnext : ∀ a, al.eligible[k]? = some a →
        al.eligible.drop k = a :: al.eligible.drop (k + 1) ∧
          ∀ b, b ∈ a :: allocatedV4 ↔ b ∈ al.eligible.take (k + 1) := by
      intro a ha
      obtain ⟨hlt, hak⟩ := List.getElem?_eq_some_iff.mp ha
      refine ⟨by rw [← hak, List.getElem_cons_drop], fun b => ?_⟩
      rw [List.take_add_one, ha, List.mem_cons, h4]
      simp [or_comm]
    rw [reallocate_cons_iff]
    simp only [IPAllocator.allocate_eq_ok_iff, firstFit_take al.eligible_nodup h4]
    constructor
    · rintro ⟨a, b, rest, ⟨ha, hb⟩, hr, rfl⟩
      obtain ⟨hd, htake⟩ := hnext a ha
      obtain ⟨hlen, hmap, hder⟩ := (ih htake).mp hr
      rw [hd, List.map_cons, hmap, List.zip_cons_cons]
      exact ⟨Nat.succ_le_succ hlen, rfl, List.forall_mem_cons.mpr ⟨hb, hder⟩⟩
    · rintro ⟨hlen, hz, hder⟩
      have hlt : k < al.eligible.length := by
        rw [List.length_drop, List.length_cons] at hlen
        omega
      obtain ⟨hd, htake⟩ := hnext _ (List.getElem?_eq_getElem hlt)
      rw [hd, List.zip_cons_cons] at hz
      obtain ⟨⟨x1, x4, x6⟩, rest, rfl, hx, hrest⟩ := List.map_eq_cons_iff.mp hz
      obtain ⟨rfl, rfl⟩ := Prod.mk.inj hx
      obtain ⟨hb, hder⟩ := List.forall_mem_cons.mp hder
      rw [hd] at hlen
      refine ⟨_, x6, rest, ⟨List.getElem?_eq_getElem hlt, hb⟩, ?_, rfl⟩
      exact (ih htake).mpr ⟨Nat.le_of_succ_le_succ hlen, hrest, hder⟩

/-- What the loop computes: each node gets the host at its place and the IPv6 address that
belongs to that host. -/
theorem reallocate_eq_ok_iff : reallocate al nodes [] [] = .ok new ↔
    nodes.length ≤ al.eligible.length ∧ new.map (fun x => (x.1, x.2.1)) = places al nodes ∧
      ∀ x ∈ new, al.derive6 x.2.1 = some x.2.2 := by
  have h4 : ∀ a, a ∈ ([] : List IPv4Address) ↔ a ∈ al.eligible.take 0 := by simp
  have h : reallocate al nodes [] [] = .ok new ↔ _ := reallocate_eq_ok_iff_of_take h4
  simpa only [List.drop_zero, places] using h

/-- The loop ends without an error when there are enough hosts, and the IPv6 address of each
of those that are handed out fits into 128 bits. -/
theorem exists_reallocate (hlen : nodes.length ≤ al.eligible.length)
    (h6 : ∀ host ∈ al.eligible.take nodes.length, (al.derive6 host).isSome) :
    ∃ new, reallocate al nodes [] [] = .ok new := by
  refine ⟨(places al nodes).map fun x =>
    (x.1, x.2, (al.derive6 x.2).getD al.ipv6Net.networkAddress), ?_⟩
  refine reallocate_eq_ok_iff.mpr ⟨hlen, ?_, ?_⟩
  · rw [List.map_map]
    exact List.map_id _
  · intro x hx
    obtain ⟨y, hy, rfl⟩ := List.mem_map.mp hx
    obtain ⟨v6, hv⟩ := Option.isSome_iff_exists.mp (h6 y.2 (mem_take_of_places hy))
    simp [hv]

theorem bounds_of_reallocate (h : reallocate al nodes [] [] = .ok new) :
    nodes.length ≤ al.eligible.length ∧
      ∀ host ∈ al.eligible.take nodes.length, (al.derive6 host).isSome := by
  obtain ⟨hlen, hmap, hder⟩ := reallocate_eq_ok_iff.mp h
  refine ⟨hlen, fun host hh => ?_⟩
  obtain ⟨a, ha⟩ := exists_place hh
  obtain ⟨x, hx, he⟩ := List.mem_map.mp (hmap ▸ ha)
  obtain ⟨-, rfl⟩ := Prod.mk.inj he
  rw [hder x hx]
  rfl

section Rows

variable {node a b : NodeModel} {order : List NodeModel} {t t' : Table NodeModel}

@[simp] theorem renumberRow_id (new : List (NodeModel × IPv4Address × IPv6Address))
    (row : NodeModel) : (renumberRow new row).id = row.id := by
  unfold renumberRow
  split <;> rfl

@[simp] theorem renumberRow_networkId (new : List (NodeModel × IPv4Address × IPv6Address))
    (row : NodeModel) : (renumberRow new row).networkId = row.networkId := by
  unfold renumberRow
  split <;> rfl

/-- A row that the loop has not read stays as it is. -/
theorem renumberRow_of_notMem (h : node.id ∉ new.map fun x => x.1.id) :
    renumberRow new node = node := by
  have hf : (new.find? fun x => x.1.id = node.id) = none :=
    List.find?_eq_none.mpr fun x hx hxr => h (List.mem_map.mpr ⟨x, hx, of_decide_eq_true hxr⟩)
  simp only [renumberRow, hf]

/-- A row that is still as the loop read it gets both addresses, changed or not. -/
theorem renumberRow_of_mem (hn : (new.map fun x => x.1.id).Nodup) (h : (node, v4, v6) ∈ new) :
    renumberRow new node = { node with meshIpv4 := v4, meshIpv6 := v6 } := by
  have hf : (new.find? fun x => x.1.id = node.id) = some (node, v4, v6) :=
    (Table.find?_key_eq_some_iff hn).mpr ⟨h, rfl⟩
  have h4 : (if v4 = node.meshIpv4 then node.meshIpv4 else v4) = v4 := by
    split
    · rename_i he; exact he.symm
    · rfl
  have h6 : (if v6 = node.meshIpv6 then node.meshIpv6 else v6) = v6 := by
    split
    · rename_i he; exact he.symm
    · rfl
  simp only [renumberRow, hf, h4, h6]

theorem new_fst (h : reallocate al nodes [] [] = .ok new) : new.map Prod.fst = nodes := by
  obtain ⟨hlen, hmap, _⟩ := reallocate_eq_ok_iff.mp h
  have hfst := congrArg (List.map Prod.fst) hmap
  rwa [List.map_map, places, List.map_fst_zip hlen] at hfst

theorem new_ids (h : reallocate al nodes [] [] = .ok new) :
    (new.map fun x => x.1.id) = nodes.map NodeModel.id := by
  rw [← new_fst h, List.map_map]
  rfl

theorem mem_places_of_mem_new (h : reallocate al nodes [] [] = .ok new)
    (hm : (a, v4, v6) ∈ new) : (a, v4) ∈ places al nodes ∧ al.derive6 v4 = some v6 := by
  obtain ⟨_, hmap, hder⟩ := reallocate_eq_ok_iff.mp h
  refine ⟨?_, hder _ hm⟩
  rw [← hmap]
  exact List.mem_map_of_mem hm

/-- The addresses that the loop gives a node, and its row after the UPDATE. -/
theorem exists_new (hp : nodes.Perm t.rows) (h : reallocate al nodes [] [] = .ok new)
    (ha : a ∈ t.rows) : ∃ v4 v6, (a, v4) ∈ places al nodes ∧ al.derive6 v4 = some v6 ∧
      renumberRow new a = { a with meshIpv4 := v4, meshIpv6 := v6 } := by
  have hids : (new.map fun x => x.1.id).Nodup := by
    rw [new_ids h]
    exact ((hp.map NodeModel.id).nodup_iff).mpr t.keys_nodup
  have hmem : a ∈ new.map Prod.fst := by
    rw [new_fst h]
    exact hp.mem_iff.mpr ha
  obtain ⟨⟨a', v4, v6⟩, hx, rfl⟩ := List.mem_map.mp hmem
  obtain ⟨hpl, hder⟩ := mem_places_of_mem_new h hx
  exact ⟨v4, v6, hpl, hder, renumberRow_of_mem hids hx⟩

/-- The hosts at different places are different, and so are their IPv6 addresses. -/
theorem new_not_clash (hp : nodes.Perm t.rows) (h : reallocate al nodes [] [] = .ok new)
    (ha : a ∈ t.rows) (hb : b ∈ t.rows) (hne : a ≠ b) :
    ¬ Row.Clash (renumberRow new a) (renumberRow new b) := by
  obtain ⟨a4, a6, hpa, hda, hra⟩ := exists_new hp h ha
  obtain ⟨b4, b6, hpb, hdb, hrb⟩ := exists_new hp h hb
  have h4 : a4 ≠ b4 := by
    rintro rfl
    exact hne (places_inj hpa hpb)
  have hea : a4 ∈ al.ipv4Net :=
    IPAllocator.eligible_mem_net (List.mem_of_mem_take (mem_take_of_places hpa))
  have heb : b4 ∈ al.ipv4Net :=
    IPAllocator.eligible_mem_net (List.mem_of_mem_take (mem_take_of_places hpb))
  rw [hra, hrb, node_clash_iff]
  rintro (hc | hc | hc)
  · exact hne (Table.eq_of_key ha hb hc)
  · exact h4 hc
  · have h6 : a6 = b6 := hc
    rw [← h6] at hdb
    exact h4 (IPAllocator.derive6_inj hea heb hda hdb)

/-- No UPDATE of the flush gives a row an address that a row still holds whose own UPDATE
comes later. -/
def Unobstructed (al : IPAllocator) (nodes order : List NodeModel) : Prop :=
  ∀ pre a post, order = pre ++ a :: post → ∀ host, (a, host) ∈ places al nodes →
    ∀ b ∈ post, b.meshIpv4 ≠ host ∧ al.derive6 host ≠ some b.meshIpv6

/-- The prefix has a host for each node, all the IPv6 addresses fit, and no UPDATE of the
flush is obstructed. -/
def Renumberable (al : IPAllocator) (nodes order : List NodeModel) : Prop :=
  nodes.length ≤ al.eligible.length ∧
    (∀ host ∈ al.eligible.take nodes.length, (al.derive6 host).isSome) ∧
      Unobstructed al nodes order

theorem unobstructed_cons {al : IPAllocator} {a : NodeModel} {order : List NodeModel} :
    Unobstructed al nodes (a :: order) ↔
      (∀ x ∈ places al nodes, x.1 = a →
        ∀ b ∈ order, b.meshIpv4 ≠ x.2 ∧ al.derive6 x.2 ≠ some b.meshIpv6) ∧
      Unobstructed al nodes order := by
  constructor
  · intro h
    refine ⟨?_, fun pre b post hsplit => h (a :: pre) b post (by rw [hsplit, List.cons_append])⟩
    rintro ⟨b, host⟩ hx rfl
    exact h [] b order rfl host hx
  · rintro ⟨hfirst, hrest⟩ pre b post hsplit host hx
    rcases List.cons_eq_append_iff.mp hsplit with ⟨rfl, hcons⟩ | ⟨pre', rfl, hrest'⟩
    · obtain ⟨rfl, rfl⟩ := List.cons.inj hcons
      exact hfirst (b, host) hx rfl
    · exact hrest pre' b post hrest' host hx

instance decidableUnobstructed (al : IPAllocator) (nodes : List NodeModel) :
    (order : List NodeModel) → Decidable (Unobstructed al nodes order)
  | [] => isTrue fun pre a post h => by simp at h
  | a :: order =>
    have := decidableUnobstructed al nodes order
    decidable_of_iff _ (unobstructed_cons (a := a)).symm

theorem updateEach_isSome_iff (hp : nodes.Perm t.rows) (ho : order.Perm t.rows)
    (h : reallocate al nodes [] [] = .ok new) :
    (t.updateEach (renumberRow new) (order.map NodeModel.id)).isSome ↔
      Unobstructed al nodes order := by
  have hkey : ∀ r : NodeModel, Row.key (renumberRow new r) = Row.key r := renumberRow_id new
  have hids : (order.map NodeModel.id).Nodup :=
    ((ho.map NodeModel.id).nodup_iff).mpr t.keys_nodup
  rw [Table.updateEach_isSome_iff hkey hids
    fun a ha b hb hne _ _ => new_not_clash hp h ha hb hne]
  constructor
  · intro hall pre a post he host hpl b hb
    have ha : a ∈ t.rows := ho.mem_iff.mp (by simp [he])
    have hbt : b ∈ t.rows := ho.mem_iff.mp (by simp [he, hb])
    rw [he, List.map_append, List.map_cons, List.nodup_append, List.nodup_cons] at hids
    have hba : b ≠ a := by
      rintro rfl
      exact hids.2.1.1 (List.mem_map_of_mem hb)
    have hbp : b.id ∉ pre.map NodeModel.id := fun hm =>
      hids.2.2 _ hm _ (List.mem_cons_of_mem _ (List.mem_map_of_mem hb)) rfl
    have hc := hall (pre.map NodeModel.id) a.id (post.map NodeModel.id)
      (by rw [he, List.map_append, List.map_cons]) a ha rfl b hbt hba hbp
    obtain ⟨v4, v6, hpl', hder, hra⟩ := exists_new hp h ha
    obtain rfl := places_unique (hp.nodup_iff.mpr t.rows_nodup) hpl' hpl
    rw [hra, node_clash_iff] at hc
    refine ⟨fun h4 => hc (Or.inr (Or.inl h4.symm)), fun h6 => hc (Or.inr (Or.inr ?_))⟩
    exact Option.some.inj (hder.symm.trans h6)
  · intro hfree pre k post he a ha hak b hb hba hbp
    obtain ⟨p, q, rfl, hpre, hq⟩ := List.map_eq_append_iff.mp he
    obtain ⟨a', q, rfl, ha', rfl⟩ := List.map_eq_cons_iff.mp hq
    have hat' : a' ∈ t.rows := ho.mem_iff.mp (by simp)
    obtain rfl : a = a' := Table.eq_of_key ha hat' (hak.trans ha'.symm)
    have hbq : b ∈ q := by
      have hbo := ho.mem_iff.mpr hb
      rcases List.mem_append.mp hbo with hm | hm
      · exact (hbp (hpre ▸ List.mem_map_of_mem hm)).elim
      · exact (List.mem_cons.mp hm).resolve_left hba
    obtain ⟨v4, v6, hpl, hder, hra⟩ := exists_new hp h ha
    obtain ⟨h4, h6⟩ := hfree p a q rfl v4 hpl b hbq
    rw [hra, node_clash_iff]
    rintro (hc | hc | hc)
    · exact hba (Table.eq_of_key hb ha hc.symm)
    · exact h4 hc.symm
    · refine h6 (hder.trans ?_)
      exact congrArg some hc

theorem updateEach_rows (ho : order.Perm t.rows)
    (hu : t.updateEach (renumberRow new) (order.map NodeModel.id) = some t') :
    t'.rows = t.rows.map (renumberRow new) := by
  have hids : (order.map NodeModel.id).Nodup :=
    ((ho.map NodeModel.id).nodup_iff).mpr t.keys_nodup
  rw [Table.updateEach_rows (renumberRow_id new) hids hu]
  refine List.map_congr_left fun r hr => ?_
  have hm : Row.key r ∈ order.map NodeModel.id := List.mem_map_of_mem (ho.mem_iff.mpr hr)
  rw [Table.touch, if_pos hm]

end Rows

end Api

/-- The allocator that `update_network_subnet` numbers with. -/
def usedPool (ipv4Prefix : String) (ipv6Prefix : Option String) : Except Exc IPAllocator :=
  IPAllocator.make ipv4Prefix ((truthy ipv6Prefix).getD defaultIpv6Prefix)

/-- The network row that it leaves, whose IPv6 prefix is computed by another expression. -/
def renumbered (ipv4Prefix : String) (ipv6Prefix : Option String) (net : Network) : Network :=
  { net with
    ipv4Prefix := ipv4Prefix
    ipv6Prefix := (truthy ipv6Prefix).getD net.ipv6Prefix }

/-- The outcome of `PUT /network/subnet` and the tables it leaves. -/
inductive Renumbers (ipv4Prefix : String) (ipv6Prefix : Option String)
    (selectOrder flushOrder : RowOrder NodeModel) (db : Database) :
    Except Exc Response → Database → Prop
  | invalid (hv : IPAllocator.validateCidr ipv4Prefix ipv6Prefix = false) :
      Renumbers ipv4Prefix ipv6Prefix selectOrder flushOrder db (.error Api.invalidCidr) db
  | noAddress {used : IPAllocator} {e : Exc}
      (hv : IPAllocator.validateCidr ipv4Prefix ipv6Prefix = true)
      (hu : usedPool ipv4Prefix ipv6Prefix = .ok used)
      (he : Api.reallocate used (selectOrder.arrange db.nodes.rows) [] [] = .error e) :
      Renumbers ipv4Prefix ipv6Prefix selectOrder flushOrder db (.error e)
        (NodeManager.ensureNetwork db)
  | obstructed {used : IPAllocator} {new : List (NodeModel × IPv4Address × IPv6Address)}
      (hv : IPAllocator.validateCidr ipv4Prefix ipv6Prefix = true)
      (hu : usedPool ipv4Prefix ipv6Prefix = .ok used)
      (hr : Api.reallocate used (selectOrder.arrange db.nodes.rows) [] [] = .ok new)
      (hf : ¬ Api.Unobstructed used (selectOrder.arrange db.nodes.rows)
        (flushOrder.arrange (selectOrder.arrange db.nodes.rows))) :
      Renumbers ipv4Prefix ipv6Prefix selectOrder flushOrder db (.error .integrityError)
        (NodeManager.ensureNetwork db)
  | done {used : IPAllocator} {new : List (NodeModel × IPv4Address × IPv6Address)}
      {tn : Table Network} {t : Table NodeModel}
      (hv : IPAllocator.validateCidr ipv4Prefix ipv6Prefix = true)
      (hu : usedPool ipv4Prefix ipv6Prefix = .ok used)
      (hr : Api.reallocate used (selectOrder.arrange db.nodes.rows) [] [] = .ok new)
      (hf : Api.Unobstructed used (selectOrder.arrange db.nodes.rows)
        (flushOrder.arrange (selectOrder.arrange db.nodes.rows)))
      (htn : tn.rows = [renumbered ipv4Prefix ipv6Prefix (recorded db)])
      (ht : t.rows = db.nodes.rows.map (Api.renumberRow new)) :
      Renumbers ipv4Prefix ipv6Prefix selectOrder flushOrder db
        (.ok (.subnetUpdated ipv4Prefix ipv6Prefix db.nodes.rows.length))
        { db with networks := tn, nodes := t }

section Outcome

variable {ipv4Prefix : String} {ipv6Prefix : Option String}
  {selectOrder flushOrder : RowOrder NodeModel} {db : Database} {used : IPAllocator}
  {new : List (NodeModel × IPv4Address × IPv6Address)}

theorem exists_usedPool (h : IPAllocator.validateCidr ipv4Prefix ipv6Prefix = true) :
    ∃ used, usedPool ipv4Prefix ipv6Prefix = .ok used := by
  obtain ⟨def4, hdef⟩ := default_parsed
  obtain ⟨_, hd6⟩ := IPAllocator.make_eq_ok_iff.mp hdef
  rw [IPAllocator.validateCidr, Bool.and_eq_true, Option.isSome_iff_exists] at h
  obtain ⟨⟨net4, h4⟩, h6⟩ := h
  unfold usedPool
  cases ht : truthy ipv6Prefix with
  | none => exact ⟨⟨net4, def4.ipv6Net⟩, IPAllocator.make_eq_ok_iff.mpr ⟨h4, hd6⟩⟩
  | some cidr =>
    rw [ht] at h6
    obtain ⟨net6, h6⟩ := Option.isSome_iff_exists.mp h6
    exact ⟨⟨net4, net6⟩, IPAllocator.make_eq_ok_iff.mpr ⟨h4, h6⟩⟩

theorem recordPrefixes_self (net : Network) :
    Api.recordPrefixes net ipv4Prefix ipv6Prefix net = renumbered ipv4Prefix ipv6Prefix net := by
  have hif : ∀ a b : String, (if a = b then b else a) = a := by
    intro a b
    split
    · rename_i h; exact h.symm
    · rfl
  simp only [Api.recordPrefixes, renumbered, hif]

/-- The UPDATE of the network row goes through, and then come those of the nodes. -/
theorem exists_flushNetwork (ipv4Prefix : String) (ipv6Prefix : Option String)
    (hnet : db.networks.rows = [recorded db]) :
    ∃ tn : Table Network, tn.rows = [renumbered ipv4Prefix ipv6Prefix (recorded db)] ∧
      ∀ new flushOrder, Api.flushSubnet (recorded db) ipv4Prefix ipv6Prefix new flushOrder db =
        Database.updateNodes ((flushOrder.arrange (new.map Prod.fst)).map NodeModel.id)
          (Api.renumberRow new) { db with networks := tn } := by
  have hfind : db.networks.find (recorded db).id = some (recorded db) :=
    Table.find_eq_some_iff.mpr ⟨by simp [hnet], rfl⟩
  obtain ⟨tn, htn, hun⟩ := Database.updateNetwork_ok
    (f := Api.recordPrefixes (recorded db) ipv4Prefix ipv6Prefix) hfind fun _ => ⟨rfl, rfl⟩
  refine ⟨tn, ?_, fun new flushOrder => ?_⟩
  · rw [htn, hnet]
    simp [recordPrefixes_self]
  · simp only [Api.flushSubnet, hun, bind, Except.bind]

/-- The flush writes all rows, or none when an UPDATE is obstructed. -/
theorem flushSubnet_cases (ipv4Prefix : String) (ipv6Prefix : Option String)
    (flushOrder : RowOrder NodeModel) (hnet : db.networks.rows = [recorded db])
    {nodes : List NodeModel} (hp : nodes.Perm db.nodes.rows)
    (hr : Api.reallocate used nodes [] [] = .ok new) :
    (Api.Unobstructed used nodes (flushOrder.arrange nodes) ∧
      ∃ (tn : Table Network) (t : Table NodeModel),
        tn.rows = [renumbered ipv4Prefix ipv6Prefix (recorded db)] ∧
        t.rows = db.nodes.rows.map (Api.renumberRow new) ∧
        Api.flushSubnet (recorded db) ipv4Prefix ipv6Prefix new flushOrder db =
          .ok { db with networks := tn, nodes := t }) ∨
    (¬ Api.Unobstructed used nodes (flushOrder.arrange nodes) ∧
      Api.flushSubnet (recorded db) ipv4Prefix ipv6Prefix new flushOrder db =
        .error .integrityError) := by
  obtain ⟨tn, htn, hflush⟩ := exists_flushNetwork ipv4Prefix ipv6Prefix hnet
  have ho : (flushOrder.arrange nodes).Perm db.nodes.rows := (flushOrder.perm nodes).trans hp
  have hall : ((flushOrder.arrange nodes).map NodeModel.id).all
      (fun id => (db.nodes.find id).isSome) = true := by
    rw [List.all_eq_true]
    intro id hid
    obtain ⟨a, ha, rfl⟩ := List.mem_map.mp hid
    have hfa : db.nodes.find a.id = some a :=
      Table.find_eq_some_iff.mpr ⟨ho.mem_iff.mp ha, rfl⟩
    simp [hfa]
  have hiff := Api.updateEach_isSome_iff hp ho hr
  simp only [hflush, Api.new_fst hr, Database.updateNodes, hall, if_true]
  cases hu : db.nodes.updateEach (Api.renumberRow new)
      ((flushOrder.arrange nodes).map NodeModel.id) with
  | none =>
    rw [hu] at hiff
    exact Or.inr ⟨fun h => by simpa using hiff.mpr h, rfl⟩
  | some t =>
    rw [hu] at hiff
    exact Or.inl ⟨hiff.mp rfl, tn, t, htn, Api.updateEach_rows ho hu, rfl⟩

/-- Every way in which a renumbering can end that is served alone. -/
theorem renumbers (hw : Wellformed db) (ipv4Prefix : String) (ipv6Prefix : Option String)
    (selectOrder flushOrder : RowOrder NodeModel) :
    Renumbers ipv4Prefix ipv6Prefix selectOrder flushOrder db
      (serve db (.updateNetworkSubnet ipv4Prefix ipv6Prefix selectOrder flushOrder)).1
      (serve db (.updateNetworkSubnet ipv4Prefix ipv6Prefix selectOrder flushOrder)).2 := by
  simp only [serve, Request.session, Api.updateNetworkSubnet]
  cases hv : IPAllocator.validateCidr ipv4Prefix ipv6Prefix with
  | false => exact .invalid hv
  | true =>
    obtain ⟨used, hu⟩ := exists_usedPool hv
    have hu' := hu
    rw [usedPool] at hu'
    have hwe := NodeManager.wellformed_ensureNetwork hw
    obtain ⟨tn₀, htn₀, he⟩ := NodeManager.ensureNetwork_frame hw
    have hnodes : (NodeManager.ensureNetwork db).nodes = db.nodes := by rw [he]
    have hrec := NodeManager.recorded_ensureNetwork hw
    have hnet : (NodeManager.ensureNetwork db).networks.rows =
        [recorded (NodeManager.ensureNetwork db)] := by rw [hrec, he, htn₀]
    have hlist := NodeManager.run_listNodes hwe selectOrder
    rw [hnodes, ← hw.id] at hlist
    have hp : (selectOrder.arrange db.nodes.rows).Perm (NodeManager.ensureNetwork db).nodes.rows := by
      rw [hnodes]
      exact selectOrder.perm _
    simp only [hu', Bool.not_true, Bool.false_eq_true, if_false, Prog.pure_eq]
    rw [Prog.run_bind_ok (NodeManager.run_getOrCreateNetwork hw), Prog.run_bind_ok hlist]
    simp only [Prog.ofExcept_ok, Prog.ret_bind]
    cases hr : Api.reallocate used (selectOrder.arrange db.nodes.rows) [] [] with
    | error e => exact .noAddress hv hu hr
    | ok new =>
      simp only [Prog.ofExcept_ok, Prog.ret_bind, commit]
      rcases flushSubnet_cases ipv4Prefix ipv6Prefix flushOrder hnet hp hr with
        ⟨hf, tn, t, htn, ht, hok⟩ | ⟨hf, herr⟩
      · rw [hrec] at hok htn
        rw [hnodes] at ht
        rw [Prog.run_commit_ok hok, Prog.run_ret, (selectOrder.perm db.nodes.rows).length_eq, he]
        exact .done hv hu hr hf htn ht
      · rw [hrec] at herr
        rw [Prog.run_commit_error herr]
        exact .obstructed hv hu hr hf

/-- The pool that is recorded after a renumbering: the IPv4 prefix is the new one, the IPv6
prefix only if one was given. -/
theorem make_renumbered {al : IPAllocator} (hu : usedPool ipv4Prefix ipv6Prefix = .ok used)
    (hal : recordedPool db = .ok al) :
    IPAllocator.make (renumbered ipv4Prefix ipv6Prefix (recorded db)).ipv4Prefix
      (renumbered ipv4Prefix ipv6Prefix (recorded db)).ipv6Prefix =
        .ok ⟨used.ipv4Net, if (truthy ipv6Prefix).isSome then used.ipv6Net else al.ipv6Net⟩ := by
  obtain ⟨h4, h6⟩ := IPAllocator.make_eq_ok_iff.mp hu
  obtain ⟨_, hal6⟩ := IPAllocator.make_eq_ok_iff.mp hal
  refine IPAllocator.make_eq_ok_iff.mpr ⟨h4, ?_⟩
  cases ht : truthy ipv6Prefix with
  | none => simpa [renumbered, ht] using hal6
  | some cidr => simpa [renumbered, ht] using h6

theorem recorded_renumbered {tn : Table Network} {t : Table NodeModel} (hw : Wellformed db)
    (htn : tn.rows = [renumbered ipv4Prefix ipv6Prefix (recorded db)]) :
    recorded { db with networks := tn, nodes := t } =
      renumbered ipv4Prefix ipv6Prefix (recorded db) :=
  recorded_of_singleton htn hw.name

/-- The tables after a renumbering that goes through. -/
theorem wellformed_renumbered {tn : Table Network} {t : Table NodeModel} (hw : Wellformed db)
    (hu : usedPool ipv4Prefix ipv6Prefix = .ok used)
    (htn : tn.rows = [renumbered ipv4Prefix ipv6Prefix (recorded db)])
    (ht : t.rows = db.nodes.rows.map (Api.renumberRow new)) :
    Wellformed { db with networks := tn, nodes := t } := by
  obtain ⟨al, hal⟩ := hw.parsed
  have hrec := recorded_renumbered (t := t) hw htn
  refine ⟨Or.inr ?_, ?_, ?_, ?_, fun n hm => ?_, by simp [htn]⟩
  · rw [hrec]; exact htn
  · rw [hrec]; exact hw.id
  · rw [hrec]; exact hw.name
  · rw [hrec]; exact ⟨_, make_renumbered hu hal⟩
  · obtain ⟨m, hmr, rfl⟩ := List.mem_map.mp (ht ▸ hm)
    rw [Api.renumberRow_networkId]
    exact hw.members m hmr

theorem Renumbers.wellformed {res : Except Exc Response} {db' : Database}
    (h : Renumbers ipv4Prefix ipv6Prefix selectOrder flushOrder db res db') (hw : Wellformed db) :
    Wellformed db' := by
  cases h with
  | invalid => exact hw
  | noAddress => exact NodeManager.wellformed_ensureNetwork hw
  | obstructed => exact NodeManager.wellformed_ensureNetwork hw
  | done hv hu hr hf htn ht => exact wellformed_renumbered hw hu htn ht

end Outcome

end PyMesh
