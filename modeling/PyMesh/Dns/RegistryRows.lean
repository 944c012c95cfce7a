import PyMesh.Controller.Reachable
import PyMesh.Dns.Live

/-! The rows of a registry page against what a fresh server makes of their names. -/
namespace PyMesh

open Relational Resumption Text

namespace PyMeshDNSServer

variable {γ : Type} {rt : Runtime} {srv : PyMeshDNSServer} {w : Controller} {n : NodeModel}
  {names : List String} {name ctrl ip : String}

/-- A name under which TLDs are stored. -/
def RegistryName (names : List String) (name : String) : Prop :=
  names ≠ [] ∧ (name = "registry" ∨ ∃ t ∈ names, name = "registry." ++ t)

/-- The names under which a node is stored. -/
def namesOf (rt : Runtime) (n : NodeModel) : List String :=
  (nodeRecords rt (Controller.addressOf n)).map Prod.fst

/-- The record that is left under a name when the nodes have been stored in an order is that of
the node `n`. -/
def LastNamed (rt : Runtime) (nodes : List NodeModel) (n : NodeModel) (name : String) : Prop :=
  ∃ pre post, nodes = pre ++ n :: post ∧ name ∈ namesOf rt n ∧ ∀ m ∈ post, name ∉ namesOf rt m

/-- The condition under which a name is resolved to the address of the node `n`: it is a name of a
registry, and the address stands in for the controller; or it is none, and the node's. -/
def ResolvesTo (rt : Runtime) (srv : PyMeshDNSServer) (order : RowOrder NodeModel) (w : Controller)
    (n : NodeModel) (name : String) : Prop :=
  (RegistryName (published w.tlds) name ∧ ctrlIp rt srv = .ok (IPv4Address.str n.meshIpv4)) ∨
    ((RegistryName (published w.tlds) name → ∀ ip, ctrlIp rt srv ≠ .ok ip) ∧
      LastNamed rt (order.arrange w.db.nodes.rows) n name)

theorem run_store {α : Type} (records : α → List (String × String)) (l : List α) (s : DnsState γ) :
    (store records (l.map .ok)).run s =
      (.ok (), { s with recordsCache := s.recordsCache.setAll (l.flatMap records) }) := by
  simp only [store, HttpReply.readable_map_ok, HttpReply.failure_map_ok]
  rfl

theorem run_fetchNodes (order : RowOrder NodeModel) (s : DnsState Controller) :
    (fetchNodes rt (Controller.nodesReply order)).run s = (.ok (), { s with
      recordsCache := s.recordsCache.setAll
        (((order.arrange s.controller.db.nodes.rows).map Controller.addressOf).flatMap
          (nodeRecords rt)) }) := by
  simp only [fetchNodes, Prog.run_read_bind, Controller.nodesReply_eq, run_store]

/-- The entries of the reply with the TLDs. -/
def tldNames (order : RowOrder TLDRegistry) (w : Controller) : List String :=
  (order.arrange w.tlds.rows).map fun t => "." ++ t.name

theorem run_fetchTlds (order : RowOrder TLDRegistry) (s : DnsState Controller) :
    (fetchTlds rt srv (Controller.tldsReply order)).run s = match ctrlIp rt srv with
      | .ok ip => (.ok (), { s with
          recordsCache := s.recordsCache.setAll
            ((tldNames order s.controller).flatMap (tldRecords rt ip)) })
      | .error e => (.error e, s) := by
  simp only [fetchTlds, Prog.run_read_bind, Controller.tldsReply_eq]
  cases ctrlIp rt srv with
  | ok ip => exact run_store _ _ _
  | error e => rfl

/-- What a fresh server finds under a name. -/
def found (rt : Runtime) (srv : PyMeshDNSServer) (nodeOrder : RowOrder NodeModel)
    (tldOrder : RowOrder TLDRegistry) (w : Controller) (name : String) : Option String :=
  let nodes := Dict.ofList (((nodeOrder.arrange w.db.nodes.rows).map Controller.addressOf).flatMap
    (nodeRecords rt)) name
  match ctrlIp rt srv with
  | .ok ip => (Dict.ofList ((tldNames tldOrder w).flatMap (tldRecords rt ip)) name).or nodes
  | .error _ => nodes

/-- The cache of a fresh server after the controller has been asked. -/
theorem run_fetch (nodeOrder : RowOrder NodeModel) (tldOrder : RowOrder TLDRegistry) :
    ∃ cache : Dict String String,
      (swallow do
        fetchNodes rt (Controller.nodesReply nodeOrder)
        fetchTlds rt srv (Controller.tldsReply tldOrder)).run ⟨w, .empty⟩ = (.ok (), ⟨w, cache⟩) ∧
      ∀ name, cache name = found rt srv nodeOrder tldOrder w name := by
  rw [swallow, Prog.run_handle, Prog.run_bind_ok (run_fetchNodes nodeOrder _), run_fetchTlds]
  cases hip : ctrlIp rt srv with
  | ok ip =>
    refine ⟨_, rfl, ?_⟩
    intro name
    rw [Dict.setAll_apply]
    simp only [found, hip]
    rfl
  | error e =>
    refine ⟨_, rfl, ?_⟩
    intro name
    simp only [found, hip]
    rfl

theorem run_resolve (nodeOrder : RowOrder NodeModel) (tldOrder : RowOrder TLDRegistry)
    (domain : String) :
    ((resolveCustomTld rt srv (Controller.nodesReply nodeOrder) (Controller.tldsReply tldOrder)
      domain).run ⟨w, .empty⟩).1 =
        .ok (found rt srv nodeOrder tldOrder w (dClean rt domain)) := by
  obtain ⟨cache, hrun, hcache⟩ := run_fetch nodeOrder tldOrder
  simp only [resolveCustomTld, Prog.run_read_bind, Dict.empty]
  refine (congrArg Prod.fst (Prog.run_bind_ok hrun _)).trans ?_
  exact congrArg Except.ok (hcache _)

/-- The record that the TLDs leave under a name. -/
theorem ofList_tlds (hw : Accepted rt w) (order : RowOrder TLDRegistry) (name : String) :
    Dict.ofList ((tldNames order w).flatMap (tldRecords rt ip)) name = some ctrl ↔
      RegistryName (published w.tlds) name ∧ ctrl = ip := by
  have hmem : ∀ t, t ∈ tldNames order w ↔ ∃ u ∈ published w.tlds, t = "." ++ u := by
    intro t
    simp only [tldNames, published, List.mem_map, order.mem]
    constructor
    · rintro ⟨row, hrow, rfl⟩
      exact ⟨row.name, ⟨row, hrow, rfl⟩, rfl⟩
    · rintro ⟨_, ⟨row, hrow, rfl⟩, rfl⟩
      exact ⟨row, hrow, rfl⟩
  constructor
  · intro h
    obtain ⟨t, ht, hr⟩ := List.mem_flatMap.mp (Dict.mem_of_ofList h)
    obtain ⟨u, hu, rfl⟩ := (hmem t).mp ht
    obtain ⟨hip, hname⟩ := mem_tldRecords.mp hr
    rw [(hw u hu).lstrip] at hname
    refine ⟨⟨List.ne_nil_of_mem hu, ?_⟩, hip⟩
    rcases hname with hname | hname
    · exact Or.inr ⟨u, hu, hname⟩
    · exact Or.inl hname
  · rintro ⟨⟨hne, hname⟩, rfl⟩
    obtain ⟨t, ht, hr⟩ : ∃ t ∈ tldNames order w, (name, ctrl) ∈ tldRecords rt ctrl t := by
      rcases hname with rfl | ⟨u, hu, rfl⟩
      · obtain ⟨u, hu⟩ := List.exists_mem_of_ne_nil _ hne
        exact ⟨_, (hmem _).mpr ⟨u, hu, rfl⟩, mem_tldRecords.mpr ⟨rfl, Or.inr rfl⟩⟩
      · refine ⟨_, (hmem _).mpr ⟨u, hu, rfl⟩, mem_tldRecords.mpr ⟨rfl, Or.inl ?_⟩⟩
        rw [(hw u hu).lstrip]
    cases hv : Dict.ofList ((tldNames order w).flatMap (tldRecords rt ctrl)) name with
    | none =>
      exfalso
      apply Dict.ofList_eq_none_iff.mp hv
      exact List.mem_map_of_mem (f := Prod.fst) (List.mem_flatMap.mpr ⟨t, ht, hr⟩)
    | some v =>
      obtain ⟨_, _, hr'⟩ := List.mem_flatMap.mp (Dict.mem_of_ofList hv)
      rw [(mem_tldRecords.mp hr').1]

/-- Of the records of one node, the one under a name. -/
theorem ofList_nodeRecords (n : NodeModel) (name : String) :
    Dict.ofList (nodeRecords rt (Controller.addressOf n)) name = some ip ↔
      name ∈ namesOf rt n ∧ ip = IPv4Address.str n.meshIpv4 := by
  constructor
  · intro h
    have hm := Dict.mem_of_ofList h
    exact ⟨List.mem_map_of_mem (f := Prod.fst) hm, (mem_nodeRecords.mp hm).1⟩
  · rintro ⟨hname, rfl⟩
    cases hv : Dict.ofList (nodeRecords rt (Controller.addressOf n)) name with
    | none => exact (Dict.ofList_eq_none_iff.mp hv hname).elim
    | some v => rw [(mem_nodeRecords.mp (Dict.mem_of_ofList hv)).1]; rfl

/-- The record that the nodes leave under a name is the address of `n` exactly when `n` is the
last one that has the name: no two nodes have one address. -/
theorem ofList_nodes (order : RowOrder NodeModel) (hn : n ∈ w.db.nodes.rows) (name : String) :
    Dict.ofList (((order.arrange w.db.nodes.rows).map Controller.addressOf).flatMap
      (nodeRecords rt)) name = some (IPv4Address.str n.meshIpv4) ↔
      LastNamed rt (order.arrange w.db.nodes.rows) n name := by
  rw [List.flatMap_map, Dict.ofList_flatMap_eq_some_iff]
  constructor
  · rintro ⟨pre, m, post, hnodes, hm, hpost⟩
    obtain ⟨hname, hip⟩ := (ofList_nodeRecords m name).mp hm
    have hrow : m ∈ w.db.nodes.rows := order.mem.mp (by rw [hnodes]; simp)
    have hclash : Row.Clash n m := Or.inr (Or.inl (IPv4Address.str_injective hip))
    obtain rfl := Table.eq_of_clash hn hrow hclash
    refine ⟨pre, post, hnodes, hname, ?_⟩
    intro m hm
    exact Dict.ofList_eq_none_iff.mp (hpost m hm)
  · rintro ⟨pre, post, hnodes, hname, hpost⟩
    refine ⟨pre, n, post, hnodes, (ofList_nodeRecords n name).mpr ⟨hname, rfl⟩, ?_⟩
    intro m hm
    exact Dict.ofList_eq_none_iff.mpr (hpost m hm)

theorem found_iff (hw : Accepted rt w) (nodeOrder : RowOrder NodeModel)
    (tldOrder : RowOrder TLDRegistry) (hn : n ∈ w.db.nodes.rows) (name : String) :
    found rt srv nodeOrder tldOrder w name = some (IPv4Address.str n.meshIpv4) ↔
      ResolvesTo rt srv nodeOrder w n name := by
  unfold ResolvesTo
  rw [← ofList_nodes nodeOrder hn]
  cases hip : ctrlIp rt srv with
  | error e => simp [found, hip]
  | ok ip =>
    simp only [found, hip, Except.ok.injEq]
    rw [Option.or_eq_some_iff, ofList_tlds hw, Option.eq_none_iff_forall_ne_some]
    simp only [ne_eq, ofList_tlds hw]
    constructor
    · rintro (⟨hreg, he⟩ | ⟨hno, hnode⟩)
      · exact Or.inl ⟨hreg, he.symm⟩
      · exact Or.inr ⟨fun hreg _ _ => hno ip ⟨hreg, rfl⟩, hnode⟩
    · rintro (⟨hreg, he⟩ | ⟨hno, hnode⟩)
      · exact Or.inl ⟨hreg, he.symm⟩
      · exact Or.inr ⟨fun _ hreg => hno hreg.1 ip rfl, hnode⟩

/-- Every row of the registry page of a TLD is resolved to its address by a fresh server, if and
only if the name in it resolves to the node of the row for each of them. -/
theorem registry_rows_resolve_iff (hw : Accepted rt w) (t : String)
    (pageOrder nodeOrder : RowOrder NodeModel) (tldOrder : RowOrder TLDRegistry) :
    (∀ page, ((registryTldPage rt pageOrder t).run w).1 = .ok page → ∀ row ∈ page.domainRows,
      ((resolveCustomTld rt srv (Controller.nodesReply nodeOrder) (Controller.tldsReply tldOrder)
        row.domainName).run ⟨w, .empty⟩).1 = .ok (some row.meshIpv4)) ↔
    ∀ n ∈ w.db.nodes.rows, ResolvesTo rt srv nodeOrder w n
      (dClean rt (n.hostname ++ "." ++ TLDManager.cleanTld rt (TLDManager.cleanTld rt t))) := by
  obtain ⟨publisherInfo, hpage⟩ : ∃ publisherInfo, ((registryTldPage rt pageOrder t).run w).1 =
      .ok (TLDManager.renderRegistryHtml rt (TLDManager.cleanTld rt t) publisherInfo
        (pageOrder.arrange w.db.nodes.rows)) := ⟨_, rfl⟩
  have hrow : ∀ n ∈ w.db.nodes.rows, ∀ name, ((resolveCustomTld rt srv
      (Controller.nodesReply nodeOrder) (Controller.tldsReply tldOrder) name).run ⟨w, .empty⟩).1 =
        .ok (some (IPv4Address.str n.meshIpv4)) ↔ ResolvesTo rt srv nodeOrder w n (dClean rt name) := by
    intro n hn name
    rw [run_resolve, Except.ok.injEq]
    exact found_iff hw nodeOrder tldOrder hn _
  constructor
  · intro h n hn
    rw [← hrow n hn]
    exact h _ hpage ⟨_, IPv4Address.str n.meshIpv4, IPv6Address.str n.meshIpv6⟩
      (List.mem_map.mpr ⟨n, pageOrder.mem.mpr hn, rfl⟩)
  · intro h page hp row hr
    rw [hpage] at hp
    cases hp
    obtain ⟨n, hn, rfl⟩ := List.mem_map.mp hr
    have hn := pageOrder.mem.mp hn
    exact (hrow n hn _).mpr (h n hn)

/-- A controller with one node, `node`, that has published a TLD. -/
def nodeUnder (tld : String) : Controller :=
  ⟨(serve .empty (registerKey "YQ==")).2,
    ((Api.publishTld .ascii tld "Official TLD" "Primary CR Server").run .empty).2⟩

theorem registry_rows_resolve_iff_cr : ∃ page,
    ((registryTldPage .ascii .stored "cr").run (nodeUnder "cr")).1 = .ok page ∧
      ∀ row ∈ page.domainRows, ((resolveCustomTld .ascii (init "http://localhost:8000")
        (Controller.nodesReply .stored) (Controller.tldsReply .stored) row.domainName).run
          ⟨nodeUnder "cr", .empty⟩).1 = .ok (some row.meshIpv4) := by
  have htlds : published (nodeUnder "cr").tlds = ["cr"] := by decide +kernel
  have hw : Accepted .ascii (nodeUnder "cr") := by
    intro name hn
    rw [htlds, List.mem_singleton] at hn
    exact ⟨"cr", by decide, by rw [hn]; decide⟩
  refine ⟨_, rfl, ?_⟩
  refine (registry_rows_resolve_iff hw "cr" .stored .stored .stored).mpr ?_ _ rfl
  intro n hn
  have hhost : ∀ n ∈ (nodeUnder "cr").db.nodes.rows, n.hostname = "node" := by decide +kernel
  have hclean : dClean .ascii ("node" ++ "." ++
      TLDManager.cleanTld .ascii (TLDManager.cleanTld .ascii "cr")) = "node.cr" := by decide +kernel
  rw [hhost n hn, hclean]
  refine Or.inr ⟨?_, ?_⟩
  · rintro ⟨-, hname | ⟨t, ht, hname⟩⟩
    · exact absurd hname (by decide +kernel)
    · rw [htlds, List.mem_singleton] at ht
      subst ht
      exact absurd hname (by decide +kernel)
  · obtain ⟨m, hm⟩ := List.length_eq_one_iff.mp
      (by decide +kernel : (nodeUnder "cr").db.nodes.rows.length = 1)
    rw [hm, List.mem_singleton] at hn
    subst hn
    have hlisted : RowOrder.stored.arrange (nodeUnder "cr").db.nodes.rows = [] ++ n :: [] := by
      simp only [RowOrder.stored, id_eq, hm, List.nil_append]
    refine ⟨[], [], hlisted, ?_, fun _ h => nomatch h⟩
    have hnames : namesOf .ascii n = ["node", "node.cr", "node.mesh"] := by
      simp only [namesOf, nodeRecords, Controller.addressOf, hhost n (by rw [hm]; simp),
        List.map_cons, List.map_nil]
      decide
    rw [hnames]
    decide

/-- Under any other TLD the page lists names that resolve to nothing. -/
theorem registry_rows_resolve_fails : ∃ page,
    ((registryTldPage .ascii .stored "priv").run (nodeUnder "priv")).1 = .ok page ∧
      ∃ row ∈ page.domainRows, row.domainName = "node.priv" ∧
        ((resolveCustomTld .ascii (init "http://localhost:8000") (Controller.nodesReply .stored)
          (Controller.tldsReply .stored) row.domainName).run ⟨nodeUnder "priv", .empty⟩).1 =
            .ok none := by
  have hpage : ((registryTldPage .ascii .stored "priv").run (nodeUnder "priv")).1 = .ok
      { clean := "priv", publisherDetails := "Primary CR Server", domainRows :=
        [{ domainName := "node.priv", meshIpv4 := "100.64.0.2",
           meshIpv6 := "fd00:7079:6d65::2" }] } := by decide +kernel
  refine ⟨_, hpage, _, List.mem_singleton.mpr rfl, rfl, ?_⟩
  rw [run_resolve]
  decide +kernel

end PyMeshDNSServer

end PyMesh
