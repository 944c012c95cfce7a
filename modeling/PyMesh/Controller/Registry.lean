import PyMesh.Controller.Api
import PyMesh.Dns.Tld

/-! The TLDs that a controller publishes, the lists that it serves to the resolver, and the
registry page of a TLD. -/
namespace PyMesh

open Relational Resumption

/-- A row of `tld_registries`. -/
structure TLDRegistry where
  name : String
  description : String
  publisherInfo : String
  publisherNodeId : String
deriving DecidableEq

instance TLDRegistry.row : Row TLDRegistry String where
  key t := t.name
  Clash a b := a.name = b.name
  clash_symm := Eq.symm
  clash_of_key := id

instance TLDRegistry.decidableClash : DecidableRel (Row.Clash : TLDRegistry → TLDRegistry → Prop) :=
  fun a b => inferInstanceAs (Decidable (a.name = b.name))

/-- What a controller stores. -/
structure Controller where
  db : Database
  tlds : Table TLDRegistry

namespace Controller

def empty : Controller := ⟨.empty, .empty⟩

/-- A session that uses the tables of the network only. -/
def onDb {α : Type} (s : Session α) : Prog Controller Exc α :=
  s.zoom Controller.db fun db w => { w with db := db }

/-- A session that uses the table of the TLDs only. -/
def onTlds {α : Type} (s : Prog (Table TLDRegistry) Exc α) : Prog Controller Exc α :=
  s.zoom Controller.tlds fun t w => { w with tlds := t }

end Controller

/-- The names of the published TLDs. -/
def published (t : Table TLDRegistry) : List String := t.rows.map TLDRegistry.name

structure PublishResponse where
  status : String
  tld : String
  registryUrl : String
  description : String
deriving DecidableEq

/-- An entry of `GET /tld`. -/
structure TldEntry where
  name : String
  description : String
  publisherInfo : String
  publisherNodeId : String
  registryUrl : String
deriving DecidableEq

/-- An entry of `GET /nodes`. -/
structure NodeEntry where
  id : String
  hostname : String
  meshIpv4 : String
  meshIpv6 : String
  wireguardPublicKey : String
  listenPort : Int
  os : String
  version : String
  online : Bool
  natType : String
  lastSeen : Nat
  endpoints : List String
  tags : List String
deriving DecidableEq

namespace Api

def invalidTld : Exc := .httpException 400
  ("Invalid TLD name syntax. Must be 2-24 standard lowercase characters/hyphens " ++
    "(e.g. .cr, .mesh).")

def tldEntry (cleanName description publisherInfo : String) : TLDRegistry where
  name := cleanName
  description := description
  publisherInfo := publisherInfo
  publisherNodeId := "cr-primary"

/-- The UPDATE of the row that was read as `existing`. A column whose value has not changed
since then is not part of it. -/
def describe (existing : TLDRegistry) (description publisherInfo : String) (row : TLDRegistry) :
    TLDRegistry :=
  { row with
    description := if description = existing.description then row.description else description
    publisherInfo :=
      if publisherInfo = existing.publisherInfo then row.publisherInfo else publisherInfo }

def updateTld (name : String) (f : TLDRegistry → TLDRegistry) (t : Table TLDRegistry) :
    Except Exc (Table TLDRegistry) :=
  match t.find name with
  | none => .error .staleDataError
  | some _ => checked (t.update name f)

def publishTld (rt : Runtime) (name description publisherInfo : String) :
    Prog (Table TLDRegistry) Exc PublishResponse := do
  if !TLDManager.validateTldName rt name then throw invalidTld
  let cleanName := TLDManager.cleanTld rt name
  match ← Prog.read fun t => t.find cleanName with
  | none => Prog.commit fun t => checked (t.insert (tldEntry cleanName description publisherInfo))
  | some existing => Prog.commit (updateTld cleanName (describe existing description publisherInfo))
  return {
    status := "published"
    tld := "." ++ cleanName
    registryUrl := "http://registry." ++ cleanName
    description := description }

def listedTld (t : TLDRegistry) : TldEntry where
  name := "." ++ t.name
  description := t.description
  publisherInfo := t.publisherInfo
  publisherNodeId := t.publisherNodeId
  registryUrl := "http://registry." ++ t.name

/-- `order` is the order in which the SELECT returns the rows. -/
def listTlds (order : RowOrder TLDRegistry) : Prog (Table TLDRegistry) Exc (List TldEntry) := do
  let tlds ← Prog.read fun t => order.arrange t.rows
  return tlds.map listedTld

def listedNode (n : NodeModel) : NodeEntry where
  id := n.id
  hostname := n.hostname
  meshIpv4 := IPv4Address.str n.meshIpv4
  meshIpv6 := IPv6Address.str n.meshIpv6
  wireguardPublicKey := n.wireguardPublicKey
  listenPort := n.listenPort
  os := n.os
  version := n.version
  online := n.online
  natType := n.natType
  lastSeen := n.lastSeen
  endpoints := n.endpoints
  tags := n.tags

def listNodes (order : RowOrder NodeModel) : Session (List NodeEntry) := do
  let nodes ← NodeManager.listNodes order none
  return nodes.map listedNode

end Api

/-- A row of the table on a registry page: the domain name and the two addresses. -/
structure DomainRow where
  domainName : String
  meshIpv4 : String
  meshIpv6 : String
deriving DecidableEq

/-- What a registry page shows. -/
structure RegistryPage where
  clean : String
  publisherDetails : String
  domainRows : List DomainRow
deriving DecidableEq

/-- The contents of the page without its markup. -/
def TLDManager.renderRegistryHtml (rt : Runtime) (tldName publisherDetails : String)
    (registeredDomains : List NodeModel) : RegistryPage :=
  let clean := TLDManager.cleanTld rt tldName
  { clean := clean
    publisherDetails := publisherDetails
    domainRows := registeredDomains.map fun d =>
      { domainName := d.hostname ++ "." ++ clean
        meshIpv4 := IPv4Address.str d.meshIpv4
        meshIpv6 := IPv6Address.str d.meshIpv6 } }

/-- `registry_tld_page`; `order` is the order in which the SELECT returns the nodes. -/
def registryTldPage (rt : Runtime) (order : RowOrder NodeModel) (tldName : String) :
    Prog Controller Exc RegistryPage := do
  let clean := TLDManager.cleanTld rt tldName
  let tldEntry ← Prog.read fun w => w.tlds.find clean
  let publisherInfo := match tldEntry with
    | some entry => entry.publisherInfo
    | none => "Official ." ++ clean ++ " TLD Registry"
  let nodes ← Prog.read fun w => order.arrange w.db.nodes.rows
  return TLDManager.renderRegistryHtml rt clean publisherInfo nodes

variable {rt : Runtime} {t t' : Table TLDRegistry}

/-- What every access of a session that publishes does to the table of the TLDs. -/
structure Publishes (rt : Runtime) (t t' : Table TLDRegistry) : Prop where
  kept : ∀ name ∈ published t, name ∈ published t'
  added : ∀ name ∈ published t', name ∈ published t ∨ TLDManager.Publishable rt name

theorem Publishes.refl (t : Table TLDRegistry) : Publishes rt t t :=
  ⟨fun _ h => h, fun _ h => Or.inl h⟩

theorem publishes_insert {row : TLDRegistry} (hrow : TLDManager.Publishable rt row.name)
    (h : checked (t.insert row) = .ok t') : Publishes rt t t' := by
  have hu := Table.insert_eq_some_iff.mp (checked_eq_ok h)
  constructor
  · intro name hn
    simp only [published, hu, List.map_append]
    exact List.mem_append_left _ hn
  · intro name hn
    simp only [published, hu, List.map_append, List.map_cons, List.map_nil, List.mem_append,
      List.mem_singleton] at hn
    rcases hn with hn | rfl
    · exact Or.inl hn
    · exact Or.inr hrow

theorem publishes_update {name : String} {f : TLDRegistry → TLDRegistry}
    (hf : ∀ r, (f r).name = r.name) (h : Api.updateTld name f t = .ok t') : Publishes rt t t' := by
  unfold Api.updateTld at h
  split at h
  next => cases h
  next =>
    have hu := Table.update_eq_some_iff.mp (checked_eq_ok h)
    have hnames : published t' = published t := by
      simp only [published, hu, List.map_map]
      refine List.map_congr_left ?_
      intro r _
      dsimp only [Function.comp_apply]
      split
      · exact hf r
      · rfl
    constructor
    · intro n hn
      exact hnames ▸ hn
    · intro n hn
      exact Or.inl (hnames ▸ hn)

theorem moves_publishTld (rt : Runtime) (name description publisherInfo : String) :
    (Api.publishTld rt name description publisherInfo).Moves (Publishes rt) := by
  unfold Api.publishTld
  cases hv : TLDManager.validateTldName rt name with
  | false => trivial
  | true =>
    have hname : TLDManager.Publishable rt (TLDManager.cleanTld rt name) := ⟨name, hv, rfl⟩
    refine Prog.Moves.bind (Prog.moves_read _ Publishes.refl) ?_
    intro found
    cases found with
    | none =>
      refine Prog.Moves.bind (Prog.moves_commit Publishes.refl ?_) fun _ => trivial
      intro t t' h
      exact publishes_insert hname h
    | some existing =>
      refine Prog.Moves.bind (Prog.moves_commit Publishes.refl ?_) fun _ => trivial
      intro t t' h
      exact publishes_update (f := Api.describe existing description publisherInfo) (fun _ => rfl) h

end PyMesh
