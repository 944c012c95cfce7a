import PyMesh.Controller.Registry
import PyMesh.Dns.Parser
import PyMesh.Library.Dict

/-! `PyMeshDNSServer`: names are resolved from a cache, which every miss fills from the
controller. A query gives way to others at each request to the controller. -/
namespace PyMesh

open Relational Resumption Text

/-- What a GET comes back with: a list with status 200, of which an entry may lack what the
resolver looks up in it and raise; another status; or an exception. -/
inductive HttpReply (α : Type) where
  | ok (items : List (Except Exc α))
  | status (statusCode : Nat)
  | raised (e : Exc)

namespace HttpReply

variable {α : Type}

/-- The entries that a loop over a reply gets through. -/
def readable : List (Except Exc α) → List α
  | .ok a :: items => a :: readable items
  | _ => []

/-- What ends such a loop early. -/
def failure : List (Except Exc α) → Option Exc
  | [] => none
  | .ok _ :: items => failure items
  | .error e :: _ => some e

theorem readable_map_ok (l : List α) : readable (l.map .ok) = l := by
  induction l with
  | nil => rfl
  | cons a l ih => rw [List.map_cons, readable, ih]

theorem mem_readable {items : List (Except Exc α)} {a : α} (h : a ∈ readable items) :
    .ok a ∈ items := by
  induction items with
  | nil => cases h
  | cons x items ih =>
    cases x with
    | error e => cases h
    | ok b =>
      rcases List.mem_cons.mp h with rfl | h
      · exact List.mem_cons_self
      · exact List.mem_cons_of_mem _ (ih h)

theorem failure_map_ok (l : List α) : failure (l.map .ok) = none := by
  induction l with
  | nil => rfl
  | cons a l ih => rw [List.map_cons, failure, ih]

end HttpReply

/-- The cache of a server, and the controller behind it. -/
structure DnsState (γ : Type) where
  controller : γ
  recordsCache : Dict String String

structure PyMeshDNSServer where
  controllerUrl : String

namespace PyMeshDNSServer

variable {γ : Type}

def init (controllerUrl : String) : PyMeshDNSServer := ⟨rstrip (· = '/') controllerUrl⟩

/-- `domain.lower().strip(".")` -/
def dClean (rt : Runtime) (domain : String) : String := strip (· = '.') (rt.lower domain)

/-- What the loop over the nodes stores for one of them, its hostname and its address. -/
def nodeRecords (rt : Runtime) (n : String × String) : List (String × String) :=
  let h := rt.lower n.1
  let ip := n.2
  [(h, ip), (h ++ ".cr", ip), (h ++ ".mesh", ip)]

def ctrlIp (rt : Runtime) (srv : PyMeshDNSServer) : Except Exc String := do
  let ctrlHost ← rt.urlHostname srv.controllerUrl
  match truthy ctrlHost with
  | none => return "100.64.0.1"
  | some ctrlHost =>
    if ["localhost", "127.0.0.1", "0.0.0.0"].contains ctrlHost then return "100.64.0.1"
    else return ctrlHost

/-- What the loop over the TLDs stores for one of them. -/
def tldRecords (rt : Runtime) (ctrlIp : String) (name : String) : List (String × String) :=
  let cleanT := rt.lower (lstrip (· = '.') name)
  [("registry." ++ cleanT, ctrlIp), ("registry", ctrlIp)]

/-- A loop that stores the records of each entry. It awaits nothing. -/
def store {α : Type} (records : α → List (String × String)) (items : List (Except Exc α)) :
    Prog (DnsState γ) Exc Unit :=
  .atom (fun s => { s with
      recordsCache := s.recordsCache.setAll ((HttpReply.readable items).flatMap records) })
    fun _ => match HttpReply.failure items with
      | none => return ()
      | some e => throw e

def fetchNodes (rt : Runtime) (nodesReply : γ → HttpReply (String × String)) :
    Prog (DnsState γ) Exc Unit := do
  match ← Prog.read fun s => nodesReply s.controller with
  | .ok items => store (nodeRecords rt) items
  | .status _ => return ()
  | .raised e => throw e

def fetchTlds (rt : Runtime) (srv : PyMeshDNSServer) (tldsReply : γ → HttpReply String) :
    Prog (DnsState γ) Exc Unit := do
  match ← Prog.read fun s => tldsReply s.controller with
  | .ok items => do
    let ctrlIp ← Prog.ofExcept (ctrlIp rt srv)
    store (tldRecords rt ctrlIp) items
  | .status _ => return ()
  | .raised e => throw e

/-- `except Exception` around what is fetched. -/
def swallow (fetch : Prog (DnsState γ) Exc Unit) : Prog (DnsState γ) Exc Unit :=
  tryCatch fetch fun _ => return ()

/-- The two replies are what the controller answers at the moment it is asked. -/
def resolveCustomTld (rt : Runtime) (srv : PyMeshDNSServer)
    (nodesReply : γ → HttpReply (String × String)) (tldsReply : γ → HttpReply String)
    (domain : String) : Prog (DnsState γ) Exc (Option String) := do
  let dClean := dClean rt domain
  match ← Prog.read fun s => s.recordsCache dClean with
  | some ip => return some ip
  | none =>
    swallow do
      fetchNodes rt nodesReply
      fetchTlds rt srv tldsReply
    Prog.read fun s => s.recordsCache dClean

end PyMeshDNSServer

/-- What comes of a call. -/
inductive Outcome where
  | resolved (targetIp : Option String)
  | answered (response : List UInt8)
  /-- The query is sent to the upstream server, and what that replies is the answer. -/
  | forwarded (queryData : List UInt8)
  | ignored
  | served (res : Response)
  | published (res : PublishResponse)
deriving DecidableEq

namespace PyMeshDNSServer

variable {γ : Type}

/-- The end of `process_query_data`. -/
def answerDoh (data : List UInt8) (domain : String) (targetIp : Option String) :
    Except Exc Outcome :=
  match truthy targetIp with
  | some targetIp => do
    let response ← DNSQueryParser.buildAResponse data domain targetIp
    if response ≠ [] then return .answered response
    return .forwarded data
  | none => return .forwarded data

def processQueryData (rt : Runtime) (srv : PyMeshDNSServer)
    (nodesReply : γ → HttpReply (String × String)) (tldsReply : γ → HttpReply String)
    (data : List UInt8) : Prog (DnsState γ) Exc Outcome := do
  if data.length < 12 then return .answered []
  let domain := (DNSQueryParser.parseDomainName data 12).1
  if domain = "" then return .answered []
  let targetIp ← resolveCustomTld rt srv nodesReply tldsReply domain
  Prog.ofExcept (answerDoh data domain targetIp)

/-- The end of `_process_query`. -/
def answerUdp (data : List UInt8) (domain : String) (targetIp : Option String) :
    Except Exc Outcome :=
  match truthy targetIp with
  | some targetIp => do
    let response ← DNSQueryParser.buildAResponse data domain targetIp
    if response ≠ [] then return .answered response
    return .ignored
  | none => return .forwarded data

/-- `PyMeshDNSServerProtocol._process_query`, which swallows every exception. -/
def processQuery (rt : Runtime) (srv : PyMeshDNSServer)
    (nodesReply : γ → HttpReply (String × String)) (tldsReply : γ → HttpReply String)
    (data : List UInt8) : Prog (DnsState γ) Exc Outcome :=
  tryCatch (do
    if data.length < 12 then return .ignored
    let domain := (DNSQueryParser.parseDomainName data 12).1
    if domain = "" then return .ignored
    let targetIp ← resolveCustomTld rt srv nodesReply tldsReply domain
    Prog.ofExcept (answerUdp data domain targetIp)) fun _ => return .ignored

end PyMeshDNSServer

/-- What stands between two accesses of `resolve_custom_tld`. -/
inductive ResolvePoint where
  | start
  | askNodes
  | storeNodes (items : List (Except Exc (String × String)))
  | askTlds
  | storeTlds (ctrlIp : String) (items : List (Except Exc String))
  | answer
  | done (res : Except Exc (Option String))

/-- A call of `resolve_custom_tld` that has been made. -/
structure Resolving (γ : Type) where
  domain : String
  nodesReply : γ → HttpReply (String × String)
  tldsReply : γ → HttpReply String
  point : ResolvePoint

namespace Resolving

open PyMeshDNSServer HttpReply

variable {γ : Type}

section Points

variable (rt : Runtime) (srv : PyMeshDNSServer)

/-- The end of the call. -/
def lookup (f : Resolving γ) : Prog (DnsState γ) Exc (Option String) :=
  Prog.read fun s => s.recordsCache (dClean rt f.domain)

/-- What is left of the call. -/
def prog (f : Resolving γ) : Prog (DnsState γ) Exc (Option String) :=
  match f.point with
  | .start => resolveCustomTld rt srv f.nodesReply f.tldsReply f.domain
  | .askNodes => do
    swallow do
      fetchNodes rt f.nodesReply
      fetchTlds rt srv f.tldsReply
    lookup rt f
  | .storeNodes items => do
    swallow do
      store (nodeRecords rt) items
      fetchTlds rt srv f.tldsReply
    lookup rt f
  | .askTlds => do
    swallow (fetchTlds rt srv f.tldsReply)
    lookup rt f
  | .storeTlds ctrlIp items => do
    swallow (store (tldRecords rt ctrlIp) items)
    lookup rt f
  | .answer => lookup rt f
  | .done res => .ofExcept res

def result (f : Resolving γ) : Option (Except Exc (Option String)) :=
  match f.point with
  | .done res => some res
  | _ => none

/-- What the loop that is due stores, if it is one. -/
def records (f : Resolving γ) : List (String × String) :=
  match f.point with
  | .storeNodes items => (readable items).flatMap (nodeRecords rt)
  | .storeTlds ctrlIp items => (readable items).flatMap (tldRecords rt ctrlIp)
  | _ => []

def flush (f : Resolving γ) (s : DnsState γ) : Except Exc (DnsState γ) :=
  .ok { s with recordsCache := s.recordsCache.setAll (records rt f) }

def nextPoint (f : Resolving γ) (s : DnsState γ) : ResolvePoint :=
  match f.point with
  | .start => match s.recordsCache (dClean rt f.domain) with
    | some ip => .done (.ok (some ip))
    | none => .askNodes
  | .askNodes => match f.nodesReply s.controller with
    | .ok items => .storeNodes items
    | .status _ => .askTlds
    | .raised _ => .answer
  | .storeNodes items => match failure items with
    | none => .askTlds
    | some _ => .answer
  | .askTlds => match f.tldsReply s.controller with
    | .ok items => match ctrlIp rt srv with
      | .ok ctrlIp => .storeTlds ctrlIp items
      | .error _ => .answer
    | .status _ => .answer
    | .raised _ => .answer
  | .storeTlds _ _ => .answer
  | .answer => .done (.ok (s.recordsCache (dClean rt f.domain)))
  | .done res => .done res

theorem faithful (f : Resolving γ) : prog rt srv f = .endedOr (result f)
    (.access (flush rt f) fun s => prog rt srv { f with point := nextPoint rt srv f s }) := by
  obtain ⟨domain, nodesReply, tldsReply, point⟩ := f
  cases point with
  | start =>
    refine congrArg (Prog.atom _) (funext fun s => ?_)
    simp only [nextPoint]
    cases s.recordsCache (dClean rt domain) <;> rfl
  | askNodes =>
    refine congrArg (Prog.atom _) (funext fun s => ?_)
    simp only [nextPoint]
    cases nodesReply s.controller <;> rfl
  | storeNodes items =>
    refine congrArg (Prog.atom _) (funext fun s => ?_)
    simp only [nextPoint]
    cases failure items <;> rfl
  | askTlds =>
    refine congrArg (Prog.atom _) (funext fun s => ?_)
    simp only [nextPoint]
    cases tldsReply s.controller with
    | ok items => cases ctrlIp rt srv <;> rfl
    | status => rfl
    | raised => rfl
  | storeTlds ctrlIp items =>
    refine congrArg (Prog.atom _) (funext fun s => ?_)
    cases failure items <;> rfl
  | answer => rfl
  | done res => rfl

end Points

section Next

variable {rt : Runtime} {srv : PyMeshDNSServer} {f : Resolving γ} {s : DnsState γ}

theorem result_eq_some_iff {res : Except Exc (Option String)} :
    f.result = some res ↔ f.point = .done res := by
  unfold result
  cases f.point <;> simp

/-- What a point that comes after another owes to the state at which it is reached. -/
def Follows (rt : Runtime) (srv : PyMeshDNSServer) (f : Resolving γ) (s : DnsState γ) :
    ResolvePoint → Prop
  | .storeNodes items => f.nodesReply s.controller = .ok items
  | .storeTlds ip items => f.tldsReply s.controller = .ok items ∧ ctrlIp rt srv = .ok ip
  | .done res => f.point = .done res ∨ res = .ok (s.recordsCache (dClean rt f.domain))
  | _ => True

theorem follows_nextPoint : f.Follows rt srv s (f.nextPoint rt srv s) := by
  obtain ⟨domain, nodesReply, tldsReply, point⟩ := f
  cases point with
  | start =>
    cases hc : s.recordsCache (dClean rt domain) with
    | some ip =>
      simp only [nextPoint, hc]
      exact Or.inr (congrArg Except.ok hc.symm)
    | none =>
      simp only [nextPoint, hc]
      trivial
  | askNodes =>
    cases hr : nodesReply s.controller with
    | ok items =>
      simp only [nextPoint, hr]
      exact hr
    | status code =>
      simp only [nextPoint, hr]
      trivial
    | raised e =>
      simp only [nextPoint, hr]
      trivial
  | storeNodes items =>
    cases hi : failure items <;> simp only [nextPoint, hi] <;> trivial
  | askTlds =>
    cases hr : tldsReply s.controller with
    | ok items =>
      cases hip : ctrlIp rt srv with
      | ok ip =>
        simp only [nextPoint, hr, hip]
        exact ⟨hr, hip⟩
      | error e =>
        simp only [nextPoint, hr, hip]
        trivial
    | status code =>
      simp only [nextPoint, hr]
      trivial
    | raised e =>
      simp only [nextPoint, hr]
      trivial
  | storeTlds ip items => trivial
  | answer => exact Or.inr rfl
  | done res => exact Or.inl rfl

/-- A call ends with what the cache has at that moment. -/
theorem of_nextPoint_done {res : Except Exc (Option String)}
    (h : f.nextPoint rt srv s = .done res) :
    f.point = .done res ∨ res = .ok (s.recordsCache (dClean rt f.domain)) := by
  have hf : f.Follows rt srv s (f.nextPoint rt srv s) := follows_nextPoint
  rw [h] at hf
  exact hf

theorem of_nextPoint_storeNodes {items : List (Except Exc (String × String))}
    (h : f.nextPoint rt srv s = .storeNodes items) : f.nodesReply s.controller = .ok items := by
  have hf : f.Follows rt srv s (f.nextPoint rt srv s) := follows_nextPoint
  rw [h] at hf
  exact hf

theorem of_nextPoint_storeTlds {ip : String} {items : List (Except Exc String)}
    (h : f.nextPoint rt srv s = .storeTlds ip items) :
    f.tldsReply s.controller = .ok items ∧ ctrlIp rt srv = .ok ip := by
  have hf : f.Follows rt srv s (f.nextPoint rt srv s) := follows_nextPoint
  rw [h] at hf
  exact hf

/-- A record that is stored belongs to an entry of a reply. -/
theorem mem_records {r : String × String} (h : r ∈ f.records rt) :
    (∃ items, f.point = .storeNodes items ∧ ∃ n ∈ readable items, r ∈ nodeRecords rt n) ∨
      ∃ ip items, f.point = .storeTlds ip items ∧ ∃ t ∈ readable items, r ∈ tldRecords rt ip t := by
  unfold records at h
  split at h
  next items hp => exact Or.inl ⟨items, hp, List.mem_flatMap.mp h⟩
  next ip items hp => exact Or.inr ⟨ip, items, hp, List.mem_flatMap.mp h⟩
  next => cases h

/-- A call that is about to be made stores nothing, and neither does one that has ended. -/
theorem not_storing (h : f.point = .start ∨ f.point = .done (.ok none)) :
    (∀ items, f.point ≠ .storeNodes items) ∧ ∀ ip items, f.point ≠ .storeTlds ip items := by
  rcases h with h | h
  · simp [h]
  · simp [h]

end Next

end Resolving

/-- The calls of `resolve_custom_tld`. -/
def resolution (rt : Runtime) (srv : PyMeshDNSServer) (γ : Type) :
    Frames (DnsState γ) Exc (Option String) where
  Frame := Resolving γ
  prog := Resolving.prog rt srv
  result := Resolving.result
  flush := Resolving.flush rt
  after f s := { f with point := f.nextPoint rt srv s }
  raised f e := { f with point := .done (.error e) }
  prog_raised _ _ := rfl
  faithful := Resolving.faithful rt srv

end PyMesh
