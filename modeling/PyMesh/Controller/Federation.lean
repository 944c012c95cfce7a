import PyMesh.Library.Text
import PyMesh.Storage.Database

/-! Controllers that peer with each other. A call makes four accesses, the first two of them at
the controller whose URL it names. -/
namespace PyMesh

open LTS Relational Resumption Text

/-- A row of `federated_controllers`. -/
structure FederatedController where
  id : String
  url : String
  hostname : String
  publicKey : String
  status : String
deriving DecidableEq

instance FederatedController.row : Row FederatedController String where
  key r := r.id
  Clash a b := a.id = b.id ∨ a.url = b.url
  clash_symm h := h.imp Eq.symm Eq.symm
  clash_of_key h := Or.inl h

instance FederatedController.decidableClash :
    DecidableRel (Row.Clash : FederatedController → FederatedController → Prop) :=
  fun a b => inferInstanceAs (Decidable (a.id = b.id ∨ a.url = b.url))

/-- The body of a handshake; a key may be missing. -/
structure HandshakePayload where
  controllerId : Option String
  hostname : Option String
  url : Option String
  publicKey : Option String

structure HandshakeResponse where
  status : String
  controllerId : String
  hostname : String
  publicKey : String
deriving DecidableEq

structure PeerResponse where
  status : String
  targetUrl : String
  result : HandshakeResponse
deriving DecidableEq

/-- What a controller says of itself; a key may be missing. -/
structure LocalInfo where
  id : Option String
  hostname : Option String
  url : Option String
  publicKey : Option String

/-- The tables of peers of the controllers `ι`. -/
abbrev Mesh (ι : Type) := ι → Table FederatedController

variable {ι : Type} [DecidableEq ι]

namespace FederationManager

/-- `url.rstrip("/")` -/
def cleanUrl (url : String) : String := rstrip (· = '/') url

omit [DecidableEq ι] in
/-- The SELECT of a peer by its URL. -/
def peerNamed (a : ι) (url : String) (m : Mesh ι) : Option FederatedController :=
  (m a).rows.find? fun r => r.url = url

/-- The UPDATE of the row that was read as `existing`. -/
def markPeered (existing row : FederatedController) : FederatedController :=
  { row with status := if existing.status = "PEERED" then row.status else "PEERED" }

def updatePeer (id : String) (f : FederatedController → FederatedController)
    (t : Table FederatedController) : Except Exc (Table FederatedController) :=
  match t.find id with
  | none => .error .staleDataError
  | some _ => checked (t.update id f)

/-- The commit of both sides: `row` is added at `a`, unless a peer with its URL was found. -/
def register (a : ι) (existing : Option FederatedController) (row : FederatedController)
    (m : Mesh ι) : Except Exc (Mesh ι) :=
  (match existing with
    | none => checked ((m a).insert row)
    | some existing => updatePeer existing.id (markPeered existing) (m a)).map
      (Function.update m a)

end FederationManager

namespace Api

open FederationManager

/-- The URL under which a handshake is recorded. -/
def handshakeUrl (payload : HandshakePayload) : String :=
  let targetUrl := cleanUrl (payload.url.getD "")
  if targetUrl = "" then payload.hostname.getD "remote-cr" else targetUrl

def handshakeRow (payload : HandshakePayload) (uuid : String) : FederatedController where
  id := "cr-" ++ uuid
  url := handshakeUrl payload
  hostname := payload.hostname.getD "Remote-CR"
  publicKey := payload.publicKey.getD "pubkey"
  status := "PEERED"

def handshakeReply (uuid : String) : HandshakeResponse where
  status := "peered"
  controllerId := "cr-" ++ uuid
  hostname := "CR-Bootnode-Local"
  publicKey := "local_pubkey"

/-- A handshake at the controller `b`; the two uuids are those of the row and of the reply. -/
def crHandshake (b : ι) (payload : HandshakePayload) (rowUuid replyUuid : String) :
    Prog (Mesh ι) Exc HandshakeResponse := do
  let existing ← Prog.read (peerNamed b (handshakeUrl payload))
  Prog.commit (register b existing (handshakeRow payload rowUuid))
  return handshakeReply replyUuid

end Api

namespace FederationManager

def handshakePayload (localInfo : LocalInfo) : HandshakePayload where
  controllerId := some (localInfo.id.getD "cr-primary")
  hostname := some (localInfo.hostname.getD "CR-Bootnode")
  url := some (localInfo.url.getD "http://localhost:8000")
  publicKey := some (localInfo.publicKey.getD "cr_pubkey_placeholder")

/-- Every answer other than 200 raises. -/
def handshakeFailed (targetUrl : String) : Exc := .runtimeError
  ("CR federation handshake failed with " ++ targetUrl ++ ": Internal Server Error")

def peerRow (targetClean : String) (peerData : HandshakeResponse) (uuid : String) :
    FederatedController where
  id := "cr-" ++ uuid
  url := targetClean
  hostname := peerData.hostname
  publicKey := peerData.publicKey
  status := "PEERED"

/-- What `peer_controller` does at `a` once the handshake has been answered. -/
def recordPeer (a : ι) (targetUrl : String) (peerData : HandshakeResponse) (uuid : String) :
    Prog (Mesh ι) Exc HandshakeResponse := do
  let targetClean := cleanUrl targetUrl
  let existing ← Prog.read (peerNamed a targetClean)
  Prog.commit (register a existing (peerRow targetClean peerData uuid))
  return peerData

/-- `post` is the controller at the other end. -/
def peerController (a : ι) (post : HandshakePayload → Prog (Mesh ι) Exc HandshakeResponse)
    (targetUrl : String) (localInfo : LocalInfo) (uuid : String) :
    Prog (Mesh ι) Exc HandshakeResponse := do
  let payload := handshakePayload localInfo
  let peerData ← tryCatch (post payload) fun _ => throw (handshakeFailed targetUrl)
  recordPeer a targetUrl peerData uuid

end FederationManager

/-- A POST /cr/peer to `caller` with the URL of `callee`. The uuids are those that are drawn for
the row at the caller, for the row at the callee and for its reply. -/
structure PeerCall (ι : Type) where
  caller : ι
  callee : ι
  url : String
  callerUuid : String
  calleeUuid : String
  replyUuid : String

namespace PeerCall

open FederationManager

/-- What `peer_cr_controller` says of its own controller. -/
def localInfo : LocalInfo where
  id := some "cr-primary"
  hostname := some "CR-Primary"
  url := some "http://localhost:8000"
  publicKey := some "local_cr_pubkey"

/-- `peer_cr_controller` -/
def session (call : PeerCall ι) : Prog (Mesh ι) Exc PeerResponse := do
  let result ← peerController call.caller
    (fun payload => Api.crHandshake call.callee payload call.calleeUuid call.replyUuid)
    call.url localInfo call.callerUuid
  return { status := "peered", targetUrl := call.url, result := result }

/-- The row of the handshake, and the row of the caller. -/
def calleeRow (call : PeerCall ι) : FederatedController :=
  Api.handshakeRow (handshakePayload localInfo) call.calleeUuid

def callerRow (call : PeerCall ι) : FederatedController :=
  peerRow (cleanUrl call.url) (Api.handshakeReply call.replyUuid) call.callerUuid

def response (call : PeerCall ι) : PeerResponse :=
  { status := "peered", targetUrl := call.url, result := Api.handshakeReply call.replyUuid }

end PeerCall

/-- What stands between two accesses of a call. -/
inductive PeeringPoint where
  | selectThere
  | commitThere (existing : Option FederatedController)
  | selectHere
  | commitHere (existing : Option FederatedController)
  | done (res : Except Exc PeerResponse)

/-- A call that has been made. -/
structure Peering (ι : Type) where
  call : PeerCall ι
  point : PeeringPoint

namespace Peering

open FederationManager

/-- The end of the call. -/
def respond (call : PeerCall ι) (record : Prog (Mesh ι) Exc HandshakeResponse) :
    Prog (Mesh ι) Exc PeerResponse := do
  let result ← record
  return { status := "peered", targetUrl := call.url, result := result }

/-- What is left of the call. -/
def prog (f : Peering ι) : Prog (Mesh ι) Exc PeerResponse :=
  match f.point with
  | .selectThere => f.call.session
  | .commitThere existing => respond f.call do
    let peerData ← tryCatch (do
      Prog.commit (register f.call.callee existing f.call.calleeRow)
      return Api.handshakeReply f.call.replyUuid) fun _ => throw (handshakeFailed f.call.url)
    recordPeer f.call.caller f.call.url peerData f.call.callerUuid
  | .selectHere => respond f.call
    (recordPeer f.call.caller f.call.url (Api.handshakeReply f.call.replyUuid) f.call.callerUuid)
  | .commitHere existing => respond f.call do
    Prog.commit (register f.call.caller existing f.call.callerRow)
    return Api.handshakeReply f.call.replyUuid
  | .done res => .ofExcept res

def result (f : Peering ι) : Option (Except Exc PeerResponse) :=
  match f.point with
  | .done res => some res
  | _ => none

/-- The commit that is due at a point, if it is one. -/
def flush (f : Peering ι) (m : Mesh ι) : Except Exc (Mesh ι) :=
  match f.point with
  | .commitThere existing => match register f.call.callee existing f.call.calleeRow m with
    | .ok m' => .ok m'
    | .error _ => .error (handshakeFailed f.call.url)
  | .commitHere existing => register f.call.caller existing f.call.callerRow m
  | _ => .ok m

/-- The point after the access that is due, when the access raises nothing. -/
def nextPoint (f : Peering ι) (m : Mesh ι) : PeeringPoint :=
  match f.point with
  | .selectThere => .commitThere (peerNamed f.call.callee f.call.calleeRow.url m)
  | .commitThere _ => .selectHere
  | .selectHere => .commitHere (peerNamed f.call.caller f.call.callerRow.url m)
  | .commitHere _ => .done (.ok f.call.response)
  | .done res => .done res

theorem faithful (f : Peering ι) : prog f = .endedOr (result f)
    (.access (flush f) fun m => prog { f with point := nextPoint f m }) := by
  obtain ⟨call, point⟩ := f
  cases point with
  | selectThere => rfl
  | commitThere existing =>
    refine congrArg₂ Prog.atom (funext fun m => ?_) (funext fun m => ?_)
    · simp only [flush]
      cases register call.callee existing call.calleeRow m <;> rfl
    · simp only [flush]
      cases register call.callee existing call.calleeRow m <;> rfl
  | selectHere => rfl
  | commitHere existing =>
    exact (Prog.bind_assoc _ _ _).trans (Prog.commit_bind_eq fun _ _ _ => rfl)
  | done res => rfl

omit [DecidableEq ι] in
theorem result_eq_some_iff {f : Peering ι} {res : Except Exc PeerResponse} :
    f.result = some res ↔ f.point = .done res := by
  unfold result
  cases f.point <;> simp

end Peering

/-- The calls among the controllers `ι`. -/
def peering (ι : Type) [DecidableEq ι] : Frames (Mesh ι) Exc PeerResponse where
  Frame := Peering ι
  prog := Peering.prog
  result := Peering.result
  flush := Peering.flush
  after f m := { f with point := f.nextPoint m }
  raised f e := { f with point := .done (.error e) }
  prog_raised _ _ := rfl
  faithful := Peering.faithful

end PyMesh
