import PyMesh.Controller.Provenance
import PyMesh.Identity.Base64

/-! The identity of a node: how `pymesh join` makes it, which file it is kept in, and how the daemon
loads it and keeps its addresses up to date. -/
namespace PyMesh

open LTS Relational Resumption Text

structure NodeIdentity where
  nodeId : String
  hostname : String
  identityPrivateKey : String
  identityPublicKey : String
  wgPrivateKey : String
  wgPublicKey : String
  meshIpv4 : Option String := none
  meshIpv6 : Option String := none
  controllerUrl : Option String := none
  authToken : Option String := none
  listenPort : Int := 51820
  os : String
  version : String := "0.1.0"
deriving DecidableEq

/-- What the key generators and the machine give to `create_new`. -/
structure Machine where
  idPriv : List UInt8
  idPub : List UInt8
  wgPriv : List UInt8
  wgPub : List UInt8
  gethostname : String
  platform : String

namespace NodeIdentity

def createNew (m : Machine) (hostname : Option String) : Except Exc NodeIdentity := do
  let idPub := Base64.b64encode m.idPub
  let nodeId ← deriveNodeId idPub
  return {
    nodeId := nodeId
    hostname := (truthy hostname).getD m.gethostname
    identityPrivateKey := Base64.b64encode m.idPriv
    identityPublicKey := idPub
    wgPrivateKey := Base64.b64encode m.wgPriv
    wgPublicKey := Base64.b64encode m.wgPub
    os := m.platform }

/-- The header that `handle_join` sends. -/
def authorization (identity : NodeIdentity) : Option String :=
  (truthy identity.authToken).map ("Bearer " ++ ·)

/-- The registration that `handle_join` posts. -/
def registration (identity : NodeIdentity) : NodeRegistrationRequest where
  hostname := identity.hostname
  publicKey := identity.wgPublicKey
  listenPort := identity.listenPort
  os := identity.os
  version := identity.version

/-- What `handle_join` notes of the controller. -/
def bound (identity : NodeIdentity) (url : String) (token : Option String) : NodeIdentity :=
  { identity with
    controllerUrl := some url
    authToken := token }

/-- What `handle_join` makes of a response. -/
def joined (identity : NodeIdentity) (res : NodeRegistrationResponse) : NodeIdentity :=
  { identity with
    nodeId := res.nodeId
    meshIpv4 := some res.meshIpv4
    meshIpv6 := some res.meshIpv6 }

/-- What a sync makes of a config. -/
def readdressed (identity : NodeIdentity) (config : NetworkConfigResponse) : NodeIdentity :=
  { identity with
    meshIpv4 := some config.meshIpv4
    meshIpv6 := some config.meshIpv6 }

/-- The same node, whatever its addresses. -/
def SameNode (a b : NodeIdentity) : Prop :=
  { a with meshIpv4 := none, meshIpv6 := none } = { b with meshIpv4 := none, meshIpv6 := none }

end NodeIdentity

/-- An identity file: the text of an identity, or what a write has left of one that failed after it
had emptied the file, which is no JSON. -/
inductive IdentityFile
  | holds (identity : NodeIdentity)
  | cutOff
deriving DecidableEq

/-- What becomes of a save: the file cannot be opened and stays, it is emptied and the write fails,
or the whole text is written. -/
inductive SaveOutcome
  | refused
  | cutOff
  | written
deriving DecidableEq

/-- The controllers by their URLs, the identity files of a machine by their paths, and the identity
that the daemon on it runs with. -/
structure Deployment where
  controllers : String → Database
  files : String → Option IdentityFile
  identity : Option NodeIdentity

/-- The directory that the daemon is given, and the home of its user. -/
structure DaemonDirs where
  configDir : String
  home : String

def identityPath (dir : String) : String := dir ++ "/identity.json"

namespace Deployment

/-- The controller that requests for paths below a URL reach. -/
def base (url : String) : String := rstrip (· = '/') url

/-- A request is served by one of the controllers. -/
def request (d : Deployment) (url : String) (r : Request) : Deployment :=
  { d with controllers :=
      Function.update d.controllers (base url) (serve (d.controllers (base url)) r).2 }

/-- `identity.save(path)` -/
def save (d : Deployment) (saved : SaveOutcome) (path : String) (identity : NodeIdentity) :
    Deployment :=
  match saved with
  | .refused => d
  | .cutOff => { d with files := Function.update d.files path (some .cutOff) }
  | .written => { d with files := Function.update d.files path (some (.holds identity)) }

/-- `saved` is also `refused` where no response arrives. -/
def handleJoin (d : Deployment) (m : Machine) (url : String) (token hostname : Option String)
    (configDir : String) (now : Nat) (saved : SaveOutcome) : Deployment :=
  match NodeIdentity.createNew m hostname with
  | .error _ => d
  | .ok identity =>
    let identity := identity.bound url token
    let registerNode := .registerNode identity.authorization identity.registration now
    match (serve (d.controllers (base url)) registerNode).1 with
    | .ok (.registered res) =>
      (d.request url registerNode).save saved (identityPath configDir) (identity.joined res)
    | _ => d.request url registerNode

/-- The first of the three files that is there. -/
def loadIdentity (dirs : DaemonDirs) (d : Deployment) : Option IdentityFile :=
  [identityPath dirs.configDir, identityPath (dirs.home ++ "/.config/pymesh"),
    "/etc/pymesh/identity.json"].findSome? d.files

/-- Loading a file that was cut off raises, so that the others are not looked at. -/
def start (dirs : DaemonDirs) (d : Deployment) : Deployment :=
  match loadIdentity dirs d with
  | some (.holds identity) => { d with identity := some identity }
  | some .cutOff => d
  | none => d

/-- The part of `sync_with_controller` that is about the identity, after the heartbeat. -/
def syncIdentity (dirs : DaemonDirs) (d : Deployment) (nodeOrder : RowOrder NodeModel)
    (routeOrder : RowOrder SubnetRoute) (saved : SaveOutcome) : Deployment :=
  match d.identity with
  | none => d
  | some identity => match truthy identity.controllerUrl with
    | none => d
    | some url =>
      match (serve (d.controllers (base url))
          (.networkConfig nodeOrder routeOrder identity.nodeId)).1 with
      | .ok (.networkConfig config) =>
        if identity.meshIpv4 ≠ some config.meshIpv4 ∨ identity.meshIpv6 ≠ some config.meshIpv6 then
          { d with identity := some (identity.readdressed config) }.save saved
            (identityPath dirs.configDir) (identity.readdressed config)
        else d
      | _ => d

/-- What can happen to a deployment: a request of anyone's, a `pymesh join` on the machine, a start
or a sync of its daemon, and the end of the daemon's process. -/
inductive Event where
  | request (url : String) (r : Request)
  | join (m : Machine) (url : String) (token hostname : Option String) (configDir : String)
      (now : Nat) (saved : SaveOutcome)
  | start
  | sync (nodeOrder : RowOrder NodeModel) (routeOrder : RowOrder SubnetRoute)
      (saved : SaveOutcome)
  | exit

def act (dirs : DaemonDirs) (d : Deployment) : Event → Deployment
  | .request url r => d.request url r
  | .join m url token hostname configDir now saved =>
    d.handleJoin m url token hostname configDir now saved
  | .start => d.start dirs
  | .sync nodeOrder routeOrder saved => d.syncIdentity dirs nodeOrder routeOrder saved
  | .exit => { d with identity := none }

def Step (dirs : DaemonDirs) (d : Deployment) (e : Event) (d' : Deployment) : Prop :=
  d' = d.act dirs e

end Deployment

end PyMesh
