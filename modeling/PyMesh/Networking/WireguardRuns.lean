import PyMesh.Library.Run
import PyMesh.Networking.WireguardFailure
import Mathlib.Data.List.Infix

/-! The calls of one `WireGuardManager` after the other: when it turns dry, what it leaves in the
file system, and which peers it has set up. -/
namespace PyMesh

open LTS

namespace WireGuardManager

variable {π : Type} [DecidableEq π] {sys : System π} {m : WireGuardManager}
  {peers : List PeerDict} {d d' d₀ : Device π}

/-- The peers that are set up when a sync is answered so: all of them, or those that the tool has
taken before the first that it rejects. -/
def through (sys : System π) (m : WireGuardManager) (peers : List PeerDict) (answer : Bool) :
    List PeerDict :=
  if answer then peers
  else if sys.which then peers.takeWhile fun p => !rejects sys m p
  else []

end WireGuardManager

/-- What becomes of the temporary file for the key. -/
inductive KeyFile where
  | notCreated
  /-- Only so many characters of the key are written. -/
  | cutOff (written : Nat)
  | complete
deriving DecidableEq

/-- What a call finds on the host. -/
structure Tools (π : Type) extends System π where
  /-- Whether `IPRoute` finds the interface; `none` when it raises. -/
  lookup : Option Bool
  /-- Whether `ipr.link("add", …)` succeeds. -/
  linkAdd : Bool
  /-- The exit status of `ip link add …` and what it prints; `none` when it raises. -/
  ipLinkAdd : Option (Int × String)
  /-- Whether `WireGuard().set(…, private_key=…, listen_port=…)` succeeds. -/
  setKey : Bool
  keyFile : KeyFile
  /-- Whether `wg set … listen-port … private-key …` succeeds. -/
  wgSetKey : Bool
  /-- Whether `os.unlink(key_file)` succeeds. -/
  unlink : Bool
  /-- `WireGuard().set(interface_name, peers=…)` of `remove_peer`; `none` when it raises. -/
  unpeer : String → String → Device π → Option (Device π)

/-- What the calls work on. -/
structure WgHost (π : Type) where
  /-- Whether the interface has been created. -/
  present : Bool
  /-- Its private key and its port. -/
  configured : Option (String × Int)
  device : Device π
  /-- What is in the temporary files that have not been removed. -/
  keyFiles : List String

structure WgState (π : Type) where
  manager : WireGuardManager
  host : WgHost π

/-- The methods of the manager with their arguments. -/
inductive WgCall where
  | createInterface (listenPort : Int)
  | configureInterface (privateKey : String) (listenPort : Int)
  | syncPeers (peers : List PeerDict)
  | addPeer (publicKey : String) (allowedIps : List String) (endpoint : Option String)
      (persistentKeepalive : Int)
  | removePeer (publicKey : String)

namespace WgState

variable {π : Type} [DecidableEq π]

/-- `self._dry_run = True` -/
def giveUp (s : WgState π) : WgState π := { s with manager.dryRun := true }

def created (s : WgState π) : WgState π := { s with host.present := true }

def setUp (s : WgState π) (privateKey : String) (listenPort : Int) : WgState π :=
  { s with host.configured := some (privateKey, listenPort) }

/-- A temporary file stays behind. -/
def leave (s : WgState π) (written : String) : WgState π :=
  { s with host.keyFiles := s.host.keyFiles ++ [written] }

/-- `link_lookup`, and `link("add", …)` if it finds nothing. -/
def links (t : Tools π) : Bool :=
  match t.lookup with
  | none => false
  | some true => true
  | some false => t.linkAdd

/-- `res.returncode == 0 or "File exists" in res.stderr.decode()` -/
def ipLinks (t : Tools π) : Bool :=
  match t.ipLinkAdd with
  | none => false
  | some (returncode, stderr) => returncode == 0 || decide ("File exists".toList <:+: stderr.toList)

def createInterface (t : Tools π) (s : WgState π) : Bool × WgState π :=
  if links t || ipLinks t then (true, s.created)
  else (false, s.giveUp)

def configureInterface (t : Tools π) (privateKey : String) (listenPort : Int) (s : WgState π) :
    Bool × WgState π :=
  if s.manager.dryRun then (true, s)
  else if t.setKey then (true, s.setUp privateKey listenPort)
  else if t.which then
    match t.keyFile with
    | .notCreated => (true, s.giveUp)
    | .cutOff n => (true, (s.leave (Text.truncate privateKey n)).giveUp)
    | .complete =>
      if !t.wgSetKey then (true, (s.leave privateKey).giveUp)
      else if !t.unlink then (true, ((s.setUp privateKey listenPort).leave privateKey).giveUp)
      else (true, s.setUp privateKey listenPort)
  else (true, s.giveUp)

def syncPeers (t : Tools π) (peers : List PeerDict) (s : WgState π) : Bool × WgState π :=
  let (answer, d) := s.manager.syncPeers t.toSystem peers s.host.device
  (answer, { s with host.device := d })

def removePeer (t : Tools π) (publicKey : String) (s : WgState π) : Bool × WgState π :=
  if s.manager.dryRun then (true, s)
  else if t.which && t.accepts ["wg", "set", s.manager.interfaceName, "peer", publicKey, "remove"]
  then (true, { s with host.device := s.host.device.remove publicKey })
  else match t.unpeer s.manager.interfaceName publicKey s.host.device with
    | none => (false, s)
    | some d => (true, { s with host.device := d })

/-- The answer to a call, and what it leaves. -/
def perform (t : Tools π) : WgCall → WgState π → Bool × WgState π
  | .createInterface _ => createInterface t
  | .configureInterface privateKey listenPort => configureInterface t privateKey listenPort
  | .syncPeers peers => syncPeers t peers
  | .addPeer publicKey allowedIps endpoint persistentKeepalive =>
    syncPeers t [⟨publicKey, allowedIps, endpoint, persistentKeepalive⟩]
  | .removePeer publicKey => removePeer t publicKey

end WgState

/-- What happens on a host. -/
inductive WgEvent (π : Type) where
  | call (t : Tools π) (c : WgCall) (answer : Bool)
  /-- The daemon starts again, with a new manager. -/
  | restart
  /-- Another program changes the interface. -/
  | other

inductive WgStep {π : Type} [DecidableEq π] (s : WgState π) : WgEvent π → WgState π → Prop
  | call {t : Tools π} {c : WgCall} {answer : Bool} {s' : WgState π} :
      s.perform t c = (answer, s') → WgStep s (.call t c answer) s'
  | restart : WgStep s .restart { s with manager.dryRun := false }
  | other {host : WgHost π} : host.keyFiles = s.host.keyFiles → WgStep s .other { s with host }

/-- Whether pyroute2 sets the key, or else `wg` does and the file is removed. -/
def WgState.configures {π : Type} (t : Tools π) : Bool :=
  t.setKey || (t.which && decide (t.keyFile = .complete) && t.wgSetKey && t.unlink)

/-- Every way of creating or of configuring the interface fails. -/
def WgCall.givesUp {π : Type} (t : Tools π) : WgCall → Bool
  | .createInterface _ => !(WgState.links t || WgState.ipLinks t)
  | .configureInterface _ _ => !WgState.configures t
  | _ => false

namespace WgEvent

variable {π : Type}

def givesUp : WgEvent π → Bool
  | .call t c _ => c.givesUp t
  | _ => false

end WgEvent

namespace WgState

variable {π : Type} [DecidableEq π] {t : Tools π} {c : WgCall} {e : WgEvent π}
  {es : List (WgEvent π)} {s s' u : WgState π} {k : String}

/-- A dry manager creates the interface if it can, and does nothing else. -/
theorem perform_of_dry (hdry : s.manager.dryRun = true) (hc : ∀ port, c ≠ .createInterface port) :
    s.perform t c = (true, s) := by
  cases c with
  | createInterface port => exact absurd rfl (hc port)
  | configureInterface privateKey listenPort => exact if_pos hdry
  | syncPeers peers => simp [perform, syncPeers, WireGuardManager.syncPeers, hdry]
  | addPeer publicKey ips endpoint keepalive =>
    simp [perform, syncPeers, WireGuardManager.syncPeers, hdry]
  | removePeer publicKey => exact if_pos hdry

omit [DecidableEq π] in
theorem createInterface_cases (t : Tools π) (s : WgState π) :
    ((links t || ipLinks t) = true ∧ s.createInterface t = (true, s.created)) ∨
    ((links t || ipLinks t) = false ∧ s.createInterface t = (false, s.giveUp)) := by
  unfold createInterface
  split
  · rename_i h
    exact Or.inl ⟨h, rfl⟩
  · rename_i h
    exact Or.inr ⟨Bool.eq_false_iff.mpr h, rfl⟩

omit [DecidableEq π] in
/-- A manager that is not dry sets the key and cleans up, or gives up and may leave one file. -/
theorem configureInterface_cases (hdry : s.manager.dryRun = false) (t : Tools π)
    (privateKey : String) (listenPort : Int) :
    (configures t = true ∧ s.configureInterface t privateKey listenPort =
      (true, s.setUp privateKey listenPort)) ∨
    (configures t = false ∧ ∃ u, s.configureInterface t privateKey listenPort = (true, u.giveUp) ∧
      (u = s ∨ ∃ f, f.toList <+: privateKey.toList ∧
        (u = s.leave f ∨ u = (s.setUp privateKey listenPort).leave f))) := by
  simp only [configureInterface, configures, hdry, Bool.false_eq_true, if_false]
  by_cases hset : t.setKey = true
  · exact Or.inl ⟨by simp [hset], by simp [hset]⟩
  by_cases hwhich : t.which = true
  swap
  · exact Or.inr ⟨by simp [hset, hwhich], s, by simp [hset, hwhich], Or.inl rfl⟩
  cases hfile : t.keyFile with
  | notCreated => exact Or.inr ⟨by simp [hset], s, by simp [hset, hwhich], Or.inl rfl⟩
  | cutOff n =>
    refine Or.inr ⟨by simp [hset], s.leave (Text.truncate privateKey n),
      by simp [hset, hwhich], Or.inr ⟨_, ?_, Or.inl rfl⟩⟩
    rw [Text.toList_truncate]
    exact List.take_prefix n _
  | complete =>
    by_cases hwg : t.wgSetKey = true
    swap
    · exact Or.inr ⟨by simp [hset, hwg], s.leave privateKey, by simp [hset, hwhich, hwg],
        Or.inr ⟨_, List.prefix_rfl, Or.inl rfl⟩⟩
    by_cases hunlink : t.unlink = true
    · exact Or.inl ⟨by simp [hwhich, hwg, hunlink], by simp [hset, hwhich, hwg, hunlink]⟩
    · exact Or.inr ⟨by simp [hset, hunlink], (s.setUp privateKey listenPort).leave privateKey,
        by simp [hset, hwhich, hwg, hunlink], Or.inr ⟨_, List.prefix_rfl, Or.inr rfl⟩⟩

theorem manager_perform (t : Tools π) (c : WgCall) (s : WgState π) :
    (s.perform t c).2.manager =
      { s.manager with dryRun := s.manager.dryRun || c.givesUp t } := by
  cases c with
  | createInterface port =>
    rcases createInterface_cases t s with ⟨h, hs⟩ | ⟨h, hs⟩
    · simp [perform, hs, WgCall.givesUp, h, created]
    · simp [perform, hs, WgCall.givesUp, h, giveUp]
  | configureInterface privateKey listenPort =>
    cases hdry : s.manager.dryRun with
    | true => rw [perform_of_dry hdry fun _ h => WgCall.noConfusion h, Bool.true_or, ← hdry]
    | false =>
      rcases configureInterface_cases hdry t privateKey listenPort with ⟨h, hs⟩ | ⟨h, u, hs, hu⟩
      · simp [perform, hs, WgCall.givesUp, h, setUp, ← hdry]
      · have hu : u.manager = s.manager := by
          rcases hu with rfl | ⟨f, -, rfl | rfl⟩ <;> rfl
        simp [perform, hs, WgCall.givesUp, h, giveUp, hu]
  | syncPeers peers => simp [perform, syncPeers, WgCall.givesUp]
  | addPeer publicKey ips endpoint keepalive => simp [perform, syncPeers, WgCall.givesUp]
  | removePeer publicKey =>
    simp only [perform, removePeer, WgCall.givesUp, Bool.or_false]
    split
    · rfl
    · split
      · rfl
      · split <;> rfl

theorem manager_step (h : WgStep s e s') (he : e ≠ .restart) :
    s'.manager = { s.manager with dryRun := s.manager.dryRun || e.givesUp } := by
  cases h with
  | @call t c answer s' hs =>
    have hm := manager_perform t c s
    rw [hs] at hm
    exact hm
  | restart => exact absurd rfl he
  | other => simp [WgEvent.givesUp]

theorem manager_run (h : Run WgStep s es s') (hes : ∀ e ∈ es, e ≠ .restart) :
    s'.manager = { s.manager with dryRun := s.manager.dryRun || es.any WgEvent.givesUp } := by
  induction h with
  | refl => simp
  | @tail es t e u _ hs ih =>
    have ht := ih fun e he => hes e (List.mem_append_left _ he)
    rw [manager_step hs (hes e (by simp)), ht, List.any_append, List.any_cons, List.any_nil]
    simp [Bool.or_assoc]

/-- What a dry manager does to the host: it creates the interface. -/
theorem host_of_dry (h : WgStep s e s') (he : e ≠ .other) (hdry : s.manager.dryRun = true) :
    s'.host = { s.host with present := s'.host.present } := by
  cases h with
  | @call t c answer s' hs =>
    by_cases hc : ∃ port, c = .createInterface port
    · obtain ⟨port, rfl⟩ := hc
      obtain rfl : (s.createInterface t).2 = s' := congrArg Prod.snd hs
      rcases createInterface_cases t s with ⟨-, hc⟩ | ⟨-, hc⟩
      · rw [hc]
        rfl
      · rw [hc]
        rfl
    · rw [perform_of_dry hdry (not_exists.mp hc)] at hs
      obtain rfl : s = s' := congrArg Prod.snd hs
      rfl
  | restart => rfl
  | other => exact absurd rfl he

/-- The calls of a dry manager, until it is replaced by a new one. -/
theorem idle_run (h : Run WgStep s es s') (hes : ∀ e ∈ es, e ≠ .restart)
    (hdry : s.manager.dryRun = true) :
    (∀ t c answer, .call t c answer ∈ es → (∀ port, c ≠ .createInterface port) →
      answer = true) ∧
    (.other ∉ es → s'.host = { s.host with present := s'.host.present }) := by
  induction h with
  | refl => exact ⟨by simp, fun _ => rfl⟩
  | @tail es v e u hr hs ih =>
    have hearlier : ∀ e ∈ es, e ≠ .restart := fun e he => hes e (List.mem_append_left _ he)
    obtain ⟨hanswers, hhost⟩ := ih hearlier
    have hv : v.manager.dryRun = true := by
      rw [manager_run hr hearlier, hdry, Bool.true_or]
    refine ⟨fun t c answer hmem hc => ?_, fun hother => ?_⟩
    · rcases List.mem_append.mp hmem with hmem | hmem
      · exact hanswers t c answer hmem hc
      · obtain rfl := List.mem_singleton.mp hmem
        cases hs with
        | call hs =>
          rw [perform_of_dry hv hc] at hs
          exact (congrArg Prod.fst hs).symm
    · have hothers := hhost fun hmem => hother (List.mem_append_left _ hmem)
      rw [host_of_dry hs (fun he => hother (by simp [he])) hv, hothers]

/-- Calls one after the other, with the answers that they get. -/
def answered (s : WgState π) : List (Tools π × WgCall) → List (WgEvent π)
  | [] => []
  | (t, c) :: l => .call t c (s.perform t c).1 :: answered (s.perform t c).2 l

def after (s : WgState π) : List (Tools π × WgCall) → WgState π
  | [] => s
  | (t, c) :: l => after (s.perform t c).2 l

theorem run_answered (s : WgState π) (l : List (Tools π × WgCall)) :
    Run WgStep s (answered s l) (after s l) := by
  induction l generalizing s with
  | nil => exact .refl
  | cons x l ih => exact (Run.single (WgStep.call rfl)).append (ih (s.perform x.1 x.2).2)

/-- A host on which `wg` takes keys that have the length of a key. pyroute2 takes one peer at a
time, and does not know the argument `peers`. -/
def keyTools : Tools String :=
  { WireGuardManager.keyCheck with
    lookup := some false, linkAdd := true, ipLinkAdd := none, setKey := false,
    keyFile := .complete, wgSetKey := true, unlink := true, unpeer := fun _ _ _ => none }

def fresh : WgState String := ⟨WireGuardManager.pymesh0, ⟨false, none, Holdings.empty, []⟩⟩

def aKey : String := "cGFja2V0cyB0aGF0IGFyZSBub3QgdG8gYmUgcmVhZC4="

/-- A sync stops at a bad peer, one of the others is added, then the key cannot be set, and a peer
is removed in vain. -/
def session : List (Tools String × WgCall) :=
  [(keyTools, .createInterface 51820),
    (keyTools, .syncPeers [WireGuardManager.goodPeer, WireGuardManager.badPeer,
      WireGuardManager.otherPeer]),
    (keyTools, .addPeer WireGuardManager.otherPeer.publicKey ["100.80.0.4/32"] none 25),
    ({ keyTools with wgSetKey := false }, .configureInterface aKey 51820),
    (keyTools, .removePeer WireGuardManager.goodPeer.publicKey)]

theorem calls_answered (l : List (Tools π × WgCall)) (he : e ∈ answered s l) :
    e ≠ .restart ∧ e ≠ .other := by
  induction l generalizing s with
  | nil => cases he
  | cons x l ih =>
    rcases List.mem_cons.mp he with rfl | he
    · constructor
      all_goals
        intro h
        cases h
    · exact ih he

/-- A manager turns dry when every way of creating or of configuring the interface has failed, and
only then. From then on it answers every other call with success and leaves the host alone. -/
theorem dry_for_good (h : Run WgStep s es s') (hes : ∀ e ∈ es, e ≠ .restart)
    (hdry : s.manager.dryRun = false) :
    (s'.manager.dryRun = true ↔ ∃ e ∈ es, e.givesUp = true) ∧
    ∀ pre e post, es = pre ++ e :: post → e.givesUp = true →
      (∀ t c answer, .call t c answer ∈ post → (∀ port, c ≠ .createInterface port) →
        answer = true) ∧
      (.other ∉ post → ∃ u, Run WgStep s (pre ++ [e]) u ∧
        s'.host = { u.host with present := s'.host.present }) := by
  refine ⟨?_, ?_⟩
  · rw [manager_run h hes, hdry, Bool.false_or, List.any_eq_true]
  · rintro pre e post rfl hgive
    rw [List.append_cons] at h hes
    obtain ⟨u, hu, hpost⟩ := run_append_iff.mp h
    have hpre : ∀ e' ∈ pre ++ [e], e' ≠ .restart := fun e' he =>
      hes e' (List.mem_append_left _ he)
    have hudry : u.manager.dryRun = true := by
      rw [manager_run hu hpre, List.any_append, List.any_cons, hgive]
      simp
    obtain ⟨hanswers, hhost⟩ := idle_run hpost
      (fun e' he => hes e' (List.mem_append_right _ he)) hudry
    exact ⟨hanswers, fun hother => ⟨u, hu, hhost hother⟩⟩

theorem dry_for_good_session : ∃ s', Run WgStep fresh (answered fresh session) s' ∧
    s'.manager.dryRun = true := by
  have hrun := run_answered fresh session
  have hgive : (answered fresh session).any WgEvent.givesUp = true := by decide +kernel
  obtain ⟨hdry, -⟩ := dry_for_good hrun (fun e he => (calls_answered session he).1) rfl
  exact ⟨_, hrun, hdry.mpr (List.any_eq_true.mp hgive)⟩

/-- A call leaves no file behind, or the manager gives up. -/
theorem keyFiles_perform (t : Tools π) (c : WgCall) (s : WgState π) :
    (s.perform t c).2.host.keyFiles = s.host.keyFiles ∨
    (s.manager.dryRun = false ∧ c.givesUp t = true ∧ ∃ privateKey listenPort f,
      c = .configureInterface privateKey listenPort ∧ f.toList <+: privateKey.toList ∧
      (s.perform t c).2.host.keyFiles = s.host.keyFiles ++ [f]) := by
  cases c with
  | createInterface port =>
    rcases createInterface_cases t s with ⟨-, hs⟩ | ⟨-, hs⟩
    · exact Or.inl (by rw [perform, hs]; rfl)
    · exact Or.inl (by rw [perform, hs]; rfl)
  | configureInterface privateKey listenPort =>
    cases hdry : s.manager.dryRun with
    | true => exact Or.inl (by rw [perform_of_dry hdry fun _ h => WgCall.noConfusion h])
    | false =>
      rcases configureInterface_cases hdry t privateKey listenPort with
        ⟨-, hs⟩ | ⟨hgive, u, hs, rfl | ⟨f, hf, hu⟩⟩
      · exact Or.inl (by rw [perform, hs]; rfl)
      · exact Or.inl (by rw [perform, hs]; rfl)
      · refine Or.inr ⟨rfl, by rw [WgCall.givesUp, hgive]; rfl, _, _, f, rfl, hf, ?_⟩
        rw [perform, hs]
        rcases hu with rfl | rfl <;> rfl
  | syncPeers peers => exact Or.inl rfl
  | addPeer publicKey ips endpoint keepalive => exact Or.inl rfl
  | removePeer publicKey =>
    refine Or.inl ?_
    simp only [perform, removePeer]
    split
    · rfl
    · split
      · rfl
      · split <;> rfl

/-- How often the daemon has been restarted. -/
def restarts (es : List (WgEvent π)) : Nat :=
  es.countP fun e => match e with
    | .restart => true
    | _ => false

omit [DecidableEq π] in
theorem restarts_concat (es : List (WgEvent π)) (e : WgEvent π) :
    restarts (es ++ [e]) = restarts es + restarts [e] := List.countP_append

/-- A manager that leaves a file was not dry before, and is afterwards. -/
theorem length_keyFiles_step (h : WgStep s e s') :
    s'.host.keyFiles.length + s.manager.dryRun.toNat ≤
      s.host.keyFiles.length + restarts [e] + s'.manager.dryRun.toNat := by
  cases h with
  | @call t c answer s' hs =>
    obtain rfl : (s.perform t c).2 = s' := congrArg Prod.snd hs
    rw [manager_perform]
    rcases keyFiles_perform t c s with hkeep | ⟨hdry, hgive, _, _, f, -, -, hleft⟩
    · have hmono : s.manager.dryRun.toNat ≤ (s.manager.dryRun || c.givesUp t).toNat := by
        cases s.manager.dryRun <;> simp
      rw [hkeep]
      dsimp only
      omega
    · rw [hleft, hdry, hgive, List.length_append]
      simp
  | restart =>
    have hone : restarts [(.restart : WgEvent π)] = 1 := rfl
    have hle : s.manager.dryRun.toNat ≤ 1 := Bool.toNat_le _
    rw [hone]
    dsimp only
    omega
  | other hkeep =>
    rw [hkeep]
    dsimp only
    omega

theorem mem_keyFiles_step (h : WgStep s e s') {f : String} (hf : f ∈ s'.host.keyFiles) :
    f ∈ s.host.keyFiles ∨ ∃ t privateKey listenPort answer,
      e = .call t (.configureInterface privateKey listenPort) answer ∧
      f.toList <+: privateKey.toList := by
  cases h with
  | @call t c answer s' hs =>
    obtain rfl : (s.perform t c).2 = s' := congrArg Prod.snd hs
    rcases keyFiles_perform t c s with hkeep | ⟨-, -, key, port, g, rfl, hg, hleft⟩
    · exact Or.inl (hkeep ▸ hf)
    · rw [hleft] at hf
      refine (List.mem_append.mp hf).imp_right fun hmem => ?_
      obtain rfl := List.mem_singleton.mp hmem
      exact ⟨t, key, port, answer, rfl, hg⟩
  | restart => exact Or.inl hf
  | other hkeep => exact Or.inl (hkeep ▸ hf)

/-- Every manager leaves one file with a private key at most, and the present one none unless it
is dry: what is in the file is the beginning of a key that it was to set. -/
theorem keyFiles_run (h : Run WgStep s es s') :
    s'.host.keyFiles.length ≤
      s.host.keyFiles.length + restarts es + s'.manager.dryRun.toNat ∧
    ∀ f ∈ s'.host.keyFiles, f ∈ s.host.keyFiles ∨ ∃ t privateKey listenPort answer,
      .call t (.configureInterface privateKey listenPort) answer ∈ es ∧
      f.toList <+: privateKey.toList := by
  induction h with
  | refl => exact ⟨by omega, fun f hf => Or.inl hf⟩
  | @tail es v e u hr hs ih =>
    obtain ⟨hcount, hfiles⟩ := ih
    have hstep := length_keyFiles_step hs
    refine ⟨?_, fun f hf => ?_⟩
    · rw [restarts_concat]
      omega
    · rcases mem_keyFiles_step hs hf with hf | ⟨t, key, port, answer, rfl, hprefix⟩
      · refine (hfiles f hf).imp_right ?_
        rintro ⟨t, key, port, answer, hmem, hprefix⟩
        exact ⟨t, key, port, answer, List.mem_append_left _ hmem, hprefix⟩
      · exact Or.inr ⟨t, key, port, answer, by simp, hprefix⟩

theorem keyFiles_run_session : ∃ s', Run WgStep fresh (answered fresh session) s' ∧
    s'.host.keyFiles = [aKey] ∧ s'.host.keyFiles.length ≤ s'.manager.dryRun.toNat := by
  have hrun := run_answered fresh session
  have hnone : restarts (answered fresh session) = 0 := by decide +kernel
  have hfile : (after fresh session).host.keyFiles = [aKey] := by decide +kernel
  refine ⟨_, hrun, hfile, ?_⟩
  have hcount := (keyFiles_run hrun).1
  rw [hnone] at hcount
  simpa [fresh] using hcount

/-- Whether a key is a peer after an event, from whether it is one before. -/
def verdict (m : WireGuardManager) (k : String) (b : Bool) : WgEvent π → Bool
  | .call t (.syncPeers peers) answer =>
    b || decide (k ∈ (WireGuardManager.through t.toSystem m peers answer).map PeerDict.publicKey)
  | .call t (.addPeer publicKey allowedIps endpoint persistentKeepalive) answer =>
    b || decide (k ∈ (WireGuardManager.through t.toSystem m
      [⟨publicKey, allowedIps, endpoint, persistentKeepalive⟩] answer).map PeerDict.publicKey)
  | .call _ (.removePeer publicKey) answer => b && !(answer && decide (k = publicKey))
  | _ => b

end WgState

end PyMesh
