import PyMesh.Identity.Node

/-! Which node a daemon runs as, over any joins, starts and syncs. -/
namespace PyMesh

open LTS Relational Resumption Text

theorem deriveNodeId_b64encode (bs : List UInt8) :
    deriveNodeId (Base64.b64encode bs) = .ok (Sha256.hexdigest bs) := by
  rw [deriveNodeId, Base64.b64decode_b64encode]
  rfl

section Serve

variable {db : Database} {r : Request} {id : String} {authorization : Option String}
  {req : NodeRegistrationRequest} {now : Nat} {res : NodeRegistrationResponse}
  {nodeOrder : RowOrder NodeModel} {routeOrder : RowOrder SubnetRoute} {c : NetworkConfigResponse}

/-- A registration that is answered has been given the id of its key, and the node is there. -/
theorem registered_of_serve (hw : Wellformed db)
    (h : (serve db (.registerNode authorization req now)).1 = .ok (.registered res)) :
    deriveNodeId req.publicKey = .ok res.nodeId ∧
      (profileIn (serve db (.registerNode authorization req now)).2 res.nodeId).isSome := by
  have hans := answers hw (.registerNode authorization req now)
  have hhears := hans.hears hw res.nodeId
  rw [h] at hans hhears
  have hkey : deriveNodeId req.publicKey = .ok res.nodeId := by
    generalize (serve db (.registerNode authorization req now)).2 = db' at hans
    cases hans with
    | register hreg =>
      cases hreg with
      | @known id node t ha hk hn ht =>
        have hid : node.id = id := (Table.find_eq_some_iff.mp hn).2
        rw [hk, ← hid]
        rfl
      | added ha hk => exact hk
  refine ⟨hkey, ?_⟩
  rw [hhears, saidBy, if_pos hkey]
  rfl

/-- The config of a node that is there. -/
theorem serve_config (h : (profileIn db id).isSome) :
    ∃ c, (serve db (.networkConfig nodeOrder routeOrder id)).1 = .ok (.networkConfig c) := by
  rw [profileIn, Option.isSome_map] at h
  obtain ⟨node, hn⟩ := Option.isSome_iff_exists.mp h
  refine ⟨PeerManager.networkConfig nodeOrder routeOrder db node, ?_⟩
  rw [serve, Request.session, Api.getNetworkConfig, Prog.run_handle, Prog.run_bind,
    PeerManager.run_buildNetworkConfig, hn]
  rfl

end Serve

namespace Deployment

open NodeIdentity

variable {dirs : DaemonDirs} {d d' : Deployment} {e : Event} {es : List Event}
  {i j k : NodeIdentity} {url path dir id : String}

/-- An identity that is in a file or in the memory of the daemon. -/
def Holds (d : Deployment) (i : NodeIdentity) : Prop :=
  d.identity = some i ∨ ∃ path, d.files path = some (.holds i)

/-- The event is a join that writes this identity. -/
def Joins (d : Deployment) (e : Event) (dir : String) (i : NodeIdentity) : Prop :=
  ∃ m url token hostname now fresh res, e = .join m url token hostname dir now .written ∧
    createNew m hostname = .ok fresh ∧
    (serve (d.controllers (base url)) (.registerNode (fresh.bound url token).authorization
      (fresh.bound url token).registration now)).1 = .ok (.registered res) ∧
    i = (fresh.bound url token).joined res

/-- The file that the daemon looks at first, and that it saves its identity in. -/
def ownPath (dirs : DaemonDirs) : String := identityPath dirs.configDir

/-- A join that writes to a file, whether it is answered or not. -/
def JoinsAt (path : String) : Event → Prop
  | .join _ _ _ _ configDir _ _ => identityPath configDir = path
  | _ => False

theorem SameNode.refl (i : NodeIdentity) : SameNode i i := rfl

theorem SameNode.trans (h : SameNode i j) (h' : SameNode j k) : SameNode i k := Eq.trans h h'

theorem SameNode.nodeId (h : SameNode i j) : i.nodeId = j.nodeId := (NodeIdentity.mk.inj h).1

theorem SameNode.readdressed (i : NodeIdentity) (c : NetworkConfigResponse) :
    SameNode i (i.readdressed c) := rfl

/-- What a sync does when it does anything. -/
theorem syncIdentity_cases (dirs : DaemonDirs) (d : Deployment) (nodeOrder : RowOrder NodeModel)
    (routeOrder : RowOrder SubnetRoute) (saved : SaveOutcome) :
    d.syncIdentity dirs nodeOrder routeOrder saved = d ∨ ∃ k config, d.identity = some k ∧
      k.readdressed config ≠ k ∧ d.syncIdentity dirs nodeOrder routeOrder saved =
        { d with identity := some (k.readdressed config) }.save saved
          (identityPath dirs.configDir) (k.readdressed config) := by
  unfold syncIdentity
  cases hk : d.identity with
  | none => exact Or.inl rfl
  | some k =>
    dsimp only
    split
    next => exact Or.inl rfl
    next url hurl =>
      split
      next config hconfig =>
        split
        next hne =>
          refine Or.inr ⟨k, config, rfl, fun heq => ?_, rfl⟩
          rw [← heq] at hne
          rcases hne with hne | hne
          · exact hne rfl
          · exact hne rfl
        next => exact Or.inl rfl
      next => exact Or.inl rfl

/-- A join saves an identity when it is answered; it always leaves the daemon as it was. -/
theorem handleJoin_cases (d : Deployment) (m : Machine) (url : String)
    (token hostname : Option String) (dir : String) (now : Nat) (saved : SaveOutcome) :
    ∃ authorization req, let d₁ := d.request url (.registerNode authorization req now)
      d.handleJoin m url token hostname dir now saved = d₁ ∨
        ∃ i, (saved = .written → Joins d (.join m url token hostname dir now saved) dir i) ∧
          d.handleJoin m url token hostname dir now saved = d₁.save saved (identityPath dir) i := by
  have hnew : ∃ fresh, createNew m hostname = .ok fresh := by
    simp only [createNew, deriveNodeId_b64encode]
    exact ⟨_, rfl⟩
  obtain ⟨fresh, hfresh⟩ := hnew
  refine ⟨(fresh.bound url token).authorization, (fresh.bound url token).registration, ?_⟩
  unfold handleJoin
  rw [hfresh]
  dsimp only
  split
  next res hres =>
    refine Or.inr ⟨_, ?_, rfl⟩
    rintro rfl
    exact ⟨m, url, token, hostname, now, fresh, res, rfl, hfresh, hres, rfl⟩
  next => exact Or.inl rfl

section Save

variable {saved : SaveOutcome} {p : String} {f : IdentityFile}

@[simp] theorem save_controllers (d : Deployment) (saved : SaveOutcome) (p : String)
    (k : NodeIdentity) : (d.save saved p k).controllers = d.controllers := by
  cases saved <;> rfl

@[simp] theorem save_identity (d : Deployment) (saved : SaveOutcome) (p : String)
    (k : NodeIdentity) : (d.save saved p k).identity = d.identity := by
  cases saved <;> rfl

theorem save_files_congr (h : d'.files = d.files) :
    (d'.save saved p k).files = (d.save saved p k).files := by
  cases saved with
  | refused => exact h
  | cutOff => exact congrArg (Function.update · p _) h
  | written => exact congrArg (Function.update · p _) h

theorem save_files_of_ne (h : path ≠ p) : (d.save saved p k).files path = d.files path := by
  cases saved with
  | refused => rfl
  | cutOff => exact Function.update_of_ne h ..
  | written => exact Function.update_of_ne h ..

/-- Where an identity that is in a file after a save comes from. -/
theorem of_save (h : (d.save saved p k).files path = some (.holds i)) :
    (path = p ∧ saved = .written ∧ k = i) ∨ d.files path = some (.holds i) := by
  by_cases hp : path = p
  · subst hp
    cases saved with
    | refused => exact Or.inr h
    | cutOff =>
      simp only [save, Function.update_self] at h
      cases h
    | written =>
      simp only [save, Function.update_self] at h
      cases h
      exact Or.inl ⟨rfl, rfl, rfl⟩
  · rw [save_files_of_ne hp] at h
    exact Or.inr h

theorem exists_save (h : d.files path = some f) :
    ∃ f', (d.save saved p k).files path = some f' := by
  by_cases hp : path = p
  · subst hp
    cases saved with
    | refused => exact ⟨f, h⟩
    | cutOff => exact ⟨.cutOff, Function.update_self ..⟩
    | written => exact ⟨.holds k, Function.update_self ..⟩
  · exact ⟨f, by rw [save_files_of_ne hp, h]⟩

end Save

/-- What an event does to the files: nothing, or a join or a sync saves an identity. -/
theorem files_act_cases (dirs : DaemonDirs) (d : Deployment) (e : Event) :
    (d.act dirs e).files = d.files ∨ ∃ saved p k, (d.act dirs e).files = (d.save saved p k).files ∧
      (JoinsAt p e ∧ (saved = .written → ∃ dir, p = identityPath dir ∧ Joins d e dir k) ∨
        p = ownPath dirs ∧ (∃ nodeOrder routeOrder, e = .sync nodeOrder routeOrder saved) ∧
          (d.act dirs e).identity = some k ∧ ∃ j, d.identity = some j ∧ k ≠ j ∧ SameNode j k) := by
  cases e with
  | request url r => exact Or.inl rfl
  | join m url token hostname dir now saved =>
    obtain ⟨_, _, hd | ⟨k, hk, hd⟩⟩ := handleJoin_cases d m url token hostname dir now saved
    · refine Or.inl ?_
      rw [act, hd]
      rfl
    · refine Or.inr ⟨saved, identityPath dir, k, ?_, Or.inl ⟨rfl, fun hw => ⟨dir, rfl, hk hw⟩⟩⟩
      rw [act, hd]
      exact save_files_congr rfl
  | start =>
    refine Or.inl ?_
    rw [act, start]
    split <;> rfl
  | sync nodeOrder routeOrder saved =>
    rcases syncIdentity_cases dirs d nodeOrder routeOrder saved with hd | ⟨j, c, hj, hne, hd⟩
    · exact Or.inl (congrArg files hd)
    · refine Or.inr ⟨saved, ownPath dirs, j.readdressed c, ?_, Or.inr ⟨rfl, ⟨_, _, rfl⟩, ?_, j, hj,
        hne, SameNode.readdressed j c⟩⟩
      · rw [act, hd]
        exact save_files_congr rfl
      · rw [act, hd, save_identity]
  | exit => exact Or.inl rfl

/-- Where an identity that is in a file after an event comes from. -/
theorem files_act (h : (d.act dirs e).files path = some (.holds i)) :
    d.files path = some (.holds i) ∨ (∃ dir, path = identityPath dir ∧ Joins d e dir i) ∨
      (path = identityPath dirs.configDir ∧ ∃ k, d.identity = some k ∧ SameNode k i) := by
  rcases files_act_cases dirs d e with hf | ⟨saved, p, k, hf, hsave⟩
  · exact Or.inl (hf ▸ h)
  · rw [hf] at h
    rcases of_save h with ⟨rfl, hw, rfl⟩ | h
    · rcases hsave with ⟨-, hjoins⟩ | ⟨hp, -, -, j, hj, -, hsame⟩
      · exact Or.inr (Or.inl (hjoins hw))
      · exact Or.inr (Or.inr ⟨hp, j, hj, hsame⟩)
    · exact Or.inl h

/-- No file goes away. -/
theorem exists_file_act {f : IdentityFile} (h : d.files path = some f) :
    ∃ f', (d.act dirs e).files path = some f' := by
  rcases files_act_cases dirs d e with hf | ⟨saved, p, k, hf, -⟩
  · exact ⟨f, by rw [hf, h]⟩
  · rw [hf]
    exact exists_save h

/-- Where the identity of the daemon comes from. -/
theorem identity_act (h : (d.act dirs e).identity = some i) :
    (∃ k, d.identity = some k ∧ SameNode k i) ∨ loadIdentity dirs d = some (.holds i) := by
  cases e with
  | request url r => exact Or.inl ⟨i, h, rfl⟩
  | join m url token hostname dir now saved =>
    obtain ⟨_, _, hd | ⟨j, -, hd⟩⟩ := handleJoin_cases d m url token hostname dir now saved
    · rw [act, hd] at h
      exact Or.inl ⟨i, h, rfl⟩
    · rw [act, hd, save_identity] at h
      exact Or.inl ⟨i, h, rfl⟩
  | start =>
    rw [act, start] at h
    split at h
    next k hk =>
      cases h
      exact Or.inr hk
    next => exact Or.inl ⟨i, h, rfl⟩
    next => exact Or.inl ⟨i, h, rfl⟩
  | sync nodeOrder routeOrder saved =>
    rcases syncIdentity_cases dirs d nodeOrder routeOrder saved with hd | ⟨k, c, hk, -, hd⟩
    · rw [act, hd] at h
      exact Or.inl ⟨i, h, rfl⟩
    · rw [act, hd, save_identity] at h
      cases h
      exact Or.inl ⟨k, hk, SameNode.readdressed k c⟩
  | exit => cases h

theorem request_controllers (d : Deployment) (url : String) (r : Request) (u : String) :
    (d.request url r).controllers u =
      if u = base url then (serve (d.controllers u) r).2 else d.controllers u := by
  change Function.update d.controllers (base url) (serve (d.controllers (base url)) r).2 u = _
  by_cases hu : u = base url
  · subst hu
    rw [Function.update_self, if_pos rfl]
  · rw [Function.update_of_ne hu, if_neg hu]

/-- What an event does to a controller: nothing, or it serves a request. -/
theorem controllers_act (dirs : DaemonDirs) (d : Deployment) (e : Event) (u : String) :
    (d.act dirs e).controllers u = d.controllers u ∨ ∃ r,
      (d.act dirs e).controllers u = (serve (d.controllers u) r).2 ∧
        ((∃ url, base url = u ∧ e = .request url r) ∨
          ∃ authorization req now, r = .registerNode authorization req now) := by
  have hserved : ∀ url r, (d.request url r).controllers u = d.controllers u ∨
      (base url = u ∧ (d.request url r).controllers u = (serve (d.controllers u) r).2) := by
    intro url r
    rw [request_controllers]
    by_cases hu : u = base url
    · rw [if_pos hu]
      exact Or.inr ⟨hu.symm, rfl⟩
    · rw [if_neg hu]
      exact Or.inl rfl
  cases e with
  | request url r =>
    rcases hserved url r with h | ⟨hu, h⟩
    · exact Or.inl h
    · exact Or.inr ⟨r, h, Or.inl ⟨url, hu, rfl⟩⟩
  | join m url token hostname dir now saved =>
    obtain ⟨authorization, req, hjoin⟩ := handleJoin_cases d m url token hostname dir now saved
    have hd : (d.handleJoin m url token hostname dir now saved).controllers u =
        (d.request url (.registerNode authorization req now)).controllers u := by
      rcases hjoin with hd | ⟨j, -, hd⟩
      · rw [hd]
      · rw [hd, save_controllers]
    rw [act, hd]
    rcases hserved url (.registerNode authorization req now) with h | ⟨-, h⟩
    · exact Or.inl h
    · exact Or.inr ⟨_, h, Or.inr ⟨_, _, _, rfl⟩⟩
  | start =>
    rw [act, start]
    split <;> exact Or.inl rfl
  | sync nodeOrder routeOrder saved =>
    rcases syncIdentity_cases dirs d nodeOrder routeOrder saved with hd | ⟨k, c, -, -, hd⟩
    · rw [act, hd]
      exact Or.inl rfl
    · rw [act, hd, save_controllers]
      exact Or.inl rfl
  | exit => exact Or.inl rfl

theorem wellformed_act (hw : ∀ u, Wellformed (d.controllers u)) (u : String) :
    Wellformed ((d.act dirs e).controllers u) := by
  rcases controllers_act dirs d e u with h | ⟨r, h, -⟩
  · rw [h]
    exact hw u
  · rw [h]
    exact wellformed_serve (hw u) r

/-- A node stays with its controller until it is deleted there. -/
theorem profileIn_act {u : String} (hw : ∀ u, Wellformed (d.controllers u))
    (he : ∀ url, base url = u → e ≠ .request url (.deleteNode id))
    (h : (profileIn (d.controllers u) id).isSome) :
    (profileIn ((d.act dirs e).controllers u) id).isSome := by
  rcases controllers_act dirs d e u with hc | ⟨r, hc, hr⟩
  · rw [hc]
    exact h
  · rw [hc]
    refine profileIn_serve (hw u) ?_ h
    rintro rfl
    rcases hr with ⟨url, hu, rfl⟩ | ⟨_, _, _, hr⟩
    · exact he url hu rfl
    · cases hr

/-- What a join writes is what the controller has answered. -/
theorem known_of_joins (hw : ∀ u, Wellformed (d.controllers u)) (h : Joins d e dir i) :
    deriveNodeId i.wgPublicKey = .ok i.nodeId ∧ ∃ url, i.controllerUrl = some url ∧
      (profileIn ((d.act dirs e).controllers (base url)) i.nodeId).isSome := by
  obtain ⟨m, url, token, hostname, now, fresh, res, rfl, hfresh, hres, rfl⟩ := h
  obtain ⟨hkey, hthere⟩ := registered_of_serve (hw (base url)) hres
  refine ⟨hkey, url, rfl, ?_⟩
  have hcontroller : (d.handleJoin m url token hostname dir now .written).controllers (base url) =
      (serve (d.controllers (base url)) (.registerNode (fresh.bound url token).authorization
        (fresh.bound url token).registration now)).2 := by
    unfold handleJoin
    rw [hfresh]
    dsimp only
    rw [hres]
    exact Function.update_self ..
  rw [act, hcontroller]
  exact hthere

/-- No machine has joined, and no controller has served anything. -/
def empty : Deployment where
  controllers _ := .empty
  files _ := none
  identity := none

/-- Somebody has asked the controller at this URL to delete the node. -/
def Deleted (es : List Event) (url id : String) : Prop :=
  ∃ url', base url' = base url ∧ .request url' (.deleteNode id) ∈ es

/-- The node has the id of its WireGuard key, and its controller knows it unless it was deleted. -/
def Known (es : List Event) (d : Deployment) (i : NodeIdentity) : Prop :=
  deriveNodeId i.wgPublicKey = .ok i.nodeId ∧ ∃ url, i.controllerUrl = some url ∧
    (¬ Deleted es url i.nodeId → (profileIn (d.controllers (base url)) i.nodeId).isSome)

theorem Known.congr (hk : Known es d k) (h : SameNode k i) : Known es d i := by
  obtain ⟨h1, -, -, -, -, h2, -, -, h3, -⟩ := NodeIdentity.mk.inj h
  rw [Known, ← h1, ← h2, ← h3]
  exact hk

theorem Known.act (hw : ∀ u, Wellformed (d.controllers u)) (hk : Known es d i) (e : Event) :
    Known (es ++ [e]) (d.act dirs e) i := by
  obtain ⟨hkey, url, hurl, hthere⟩ := hk
  refine ⟨hkey, url, hurl, fun hdel => ?_⟩
  refine profileIn_act hw ?_ (hthere fun ⟨url', hu, hmem⟩ => hdel ⟨url', hu, by simp [hmem]⟩)
  rintro url' hu rfl
  exact hdel ⟨url', hu, by simp⟩

theorem loadIdentity_file (h : loadIdentity dirs d = some (.holds i)) :
    ∃ path, d.files path = some (.holds i) := by
  obtain ⟨path, -, hp⟩ := List.exists_of_findSome?_eq_some h
  exact ⟨path, hp⟩

theorem known_run (h : Run (Step dirs) empty es d) :
    (∀ u, Wellformed (d.controllers u)) ∧ ∀ i, Holds d i → Known es d i := by
  induction h with
  | refl =>
    refine ⟨fun _ => wellformed_empty, fun i hi => ?_⟩
    rcases hi with hi | ⟨_, hi⟩
    · cases hi
    · cases hi
  | @tail es d e d' _ hs ih =>
    obtain ⟨hw, hk⟩ := ih
    rw [hs]
    refine ⟨wellformed_act hw, fun i hi => ?_⟩
    have hfile : ∀ path, d.files path = some (.holds i) → Known (es ++ [e]) (d.act dirs e) i :=
      fun path hf => (hk i (Or.inr ⟨path, hf⟩)).act hw e
    have hmemory : ∀ k, d.identity = some k → SameNode k i →
        Known (es ++ [e]) (d.act dirs e) i :=
      fun k hd hsame => ((hk k (Or.inl hd)).congr hsame).act hw e
    rcases hi with hi | ⟨path, hi⟩
    · rcases identity_act hi with ⟨k, hd, hsame⟩ | hload
      · exact hmemory k hd hsame
      · obtain ⟨path, hf⟩ := loadIdentity_file hload
        exact hfile path hf
    · rcases files_act hi with hf | ⟨dir, -, hj⟩ | ⟨-, k, hd, hsame⟩
      · exact hfile path hf
      · obtain ⟨hkey, url, hurl, hthere⟩ := known_of_joins hw hj
        exact ⟨hkey, url, hurl, fun _ => hthere⟩
      · exact hmemory k hd hsame

/-- Whatever is requested, joined, started and synced: every identity in a file or in the daemon's
memory has the id of its WireGuard key and a controller, and until somebody deletes the node there,
this controller has a config for it. -/
theorem identities_served (h : Run (Step dirs) empty es d) (hi : Holds d i) :
    deriveNodeId i.wgPublicKey = .ok i.nodeId ∧ ∃ url, i.controllerUrl = some url ∧
      (¬ Deleted es url i.nodeId → ∀ (nodeOrder : RowOrder NodeModel)
        (routeOrder : RowOrder SubnetRoute), ∃ c,
          (serve (d.controllers (base url)) (.networkConfig nodeOrder routeOrder i.nodeId)).1 =
            .ok (.networkConfig c)) := by
  obtain ⟨hkey, url, hurl, hthere⟩ := (known_run h).2 i hi
  exact ⟨hkey, url, hurl, fun hdel nodeOrder routeOrder => serve_config (hthere hdel)⟩

theorem joinsAt_of_joins (h : Joins d e dir i) : JoinsAt (identityPath dir) e := by
  obtain ⟨m, url, token, hostname, now, fresh, res, rfl, -⟩ := h
  rfl

/-- The daemon's own file is there and holds no other node than this one, and the daemon runs as no
other one. -/
def RunsAs (dirs : DaemonDirs) (i : NodeIdentity) (d : Deployment) : Prop :=
  (∃ f, d.files (ownPath dirs) = some f ∧ ∀ j, f = .holds j → SameNode i j) ∧
    ∀ k, d.identity = some k → SameNode i k

theorem RunsAs.act (h : RunsAs dirs i d) (he : ¬ JoinsAt (ownPath dirs) e) :
    RunsAs dirs i (d.act dirs e) := by
  obtain ⟨⟨f, hf, hif⟩, hmem⟩ := h
  refine ⟨?_, fun k hk => ?_⟩
  · obtain ⟨g, hg⟩ : ∃ g, (d.act dirs e).files (ownPath dirs) = some g := exists_file_act hf
    refine ⟨g, hg, ?_⟩
    rintro j rfl
    rcases files_act hg with hj | ⟨dir, hp, hjoin⟩ | ⟨-, l, hl, hsame⟩
    · rw [hf] at hj
      exact hif j (Option.some.inj hj)
    · exact absurd (hp ▸ joinsAt_of_joins hjoin) he
    · exact SameNode.trans (hmem l hl) hsame
  · rcases identity_act hk with ⟨l, hl, hsame⟩ | hload
    · exact SameNode.trans (hmem l hl) hsame
    · have hfirst : loadIdentity dirs d = some f := by
        have hown : d.files (identityPath dirs.configDir) = some f := hf
        rw [loadIdentity, List.findSome?_cons, hown]
      rw [hfirst] at hload
      exact hif k (Option.some.inj hload)

/-- A sync whose save fails after it has emptied the file. -/
def CutsOff : Event → Prop
  | .sync _ _ saved => saved = .cutOff
  | _ => False

/-- The daemon's own file goes on to hold an identity unless a save is cut off. -/
theorem holds_act (hj : d.files (ownPath dirs) = some (.holds j))
    (he : ¬ JoinsAt (ownPath dirs) e) (hc : ¬ CutsOff e) :
    ∃ k, (d.act dirs e).files (ownPath dirs) = some (.holds k) := by
  rcases files_act_cases dirs d e with hf | ⟨saved, p, k, hf, ⟨hat, -⟩ | ⟨rfl, hsync, -⟩⟩
  · exact ⟨j, by rw [hf, hj]⟩
  · have hne : ownPath dirs ≠ p := by
      rintro rfl
      exact he hat
    exact ⟨j, by rw [hf, save_files_of_ne hne, hj]⟩
  · obtain ⟨_, _, rfl⟩ := hsync
    cases saved with
    | refused => exact ⟨j, by rw [hf, save, hj]⟩
    | cutOff => exact (hc rfl).elim
    | written =>
      rw [hf]
      exact ⟨k, Function.update_self ..⟩

/-- A sync that changes the addresses of the identity, and can open the file to write them. -/
def Writes (dirs : DaemonDirs) (d : Deployment) : Event → Prop
  | .sync nodeOrder routeOrder saved => saved ≠ .refused ∧
    (d.act dirs (.sync nodeOrder routeOrder saved)).identity ≠ d.identity
  | _ => False

/-- While the daemon stays up and nobody joins at its file, only a write changes the file. -/
theorem file_of_not_writes (he : ¬ JoinsAt (ownPath dirs) e) (hw : ¬ Writes dirs d e) :
    (d.act dirs e).files (ownPath dirs) = d.files (ownPath dirs) := by
  rcases files_act_cases dirs d e with
    hf | ⟨saved, p, k, hf, ⟨hat, -⟩ | ⟨rfl, ⟨_, _, rfl⟩, hk, j, hj, hne, -⟩⟩
  · rw [hf]
  · have hp : ownPath dirs ≠ p := by
      rintro rfl
      exact he hat
    rw [hf, save_files_of_ne hp]
  · by_cases hr : saved = .refused
    · rw [hf, hr, save]
    · refine absurd ⟨hr, ?_⟩ hw
      rw [hk, hj]
      exact fun h => hne (Option.some.inj h)

/-- A write puts the node that the daemon runs as into the file, or nothing that can be loaded. -/
theorem file_of_writes (hw : Writes dirs d e) (hk : d.identity = some k) :
    (d.act dirs e).files (ownPath dirs) = some .cutOff ∨
      ∃ j, (d.act dirs e).files (ownPath dirs) = some (.holds j) ∧ SameNode k j := by
  cases e with
  | sync nodeOrder routeOrder saved =>
    obtain ⟨hopen, hne⟩ := hw
    rcases syncIdentity_cases dirs d nodeOrder routeOrder saved with hd | ⟨l, c, hl, -, hd⟩
    · rw [act, hd] at hne
      exact absurd rfl hne
    · rw [act, hd]
      rw [hk] at hl
      cases hl
      cases saved with
      | refused => exact (hopen rfl).elim
      | cutOff => exact Or.inl (Function.update_self ..)
      | written => exact Or.inr ⟨_, Function.update_self .., SameNode.readdressed k c⟩
  | request => exact hw.elim
  | join => exact hw.elim
  | start => exact hw.elim
  | exit => exact hw.elim

/-- The daemon neither ends nor starts, and nobody joins at its file. -/
def StaysUp (dirs : DaemonDirs) (e : Event) : Prop :=
  ¬ JoinsAt (ownPath dirs) e ∧ e ≠ .start ∧ e ≠ .exit

theorem identity_act_up (he : StaysUp dirs e) (hk : d.identity = some k) :
    ∃ l, (d.act dirs e).identity = some l ∧ SameNode k l := by
  cases e with
  | request url r => exact ⟨k, hk, rfl⟩
  | join m url token hostname dir now saved =>
    obtain ⟨_, _, hd | ⟨j, -, hd⟩⟩ := handleJoin_cases d m url token hostname dir now saved
    · rw [act, hd]
      exact ⟨k, hk, rfl⟩
    · rw [act, hd, save_identity]
      exact ⟨k, hk, rfl⟩
  | start => exact absurd rfl he.2.1
  | sync nodeOrder routeOrder saved =>
    rcases syncIdentity_cases dirs d nodeOrder routeOrder saved with hd | ⟨l, c, hl, -, hd⟩
    · rw [act, hd]
      exact ⟨k, hk, rfl⟩
    · rw [hk] at hl
      cases hl
      rw [act, hd, save_identity]
      exact ⟨_, rfl, SameNode.readdressed k c⟩
  | exit => exact absurd rfl he.2.2

/-- Once the daemon's own file is there and neither it nor the daemon has another node, that is so
for good: what is joined in other places is never taken up, whatever starts, ends and syncs, and
the file holds the node as long as no save is cut off. -/
theorem identity_sticks (h : Run (Step dirs) d es d') (hes : ∀ e ∈ es, ¬ JoinsAt (ownPath dirs) e)
    (hi : RunsAs dirs i d) : RunsAs dirs i d' ∧
      ((∃ j, d.files (ownPath dirs) = some (.holds j)) → (∀ e ∈ es, ¬ CutsOff e) →
        ∃ j, d'.files (ownPath dirs) = some (.holds j) ∧ SameNode i j) := by
  induction h with
  | refl =>
    refine ⟨hi, fun ⟨j, hj⟩ _ => ?_⟩
    obtain ⟨⟨f, hf, hif⟩, -⟩ := hi
    rw [hj] at hf
    exact ⟨j, hj, hif j (Option.some.inj hf).symm⟩
  | @tail es t e u _ hs ih =>
    have he : ¬ JoinsAt (ownPath dirs) e := hes e (by simp)
    obtain ⟨ht, hfile⟩ := ih fun e he => hes e (List.mem_append_left _ he)
    have hu : RunsAs dirs i (t.act dirs e) := ht.act he
    rw [hs]
    refine ⟨hu, fun hj hcut => ?_⟩
    obtain ⟨j, hj, -⟩ := hfile hj fun e he => hcut e (List.mem_append_left _ he)
    obtain ⟨k, hk⟩ := holds_act hj he (hcut e (by simp))
    obtain ⟨⟨f, hf, hif⟩, -⟩ := hu
    rw [hk] at hf
    exact ⟨k, hk, hif k (Option.some.inj hf).symm⟩

theorem step_det (d : Deployment) (e : Event) (a b : Deployment) (ha : Step dirs d e a)
    (hb : Step dirs d e b) : a = b :=
  Eq.trans ha (Eq.symm hb)

theorem identity_run_up (h : Run (Step dirs) d es d') (hes : ∀ e ∈ es, StaysUp dirs e)
    (hk : d.identity = some k) : ∃ l, d'.identity = some l ∧ SameNode k l := by
  induction h with
  | refl => exact ⟨k, hk, rfl⟩
  | @tail es t e u _ hs ih =>
    obtain ⟨l, hl, hsame⟩ := ih fun e he => hes e (List.mem_append_left _ he)
    rw [hs]
    obtain ⟨l', hl', hsame'⟩ := identity_act_up (hes e (by simp)) hl
    exact ⟨l', hl', SameNode.trans hsame hsame'⟩

/-- An identity that is joined at the daemon's file while the daemon runs as another node is still
there, as long as the daemon stays up, if and only if no sync has had new addresses and could open
the file for them. -/
theorem joined_survives_iff (h : Run (Step dirs) d es d') (hes : ∀ e ∈ es, StaysUp dirs e)
    (hi : d.files (ownPath dirs) = some (.holds i)) (hk : d.identity = some k)
    (hne : ¬ SameNode k i) : d'.files (ownPath dirs) = some (.holds i) ↔
      Run (Guarded (Step dirs) fun d e => ¬ Writes dirs d e) d es d' := by
  induction h with
  | refl => exact iff_of_true hi .refl
  | @tail es t e u ht hs ih =>
    have hup : ∀ e ∈ es, StaysUp dirs e := fun e he => hes e (List.mem_append_left _ he)
    have he : StaysUp dirs e := hes e (by simp)
    obtain ⟨l, hl, hsame⟩ := identity_run_up ht hup hk
    rw [guarded_concat_iff step_det ht hs, ← ih hup, hs]
    constructor
    · intro hu
      have hnot : ¬ Writes dirs t e := by
        intro hw
        rcases file_of_writes hw hl with hcut | ⟨j, hj, hlj⟩
        · rw [hu] at hcut
          cases hcut
        · rw [hu] at hj
          cases hj
          exact hne (SameNode.trans hsame hlj)
      rw [file_of_not_writes he.1 hnot] at hu
      exact ⟨hu, hnot⟩
    · rintro ⟨ht, hnot⟩
      rw [file_of_not_writes he.1 hnot, ht]

/-- The deployment after some events. -/
def play (dirs : DaemonDirs) (d : Deployment) (es : List Event) : Deployment :=
  es.foldl (act dirs) d

theorem run_play (dirs : DaemonDirs) (d : Deployment) (es : List Event) :
    Run (Step dirs) d es (play dirs d es) := by
  induction es generalizing d with
  | nil => exact .refl
  | cons e es ih => exact (Run.single (l := e) rfl).append (ih (d.act dirs e))

def localDirs : DaemonDirs := ⟨"/etc/pymesh", "/root"⟩

/-- A join of the node whose WireGuard key has this one byte. -/
def joinKey (b : UInt8) (configDir : String) : Event :=
  .join ⟨[b], [b, b], [b], [b], "host", "linux"⟩ "http://localhost:8000/" none none configDir 0
    .written

/-- The node of the first key joins in the home directory, and the daemon starts. -/
def firstStarted : List Event := [joinKey 0x61 "/root/.config/pymesh", .start]

/-- The node is renumbered, and the daemon writes its new addresses. -/
def rewritten : List Event :=
  [.request "http://localhost:8000" (putSubnet "10.200.0.0/16" "fd00::/48"),
    .sync .stored .stored .written]

theorem identities_served_joined : ∃ d i, Run (Step localDirs) empty firstStarted d ∧
    d.identity = some i ∧ i.nodeId = firstId ∧
    ∃ c, (serve (d.controllers "http://localhost:8000")
      (.networkConfig .stored .stored firstId)).1 = .ok (.networkConfig c) := by
  have hrun := run_play localDirs empty firstStarted
  have hid : ∃ i ∈ (play localDirs empty firstStarted).identity, i.nodeId = firstId ∧
      i.controllerUrl = some "http://localhost:8000/" := by
    decide +kernel
  have hbase : base "http://localhost:8000/" = "http://localhost:8000" := by decide +kernel
  obtain ⟨i, hi, hnode, hurl⟩ := hid
  obtain ⟨-, url, hurl', hserved⟩ := identities_served hrun (Or.inl hi)
  rw [hurl] at hurl'
  cases hurl'
  have hdel : ¬ Deleted firstStarted "http://localhost:8000/" i.nodeId := by
    rintro ⟨url', -, h⟩
    simp [firstStarted, joinKey] at h
  have hconfig := hserved hdel .stored .stored
  rw [hbase, hnode] at hconfig
  exact ⟨_, i, hrun, hi, hnode, hconfig⟩

/-- The id of the node that is in a file. -/
def heldId (d : Deployment) (path : String) : Option String :=
  match d.files path with
  | some (.holds i) => some i.nodeId
  | _ => none

theorem heldId_eq_some_iff : heldId d path = some id ↔
    ∃ i, d.files path = some (.holds i) ∧ i.nodeId = id := by
  unfold heldId
  split
  next i hi => simp [hi]
  next hno =>
    refine iff_of_false (by simp) ?_
    rintro ⟨i, hi, -⟩
    exact hno i hi

/-- Another node joins in the home directory, and the daemon is started anew. -/
theorem identity_sticks_rejoined : ∃ d d' k, Run (Step localDirs) d
    [joinKey 0x62 "/root/.config/pymesh", .exit, .start] d' ∧
    d'.identity = some k ∧ k.nodeId = firstId ∧ heldId d' (ownPath localDirs) = some firstId ∧
    heldId d' (identityPath "/root/.config/pymesh") = some secondId := by
  have hrun := run_play localDirs (play localDirs empty (firstStarted ++ rewritten))
    [joinKey 0x62 "/root/.config/pymesh", .exit, .start]
  have hown : heldId (play localDirs empty (firstStarted ++ rewritten)) (ownPath localDirs) =
      some firstId := by
    decide +kernel
  have hmem : (play localDirs empty (firstStarted ++ rewritten)).files (ownPath localDirs) =
      (play localDirs empty (firstStarted ++ rewritten)).identity.map .holds := by
    decide +kernel
  have hend : ∃ k ∈ (play localDirs (play localDirs empty (firstStarted ++ rewritten))
      [joinKey 0x62 "/root/.config/pymesh", .exit, .start]).identity, True := by
    decide +kernel
  have hhome : heldId (play localDirs (play localDirs empty (firstStarted ++ rewritten))
      [joinKey 0x62 "/root/.config/pymesh", .exit, .start])
        (identityPath "/root/.config/pymesh") = some secondId := by
    decide +kernel
  obtain ⟨i, hi, hnode⟩ := heldId_eq_some_iff.mp hown
  obtain ⟨k, hk, -⟩ := hend
  have hruns : RunsAs localDirs i (play localDirs empty (firstStarted ++ rewritten)) := by
    refine ⟨⟨.holds i, hi, ?_⟩, fun k hk => ?_⟩
    · rintro j ⟨⟩
      rfl
    · rw [hi, hk] at hmem
      cases hmem
      rfl
  obtain ⟨⟨-, hmemory⟩, hholds⟩ :=
    identity_sticks hrun (by simp [JoinsAt, joinKey, ownPath]; decide) hruns
  obtain ⟨j, hj, hsame⟩ := hholds ⟨i, hi⟩ (by simp [CutsOff, joinKey])
  refine ⟨_, _, k, hrun, hk, ?_, heldId_eq_some_iff.mpr ⟨j, hj, ?_⟩, hhome⟩
  · rw [← hnode, SameNode.nodeId (hmemory k hk)]
  · rw [← hnode, SameNode.nodeId hsame]

/-- When the save of the new addresses is cut off, the daemon does not start again, with another
node in the home directory or not. -/
example : (play localDirs empty (firstStarted ++
    [.request "http://localhost:8000" (putSubnet "10.200.0.0/16" "fd00::/48"),
      .sync .stored .stored .cutOff, joinKey 0x62 "/root/.config/pymesh", .exit,
      .start])).identity = none := by
  decide +kernel

/-- The daemon runs as the first node, and the second one joins at its file. -/
def joinedAtFile : Deployment :=
  play localDirs empty (firstStarted ++ [joinKey 0x62 "/etc/pymesh"])

/-- When the first node is renumbered, it gets the file back. -/
theorem joined_survives_lost : ∃ d', Run (Step localDirs) joinedAtFile rewritten d' ∧
    heldId joinedAtFile (ownPath localDirs) = some secondId ∧
    heldId d' (ownPath localDirs) = some firstId ∧
    ¬ Run (Guarded (Step localDirs) fun d e => ¬ Writes localDirs d e) joinedAtFile rewritten
      d' := by
  have hrun := run_play localDirs joinedAtFile rewritten
  have hheld : heldId joinedAtFile (ownPath localDirs) = some secondId := by decide +kernel
  have hstart : ∃ k ∈ joinedAtFile.identity, k.nodeId = firstId := by decide +kernel
  have hend : heldId (play localDirs joinedAtFile rewritten) (ownPath localDirs) =
      some firstId := by
    decide +kernel
  have hids : firstId ≠ secondId := by decide
  obtain ⟨i, hi, hinode⟩ := heldId_eq_some_iff.mp hheld
  obtain ⟨k, hk, hknode⟩ := hstart
  have hne : ¬ SameNode k i := by
    intro h
    rw [← hknode, ← hinode] at hids
    exact hids (SameNode.nodeId h)
  have hup : ∀ e ∈ rewritten, StaysUp localDirs e := by
    intro e he
    simp only [rewritten, List.mem_cons, List.not_mem_nil, or_false] at he
    rcases he with rfl | rfl
    all_goals
      refine ⟨id, ?_, ?_⟩
      all_goals
        intro h
        cases h
  refine ⟨_, hrun, hheld, hend, fun hguard => ?_⟩
  have hfile := (joined_survives_iff hrun hup hi hk hne).mpr hguard
  rw [heldId_eq_some_iff.mpr ⟨i, hfile, hinode⟩] at hend
  exact hids (Option.some.inj hend).symm

end Deployment

end PyMesh
