import PyMesh.Controller.Config
import PyMesh.Controller.Renumbering

/-! Every request that is served alone, and what holds after any sequence of them. -/
namespace PyMesh

open LTS Relational Resumption

section Decide

variable {ε α : Type} {x : Except ε α} {p : α → Prop} [DecidablePred p]

instance decidableExistsOk : Decidable (∃ a, x = .ok a ∧ p a) :=
  match x with
  | .ok a => decidable_of_iff (p a) ⟨fun h => ⟨a, rfl, h⟩, fun ⟨_, he, h⟩ => Except.ok.inj he ▸ h⟩
  | .error _ => isFalse fun ⟨_, he, _⟩ => nomatch he

instance decidableForallOk : Decidable (∀ a, x = .ok a → p a) :=
  match x with
  | .ok a => decidable_of_iff (p a) ⟨fun h _ he => Except.ok.inj he ▸ h, fun h => h a rfl⟩
  | .error _ => isTrue fun _ he => nomatch he

end Decide

/-- The outcome of a request and the tables it leaves. -/
inductive Answers (db : Database) : Request → Except Exc Response → Database → Prop
  | joined {tokenStr description : String} {ts : Table AuthToken}
      (ht : ts.rows = db.authTokens.rows ++ [{
        token := tokenStr, networkId := "default", description := description, maxUses := none }]) :
      Answers db (.join tokenStr description)
        (.ok (.joinToken tokenStr ("/join?token=" ++ tokenStr))) { db with authTokens := ts }
  | joinTaken {tokenStr description : String} :
      Answers db (.join tokenStr description) (.error .integrityError) db
  | tokenCreated {tokenStr networkId description : String} {maxUses : Option Int}
      {ts : Table AuthToken}
      (ht : ts.rows = db.authTokens.rows ++ [{
        token := tokenStr, networkId := networkId, description := description,
        maxUses := maxUses }]) :
      Answers db (.createToken tokenStr networkId description maxUses) (.ok (.token tokenStr))
        { db with authTokens := ts }
  | tokenTaken {tokenStr networkId description : String} {maxUses : Option Int} :
      Answers db (.createToken tokenStr networkId description maxUses)
        (.error .integrityError) db
  | register {authorization : Option String} {req : NodeRegistrationRequest} {now : Nat}
      {res : Except Exc Response} {db' : Database}
      (h : Registers authorization req now db res db') :
      Answers db (.registerNode authorization req now) res db'
  | beat {nodeId : String} {req : HeartbeatRequest} {now : Nat} {node : NodeModel}
      {t : Table NodeModel} (hn : db.nodes.find nodeId = some node)
      (ht : t.rows = db.nodes.rows.map fun r => if r.id = nodeId then Api.beat req now r else r) :
      Answers db (.heartbeat nodeId req now) (.ok (.heartbeat {})) { db with nodes := t }
  | beatUnknown {nodeId : String} {req : HeartbeatRequest} {now : Nat}
      (hn : db.nodes.find nodeId = none) :
      Answers db (.heartbeat nodeId req now) (.error Api.nodeNotFound) db
  | deleted {nodeId : String} {node : NodeModel} (hn : db.nodes.find nodeId = some node) :
      Answers db (.deleteNode nodeId) (.ok (.nodeDeleted nodeId))
        { db with nodes := db.nodes.delete fun n => n.id = nodeId }
  | deleteUnknown {nodeId : String} (hn : db.nodes.find nodeId = none) :
      Answers db (.deleteNode nodeId) (.error Api.nodeNotFound) db
  | routeAdded {route : SubnetRouteModel} {uuid : String} {res : Response}
      {t : Table SubnetRoute}
      (ht : t.rows = db.subnetRoutes.rows ++ [Api.dbRoute route uuid]) :
      Answers db (.addRoute route uuid) (.ok res) { db with subnetRoutes := t }
  | routeTaken {route : SubnetRouteModel} {uuid : String} :
      Answers db (.addRoute route uuid) (.error .integrityError) db
  | routeDeleted {routeId : String} :
      Answers db (.deleteRoute routeId) (.ok (.routeDeleted routeId))
        { db with subnetRoutes := db.subnetRoutes.delete fun r => r.id = routeId }
  | config {nodeOrder : RowOrder NodeModel} {routeOrder : RowOrder SubnetRoute}
      {nodeId : String} {res : Except Exc Response} :
      Answers db (.networkConfig nodeOrder routeOrder nodeId) res db
  | renumber {ipv4Prefix : String} {ipv6Prefix : Option String}
      {selectOrder flushOrder : RowOrder NodeModel} {res : Except Exc Response} {db' : Database}
      (h : Renumbers ipv4Prefix ipv6Prefix selectOrder flushOrder db res db') :
      Answers db (.updateNetworkSubnet ipv4Prefix ipv6Prefix selectOrder flushOrder) res db'

variable {db db' : Database} {r : Request} {rs : List Request} {res : Except Exc Response}

theorem run_createToken (db : Database) (tokenStr networkId description : String)
    (maxUses : Option Int) :
    (∃ ts : Table AuthToken, ts.rows = db.authTokens.rows ++ [{
        token := tokenStr, networkId := networkId, description := description,
        maxUses := maxUses }] ∧
      (AuthManager.createToken tokenStr networkId description maxUses).run db =
        (.ok tokenStr, { db with authTokens := ts })) ∨
    (AuthManager.createToken tokenStr networkId description maxUses).run db =
      (.error .integrityError, db) := by
  rcases Database.insertToken_cases db
    { token := tokenStr, networkId := networkId, description := description,
      maxUses := maxUses } with ⟨ts, ht, hi⟩ | hi
  · exact Or.inl ⟨ts, ht, Prog.run_commit_ok hi _⟩
  · exact Or.inr (Prog.run_commit_error hi _)

theorem answers_heartbeat (nodeId : String) (req : HeartbeatRequest) (now : Nat) :
    Answers db (.heartbeat nodeId req now) (serve db (.heartbeat nodeId req now)).1
      (serve db (.heartbeat nodeId req now)).2 := by
  simp only [serve, Request.session, Api.heartbeat, NodeManager.getNode, execute,
    Prog.run_read_bind]
  cases hn : db.nodes.find nodeId with
  | none => exact .beatUnknown hn
  | some node =>
    have hid : node.id = nodeId := (Table.find_eq_some_iff.mp hn).2
    obtain ⟨t, ht, hu⟩ := Database.updateNode_ok (f := Api.beat req now) hn fun _ _ h => h
    simp only [hid, commit]
    rw [Prog.run_commit_ok hu]
    exact .beat hn ht

theorem serve_deleteNode (db : Database) (nodeId : String) : serve db (.deleteNode nodeId) =
    (if (db.nodes.rows.filter fun n => n.id = nodeId).length = 0 then .error Api.nodeNotFound
      else .ok (.nodeDeleted nodeId),
      { db with nodes := db.nodes.delete fun n => n.id = nodeId }) := by
  simp only [serve, Request.session, Api.deleteNode, execute, Prog.run_read_bind, commit]
  refine (Prog.run_commit_total
    (fun db => { db with nodes := db.nodes.delete fun n => n.id = nodeId }) _ db).trans ?_
  split <;> rfl

/-- The config is only read. -/
theorem serve_networkConfig (db : Database) (nodeOrder : RowOrder NodeModel)
    (routeOrder : RowOrder SubnetRoute) (nodeId : String) :
    (serve db (.networkConfig nodeOrder routeOrder nodeId)).2 = db := by
  have hrun := PeerManager.run_buildNetworkConfig nodeOrder routeOrder db nodeId
  rw [serve, Request.session, Api.getNetworkConfig, Prog.run_handle, Prog.run_bind, hrun]
  cases db.nodes.find nodeId with
  | none => rfl
  | some targetNode => rfl

theorem answers_deleteNode (nodeId : String) :
    Answers db (.deleteNode nodeId) (serve db (.deleteNode nodeId)).1
      (serve db (.deleteNode nodeId)).2 := by
  cases hn : db.nodes.find nodeId with
  | none =>
    have hnil : (db.nodes.rows.filter fun n => n.id = nodeId) = [] := by
      rw [List.filter_eq_nil_iff]
      intro n hm
      simpa using Table.find_eq_none_iff.mp hn n hm
    have hdel : db.nodes.delete (fun n => n.id = nodeId) = db.nodes := by
      refine Table.ext (List.filter_eq_self.mpr fun n hm => ?_)
      simpa using Table.find_eq_none_iff.mp hn n hm
    have hs : serve db (.deleteNode nodeId) = (.error Api.nodeNotFound, db) := by
      rw [serve_deleteNode, hnil, hdel]
      rfl
    rw [hs]
    exact .deleteUnknown hn
  | some node =>
    obtain ⟨hm, hk⟩ := Table.find_eq_some_iff.mp hn
    have hid : node.id = nodeId := hk
    have hpos : (db.nodes.rows.filter fun n => n.id = nodeId).length ≠ 0 := by
      intro hlen
      have hnot := List.filter_eq_nil_iff.mp (List.eq_nil_of_length_eq_zero hlen) node hm
      simp [hid] at hnot
    have hs : serve db (.deleteNode nodeId) = (.ok (.nodeDeleted nodeId),
        { db with nodes := db.nodes.delete fun n => n.id = nodeId }) := by
      rw [serve_deleteNode, if_neg hpos]
    rw [hs]
    exact .deleted hn

/-- Every way in which a request can end that is served alone. -/
theorem answers (hw : Wellformed db) (r : Request) :
    Answers db r (serve db r).1 (serve db r).2 := by
  cases r with
  | join tokenStr description =>
    rw [serve, Request.session, Api.createJoinToken]
    rcases run_createToken db tokenStr "default" description none with ⟨ts, ht, hr⟩ | hr
    · rw [Prog.run_bind_ok hr]
      exact .joined ht
    · rw [Prog.run_bind_error hr]
      exact .joinTaken
  | createToken tokenStr networkId description maxUses =>
    rw [serve, Request.session]
    rcases run_createToken db tokenStr networkId description maxUses with ⟨ts, ht, hr⟩ | hr
    · rw [Prog.run_bind_ok hr]
      exact .tokenCreated ht
    · rw [Prog.run_bind_error hr]
      exact .tokenTaken
  | registerNode authorization req now => exact .register (registers hw authorization req now)
  | heartbeat nodeId req now => exact answers_heartbeat nodeId req now
  | deleteNode nodeId => exact answers_deleteNode nodeId
  | addRoute route uuid =>
    rw [serve, Request.session, Api.addRoute]
    rcases Database.insertRoute_cases db (Api.dbRoute route uuid) with ⟨t, ht, hi⟩ | hi
    · rw [commit, Prog.run_commit_ok hi]
      exact .routeAdded ht
    · rw [commit, Prog.run_commit_error hi]
      exact .routeTaken
  | deleteRoute routeId => exact .routeDeleted
  | networkConfig nodeOrder routeOrder nodeId =>
    rw [serve_networkConfig]
    exact .config
  | updateNetworkSubnet ipv4Prefix ipv6Prefix selectOrder flushOrder =>
    exact .renumber (renumbers hw ipv4Prefix ipv6Prefix selectOrder flushOrder)

/-- The tables after a sequence of requests. -/
def serveAll (db : Database) (rs : List Request) : Database :=
  rs.foldl (fun db r => (serve db r).2) db

/-- A sequence of requests has one run, which ends in `serveAll`. -/
theorem run_serves_iff {s t : Database} : Run Serves s rs t ↔ t = serveAll s rs := by
  constructor
  · intro h
    induction h with
    | refl => rfl
    | tail _ hs ih =>
      rw [hs, ih]
      simp [serveAll]
  · rintro rfl
    induction rs generalizing s with
    | nil => exact .refl
    | cons r rs ih => exact (Run.single (l := r) rfl).append (ih (s := (serve s r).2))

theorem Answers.wellformed (h : Answers db r res db') (hw : Wellformed db) : Wellformed db' := by
  cases h with
  | joined => exact hw.congr rfl rfl
  | joinTaken => exact hw
  | tokenCreated => exact hw.congr rfl rfl
  | tokenTaken => exact hw
  | register h => exact h.wellformed hw
  | beat hn ht =>
    refine hw.with_nodes _ (fun h => by simp [ht, hw.opened h]) fun n hm => ?_
    obtain ⟨m, hmr, rfl⟩ := List.mem_map.mp (ht ▸ hm)
    split
    · exact hw.members m hmr
    · exact hw.members m hmr
  | beatUnknown => exact hw
  | deleted =>
    refine hw.with_nodes _ (fun h => by simp [Table.delete, hw.opened h]) fun n hm => ?_
    exact hw.members n (Table.mem_delete.mp hm).1
  | deleteUnknown => exact hw
  | routeAdded => exact hw.congr rfl rfl
  | routeTaken => exact hw
  | routeDeleted => exact hw.congr rfl rfl
  | config => exact hw
  | renumber h => exact h.wellformed hw

theorem wellformed_serve (hw : Wellformed db) (r : Request) : Wellformed (serve db r).2 :=
  (answers hw r).wellformed hw

theorem wellformed_run (h : Run Serves Database.empty rs db) : Wellformed db := by
  refine h.invariant wellformed_empty fun a r b ha hb => ?_
  rw [hb]
  exact wellformed_serve ha r

theorem wellformed_reachable (h : Reachable db) : Wellformed db := by
  obtain ⟨rs, hr⟩ := h
  exact wellformed_run hr

/-- The registration of a key without a token. -/
def registerKey (publicKey : String) : Request :=
  .registerNode none { hostname := "node", publicKey := publicKey } 0

/-- `PUT /network/subnet` with rows in their stored order. -/
def putSubnet (ipv4Prefix ipv6Prefix : String) : Request :=
  .updateNetworkSubnet ipv4Prefix (some ipv6Prefix) .stored .stored

/-- A run of requests as a run of answers, each from a wellformed state that meets the
guard. -/
theorem run_answers {G : Database → Request → Prop}
    (h : Run (Guarded Serves G) Database.empty rs db) :
    Run (fun a r b => Wellformed a ∧ G a r ∧ ∃ res, Answers a r res b) Database.empty rs db := by
  have hi : ∀ a r b, Wellformed a → Guarded Serves G a r b → Wellformed b := by
    rintro a r b ha ⟨-, hb⟩
    rw [hb]
    exact wellformed_serve ha r
  refine (h.guarded_of_invariant wellformed_empty hi).mono ?_
  rintro a r b ⟨ha, hg, hb⟩
  refine ⟨ha, hg, (serve a r).1, ?_⟩
  rw [hb]
  exact answers ha r

end PyMesh
