import PyMesh.Controller.Reachable

/-! What a registration or a renumbering leaves behind that ends in an error. -/
namespace PyMesh

open LTS Relational Resumption

variable {db : Database} {authorization : Option String} {req : NodeRegistrationRequest}
  {now : Nat} {e : Exc}

/-- One more use of the token in the header, for the rows of the table. -/
def countedOnce (authorization : Option String) (t : AuthToken) : AuthToken :=
  if Api.bearerToken authorization = some t.token then { t with usedCount := t.usedCount + 1 }
  else t

theorem spend_rows (authorization : Option String) (db : Database) :
    (Api.spend authorization db).authTokens.rows =
      db.authTokens.rows.map (countedOnce authorization) := by
  unfold Api.spend countedOnce
  cases hb : Api.bearerToken authorization with
  | none => simp
  | some tokenStr =>
    cases ht : db.authTokens.find tokenStr with
    | none =>
      have hno : ∀ t ∈ db.authTokens.rows, tokenStr ≠ t.token :=
        fun t hm h => Table.find_eq_none_iff.mp ht t hm h.symm
      simp only [Database.updateToken, ht, Except.toOption, Option.getD_none, Option.some.injEq]
      refine ((List.map_congr_left fun t hm => ?_).trans (List.map_id _)).symm
      rw [if_neg (hno t hm)]
      rfl
    | some t =>
      obtain ⟨ts, hts, hu⟩ := Database.updateToken_ok ht
        (f := fun t => { t with usedCount := t.usedCount + 1 }) fun _ => rfl
      simp only [hu, Except.toOption, Option.getD_some, hts, Option.some.injEq]
      exact List.map_congr_left fun r _ => by simp only [eq_comm]

/-- What the error of a registration does not undo. -/
structure Leaves (authorization : Option String) (db db' : Database) : Prop where
  nodes : db'.nodes = db.nodes
  subnetRoutes : db'.subnetRoutes = db.subnetRoutes
  networks : db'.networks.rows = [recorded db]
  authTokens : db'.authTokens.rows = db.authTokens.rows.map (countedOnce authorization)

theorem leaves_admitted (hw : Wellformed db) (authorization : Option String) :
    Leaves authorization db (Api.admitted authorization db) := by
  obtain ⟨t, ht, he⟩ := NodeManager.ensureNetwork_frame (Api.wellformed_spend authorization hw)
  have hspend := spend_rows authorization db
  obtain ⟨ts, hs⟩ := Api.spend_frame authorization db
  rw [Api.recorded_spend] at ht
  rw [Api.admitted, he]
  exact ⟨by rw [hs], by rw [hs], ht, hspend⟩

/-- An error of a registration changes neither nodes nor routes. A refused token changes
nothing at all; after any other error the token stays used and the network stays created. -/
theorem failed_registration (h : Reachable db)
    (he : (serve db (.registerNode authorization req now)).1 = .error e) :
    (Api.accepted authorization db = false ∧ e = Api.unauthorized ∧
      (serve db (.registerNode authorization req now)).2 = db) ∨
    (Api.accepted authorization db = true ∧
      Leaves authorization db (serve db (.registerNode authorization req now)).2) := by
  have hw := wellformed_reachable h
  have hl := leaves_admitted hw authorization
  have hreg := registers hw authorization req now
  rw [he] at hreg
  generalize (serve db (.registerNode authorization req now)).2 = db' at hreg ⊢
  cases hreg with
  | refused ha => exact Or.inl ⟨ha, rfl, rfl⟩
  | badKey ha => exact Or.inr ⟨ha, hl⟩
  | noAddress ha => exact Or.inr ⟨ha, hl⟩
  | taken ha => exact Or.inr ⟨ha, hl⟩

/-- A key that base64 does not decode, sent with a valid token. -/
def badKeyRequest : Request :=
  .registerNode (some "Bearer t") { hostname := "node", publicKey := "A" } 0

theorem failed_registration_badKey :
    let db := serveAll .empty [.join "t" "join"]
    Leaves (some "Bearer t") db (serve db badKeyRequest).2 := by
  have hr : Reachable (serveAll .empty [.join "t" "join"]) := ⟨_, run_serves_iff.mpr rfl⟩
  have he : (serve (serveAll .empty [.join "t" "join"]) badKeyRequest).1 =
      .error (.binasciiError ("Invalid base64-encoded string: number of data characters (1) " ++
        "cannot be 1 more than a multiple of 4")) := by
    decide +kernel
  have ha : Api.accepted (some "Bearer t") (serveAll .empty [.join "t" "join"]) ≠ false := by
    decide +kernel
  rcases failed_registration hr he with ⟨hf, -⟩ | ⟨-, hl⟩
  · exact (ha hf).elim
  · exact hl

/-- The request ends in an error and the token has been used once. -/
theorem failed_registration_spends : ∃ db, Run Serves Database.empty [.join "t" "join"] db ∧
    (serve db badKeyRequest).1.isOk = false ∧
    db.authTokens.rows.map AuthToken.usedCount = [0] ∧
    (serve db badKeyRequest).2.authTokens.rows.map AuthToken.usedCount = [1] :=
  ⟨_, run_serves_iff.mpr rfl, by decide +kernel⟩

section Renumbering

variable {ipv4Prefix : String} {ipv6Prefix : Option String}
  {selectOrder flushOrder : RowOrder NodeModel} {used : IPAllocator}

/-- A network with nodes is there already, so nothing is committed for it. -/
theorem ensureNetwork_of_node (hw : Wellformed db) (hn : db.nodes.rows ≠ []) :
    NodeManager.ensureNetwork db = db := by
  rcases hw.networks with h | h
  · exact (hn (hw.opened h)).elim
  · exact NodeManager.ensureNetwork_of_singleton hw h

/-- Without nodes there is no address to hand out and no row to obstruct another. -/
theorem node_of_reallocate_error
    (he : Api.reallocate used (selectOrder.arrange db.nodes.rows) [] [] = .error e) :
    db.nodes.rows ≠ [] := by
  intro hnil
  have ho : selectOrder.arrange db.nodes.rows = [] :=
    List.Perm.eq_nil (hnil ▸ selectOrder.perm db.nodes.rows)
  rw [ho] at he
  cases he

theorem node_of_obstructed {nodes : List NodeModel} (hp : nodes.Perm db.nodes.rows)
    (hf : ¬ Api.Unobstructed used nodes (flushOrder.arrange nodes)) : db.nodes.rows ≠ [] := by
  intro hnil
  apply hf
  obtain rfl : nodes = [] := List.Perm.eq_nil (hnil ▸ hp)
  have ho : flushOrder.arrange [] = [] := List.Perm.eq_nil (flushOrder.perm [])
  intro pre b post he
  simp [ho] at he

/-- A renumbering that ends in an error leaves all tables as they were: the commit of
`get_or_create_network` cannot come before the error. -/
theorem failed_renumbering (h : Reachable db) (selectOrder flushOrder : RowOrder NodeModel)
    (he : (serve db (.updateNetworkSubnet ipv4Prefix ipv6Prefix selectOrder flushOrder)).1 =
      .error e) :
    (serve db (.updateNetworkSubnet ipv4Prefix ipv6Prefix selectOrder flushOrder)).2 = db := by
  have hw := wellformed_reachable h
  have hren := renumbers hw ipv4Prefix ipv6Prefix selectOrder flushOrder
  rw [he] at hren
  generalize (serve db (.updateNetworkSubnet ipv4Prefix ipv6Prefix selectOrder flushOrder)).2 = db'
    at hren ⊢
  cases hren with
  | invalid => rfl
  | noAddress _ _ he => exact ensureNetwork_of_node hw (node_of_reallocate_error he)
  | obstructed _ _ _ hf =>
    exact ensureNetwork_of_node hw (node_of_obstructed (selectOrder.perm _) hf)

/-- The second of two nodes finds the new pool exhausted. -/
theorem failed_renumbering_exhausted :
    let db := serveAll .empty [registerKey "YQ==", registerKey "Yg=="]
    (serve db (putSubnet "10.0.0.0/30" "fd01::/64")).2 = db := by
  have hr : Reachable (serveAll .empty [registerKey "YQ==", registerKey "Yg=="]) :=
    ⟨_, run_serves_iff.mpr rfl⟩
  have he : (serve (serveAll .empty [registerKey "YQ==", registerKey "Yg=="])
      (putSubnet "10.0.0.0/30" "fd01::/64")).1 =
        .error (.runtimeError "IPv4 subnet exhaustion in mesh pool.") := by
    decide +kernel
  exact failed_renumbering hr .stored .stored he

end Renumbering

end PyMesh
