import PyMesh.Library.Resumption
import PyMesh.Storage.Models

/-! A request's database session. Every awaited statement and every commit is one access to
the shared database. What a session has not committed is seen by nobody else, so a flush and
the COMMIT after it are one access, which takes effect as a whole or not at all. -/
namespace PyMesh

open Relational Resumption

abbrev Session := Prog Database Exc

/-- `await session.execute(select(…))`. -/
def execute {α : Type} (query : Database → α) : Session α := Prog.read query

/-- `await session.commit()` with the flush of the session's changes. -/
def commit (flush : Database → Except Exc Database) : Session Unit := Prog.commit flush

/-- A constraint violation raises `IntegrityError`. -/
def checked {α : Type} : Option α → Except Exc α
  | some a => .ok a
  | none => .error .integrityError

@[simp] theorem checked_some {α : Type} (a : α) : checked (some a) = .ok a := rfl

@[simp] theorem checked_none {α : Type} : checked (none : Option α) = .error .integrityError := rfl

/-- `await session.refresh(obj)`: the row is read again by its primary key. -/
def refresh {α : Type} (query : Database → Option α) : Session α := do
  match ← execute query with
  | some row => return row
  | none => throw .invalidRequestError

theorem checked_eq_ok {α : Type} {x : Option α} {a : α} (h : checked x = .ok a) : x = some a := by
  cases x with
  | none => cases h
  | some a => exact congrArg some (Except.ok.inj h)

theorem checked_map_eq_ok {α β : Type} {x : Option α} {f : α → β} {b : β}
    (h : (checked x).map f = .ok b) : ∃ a, x = some a ∧ f a = b := by
  cases x with
  | none => cases h
  | some a => exact ⟨a, rfl, Except.ok.inj h⟩

namespace Database

def insertNetwork (net : Network) (db : Database) : Except Exc Database :=
  (checked (db.networks.insert net)).map fun t => { db with networks := t }

/-- An UPDATE of one row raises `StaleDataError` when the row is gone. -/
def updateNetwork (id : String) (f : Network → Network) (db : Database) :
    Except Exc Database :=
  match db.networks.find id with
  | none => .error .staleDataError
  | some _ => (checked (db.networks.update id f)).map fun t => { db with networks := t }

def insertNode (node : NodeModel) (db : Database) : Except Exc Database :=
  (checked (db.nodes.insert node)).map fun t => { db with nodes := t }

def updateNode (id : String) (f : NodeModel → NodeModel) (db : Database) :
    Except Exc Database :=
  match db.nodes.find id with
  | none => .error .staleDataError
  | some _ => (checked (db.nodes.update id f)).map fun t => { db with nodes := t }

/-- One UPDATE of a node row after the other. -/
def updateNodes (ids : List String) (f : NodeModel → NodeModel) (db : Database) :
    Except Exc Database :=
  if ids.all fun id => (db.nodes.find id).isSome then
    (checked (db.nodes.updateEach f ids)).map fun t => { db with nodes := t }
  else .error .staleDataError

def insertRoute (route : SubnetRoute) (db : Database) : Except Exc Database :=
  (checked (db.subnetRoutes.insert route)).map fun t => { db with subnetRoutes := t }

def insertToken (token : AuthToken) (db : Database) : Except Exc Database :=
  (checked (db.authTokens.insert token)).map fun t => { db with authTokens := t }

def updateToken (token : String) (f : AuthToken → AuthToken) (db : Database) :
    Except Exc Database :=
  match db.authTokens.find token with
  | none => .error .staleDataError
  | some _ => (checked (db.authTokens.update token f)).map fun t => { db with authTokens := t }

section Insert

variable {ρ κ : Type} [Row ρ κ] [DecidableRel (Row.Clash : ρ → ρ → Prop)]

/-- An INSERT goes through exactly when the row clashes with no other. -/
theorem checked_insert_cases (t : Table ρ) (r : ρ) :
    ((∀ a ∈ t.rows, ¬ Row.Clash a r) ∧
      ∃ t' : Table ρ, t'.rows = t.rows ++ [r] ∧ checked (t.insert r) = .ok t') ∨
    ((∃ a ∈ t.rows, Row.Clash a r) ∧ checked (t.insert r) = .error .integrityError) := by
  cases ht : t.insert r with
  | some t' =>
    exact Or.inl ⟨Table.insert_isSome_iff.mp (ht ▸ rfl), t', Table.insert_eq_some_iff.mp ht, rfl⟩
  | none =>
    refine Or.inr ⟨?_, rfl⟩
    by_contra hc
    have hs := Table.insert_isSome_iff.mpr fun a ha hca => hc ⟨a, ha, hca⟩
    rw [ht] at hs
    cases hs

end Insert

variable {db db' : Database} {e : Exc}

theorem insertNetwork_ok {net : Network} (h : ∀ a ∈ db.networks.rows, ¬ Row.Clash a net) :
    ∃ t : Table Network, t.rows = db.networks.rows ++ [net] ∧
      db.insertNetwork net = .ok { db with networks := t } := by
  rcases checked_insert_cases db.networks net with ⟨-, t, ht, hi⟩ | ⟨⟨a, ha, hc⟩, -⟩
  · exact ⟨t, ht, by simp only [insertNetwork, hi, Except.map]⟩
  · exact (h a ha hc).elim

theorem insertNetwork_error {net : Network} (h : ∃ a ∈ db.networks.rows, Row.Clash a net) :
    db.insertNetwork net = .error .integrityError := by
  obtain ⟨a, ha, hc⟩ := h
  rcases checked_insert_cases db.networks net with ⟨hn, -⟩ | ⟨-, hi⟩
  · exact (hn a ha hc).elim
  · simp only [insertNetwork, hi, Except.map]

theorem insertNode_ok {node : NodeModel} (h : ∀ a ∈ db.nodes.rows, ¬ Row.Clash a node) :
    ∃ t : Table NodeModel, t.rows = db.nodes.rows ++ [node] ∧
      db.insertNode node = .ok { db with nodes := t } := by
  rcases checked_insert_cases db.nodes node with ⟨-, t, ht, hi⟩ | ⟨⟨a, ha, hc⟩, -⟩
  · exact ⟨t, ht, by simp only [insertNode, hi, Except.map]⟩
  · exact (h a ha hc).elim

theorem insertNode_error {node : NodeModel} (h : ∃ a ∈ db.nodes.rows, Row.Clash a node) :
    db.insertNode node = .error .integrityError := by
  obtain ⟨a, ha, hc⟩ := h
  rcases checked_insert_cases db.nodes node with ⟨hn, -⟩ | ⟨-, hi⟩
  · exact (hn a ha hc).elim
  · simp only [insertNode, hi, Except.map]

/-- An UPDATE of a row that exists and keeps its id and its addresses goes through. -/
theorem updateNode_ok {node : NodeModel} {id : String} {f : NodeModel → NodeModel}
    (hn : db.nodes.find id = some node) (hf : ∀ a b, Row.Clash (f a) b → Row.Clash a b) :
    ∃ t : Table NodeModel, (t.rows = db.nodes.rows.map fun r => if r.id = id then f r else r) ∧
      db.updateNode id f = .ok { db with nodes := t } := by
  obtain ⟨t, ht⟩ := Option.isSome_iff_exists.mp (Table.update_isSome hf)
  exact ⟨t, Table.update_eq_some_iff.mp ht, by simp [updateNode, hn, ht, Except.map]⟩

theorem updateToken_ok {t : AuthToken} {token : String} {f : AuthToken → AuthToken}
    (ht : db.authTokens.find token = some t) (hf : ∀ a, (f a).token = a.token) :
    ∃ ts : Table AuthToken,
      (ts.rows = db.authTokens.rows.map fun r => if r.token = token then f r else r) ∧
      db.updateToken token f = .ok { db with authTokens := ts } := by
  have hc : ∀ a b : AuthToken, Row.Clash (f a) b → Row.Clash a b :=
    fun a b h => (hf a).symm.trans h
  obtain ⟨ts, hu⟩ := Option.isSome_iff_exists.mp (Table.update_isSome hc)
  exact ⟨ts, Table.update_eq_some_iff.mp hu, by simp [updateToken, ht, hu, Except.map]⟩

theorem updateNetwork_ok {net : Network} {id : String} {f : Network → Network}
    (hn : db.networks.find id = some net) (hf : ∀ a, (f a).id = a.id ∧ (f a).name = a.name) :
    ∃ t : Table Network, (t.rows = db.networks.rows.map fun r => if r.id = id then f r else r) ∧
      db.updateNetwork id f = .ok { db with networks := t } := by
  have hc : ∀ a b : Network, Row.Clash (f a) b → Row.Clash a b := by
    intro a b h
    rw [network_clash_iff, (hf a).1, (hf a).2] at h
    exact h
  obtain ⟨t, ht⟩ := Option.isSome_iff_exists.mp (Table.update_isSome hc)
  exact ⟨t, Table.update_eq_some_iff.mp ht, by simp [updateNetwork, hn, ht, Except.map]⟩

theorem insertRoute_cases (db : Database) (route : SubnetRoute) :
    (∃ t : Table SubnetRoute, t.rows = db.subnetRoutes.rows ++ [route] ∧
      db.insertRoute route = .ok { db with subnetRoutes := t }) ∨
    db.insertRoute route = .error .integrityError := by
  rcases checked_insert_cases db.subnetRoutes route with ⟨-, t, ht, hi⟩ | ⟨-, hi⟩
  · exact Or.inl ⟨t, ht, by simp only [insertRoute, hi, Except.map]⟩
  · exact Or.inr (by simp only [insertRoute, hi, Except.map])

theorem insertToken_cases (db : Database) (token : AuthToken) :
    (∃ t : Table AuthToken, t.rows = db.authTokens.rows ++ [token] ∧
      db.insertToken token = .ok { db with authTokens := t }) ∨
    db.insertToken token = .error .integrityError := by
  rcases checked_insert_cases db.authTokens token with ⟨-, t, ht, hi⟩ | ⟨-, hi⟩
  · exact Or.inl ⟨t, ht, by simp only [insertToken, hi, Except.map]⟩
  · exact Or.inr (by simp only [insertToken, hi, Except.map])

end Database

end PyMesh
