import PyMesh.Controller.Acl
import PyMesh.Controller.Api
import Mathlib.Data.List.Perm.Basic

/-! The ACL rules that a controller stores, and the order in which it returns them. -/
namespace PyMesh

open LTS Policy Relational Resumption

/-- A rule as the API receives and returns it. -/
structure ACLRuleModel where
  id : Option String := none
  source : String
  destination : String
  action : String := "allow"
  ports : List Int := []
  protocols : List String := []
deriving DecidableEq

/-- A row of `acl_rules`. -/
structure ACLRule where
  id : String
  networkId : String
  source : String
  destination : String
  action : String
  ports : List Int
  protocols : List String
deriving DecidableEq

instance ACLRule.row : Row ACLRule String where
  key r := r.id
  Clash a b := a.id = b.id
  clash_symm := Eq.symm
  clash_of_key h := h

instance ACLRule.decidableClash : DecidableRel (Row.Clash : ACLRule → ACLRule → Prop) :=
  fun a b => inferInstanceAs (Decidable (a.id = b.id))

namespace Api

/-- The row of a new rule; `uuid` is the id of one that comes without. -/
def dbRule (rule : ACLRuleModel) (uuid : String) : ACLRule where
  id := (truthy rule.id).getD uuid
  networkId := "net-pymesh"
  source := rule.source
  destination := rule.destination
  action := rule.action
  ports := rule.ports
  protocols := rule.protocols

/-- A row as `list_acls` and `create_acl_rule` return it. -/
def ruleModel (r : ACLRule) : ACLRuleModel where
  id := some r.id
  source := r.source
  destination := r.destination
  action := r.action
  ports := r.ports
  protocols := r.protocols

def createAclRule (rule : ACLRuleModel) (uuid : String) :
    Prog (Table ACLRule) Exc ACLRuleModel := do
  Prog.commit fun t => checked (t.insert (dbRule rule uuid))
  return ruleModel (dbRule rule uuid)

/-- `order` is the order in which the SELECT returns the rows. -/
def listAcls (order : RowOrder ACLRule) : Prog (Table ACLRule) Exc (List ACLRuleModel) :=
  Prog.read fun t => (order.arrange t.rows).map ruleModel

end Api

/-- A rule of the API as the dict that the engine reads. -/
def ACLRuleModel.rule (m : ACLRuleModel) : Rule where
  source := some m.source
  destination := some m.destination
  action := some m.action
  ports := some m.ports
  protocols := some m.protocols

/-- `PUT /acl`: the rule, and the id that is drawn for one that comes without. -/
structure PutAcl where
  rule : ACLRuleModel
  uuid : String

namespace PutAcl

/-- The row that is stored for the request. -/
def row (put : PutAcl) : ACLRule := Api.dbRule put.rule put.uuid

/-- The request is answered with the rule that it has created. -/
def Serves (t : Table ACLRule) (put : PutAcl) (t' : Table ACLRule) : Prop :=
  t' = ((Api.createAclRule put.rule put.uuid).run t).2

/-- The rules that a sequence of requests creates, in their order. -/
def created (puts : List PutAcl) : List Rule := puts.map fun put => (Api.ruleModel put.row).rule

variable {puts : List PutAcl} {put : PutAcl} {t t' : Table ACLRule} {a : Attempt}

/-- A row as the engine reads it. -/
def stored (r : ACLRule) : Rule := (Api.ruleModel r).rule

theorem run_listAcls (order : RowOrder ACLRule) (t : Table ACLRule) :
    (Api.listAcls order).run t = (.ok ((order.arrange t.rows).map Api.ruleModel), t) := rfl

/-- A request with a new id adds its row at the end. -/
theorem rows_of_serves (hs : Serves t put t') (hf : ∀ r ∈ t.rows, r.id ≠ put.row.id) :
    t'.rows = t.rows ++ [put.row] := by
  have hins : (t.insert put.row).isSome := Table.insert_isSome_iff.mpr hf
  obtain ⟨u, hu⟩ := Option.isSome_iff_exists.mp hins
  have hc : checked (t.insert put.row) = .ok u := by rw [hu, checked_some]
  have hrun : (Api.createAclRule put.rule put.uuid).run t =
      (.ok (Api.ruleModel put.row), u) := Prog.run_commit_ok hc _
  rw [Serves, hrun] at hs
  rw [hs]
  exact Table.insert_eq_some_iff.mp hu

/-- After requests with different ids their rows are stored in the order of creation. -/
theorem rows_of_run (h : Run Serves Table.empty puts t)
    (hd : (puts.map fun put => put.row.id).Nodup) : t.rows = puts.map row := by
  induction h with
  | refl => rfl
  | @tail ps u put v _ hs ih =>
    rw [List.map_append, List.nodup_append] at hd
    obtain ⟨hps, -, hne⟩ := hd
    have hrows := ih hps
    have hfree : ∀ r ∈ u.rows, r.id ≠ put.row.id := by
      intro r hr
      rw [hrows, List.mem_map] at hr
      obtain ⟨q, hq, rfl⟩ := hr
      exact hne _ (List.mem_map.mpr ⟨q, hq, rfl⟩) _ (by simp)
    rw [rows_of_serves hs hfree, hrows, List.map_append]
    rfl

theorem created_eq (h : Run Serves Table.empty puts t)
    (hd : (puts.map fun put => put.row.id).Nodup) : created puts = t.rows.map stored := by
  rw [rows_of_run h hd, List.map_map]
  rfl

/-- The SELECT may return the rows in any given order. -/
def orderAs (l l' : List ACLRule) (hp : l'.Perm l) : RowOrder ACLRule where
  arrange := fun x => if x = l then l' else x
  perm := by
    intro x
    by_cases hx : x = l
    · simp only [hx, if_true]
      exact hp
    · simp only [hx, if_false]
      exact .refl _

/-- Every order of the rules can be the one in which they are returned. -/
theorem exists_order {rules : List Rule} (hp : rules.Perm (t.rows.map stored)) :
    ∃ order : RowOrder ACLRule, (order.arrange t.rows).map stored = rules := by
  have hc : Relation.Comp (fun l l' => l = List.map stored l') List.Perm rules t.rows := by
    rw [List.eq_map_comp_perm]
    exact hp
  obtain ⟨l, rfl, hl⟩ := hc
  exact ⟨orderAs t.rows l hl, by simp [orderAs]⟩

theorem isAllowed_eq_verdict_iff {rules rules' : List Rule} (hp : rules'.Perm rules) :
    ACLEngine.isAllowed rules' a = ACLEngine.isAllowed rules a ↔
      verdict ACLEngine.matchRule ACLEngine.allows false rules' a =
        verdict ACLEngine.matchRule ACLEngine.allows false rules a := by
  by_cases hr : rules = []
  · subst hr
    obtain rfl := hp.eq_nil
    exact iff_of_true rfl rfl
  · have hr' : rules' ≠ [] := fun h => hr (h ▸ hp).symm.eq_nil
    rw [ACLEngine.isAllowed_of_ne_nil hr, ACLEngine.isAllowed_of_ne_nil hr']

/-- The engine decides on a connection as in the order of creation, whatever the order in which
the rules are returned, if and only if the rules that match it all allow it or all deny it. -/
theorem acl_order_iff (h : Run Serves Table.empty puts t)
    (hd : (puts.map fun put => put.row.id).Nodup) (a : Attempt) :
    (∀ order models, ((Api.listAcls order).run t).1 = .ok models →
      ACLEngine.isAllowed (models.map ACLRuleModel.rule) a =
        ACLEngine.isAllowed (created puts) a) ↔
      Uniform ACLEngine.matchRule ACLEngine.allows (created puts) a := by
  have hc := created_eq h hd
  constructor
  · intro hall
    have hperm : ∀ rules, rules.Perm (created puts) →
        verdict ACLEngine.matchRule ACLEngine.allows false rules a =
          verdict ACLEngine.matchRule ACLEngine.allows false (created puts) a := by
      intro rules hp
      obtain ⟨order, ho⟩ := exists_order (hc ▸ hp)
      have heq := hall order _ rfl
      rw [List.map_map] at heq
      rw [← isAllowed_eq_verdict_iff hp, ← ho]
      exact heq
    exact uniform_of_verdict_perm hperm
  · intro hu order models hm
    have hms : models.map ACLRuleModel.rule = (order.arrange t.rows).map stored := by
      rw [run_listAcls] at hm
      rw [← Except.ok.inj hm, List.map_map]
      rfl
    have hp : (models.map ACLRuleModel.rule).Perm (created puts) := by
      rw [hms, hc]
      exact (order.perm t.rows).map stored
    exact (isAllowed_eq_verdict_iff hp).mpr (hu.verdict_perm hp)

/-- The tables after a sequence of requests. -/
def putAll (puts : List PutAcl) : Table ACLRule :=
  puts.foldl (fun t put => ((Api.createAclRule put.rule put.uuid).run t).2) .empty

theorem run_putAll (puts : List PutAcl) : Run Serves Table.empty puts (putAll puts) := by
  induction puts using List.reverseRecOn with
  | nil => exact .refl
  | append_singleton puts put ih =>
    refine ih.tail ?_
    simp [putAll, Serves]

def putRule (source action uuid : String) : PutAcl :=
  ⟨{ source := source, destination := "*", action := action }, uuid⟩

/-- A connection from a member of a group. -/
def fromMember : Attempt := ⟨{ tags := some ["a"] }, {}, none, "tcp"⟩

def disjointRules : List PutAcl :=
  [putRule "group:a" "allow" "acl-1", putRule "group:b" "deny" "acl-2"]

/-- Two rules for different groups do not get into each other's way. -/
theorem acl_order_iff_groups : ∃ t, Run Serves Table.empty disjointRules t ∧
    ∀ order models, ((Api.listAcls order).run t).1 = .ok models →
      ACLEngine.isAllowed (models.map ACLRuleModel.rule) fromMember =
        ACLEngine.isAllowed (created disjointRules) fromMember := by
  have hd : (disjointRules.map fun put => put.row.id).Nodup := by decide +kernel
  have hu : Uniform ACLEngine.matchRule ACLEngine.allows (created disjointRules) fromMember := by
    decide +kernel
  exact ⟨_, run_putAll _, (acl_order_iff (run_putAll _) hd _).mpr hu⟩

def overlappingRules : List PutAcl :=
  [putRule "group:a" "allow" "acl-1", putRule "*" "deny" "acl-2"]

/-- With a rule for everybody the member is let in or not, as the rules come. -/
theorem acl_order_fails : ∃ t order models, Run Serves Table.empty overlappingRules t ∧
    (overlappingRules.map fun put => put.row.id).Nodup ∧
    ((Api.listAcls order).run t).1 = .ok models ∧
    ACLEngine.isAllowed (models.map ACLRuleModel.rule) fromMember = false ∧
    ACLEngine.isAllowed (created overlappingRules) fromMember = true :=
  ⟨_, ⟨List.reverse, List.reverse_perm⟩, _, run_putAll _, by decide +kernel, rfl,
    by decide +kernel, by decide +kernel⟩

end PutAcl

end PyMesh
