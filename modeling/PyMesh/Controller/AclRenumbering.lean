import PyMesh.Controller.Acl
import PyMesh.Controller.Flush
import PyMesh.Controller.Ownership
import Mathlib.Data.List.Find

/-! What a renumbering does to the verdicts of the ACL rules, which may select nodes by their
addresses. -/
namespace PyMesh

open LTS Policy Relational Resumption

namespace ACLEngine

/-- What a selector asks a name of a node for, if it does not stand for a group. -/
def selectorTarget (selector : String) : String :=
  if Text.startsWith selector "node:" then Text.afterFirst selector ':' else selector

/-- A rule selects a node of the connection by its address. -/
def ByAddress (rule : Rule) (a : Attempt) : Prop :=
  a.srcNode.meshIpv4 = some (selectorTarget (rule.source.getD "*")) ∨
    a.dstNode.meshIpv4 = some (selectorTarget (rule.destination.getD "*"))

/-- The connection between the same nodes under other addresses. -/
def readdress (a : Attempt) (src dst : Option String) : Attempt :=
  { a with srcNode := { a.srcNode with meshIpv4 := src },
           dstNode := { a.dstNode with meshIpv4 := dst } }

/-- No rule matches a connection with the old or with the new addresses of its nodes, or the first
that does matches it with both, or this rule selects one of the nodes by an address that it loses
or gains, and the verdict without the rule falls back to the action of it. -/
def Undisplaced (rules : List Rule) (old new : Attempt) : Prop :=
  (∀ rule ∈ rules, matchRule rule old = false ∧ matchRule rule new = false) ∨
    ∃ rule post, FirstInEither matchRule matchRule rules old new rule post ∧
      (matchRule rule old = true ∧ matchRule rule new = true ∨
        ByAddress rule old ∧ matchRule rule new = false ∧
          FallsBack matchRule allows false post new (allows rule) ∨
        ByAddress rule new ∧ matchRule rule old = false ∧
          FallsBack matchRule allows false post old (allows rule))

variable {rules : List Rule} {rule : Rule} {a b : Attempt} {selector : String} {node : NodeInfo}
  {x x' y y' : Option String}

/-- A selector that matches a node under one address and not under another names the first. -/
theorem target_of_readdressed (h : matchNodeSelector selector { node with meshIpv4 := x } = true)
    (h' : matchNodeSelector selector { node with meshIpv4 := y } = false) :
    x = some (selectorTarget selector) := by
  unfold matchNodeSelector at h h'
  unfold selectorTarget
  by_cases hall : selector = "*"
  · simp [hall] at h'
  · by_cases hgroup : Text.startsWith selector "group:" = true
    · simp only [hall, if_false, hgroup, if_true] at h h'
      rw [h] at h'
      cases h'
    · by_cases hnode : Text.startsWith selector "node:" = true
      · simp only [hall, if_false, hgroup, hnode, if_true, named, List.mem_cons, List.not_mem_nil,
          or_false, decide_eq_true_eq, decide_eq_false_iff_not, not_or,
          Bool.false_eq_true] at h h' ⊢
        tauto
      · simp only [hall, if_false, hgroup, hnode, named, List.mem_cons, List.not_mem_nil,
          or_false, decide_eq_true_eq, decide_eq_false_iff_not, not_or,
          Bool.false_eq_true] at h h' ⊢
        tauto

/-- A rule that matches a connection under one pair of addresses and not under another selects one
of the nodes by its address in the first. -/
theorem byAddress_of_match (h : matchRule rule (readdress a x y) = true)
    (h' : matchRule rule (readdress a x' y') = false) : ByAddress rule (readdress a x y) := by
  obtain ⟨hsrc, hdst, hports, hproto⟩ := matchRule_iff.mp h
  by_contra hno
  obtain ⟨hnosrc, hnodst⟩ := not_or.mp hno
  have hsrc' :
      matchNodeSelector (rule.source.getD "*") (readdress a x' y').srcNode = true := by
    by_contra hne
    exact hnosrc (target_of_readdressed hsrc (Bool.eq_false_iff.mpr hne))
  have hdst' :
      matchNodeSelector (rule.destination.getD "*") (readdress a x' y').dstNode = true := by
    by_contra hne
    exact hnodst (target_of_readdressed hdst (Bool.eq_false_iff.mpr hne))
  rw [matchRule_iff.mpr ⟨hsrc', hdst', hports, hproto⟩] at h'
  cases h'

/-- The verdicts on two connections as two readings of one list of rules. -/
theorem isAllowed_eq_isAllowed_iff : isAllowed rules b = isAllowed rules a ↔
    verdict matchRule allows false rules a = verdict matchRule allows false rules b := by
  by_cases hr : rules = []
  · subst hr
    exact iff_of_true rfl rfl
  · rw [isAllowed_of_ne_nil hr, isAllowed_of_ne_nil hr, eq_comm]

theorem isAllowed_readdress_iff (rules : List Rule) (a : Attempt) (x y x' y' : Option String) :
    isAllowed rules (readdress a x' y') = isAllowed rules (readdress a x y) ↔
      Undisplaced rules (readdress a x y) (readdress a x' y') := by
  rw [isAllowed_eq_isAllowed_iff, verdict_eq_verdict_iff]
  refine or_congr_right (exists_congr fun rule => exists_congr fun post => ?_)
  refine and_congr_right fun hfirst => ?_
  cases hold : matchRule rule (readdress a x y) with
  | true =>
    cases hnew : matchRule rule (readdress a x' y') with
    | true => simp
    | false =>
      have haddress : ByAddress rule (readdress a x y) := byAddress_of_match hold hnew
      simp [haddress]
  | false =>
    obtain ⟨-, -, -, heither⟩ := hfirst
    have hnew : matchRule rule (readdress a x' y') = true := by simpa [hold] using heither
    have haddress : ByAddress rule (readdress a x' y') := byAddress_of_match hnew hold
    simp [hnew, haddress]

/-- Rules that select none of the nodes by its address decide as before. -/
theorem isAllowed_readdress (h : ∀ rule ∈ rules,
      ¬ ByAddress rule (readdress a x y) ∧ ¬ ByAddress rule (readdress a x' y')) :
    isAllowed rules (readdress a x' y') = isAllowed rules (readdress a x y) := by
  have hmatch : ∀ rule ∈ rules, matchRule rule (readdress a x' y') =
      matchRule rule (readdress a x y) := by
    intro rule hr
    by_contra hne
    cases hold : matchRule rule (readdress a x y) with
    | true =>
      have hnew : matchRule rule (readdress a x' y') = false := by simpa [hold] using hne
      exact (h rule hr).1 (byAddress_of_match hold hnew)
    | false =>
      have hnew : matchRule rule (readdress a x' y') = true := by simpa [hold] using hne
      exact (h rule hr).2 (byAddress_of_match hnew hold)
  rw [isAllowed_eq_isAllowed_iff, verdict, verdict, List.find?_congr hmatch]

end ACLEngine

/-- A registered node as the engine reads it. -/
def NodeModel.info (node : NodeModel) : NodeInfo where
  hostname := some node.hostname
  nodeId := some node.id
  meshIpv4 := some (IPv4Address.str node.meshIpv4)
  tags := some node.tags

/-- A connection between two registered nodes. -/
def attempt (src dst : NodeModel) (port : Option Int) (protocol : String) : Attempt :=
  ⟨src.info, dst.info, port, protocol⟩

/-- A node with the host that is at its place in a renumbering with these prefixes. -/
def movedBy (ipv4Prefix : String) (ipv6Prefix : Option String) (selectOrder : RowOrder NodeModel)
    (db : Database) (node : NodeModel) : NodeModel :=
  match usedPool ipv4Prefix ipv6Prefix with
  | .error _ => node
  | .ok used =>
    let places := Api.places used (selectOrder.arrange db.nodes.rows)
    match places.find? fun x => x.1.id = node.id with
    | some (_, host) => { node with meshIpv4 := host }
    | none => node

variable {db db' : Database} {ipv4Prefix : String} {ipv6Prefix : Option String}
  {selectOrder flushOrder : RowOrder NodeModel} {res : Response} {src dst node : NodeModel}
  {rules : List Rule} {port : Option Int} {protocol : String}

/-- After a renumbering that goes through a node is found under its id with its new host. -/
theorem exists_renumbered
    (h : Renumbers ipv4Prefix ipv6Prefix selectOrder flushOrder db (.ok res) db')
    (hm : node ∈ db.nodes.rows) : ∃ node', db'.nodes.find node.id = some node' ∧
      node'.info = (movedBy ipv4Prefix ipv6Prefix selectOrder db node).info := by
  cases h with
  | @done used new tn t hv hu hr hf htn ht =>
    have hp := selectOrder.perm db.nodes.rows
    obtain ⟨v4, v6, hpl, -, hrow⟩ := Api.exists_new hp hr hm
    have hids : ((Api.places used (selectOrder.arrange db.nodes.rows)).map
        fun x => x.1.id).Nodup := by
      have hlen := (Api.reallocate_eq_ok_iff.mp hr).1
      have hfst : (Api.places used (selectOrder.arrange db.nodes.rows)).map Prod.fst =
          selectOrder.arrange db.nodes.rows := List.map_fst_zip hlen
      have hmap := congrArg (List.map NodeModel.id) hfst
      rw [List.map_map] at hmap
      refine Eq.mpr (congrArg List.Nodup hmap) ?_
      exact ((hp.map NodeModel.id).nodup_iff).mpr db.nodes.keys_nodup
    have hplace : ((Api.places used (selectOrder.arrange db.nodes.rows)).find?
        fun x => x.1.id = node.id) = some (node, v4) :=
      (Table.find?_key_eq_some_iff hids).mpr ⟨hpl, rfl⟩
    have hmoved : movedBy ipv4Prefix ipv6Prefix selectOrder db node =
        { node with meshIpv4 := v4 } := by
      simp only [movedBy, hu, hplace]
    have hfind := Table.find_map ht (fun n => Api.renumberRow_id new n) node.id
    have hold : db.nodes.find node.id = some node := Table.find_eq_some_iff.mpr ⟨hm, rfl⟩
    rw [hold, Option.map_some, hrow] at hfind
    refine ⟨_, hfind, ?_⟩
    rw [hmoved]
    rfl

/-- The new host is all that changes of a node as the engine reads it. -/
theorem info_movedBy (ipv4Prefix : String) (ipv6Prefix : Option String)
    (selectOrder : RowOrder NodeModel) (db : Database) (node : NodeModel) :
    (movedBy ipv4Prefix ipv6Prefix selectOrder db node).info = { node.info with
      meshIpv4 := some (IPv4Address.str
        (movedBy ipv4Prefix ipv6Prefix selectOrder db node).meshIpv4) } := by
  unfold movedBy
  split
  · rfl
  · dsimp only
    split
    · rfl
    · rfl

/-- The verdict on a connection is the same before and after a renumbering if and only if the
first rule that matches it with the old or with the new addresses of its nodes decides both times,
up to rules that decide like it in its place. In particular rules that select no node by its
address decide as before. -/
theorem acl_renumbering_iff (h : Reachable db) (selectOrder flushOrder : RowOrder NodeModel)
    (hok : (serve db (.updateNetworkSubnet ipv4Prefix ipv6Prefix selectOrder flushOrder)).1 =
      .ok res)
    (hs : db.nodes.find src.id = some src) (hd : db.nodes.find dst.id = some dst)
    (rules : List Rule) (port : Option Int) (protocol : String) :
    let old := attempt src dst port protocol
    let new := attempt (movedBy ipv4Prefix ipv6Prefix selectOrder db src)
      (movedBy ipv4Prefix ipv6Prefix selectOrder db dst) port protocol
    ∃ src' dst',
    (serve db (.updateNetworkSubnet ipv4Prefix ipv6Prefix selectOrder flushOrder)).2.nodes.find
      src.id = some src' ∧
    (serve db (.updateNetworkSubnet ipv4Prefix ipv6Prefix selectOrder flushOrder)).2.nodes.find
      dst.id = some dst' ∧
    (ACLEngine.isAllowed rules (attempt src' dst' port protocol) = ACLEngine.isAllowed rules old ↔
      ACLEngine.Undisplaced rules old new) ∧
    ((∀ rule ∈ rules, ¬ ACLEngine.ByAddress rule old ∧ ¬ ACLEngine.ByAddress rule new) →
      ACLEngine.isAllowed rules (attempt src' dst' port protocol) =
        ACLEngine.isAllowed rules old) := by
  have hren := renumbers (wellformed_reachable h) ipv4Prefix ipv6Prefix selectOrder flushOrder
  rw [hok] at hren
  obtain ⟨src', hs', his⟩ := exists_renumbered hren (Table.find_eq_some_iff.mp hs).1
  obtain ⟨dst', hd', hid⟩ := exists_renumbered hren (Table.find_eq_some_iff.mp hd).1
  refine ⟨src', dst', hs', hd', ?_⟩
  have hnew : attempt src' dst' port protocol =
      ACLEngine.readdress (attempt src dst port protocol)
        (some (IPv4Address.str (movedBy ipv4Prefix ipv6Prefix selectOrder db src).meshIpv4))
        (some (IPv4Address.str (movedBy ipv4Prefix ipv6Prefix selectOrder db dst).meshIpv4)) := by
    rw [attempt, his, hid, info_movedBy, info_movedBy]
    rfl
  have hmoved : attempt (movedBy ipv4Prefix ipv6Prefix selectOrder db src)
      (movedBy ipv4Prefix ipv6Prefix selectOrder db dst) port protocol =
        attempt src' dst' port protocol := by
    rw [attempt, attempt, his, hid]
  rw [hmoved, hnew]
  exact ⟨ACLEngine.isAllowed_readdress_iff rules (attempt src dst port protocol) _ _ _ _,
    fun hno => ACLEngine.isAllowed_readdress hno⟩

/-- A rule for the address that a node loses, and one for everybody that makes up for it. -/
def addressThenAll : List Rule := [{ source := some "10.0.0.3" }, { source := some "*" }]

/-- The connection is let in by the first rule before, and by the second one afterwards. -/
theorem acl_renumbering_iff_all : ∃ src dst src' dst',
    let db := serveAll .empty gapBefore
    db.nodes.find thirdId = some src ∧ db.nodes.find secondId = some dst ∧
    (serve db (putSubnet "10.0.0.0/29" "fd00::/64")).2.nodes.find src.id = some src' ∧
    (serve db (putSubnet "10.0.0.0/29" "fd00::/64")).2.nodes.find dst.id = some dst' ∧
    ACLEngine.isAllowed addressThenAll (attempt src' dst' none "tcp") =
      ACLEngine.isAllowed addressThenAll (attempt src dst none "tcp") ∧
    ACLEngine.Undisplaced addressThenAll (attempt src dst none "tcp")
      (attempt (movedBy "10.0.0.0/29" (some "fd00::/64") .stored db src)
        (movedBy "10.0.0.0/29" (some "fd00::/64") .stored db dst) none "tcp") := by
  have h : Reachable (serveAll .empty gapBefore) := ⟨_, run_serves_iff.mpr rfl⟩
  have hok : (serve (serveAll .empty gapBefore) (putSubnet "10.0.0.0/29" "fd00::/64")).1 =
      .ok (.subnetUpdated "10.0.0.0/29" (some "fd00::/64") 2) := by
    decide +kernel
  have hold : ∃ src ∈ (serveAll .empty gapBefore).nodes.find thirdId,
      ∃ dst ∈ (serveAll .empty gapBefore).nodes.find secondId,
      ACLEngine.isAllowed addressThenAll (attempt src dst none "tcp") = true := by
    decide +kernel
  have hnew : ∃ src ∈ (serve (serveAll .empty gapBefore)
        (putSubnet "10.0.0.0/29" "fd00::/64")).2.nodes.find thirdId,
      ∃ dst ∈ (serve (serveAll .empty gapBefore)
        (putSubnet "10.0.0.0/29" "fd00::/64")).2.nodes.find secondId,
      ACLEngine.isAllowed addressThenAll (attempt src dst none "tcp") = true := by
    decide +kernel
  revert h hok hold hnew
  generalize serveAll .empty gapBefore = db
  intro h hok hold hnew
  obtain ⟨src, hs, dst, hd, hallowed⟩ := hold
  have hsid : src.id = thirdId := (Table.find_eq_some_iff.mp hs).2
  have hdid : dst.id = secondId := (Table.find_eq_some_iff.mp hd).2
  obtain ⟨src', dst', hs', hd', hiff, -⟩ := acl_renumbering_iff h .stored .stored hok
    (hsid ▸ hs) (hdid ▸ hd) addressThenAll none "tcp"
  have hsame : ACLEngine.isAllowed addressThenAll (attempt src' dst' none "tcp") =
      ACLEngine.isAllowed addressThenAll (attempt src dst none "tcp") := by
    obtain ⟨src'', hs'', dst'', hd'', hallowed'⟩ := hnew
    obtain rfl : src' = src'' := Option.some.inj (hs'.symm.trans (hsid ▸ hs''))
    obtain rfl : dst' = dst'' := Option.some.inj (hd'.symm.trans (hdid ▸ hd''))
    rw [hallowed, hallowed']
  exact ⟨src, dst, src', dst', hs, hd, hs', hd', hsame, hiff.mp hsame⟩

/-- Each of the two nodes gets the address before its own, and the rule for the address of the one
lets in the other instead. -/
theorem acl_renumbering_fails : ∃ db, Run Serves Database.empty gapBefore db ∧
    (serve db (putSubnet "10.0.0.0/29" "fd00::/64")).1.isOk = true ∧
    (∃ src ∈ db.nodes.find thirdId, ∃ dst ∈ db.nodes.find secondId,
      ACLEngine.isAllowed [{ source := some "10.0.0.3" }] (attempt src dst none "tcp") = true ∧
      ACLEngine.isAllowed [{ source := some "10.0.0.3" }] (attempt dst src none "tcp") = false) ∧
    ∃ src ∈ (serve db (putSubnet "10.0.0.0/29" "fd00::/64")).2.nodes.find thirdId,
      ∃ dst ∈ (serve db (putSubnet "10.0.0.0/29" "fd00::/64")).2.nodes.find secondId,
      ACLEngine.isAllowed [{ source := some "10.0.0.3" }] (attempt src dst none "tcp") = false ∧
      ACLEngine.isAllowed [{ source := some "10.0.0.3" }] (attempt dst src none "tcp") = true := by
  refine ⟨_, run_serves_iff.mpr rfl, by decide +kernel, ?_, ?_⟩
  · decide +kernel
  · decide +kernel

end PyMesh
