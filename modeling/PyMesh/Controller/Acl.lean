import PyMesh.Library.Policy
import PyMesh.Library.Text

/-! The ACL rules between nodes, as the engine of the controller evaluates them. -/
namespace PyMesh

open Policy Text

/-- A rule, which the source writes as a dict: each key may be missing. -/
structure Rule where
  source : Option String := none
  destination : Option String := none
  action : Option String := none
  ports : Option (List Int) := none
  protocols : Option (List String) := none

/-- What the engine looks up in the dict of a node. -/
structure NodeInfo where
  hostname : Option String := none
  nodeId : Option String := none
  meshIpv4 : Option String := none
  tags : Option (List String) := none

/-- A connection as `is_allowed` is asked about it. -/
structure Attempt where
  srcNode : NodeInfo
  dstNode : NodeInfo
  port : Option Int := none
  protocol : String := "tcp"

namespace ACLEngine

/-- `target in (node.get("hostname"), node.get("node_id"), node.get("mesh_ipv4"))` -/
def named (target : String) (node : NodeInfo) : Bool :=
  some target ∈ [node.hostname, node.nodeId, node.meshIpv4]

def matchNodeSelector (selector : String) (node : NodeInfo) : Bool :=
  if selector = "*" then true
  else if startsWith selector "group:" then
    let groupName := afterFirst selector ':'
    groupName ∈ node.tags.getD []
  else if startsWith selector "node:" then
    let target := afterFirst selector ':'
    named target node
  else named selector node

def matchRule (rule : Rule) (a : Attempt) : Bool :=
  let srcPattern := rule.source.getD "*"
  let dstPattern := rule.destination.getD "*"
  if !matchNodeSelector srcPattern a.srcNode then false
  else if !matchNodeSelector dstPattern a.dstNode then false
  else
    let rulePorts := rule.ports.getD []
    if rulePorts ≠ [] ∧ a.port.any fun port => port ∉ rulePorts then false
    else
      let ruleProtocols := rule.protocols.getD []
      if ruleProtocols ≠ [] ∧ a.protocol ∉ ruleProtocols then false
      else true

/-- `rule.get("action", "allow") == "allow"` -/
def allows (rule : Rule) : Bool := rule.action.getD "allow" = "allow"

/-- The loop of `is_allowed`. -/
def firstMatch (a : Attempt) : List Rule → Bool
  | [] => false
  | rule :: rules => if matchRule rule a then allows rule else firstMatch a rules

def isAllowed (rules : List Rule) (a : Attempt) : Bool :=
  if rules = [] then true else firstMatch a rules

variable {rules : List Rule} {a : Attempt}

theorem firstMatch_eq : firstMatch a rules = verdict matchRule allows false rules a := by
  induction rules with
  | nil => rfl
  | cons rule rules ih => rw [firstMatch, verdict_cons, ih]

theorem isAllowed_of_ne_nil (h : rules ≠ []) :
    isAllowed rules a = verdict matchRule allows false rules a := by
  rw [isAllowed, if_neg h, firstMatch_eq]

theorem verdict_le_isAllowed (rules : List Rule) (a : Attempt) :
    verdict matchRule allows false rules a ≤ isAllowed rules a := by
  by_cases h : rules = []
  · subst h
    exact Bool.false_le _
  · rw [isAllowed_of_ne_nil h]

/-- A rule that denies lets nothing in, wherever it is inserted and also as the first rule of all;
a rule that allows keeps nothing out, wherever it is inserted among other rules. -/
theorem isAllowed_insert (pre post : List Rule) (rule : Rule) (a : Attempt) :
    ((∃ action, rule.action = some action ∧ action ≠ "allow") →
      isAllowed (pre ++ rule :: post) a = true → isAllowed (pre ++ post) a = true) ∧
    (rule.action.getD "allow" = "allow" → pre ++ post ≠ [] →
      isAllowed (pre ++ post) a = true → isAllowed (pre ++ rule :: post) a = true) := by
  have hne : pre ++ rule :: post ≠ [] := by simp
  rw [isAllowed_of_ne_nil hne]
  constructor
  · rintro ⟨action, haction, hdeny⟩ hallowed
    have hr : allows rule = ⊥ := by simpa [allows, haction] using hdeny
    have hle := (verdict_insert_le hr).trans (verdict_le_isAllowed (pre ++ post) a)
    exact Bool.le_iff_imp.mp hle hallowed
  · intro hallow hold hallowed
    have hr : allows rule = ⊤ := by simpa [allows] using hallow
    rw [isAllowed_of_ne_nil hold] at hallowed
    exact Bool.le_iff_imp.mp (le_verdict_insert hr) hallowed

def guest : NodeInfo := { tags := some ["guests"] }

def everybody : Rule := {}

def guests (action : Option String) : Rule := { source := some "group:guests", action }

/-- A rule against guests before a rule for everybody, and a rule for guests after it. -/
theorem isAllowed_insert_guests :
    isAllowed ([] ++ guests (some "deny") :: [everybody]) ⟨{}, {}, none, "tcp"⟩ = true ∧
    isAllowed ([] ++ [everybody]) ⟨{}, {}, none, "tcp"⟩ = true ∧
    isAllowed ([everybody] ++ guests none :: []) ⟨guest, {}, none, "tcp"⟩ = true := by
  have hdeny : isAllowed ([] ++ guests (some "deny") :: [everybody]) ⟨{}, {}, none, "tcp"⟩ = true :=
    by decide
  exact ⟨hdeny, (isAllowed_insert _ _ _ _).1 ⟨"deny", rfl, by decide⟩ hdeny,
    (isAllowed_insert [everybody] [] (guests none) _).2 rfl (by decide) (by decide)⟩

/-- The default denies what the first rule of all does not match, so a rule that allows does not
raise the verdict of no rules. -/
example : isAllowed [] ⟨{}, {}, none, "tcp"⟩ = true ∧
    isAllowed [{ source := some "group:ops" }] ⟨{}, {}, none, "tcp"⟩ = false := by decide

theorem matchRule_iff : matchRule rule a = true ↔
    matchNodeSelector (rule.source.getD "*") a.srcNode = true ∧
    matchNodeSelector (rule.destination.getD "*") a.dstNode = true ∧
    (∀ port, a.port = some port → rule.ports.getD [] = [] ∨ port ∈ rule.ports.getD []) ∧
    (rule.protocols.getD [] = [] ∨ a.protocol ∈ rule.protocols.getD []) := by
  have hports : (¬ (rule.ports.getD [] ≠ [] ∧
      (a.port.any fun port => port ∉ rule.ports.getD []) = true)) ↔
      ∀ port, a.port = some port → rule.ports.getD [] = [] ∨ port ∈ rule.ports.getD [] := by
    cases a.port <;> simp [or_iff_not_imp_left]
  rw [← hports]
  unfold matchRule
  by_cases hsrc : matchNodeSelector (rule.source.getD "*") a.srcNode = true
  · by_cases hdst : matchNodeSelector (rule.destination.getD "*") a.dstNode = true
    · by_cases hp : rule.ports.getD [] ≠ [] ∧
        (a.port.any fun port => port ∉ rule.ports.getD []) = true
      · simp only [hsrc, hdst, hp]
        simp
      · simp only [hsrc, hdst, hp]
        simp [or_iff_not_imp_left]
    · simp [hsrc, hdst]
  · simp [hsrc]

/-- `port` is among the ports of the first rule that matches `a`, unless that rule has no ports or
no rule matches. -/
def Witnesses (rules : List Rule) (a : Attempt) (port : Int) : Prop :=
  ∀ rule, rules.find? (fun rule => matchRule rule a) = some rule →
    rule.ports.getD [] = [] ∨ port ∈ rule.ports.getD []

theorem exists_witnesses (rules : List Rule) (a : Attempt) : ∃ port, Witnesses rules a port := by
  cases hf : rules.find? fun rule => matchRule rule a with
  | none => exact ⟨0, fun rule hr => by rw [hf] at hr; cases hr⟩
  | some first =>
    have hfirst : ∀ rule, rules.find? (fun rule => matchRule rule a) = some rule →
        rule = first := by
      intro rule hr
      exact Option.some.inj (hr.symm.trans hf)
    cases hp : first.ports.getD [] with
    | nil => exact ⟨0, fun rule hr => Or.inl (by rw [hfirst rule hr, hp])⟩
    | cons port ports => exact ⟨port, fun rule hr => Or.inr (by simp [hfirst rule hr, hp])⟩

/-- A query without a port is answered like the query for any port of the rule that decides it:
no earlier rule matches that port, since without a port it would have matched too. -/
theorem isAllowed_portless (rules : List Rule) (srcNode dstNode : NodeInfo) (protocol : String) :
    (∃ port, isAllowed rules ⟨srcNode, dstNode, some port, protocol⟩ =
      isAllowed rules ⟨srcNode, dstNode, none, protocol⟩) ∧
    ∀ port, Witnesses rules ⟨srcNode, dstNode, none, protocol⟩ port →
      isAllowed rules ⟨srcNode, dstNode, some port, protocol⟩ =
        isAllowed rules ⟨srcNode, dstNode, none, protocol⟩ := by
  have hall : ∀ port, Witnesses rules ⟨srcNode, dstNode, none, protocol⟩ port →
      isAllowed rules ⟨srcNode, dstNode, some port, protocol⟩ =
        isAllowed rules ⟨srcNode, dstNode, none, protocol⟩ := by
    intro port hw
    by_cases hne : rules = []
    · rw [isAllowed, isAllowed, if_pos hne, if_pos hne]
    · rw [isAllowed_of_ne_nil hne, isAllowed_of_ne_nil hne]
      apply verdict_narrow
      · intro rule _ hm
        obtain ⟨hsrc, hdst, -, hproto⟩ := matchRule_iff.mp hm
        exact matchRule_iff.mpr ⟨hsrc, hdst, nofun, hproto⟩
      · intro rule hr
        obtain ⟨hsrc, hdst, -, hproto⟩ := matchRule_iff.mp (by simpa using List.find?_some hr)
        refine matchRule_iff.mpr ⟨hsrc, hdst, ?_, hproto⟩
        intro port' hport
        obtain rfl := Option.some.inj hport
        exact hw rule hr
  obtain ⟨port, hw⟩ := exists_witnesses rules ⟨srcNode, dstNode, none, protocol⟩
  exact ⟨⟨port, hall port hw⟩, hall⟩

/-- Without a port the second rule decides, and it does so for 443 and not for 80. -/
theorem isAllowed_portless_https :
    let rules : List Rule := [{ source := some "group:ops", ports := some [443] },
      { ports := some [443], action := some "deny" }, { ports := some [80] }]
    isAllowed rules ⟨{}, {}, some 443, "tcp"⟩ = isAllowed rules ⟨{}, {}, none, "tcp"⟩ ∧
    isAllowed rules ⟨{}, {}, some 80, "tcp"⟩ ≠ isAllowed rules ⟨{}, {}, none, "tcp"⟩ :=
  ⟨(isAllowed_portless _ _ _ _).2 443 (fun rule hr => by
    obtain rfl := Option.some.inj hr
    exact Or.inr (by decide)), by decide⟩

end ACLEngine

end PyMesh
