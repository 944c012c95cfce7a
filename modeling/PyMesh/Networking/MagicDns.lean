import PyMesh.Library.Dict
import PyMesh.Networking.Hosts

/-! `MagicDNSServer`: the records that the daemon answers from. -/
namespace PyMesh.MagicDNSServer

open Text HostsManager

/-- Whether the registry's names are made to point at a record. -/
def isController (rt : Runtime) (r : String × String) : Bool :=
  rt.lower r.1 = "controller" || endsWith r.2 ".1"

/-- The assignments made for a record and one TLD. -/
def tldRecords (rt : Runtime) (r : String × String) (tld : String) : List (String × String) :=
  let tldClean := rt.lower (lstrip (· = '.') tld)
  (qualified (rt.lower r.1) tldClean, r.2) ::
    if isController rt r then [(qualified "registry" tldClean, r.2)] else []

/-- The assignments made for a record. -/
def recordEntries (rt : Runtime) (tldList : List String) (r : String × String) :
    List (String × String) :=
  (rt.lower r.1, r.2) :: tldList.flatMap (tldRecords rt r)

/-- `active_tlds or ["mesh", "cr"]` -/
def tldsOr (activeTlds : Option (List String)) : List String :=
  (activeTlds.filter (· ≠ [])).getD ["mesh", "cr"]

/-- The records after an update, which clears the ones before. -/
def updateRecords (rt : Runtime) (newRecords : List (String × String))
    (activeTlds : Option (List String)) : Dict String String :=
  newRecords.foldl (fun records r => records.setAll (recordEntries rt (tldsOr activeTlds) r))
    Dict.empty

variable {rt : Runtime} {tldList : List String} {r : String × String} {name ip : String}
  {newRecords : List (String × String)} {activeTlds : Option (List String)}

/-- The names that are assigned for a record. -/
def Assigned (rt : Runtime) (tldList : List String) (r : String × String) (name : String) : Prop :=
  name ∈ domainsOf rt (tldList.map fun t => rt.lower (lstrip (· = '.') t)) r.1 ∨
    (isController rt r = true ∧
      ∃ tld ∈ tldList, name = qualified "registry" (rt.lower (lstrip (· = '.') tld)))

theorem mem_recordEntries : (name, ip) ∈ recordEntries rt tldList r ↔
    ip = r.2 ∧ Assigned rt tldList r name := by
  have htld : ∀ tld, (name, ip) ∈ tldRecords rt r tld ↔ ip = r.2 ∧
      (name = qualified (rt.lower r.1) (rt.lower (lstrip (· = '.') tld)) ∨
        (isController rt r = true ∧
          name = qualified "registry" (rt.lower (lstrip (· = '.') tld)))) := by
    intro tld
    by_cases hc : isController rt r = true
    · simp only [tldRecords, hc, if_true, List.mem_cons, Prod.mk.injEq, List.not_mem_nil,
        or_false, true_and]
      rw [← or_and_right, and_comm]
    · simp [tldRecords, hc, and_comm]
  simp only [recordEntries, List.mem_cons, List.mem_flatMap, htld, Assigned, domainsOf,
    List.mem_map, exists_exists_and_eq_and, Prod.mk.injEq]
  constructor
  · rintro (⟨hn, hi⟩ | ⟨tld, ht, hi, hn | ⟨hc, hn⟩⟩)
    · exact ⟨hi, Or.inl (Or.inl hn)⟩
    · exact ⟨hi, Or.inl (Or.inr ⟨tld, ht, hn.symm⟩)⟩
    · exact ⟨hi, Or.inr ⟨hc, tld, ht, hn⟩⟩
  · rintro ⟨hi, (hn | ⟨tld, ht, hn⟩) | ⟨hc, tld, ht, hn⟩⟩
    · exact Or.inl ⟨hn, hi⟩
    · exact Or.inr ⟨tld, ht, hi, Or.inl hn.symm⟩
    · exact Or.inr ⟨tld, ht, hi, Or.inr ⟨hc, hn⟩⟩

theorem updateRecords_eq : updateRecords rt newRecords activeTlds = Dict.ofList
    (newRecords.flatMap (recordEntries rt (tldsOr activeTlds))) := by
  rw [updateRecords]
  induction newRecords using List.reverseRecOn with
  | nil => rfl
  | append_singleton records r ih =>
    simp only [List.foldl_concat, List.flatMap_append, Dict.ofList, Dict.setAll_append] at ih ⊢
    rw [ih]
    simp

/-- A name is answered with the IP of the last record that it is assigned for. -/
theorem updateRecords_eq_some_iff : updateRecords rt newRecords activeTlds name = some ip ↔
    ∃ pre r post, newRecords = pre ++ r :: post ∧ ip = r.2 ∧
      Assigned rt (tldsOr activeTlds) r name ∧
        ∀ r' ∈ post, ¬ Assigned rt (tldsOr activeTlds) r' name := by
  generalize htl : tldsOr activeTlds = tldList
  have hnone : ∀ r, Dict.ofList (recordEntries rt tldList r) name = none ↔
      ¬ Assigned rt tldList r name := by
    intro r
    rw [Dict.ofList_eq_none_iff, not_iff_not, List.mem_map]
    constructor
    · rintro ⟨⟨_, ip⟩, hm, rfl⟩
      exact (mem_recordEntries.mp hm).2
    · intro ha
      exact ⟨(name, r.2), mem_recordEntries.mpr ⟨rfl, ha⟩, rfl⟩
  have hsome : ∀ r, Dict.ofList (recordEntries rt tldList r) name = some ip ↔
      ip = r.2 ∧ Assigned rt tldList r name := by
    intro r
    constructor
    · intro h
      exact mem_recordEntries.mp (Dict.mem_of_ofList h)
    · rintro ⟨rfl, ha⟩
      cases h : Dict.ofList (recordEntries rt tldList r) name with
      | none => exact ((hnone r).mp h ha).elim
      | some ip => rw [(mem_recordEntries.mp (Dict.mem_of_ofList h)).1]
  rw [updateRecords_eq, htl, Dict.ofList_flatMap_eq_some_iff]
  simp only [hnone, hsome, and_assoc]

theorem updateRecords_ne_none_iff : updateRecords rt newRecords activeTlds name ≠ none ↔
    ∃ r ∈ newRecords, Assigned rt (tldsOr activeTlds) r name := by
  rw [updateRecords_eq, ne_eq, Dict.ofList_eq_none_iff, not_not, List.map_flatMap]
  simp only [List.mem_flatMap, List.mem_map, Prod.exists, exists_and_right, exists_eq_right,
    mem_recordEntries, exists_eq, true_and]

end PyMesh.MagicDNSServer
