import Mathlib.Data.List.Induction
import Mathlib.Data.Set.Basic
import Mathlib.Tactic.Tauto

/-! Members that hold items, where an item has one holder at most: who is given an item takes
it from whoever held it. -/

/-- A set of members, and for each item the member that holds it. -/
structure Holdings (κ π : Type) where
  member : κ → Bool
  holder : π → Option κ
  holder_member : ∀ {a k}, holder a = some k → member k = true

namespace Holdings

variable {κ π : Type} [DecidableEq κ] [DecidableEq π] {h : Holdings κ π} {k k' : κ} {a : π}
  {l : List π} {xs : List (κ × List π)}

def empty : Holdings κ π where
  member _ := false
  holder _ := none
  holder_member h := nomatch h

/-- `k` becomes a member and holds the items of `l` and no others. -/
def assign (h : Holdings κ π) (k : κ) (l : List π) : Holdings κ π where
  member k' := decide (k' = k) || h.member k'
  holder a := if a ∈ l then some k else (h.holder a).filter (· ≠ k)
  holder_member {a k'} ha := by
    split at ha
    · simp [Option.some.inj ha]
    · simp [h.holder_member (Option.eq_some_of_filter_eq_some ha)]

/-- One assignment after the other. -/
def assignAll (h : Holdings κ π) (xs : List (κ × List π)) : Holdings κ π :=
  xs.foldl (fun h x => h.assign x.1 x.2) h

/-- `k` is no member any more. -/
def remove (h : Holdings κ π) (k : κ) : Holdings κ π where
  member k' := h.member k' && decide (k' ≠ k)
  holder a := (h.holder a).filter (· ≠ k)
  holder_member {a k'} ha := by
    obtain ⟨hold, hne⟩ := Option.filter_eq_some_iff.mp ha
    simp [h.holder_member hold, of_decide_eq_true hne]

/-- The members, each with the items it holds. -/
def view (h : Holdings κ π) : Set (κ × Set π) :=
  {x | h.member x.1 = true ∧ x.2 = {a | h.holder a = some x.1}}

/-- The assignments read as a view. -/
def stated (xs : List (κ × List π)) : Set (κ × Set π) :=
  {x | ∃ y ∈ xs, x = (y.1, {a | a ∈ y.2})}

/-- No item is assigned to two members, and no member is assigned two sets of items. -/
def Consistent (xs : List (κ × List π)) : Prop :=
  ∀ y ∈ xs, ∀ z ∈ xs, ∀ a ∈ y.2, a ∈ z.2 ↔ y.1 = z.1

instance : Decidable (Consistent xs) :=
  inferInstanceAs (Decidable (∀ y ∈ xs, ∀ z ∈ xs, ∀ a ∈ y.2, a ∈ z.2 ↔ y.1 = z.1))

theorem member_assign : (h.assign k l).member k' = true ↔ k' = k ∨ h.member k' = true := by
  simp [assign]

theorem holder_assign : (h.assign k l).holder a = some k' ↔
    (a ∈ l ∧ k = k') ∨ (a ∉ l ∧ h.holder a = some k' ∧ k' ≠ k) := by
  by_cases ha : a ∈ l
  · simp [assign, ha]
  · simp [assign, ha, Option.filter_eq_some_iff]

theorem assignAll_concat (h : Holdings κ π) (xs : List (κ × List π)) (y : κ × List π) :
    h.assignAll (xs ++ [y]) = (h.assignAll xs).assign y.1 y.2 := by
  simp [assignAll]

/-- No assignment removes a member. -/
theorem member_assignAll : (h.assignAll xs).member k = true ↔
    k ∈ xs.map Prod.fst ∨ h.member k = true := by
  induction xs using List.reverseRecOn with
  | nil => simp [assignAll]
  | append_singleton xs y ih =>
    rw [assignAll_concat, member_assign, ih, List.map_append, List.mem_append]
    simp only [List.map_cons, List.map_nil, List.mem_singleton]
    tauto

/-- When the assignments do not compete, an item belongs to the member that it is assigned
to, or else to the old holder if that one is not assigned anything. -/
theorem holder_assignAll (hc : Consistent xs) : (h.assignAll xs).holder a = some k ↔
    (∃ y ∈ xs, y.1 = k ∧ a ∈ y.2) ∨
      (h.holder a = some k ∧ ∀ y ∈ xs, a ∉ y.2 ∧ y.1 ≠ k) := by
  induction xs using List.reverseRecOn with
  | nil => simp [assignAll]
  | append_singleton xs y ih =>
    have hxs : Consistent xs := fun u hu v hv =>
      hc u (List.mem_append_left _ hu) v (List.mem_append_left _ hv)
    have hy : ∀ u ∈ xs, a ∈ u.2 → (a ∈ y.2 ↔ u.1 = y.1) := fun u hu hau =>
      hc u (List.mem_append_left _ hu) y (by simp) a hau
    rw [assignAll_concat, holder_assign, ih hxs]
    constructor
    · rintro (⟨ha, hk⟩ | ⟨ha, ⟨u, hu, hk, hau⟩ | ⟨hold, hnone⟩, hne⟩)
      · exact Or.inl ⟨y, by simp, hk, ha⟩
      · exact Or.inl ⟨u, List.mem_append_left _ hu, hk, hau⟩
      · refine Or.inr ⟨hold, fun u hu => ?_⟩
        rcases List.mem_append.mp hu with hu | hu
        · exact hnone u hu
        · rw [List.mem_singleton.mp hu]
          exact ⟨ha, hne.symm⟩
    · rintro (⟨u, hu, hk, hau⟩ | ⟨hold, hnone⟩)
      · rcases List.mem_append.mp hu with hu | hu
        · by_cases ha : a ∈ y.2
          · exact Or.inl ⟨ha, ((hy u hu hau).mp ha).symm.trans hk⟩
          · exact Or.inr ⟨ha, Or.inl ⟨u, hu, hk, hau⟩, fun hky =>
              ha ((hy u hu hau).mpr (hk.trans hky))⟩
        · rw [List.mem_singleton.mp hu] at hk hau
          exact Or.inl ⟨hau, hk⟩
      · obtain ⟨ha, hne⟩ := hnone y (by simp)
        exact Or.inr ⟨ha, Or.inr ⟨hold, fun u hu => hnone u (List.mem_append_left _ hu)⟩, hne.symm⟩

/-- Who is assigned items holds none but these. -/
theorem exists_of_holder_assignAll (hk : k ∈ xs.map Prod.fst)
    (ha : (h.assignAll xs).holder a = some k) : ∃ y ∈ xs, y.1 = k ∧ a ∈ y.2 := by
  induction xs using List.reverseRecOn with
  | nil => simp at hk
  | append_singleton xs y ih =>
    rw [assignAll_concat, holder_assign] at ha
    rcases ha with ⟨hay, hyk⟩ | ⟨-, hold, hne⟩
    · exact ⟨y, by simp, hyk, hay⟩
    · rw [List.map_append, List.mem_append] at hk
      have hk' : k ∈ xs.map Prod.fst := hk.resolve_right (by simpa using hne)
      obtain ⟨z, hz, hzk, haz⟩ := ih hk' hold
      exact ⟨z, List.mem_append_left _ hz, hzk, haz⟩

/-- An item that is assigned to one member and to no other is held by it, whoever held it
before. -/
theorem holder_assignAll_of_forall (hk : ∃ y ∈ xs, y.1 = k) (ha : ∀ y ∈ xs, a ∈ y.2 ↔ y.1 = k) :
    (h.assignAll xs).holder a = some k := by
  induction xs using List.reverseRecOn with
  | nil => simp at hk
  | append_singleton xs y ih =>
    rw [assignAll_concat, holder_assign]
    have hy := ha y (by simp)
    by_cases hyk : y.1 = k
    · exact Or.inl ⟨hy.mpr hyk, hyk⟩
    · obtain ⟨z, hz, hzk⟩ := hk
      have hz' : z ∈ xs := by
        rcases List.mem_append.mp hz with hz | hz
        · exact hz
        · rw [List.mem_singleton.mp hz] at hzk
          exact (hyk hzk).elim
      have hold := ih ⟨z, hz', hzk⟩ fun u hu => ha u (List.mem_append_left _ hu)
      exact Or.inr ⟨fun hay => hyk (hy.mp hay), hold, fun he => hyk he.symm⟩

/-- What was assigned is what is held, exactly when nobody else was a member before and the
assignments do not compete. -/
theorem view_assignAll_iff : (h.assignAll xs).view = stated xs ↔
    (∀ k, h.member k = true → k ∈ xs.map Prod.fst) ∧ Consistent xs := by
  constructor
  · intro hv
    have hheld : ∀ y ∈ xs, {a | a ∈ y.2} = {a | (h.assignAll xs).holder a = some y.1} := by
      intro y hy
      have hmem : (y.1, {a | a ∈ y.2}) ∈ (h.assignAll xs).view := by
        rw [hv]
        exact ⟨y, hy, rfl⟩
      exact hmem.2
    refine ⟨fun k hk => ?_, fun y hy z hz a ha => ?_⟩
    · have hmem : (k, {a | (h.assignAll xs).holder a = some k}) ∈ (h.assignAll xs).view :=
        ⟨member_assignAll.mpr (Or.inr hk), rfl⟩
      rw [hv] at hmem
      obtain ⟨y, hy, he⟩ := hmem
      exact List.mem_map.mpr ⟨y, hy, (Prod.mk.inj he).1.symm⟩
    · have hya : (h.assignAll xs).holder a = some y.1 := (Set.ext_iff.mp (hheld y hy) a).mp ha
      have hza : a ∈ z.2 ↔ (h.assignAll xs).holder a = some z.1 := Set.ext_iff.mp (hheld z hz) a
      rw [hza, hya, Option.some.injEq]
  · rintro ⟨hold, hc⟩
    have hheld : ∀ y ∈ xs, {a | (h.assignAll xs).holder a = some y.1} = {a | a ∈ y.2} := by
      intro y hy
      ext a
      rw [Set.mem_ofPred_eq, holder_assignAll hc]
      constructor
      · rintro (⟨z, hz, hk, ha⟩ | ⟨-, hnone⟩)
        · exact (hc z hz y hy a ha).mpr hk
        · exact ((hnone y hy).2 rfl).elim
      · exact fun ha => Or.inl ⟨y, hy, rfl, ha⟩
    ext ⟨k, s⟩
    constructor
    · rintro ⟨hk, hs⟩
      obtain ⟨y, hy, rfl⟩ : ∃ y ∈ xs, y.1 = k := by
        rcases member_assignAll.mp hk with hk | hk
        · exact List.mem_map.mp hk
        · exact List.mem_map.mp (hold k hk)
      exact ⟨y, hy, Prod.ext rfl (hs.trans (hheld y hy))⟩
    · rintro ⟨y, hy, he⟩
      obtain ⟨rfl, rfl⟩ := Prod.mk.inj he
      exact ⟨member_assignAll.mpr (Or.inl (List.mem_map_of_mem hy)), (hheld y hy).symm⟩

end Holdings
