import Mathlib.Data.List.Induction
import Mathlib.Logic.Function.Basic

/-! Dictionaries as partial functions, and sequences of assignments to their keys. -/

abbrev Dict (κ α : Type) := κ → Option α

namespace Dict

variable {κ α β : Type} [DecidableEq κ] {d : Dict κ α} {l l' : List (κ × α)} {k : κ} {a : α}

def empty : Dict κ α := fun _ => none

/-- `d[k] = a` -/
def set (d : Dict κ α) (k : κ) (a : α) : Dict κ α := Function.update d k (some a)

/-- One assignment after the other. -/
def setAll (d : Dict κ α) (l : List (κ × α)) : Dict κ α :=
  l.foldl (fun d x => d.set x.1 x.2) d

/-- What a sequence of assignments makes of the empty dictionary. -/
def ofList (l : List (κ × α)) : Dict κ α := empty.setAll l

theorem setAll_append (d : Dict κ α) (l l' : List (κ × α)) :
    d.setAll (l ++ l') = (d.setAll l).setAll l' := by
  simp [setAll]

/-- The last assignment to a key counts, and where there is none the old value. -/
theorem setAll_apply (d : Dict κ α) (l : List (κ × α)) (k : κ) :
    d.setAll l k = (ofList l k).or (d k) := by
  induction l using List.reverseRecOn with
  | nil => rfl
  | append_singleton l x ih =>
    simp only [ofList, setAll_append] at ih ⊢
    by_cases hk : k = x.1
    · simp [setAll, set, hk]
    · simpa [setAll, set, hk] using ih

theorem ofList_append (l l' : List (κ × α)) (k : κ) :
    ofList (l ++ l') k = (ofList l' k).or (ofList l k) := by
  have h := setAll_apply (empty.setAll l) l' k
  rwa [← setAll_append] at h

theorem ofList_cons (x : κ × α) (l : List (κ × α)) (k : κ) :
    ofList (x :: l) k = (ofList l k).or (if k = x.1 then some x.2 else none) := by
  have h := ofList_append [x] l k
  by_cases hk : k = x.1
  · simpa [ofList, setAll, set, empty, hk] using h
  · simpa [ofList, setAll, set, empty, hk] using h

theorem mem_of_ofList (h : ofList l k = some a) : (k, a) ∈ l := by
  induction l with
  | nil => cases h
  | cons x l ih =>
    rw [ofList_cons] at h
    rcases Option.or_eq_some_iff.mp h with hl | ⟨-, hx⟩
    · exact List.mem_cons_of_mem x (ih hl)
    · split at hx
      next hk =>
        cases hx
        rw [hk]
        exact List.mem_cons_self
      next => cases hx

theorem ofList_eq_none_iff : ofList l k = none ↔ k ∉ l.map Prod.fst := by
  induction l with
  | nil => simp [ofList, setAll, empty]
  | cons x l ih =>
    rw [ofList_cons, Option.or_eq_none_iff, ih]
    simp [and_comm]

/-- Assignments in batches: the last batch that has the key counts. -/
theorem ofList_flatMap_eq_some_iff {f : β → List (κ × α)} {bs : List β} :
    ofList (bs.flatMap f) k = some a ↔ ∃ pre b post, bs = pre ++ b :: post ∧
      ofList (f b) k = some a ∧ ∀ c ∈ post, ofList (f c) k = none := by
  induction bs with
  | nil => simp [ofList, setAll, empty]
  | cons b bs ih =>
    rw [List.flatMap_cons, ofList_append, Option.or_eq_some_iff, ih]
    constructor
    · rintro (⟨pre, c, post, rfl, hc, hpost⟩ | ⟨hnone, hb⟩)
      · exact ⟨b :: pre, c, post, rfl, hc, hpost⟩
      · refine ⟨[], b, bs, rfl, hb, ?_⟩
        intro c hc
        rw [ofList_eq_none_iff] at hnone ⊢
        intro hk
        apply hnone
        rw [List.map_flatMap]
        exact List.mem_flatMap_of_mem hc hk
    · rintro ⟨pre, c, post, he, hc, hpost⟩
      cases pre with
      | nil =>
        cases he
        refine Or.inr ⟨?_, hc⟩
        rw [ofList_eq_none_iff, List.map_flatMap]
        intro hk
        obtain ⟨c, hm, hk⟩ := List.mem_flatMap.mp hk
        exact ofList_eq_none_iff.mp (hpost c hm) hk
      | cons x pre =>
        cases he
        exact Or.inl ⟨pre, c, post, rfl, hc, hpost⟩

end Dict
