import Mathlib.Data.List.Basic
import PyMesh.Library.Run

/-! Copies of one system that are started one after the other and take their steps in any order. -/
namespace LTS

variable {S L : Type}

inductive CopyLabel (L : Type) where
  | start
  | move (i : Nat) (l : L)

inductive CopyStep (step : S → L → S → Prop) (init : S) (copies : List S) :
    CopyLabel L → List S → Prop
  | start : CopyStep step init copies .start (copies ++ [init])
  | move {i : Nat} {s s' : S} {l : L} (hi : copies[i]? = some s) (hs : step s l s') :
      CopyStep step init copies (.move i l) (copies.set i s')

def CopyLabel.labelOf (i : Nat) : CopyLabel L → Option L
  | .start => none
  | .move j l => if j = i then some l else none

/-- The labels of the steps that copy `i` has taken. -/
def labelsOf (i : Nat) (ls : List (CopyLabel L)) : List L := ls.filterMap (CopyLabel.labelOf i)

/-- A step of any copy that has such a label. -/
def CopyLabel.movedBy (q : L → Bool) : CopyLabel L → Bool
  | .start => false
  | .move _ l => q l

variable {step : S → L → S → Prop} {init s : S} {copies copies' : List S} {i : Nat}
  {ls : List (CopyLabel L)} {p : S → Bool} {q : L → Bool}

theorem run_or_unstarted (h : Run (CopyStep step init) [] ls copies) (i : Nat) :
    (∀ s, copies[i]? = some s → Run step init (labelsOf i ls) s) ∧
      (copies[i]? = none → labelsOf i ls = []) := by
  induction h with
  | refl => simp [labelsOf]
  | @tail ls copies l copies' _ hl ih =>
    obtain ⟨hrun, hnone⟩ := ih
    rw [labelsOf, List.filterMap_append]
    cases hl with
    | start =>
      have hsame : List.filterMap (CopyLabel.labelOf i) [(.start : CopyLabel L)] = [] := rfl
      rw [hsame, List.append_nil]
      refine ⟨fun s hs => ?_, fun hs => hnone ?_⟩
      · rcases Nat.lt_or_ge i copies.length with hi | hi
        · rw [List.getElem?_append_left hi] at hs
          exact hrun s hs
        · rw [List.getElem?_append_right hi, List.getElem?_singleton] at hs
          have hnil := hnone (List.getElem?_eq_none hi)
          rw [labelsOf] at hnil
          rw [hnil]
          split at hs
          · rw [← Option.some.inj hs]
            exact .refl
          · cases hs
      · rw [List.getElem?_eq_none_iff] at hs ⊢
        rw [List.length_append] at hs
        exact Nat.le_of_add_right_le hs
    | @move j s₀ s' k hj hs =>
      by_cases hij : j = i
      · subst hij
        have hlt := (List.getElem?_eq_some_iff.mp hj).1
        have hone : List.filterMap (CopyLabel.labelOf j) [.move j k] = [k] := by
          simp [CopyLabel.labelOf]
        rw [hone, List.getElem?_set_self hlt]
        refine ⟨fun s hs' => ?_, fun hs' => by cases hs'⟩
        rw [← Option.some.inj hs']
        exact .tail (hrun s₀ hj) hs
      · have hsame : List.filterMap (CopyLabel.labelOf i) [.move j k] = [] := by
          simp [CopyLabel.labelOf, hij]
        rw [hsame, List.append_nil, List.getElem?_set_ne hij]
        exact ⟨hrun, hnone⟩

/-- The steps of one copy are a run of the system. -/
theorem run_copy (h : Run (CopyStep step init) [] ls copies) (hi : copies[i]? = some s) :
    Run step init (labelsOf i ls) s :=
  (run_or_unstarted h i).1 s hi

/-- When a copy comes to have `p` by the steps with `q` only, and by each of them, as many copies
have it as such steps were taken. -/
theorem countP_run (h : Run (CopyStep step init) [] ls copies) (hinit : p init = false)
    (hs : ∀ ks s l s', Run step init ks s → step s l s' →
      (p s').toNat = (p s).toNat + (q l).toNat) :
    copies.countP p = ls.countP (CopyLabel.movedBy q) := by
  induction h with
  | refl => rfl
  | @tail ls copies l copies' hrun hl ih =>
    rw [List.countP_append, List.countP_singleton, ← ih]
    cases hl with
    | start => simp [CopyLabel.movedBy, hinit]
    | @move i s s' k hi hstep =>
      obtain ⟨hlt, rfl⟩ := List.getElem?_eq_some_iff.mp hi
      have hk := hs _ _ _ _ (run_copy hrun hi) hstep
      have hone : ∀ b : Bool, (if b = true then 1 else 0) = b.toNat := by decide
      have hcounted : (p copies[i]).toNat ≤ copies.countP p := by
        cases hp : p copies[i] with
        | false => exact Nat.zero_le _
        | true => exact List.countP_pos_iff.mpr ⟨_, List.getElem_mem hlt, hp⟩
      rw [List.countP_set hlt]
      simp only [hone]
      simp only [CopyLabel.movedBy]
      omega

end LTS
