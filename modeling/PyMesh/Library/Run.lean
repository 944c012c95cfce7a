import Mathlib.Logic.Basic

/-! Finite runs of a labelled step relation, and runs whose steps meet a guard. -/
namespace LTS

variable {S L : Type} {step step' : S → L → S → Prop} {G : S → L → Prop} {I : S → Prop}
  {s t u : S} {l : L} {ls ls' : List L}

/-- A run from `s`, with its labels in the order in which they are taken. -/
inductive Run (step : S → L → S → Prop) (s : S) : List L → S → Prop
  | refl : Run step s [] s
  | tail {ls : List L} {t : S} {l : L} {u : S} : Run step s ls t → step t l u → Run step s (ls ++ [l]) u

/-- The steps that are taken from a state in which `G` allows their label. -/
def Guarded (step : S → L → S → Prop) (G : S → L → Prop) (s : S) (l : L) (t : S) : Prop :=
  G s l ∧ step s l t

theorem Run.single (h : step s l t) : Run step s [l] t :=
  Run.tail .refl h

theorem Run.append (h : Run step s ls t) (h' : Run step t ls' u) : Run step s (ls ++ ls') u := by
  induction h' with
  | refl => simpa using h
  | tail _ hs ih => simpa only [← List.append_assoc] using Run.tail ih hs

theorem Run.mono (h : Run step s ls t) (hs : ∀ a l b, step a l b → step' a l b) :
    Run step' s ls t := by
  induction h with
  | refl => exact .refl
  | tail _ h ih => exact .tail ih (hs _ _ _ h)

theorem Run.of_guarded (h : Run (Guarded step G) s ls t) : Run step s ls t :=
  h.mono fun _ _ _ h => h.2

/-- What holds at the start and is kept by every step holds at the end. -/
theorem Run.invariant (h : Run step s ls t) (h0 : I s)
    (hs : ∀ a l b, I a → step a l b → I b) : I t := by
  induction h with
  | refl => exact h0
  | tail _ h ih => exact hs _ _ _ ih h

/-- A step may use what is known of its source from an invariant already proved. -/
theorem Run.guarded_of_invariant (h : Run step s ls t) (h0 : I s)
    (hs : ∀ a l b, I a → step a l b → I b) : Run (Guarded step fun a _ => I a) s ls t := by
  induction h with
  | refl => exact .refl
  | tail h hl ih => exact .tail ih ⟨h.invariant h0 hs, hl⟩

theorem eq_of_run_nil (h : Run step s [] t) : t = s := by
  generalize he : ([] : List L) = ks at h
  cases h with
  | refl => rfl
  | tail => simp at he

theorem run_concat_iff : Run step s (ls ++ [l]) u ↔ ∃ t, Run step s ls t ∧ step t l u := by
  constructor
  · intro h
    generalize he : ls ++ [l] = ks at h
    cases h with
    | refl => simp at he
    | tail h hl =>
      obtain ⟨rfl, hll⟩ := List.append_inj' he rfl
      obtain rfl : l = _ := by simpa using hll
      exact ⟨_, h, hl⟩
  · rintro ⟨t, h, hl⟩
    exact .tail h hl

theorem run_append_iff :
    Run step s (ls ++ ls') u ↔ ∃ t, Run step s ls t ∧ Run step t ls' u := by
  constructor
  · intro h
    generalize he : ls ++ ls' = ks at h
    induction h generalizing ls' with
    | refl =>
      obtain ⟨rfl, rfl⟩ := List.append_eq_nil_iff.mp he
      exact ⟨s, .refl, .refl⟩
    | @tail ks t l u hr hs ih =>
      rcases List.eq_nil_or_concat ls' with rfl | ⟨ms, m, rfl⟩
      · rw [List.append_nil] at he
        exact ⟨u, he ▸ .tail hr hs, .refl⟩
      · rw [List.concat_eq_append, ← List.append_assoc] at he
        obtain ⟨he, hm⟩ := List.append_inj' he rfl
        obtain ⟨v, hv, hms⟩ := ih he
        obtain rfl : m = l := by simpa using hm
        exact ⟨v, hv, by simpa using Run.tail hms hs⟩
  · rintro ⟨t, h, h'⟩
    exact h.append h'

/-- When the labels determine the steps, they determine the run. -/
theorem Run.det (hdet : ∀ a l b b', step a l b → step a l b' → b = b') (h : Run step s ls t)
    (h' : Run step s ls u) : t = u := by
  induction h generalizing u with
  | refl => exact (eq_of_run_nil h').symm
  | tail _ hl ih =>
    obtain ⟨v, hv, hl'⟩ := run_concat_iff.mp h'
    rw [ih hv] at hl
    exact hdet _ _ _ _ hl hl'

/-- A run of deterministic steps is guarded up to its last step, and that step is. -/
theorem guarded_concat_iff (hdet : ∀ a l b b', step a l b → step a l b' → b = b')
    (h : Run step s ls t) (hl : step t l u) :
    Run (Guarded step G) s (ls ++ [l]) u ↔ Run (Guarded step G) s ls t ∧ G t l := by
  constructor
  · intro hg
    obtain ⟨v, hv, hgl, -⟩ := run_concat_iff.mp hg
    obtain rfl := h.det hdet hv.of_guarded
    exact ⟨hv, hgl⟩
  · rintro ⟨hv, hgl⟩
    exact .tail hv ⟨hgl, hl⟩

/-- The run of a step function along a list of labels. -/
theorem run_of_foldlM {f : S → L → Option S} (h : ls.foldlM f s = some t) :
    Run (fun s l t => f s l = some t) s ls t := by
  induction ls generalizing s with
  | nil =>
    obtain rfl := Option.some.inj h
    exact .refl
  | cons l ls ih =>
    rw [List.foldlM_cons] at h
    obtain ⟨u, hu, ht⟩ := Option.bind_eq_some_iff.mp h
    have hhead : Run (fun s l t => f s l = some t) s [l] u := Run.single hu
    exact hhead.append (ih ht)

end LTS
