import Mathlib.Data.List.Basic

/-! Steps that are taken one after the other until one fails. What the steps before it have done
is not undone. -/
namespace FailStop

variable {σ α : Type} {step : σ → α → Option σ} {s t u : σ} {a : α} {l pre post : List α}

/-- Whether all steps were taken, and the state after the last one that was. -/
def run (step : σ → α → Option σ) : List α → σ → Bool × σ
  | [], s => (true, s)
  | a :: l, s => match step s a with
    | none => (false, s)
    | some t => run step l t

/-- All the steps of `l` succeed from `s`, and lead to `t`. -/
inductive Taken (step : σ → α → Option σ) : σ → List α → σ → Prop
  | nil {s : σ} : Taken step s [] s
  | cons {s t u : σ} {a : α} {l : List α} : step s a = some t → Taken step t l u →
      Taken step s (a :: l) u

theorem taken_cons_iff : Taken step s (a :: l) u ↔ ∃ t, step s a = some t ∧ Taken step t l u := by
  constructor
  · intro h
    cases h with
    | cons hs ht => exact ⟨_, hs, ht⟩
  · rintro ⟨t, hs, ht⟩
    exact .cons hs ht

theorem run_cons_of_some (h : step s a = some t) : run step (a :: l) s = run step l t := by
  rw [run, h]

theorem run_cons_of_none (h : step s a = none) : run step (a :: l) s = (false, s) := by
  rw [run, h]

theorem run_map {β : Type} (g : β → α) (l : List β) (s : σ) :
    run step (l.map g) s = run (fun s b => step s (g b)) l s := by
  induction l generalizing s with
  | nil => rfl
  | cons b l ih =>
    rw [List.map_cons, run, run]
    cases step s (g b) with
    | none => rfl
    | some t => exact ih t

theorem run_eq_true_iff : run step l s = (true, t) ↔ Taken step s l t := by
  induction l generalizing s with
  | nil =>
    constructor
    · intro h
      obtain rfl := (Prod.mk.inj h).2
      exact .nil
    · intro h
      cases h
      rfl
  | cons a l ih =>
    rw [taken_cons_iff]
    cases hs : step s a with
    | none => simp [run_cons_of_none hs]
    | some u => simp [run_cons_of_some hs, ih]

/-- The run stops at the first step that fails. -/
theorem run_eq_false_iff : run step l s = (false, t) ↔
    ∃ pre a post, l = pre ++ a :: post ∧ Taken step s pre t ∧ step t a = none := by
  induction l generalizing s with
  | nil => simp [run]
  | cons b l ih =>
    cases hs : step s b with
    | none =>
      rw [run_cons_of_none hs]
      constructor
      · intro h
        obtain rfl := (Prod.mk.inj h).2
        exact ⟨[], b, l, rfl, .nil, hs⟩
      · rintro ⟨pre, a, post, hl, ht, -⟩
        cases ht with
        | nil => rfl
        | cons hc _ =>
          obtain ⟨rfl, -⟩ := List.cons.inj hl
          rw [hs] at hc
          cases hc
    | some u =>
      rw [run_cons_of_some hs, ih]
      constructor
      · rintro ⟨pre, a, post, rfl, ht, ha⟩
        exact ⟨b :: pre, a, post, rfl, .cons hs ht, ha⟩
      · rintro ⟨pre, a, post, hl, ht, ha⟩
        cases ht with
        | nil =>
          obtain ⟨rfl, -⟩ := List.cons.inj hl
          rw [hs] at ha
          cases ha
        | cons hc ht =>
          obtain ⟨rfl, rfl⟩ := List.cons.inj hl
          rw [hs] at hc
          obtain rfl := Option.some.inj hc
          exact ⟨_, a, post, rfl, ht, ha⟩

/-- Steps of which it is known beforehand whether they fail: those before the first that does are
taken. -/
theorem run_of_static {bad : α → Bool} {f : σ → α → σ}
    (h : ∀ s, ∀ a ∈ l, step s a = if bad a then none else some (f s a)) :
    run step l s = (l.all fun a => !bad a, (l.takeWhile fun a => !bad a).foldl f s) := by
  induction l generalizing s with
  | nil => rfl
  | cons a l ih =>
    have hs := h s a List.mem_cons_self
    by_cases hb : bad a = true
    · rw [if_pos hb] at hs
      simp [run_cons_of_none hs, hb]
    · rw [if_neg hb] at hs
      rw [run_cons_of_some hs, ih fun s b hmem => h s b (List.mem_cons_of_mem a hmem)]
      simp [hb]

end FailStop
