import Mathlib.Data.List.Basic
import Mathlib.Order.BoundedOrder.Basic

/-! Ordered rule lists in which the first rule that covers a request decides. -/
namespace Policy

variable {ρ ε π α : Type}

/-- The effect of the first rule that covers `p`, or the default. -/
def verdict (covers : ρ → π → Bool) (effect : ρ → α) (dflt : α) (rules : List ρ) (p : π) : α :=
  match rules.find? fun r => covers r p with
  | some r => effect r
  | none => dflt

variable {covers : ρ → π → Bool} {effect : ρ → α} {dflt : α} {rules : List ρ} {p : π} {r : ρ}

@[simp] theorem verdict_nil : verdict covers effect dflt [] p = dflt := rfl

theorem verdict_cons : verdict covers effect dflt (r :: rules) p =
    if covers r p then effect r else verdict covers effect dflt rules p := by
  unfold verdict
  cases h : covers r p <;> simp [h]

theorem verdict_append {rules' : List ρ} : verdict covers effect dflt (rules ++ rules') p =
    verdict covers effect (verdict covers effect dflt rules' p) rules p := by
  induction rules with
  | nil => rfl
  | cons r rules ih => rw [List.cons_append, verdict_cons, verdict_cons, ih]

/-- Entries that all have the effect `a` decide with it if one of them covers the request. -/
theorem verdict_uniform {a : α} (h : ∀ r ∈ rules, effect r = a) :
    verdict covers effect dflt rules p = if rules.any fun r => covers r p then a else dflt := by
  induction rules with
  | nil => rfl
  | cons r rules ih =>
    rw [verdict_cons, ih fun r' hr' => h r' (List.mem_cons_of_mem _ hr'), List.any_cons,
      h r List.mem_cons_self]
    cases covers r p <;> simp

/-- A rule may be written as several entries with its effect. -/
theorem verdict_flatMap {expand : ρ → List ε} {covers' : ε → π → Bool} {effect' : ε → α}
    (h : ∀ r, ∀ e ∈ expand r, effect' e = effect r) :
    verdict covers' effect' dflt (rules.flatMap expand) p =
      verdict (fun r p => (expand r).any fun e => covers' e p) effect dflt rules p := by
  induction rules with
  | nil => rfl
  | cons r rules ih => rw [List.flatMap_cons, verdict_append, ih, verdict_uniform (h r), verdict_cons]

/-- All rules that cover the request have one effect. -/
def Uniform (covers : ρ → π → Bool) (effect : ρ → α) (rules : List ρ) (p : π) : Prop :=
  ∀ r ∈ rules, ∀ r' ∈ rules, covers r p = true → covers r' p = true → effect r = effect r'

instance [DecidableEq α] : Decidable (Uniform covers effect rules p) :=
  inferInstanceAs (Decidable (∀ r ∈ rules, ∀ r' ∈ rules, _))

/-- Where the effects do not differ, any rule that covers the request decides like the first. -/
theorem Uniform.verdict_eq (h : Uniform covers effect rules p) (hr : r ∈ rules)
    (hc : covers r p = true) : verdict covers effect dflt rules p = effect r := by
  unfold verdict
  cases hf : rules.find? fun r => covers r p with
  | none =>
    have hno := List.find?_eq_none.mp hf r hr
    exact (hno hc).elim
  | some r' =>
    have hc' : covers r' p = true := by simpa using List.find?_some hf
    exact h r' (List.mem_of_find?_eq_some hf) r hr hc' hc

/-- The order of the rules does not matter where the effects do not differ. -/
theorem Uniform.verdict_perm {rules' : List ρ} (h : Uniform covers effect rules p)
    (hp : rules'.Perm rules) :
    verdict covers effect dflt rules' p = verdict covers effect dflt rules p := by
  have h' : Uniform covers effect rules' p := by
    intro r hr r' hr'
    exact h r (hp.mem_iff.mp hr) r' (hp.mem_iff.mp hr')
  by_cases hex : ∃ r ∈ rules, covers r p = true
  · obtain ⟨r, hr, hc⟩ := hex
    rw [h.verdict_eq hr hc, h'.verdict_eq (hp.mem_iff.mpr hr) hc]
  · have hnone : ∀ r ∈ rules, ¬ covers r p = true := fun r hr hc => hex ⟨r, hr, hc⟩
    have hf : (rules.find? fun r => covers r p) = none := List.find?_eq_none.mpr hnone
    have hf' : (rules'.find? fun r => covers r p) = none :=
      List.find?_eq_none.mpr fun r hr => hnone r (hp.mem_iff.mp hr)
    rw [verdict, verdict, hf, hf']

/-- If no order of the rules changes the verdict, the effects do not differ: any rule that
covers the request can be the first. -/
theorem uniform_of_verdict_perm (h : ∀ rules', rules'.Perm rules →
    verdict covers effect dflt rules' p = verdict covers effect dflt rules p) :
    Uniform covers effect rules p := by
  have hfirst : ∀ r ∈ rules, covers r p = true → effect r = verdict covers effect dflt rules p := by
    intro r hr hc
    obtain ⟨pre, post, rfl⟩ := List.append_of_mem hr
    have hp : (r :: (pre ++ post)).Perm (pre ++ r :: post) := List.perm_middle.symm
    rw [← h _ hp, verdict_cons, if_pos hc]
  intro r hr r' hr' hc hc'
  rw [hfirst r hr hc, hfirst r' hr' hc']

/-- The verdict of the rules after a place counts only where no rule before it covers the
request. -/
theorem verdict_mono_default [Preorder α] {d d' : α} (h : d ≤ d') :
    verdict covers effect d rules p ≤ verdict covers effect d' rules p := by
  unfold verdict
  cases rules.find? fun r => covers r p with
  | none => exact h
  | some r => exact le_rfl

/-- A rule with the least effect lowers verdicts, wherever it is inserted. -/
theorem verdict_insert_le [PartialOrder α] [OrderBot α] {pre post : List ρ} (hr : effect r = ⊥) :
    verdict covers effect dflt (pre ++ r :: post) p ≤
      verdict covers effect dflt (pre ++ post) p := by
  rw [verdict_append, verdict_append]
  apply verdict_mono_default
  rw [verdict_cons]
  split
  · rw [hr]
    exact bot_le
  · exact le_rfl

/-- A rule with the greatest effect raises verdicts, wherever it is inserted. -/
theorem le_verdict_insert [PartialOrder α] [OrderTop α] {pre post : List ρ} (hr : effect r = ⊤) :
    verdict covers effect dflt (pre ++ post) p ≤
      verdict covers effect dflt (pre ++ r :: post) p := by
  rw [verdict_append, verdict_append]
  apply verdict_mono_default
  rw [verdict_cons]
  split
  · rw [hr]
    exact le_top
  · exact le_rfl

/-- A request that fewer rules cover has the verdict of one that more rules cover, if the rule
that decides about that one still covers it. -/
theorem verdict_narrow {q : π} (hsub : ∀ r ∈ rules, covers r p = true → covers r q = true)
    (hfirst : ∀ r, rules.find? (fun r => covers r q) = some r → covers r p = true) :
    verdict covers effect dflt rules p = verdict covers effect dflt rules q := by
  induction rules with
  | nil => rfl
  | cons r rules ih =>
    rw [verdict_cons, verdict_cons]
    by_cases hq : covers r q = true
    · have hp := hfirst r (List.find?_cons_of_pos hq)
      rw [if_pos hp, if_pos hq]
    · have hp : ¬ covers r p = true := fun hp => hq (hsub r List.mem_cons_self hp)
      rw [if_neg hp, if_neg hq]
      apply ih
      · exact fun r' hr' => hsub r' (List.mem_cons_of_mem r hr')
      · intro r' hr'
        apply hfirst r'
        simpa [hq] using hr'

section Readings

variable {π' : Type} {covers' : ρ → π' → Bool} {effect' : ρ → α} {p' : π'} {pre post : List ρ}
  {a : α}

/-- `r` is the first rule that covers the request in one of two readings of the rules, and `post`
are the rules after it. -/
def FirstInEither (covers : ρ → π → Bool) (covers' : ρ → π' → Bool) (rules : List ρ) (p : π)
    (p' : π') (r : ρ) (post : List ρ) : Prop :=
  ∃ pre, rules = pre ++ r :: post ∧ (∀ x ∈ pre, covers x p = false ∧ covers' x p' = false) ∧
    (covers r p = true ∨ covers' r p' = true)

/-- A reading that passes a rule over falls back to the effect of it: the next rule that it
applies has the same effect, or it applies none and the default is the same. -/
def FallsBack (covers : ρ → π → Bool) (effect : ρ → α) (dflt : α) (post : List ρ) (p : π)
    (a : α) : Prop :=
  (∀ r, post.find? (fun r => covers r p) = some r → effect r = a) ∧
    ((∀ r ∈ post, covers r p = false) → dflt = a)

theorem verdict_eq_iff_fallsBack :
    verdict covers effect dflt rules p = a ↔ FallsBack covers effect dflt rules p a := by
  unfold verdict FallsBack
  cases hf : rules.find? fun r => covers r p with
  | none =>
    have hno : ∀ r ∈ rules, covers r p = false := by simpa using hf
    simp only [reduceCtorEq, false_imp_iff, implies_true, true_and]
    exact ⟨fun h _ => h, fun h => h hno⟩
  | some r =>
    have hc : covers r p = true := by simpa using List.find?_some hf
    have hex : ¬ ∀ r ∈ rules, covers r p = false := by
      intro hno
      rw [hno r (List.mem_of_find?_eq_some hf)] at hc
      cases hc
    simp [hex]

theorem verdict_append_of_uncovered (h : ∀ r ∈ pre, covers r p = false) :
    verdict covers effect dflt (pre ++ rules) p = verdict covers effect dflt rules p := by
  have hf : (pre.find? fun r => covers r p) = none := by simpa using h
  rw [verdict_append]
  unfold verdict
  rw [hf]

theorem verdict_of_uncovered (h : ∀ r ∈ rules, covers r p = false) :
    verdict covers effect dflt rules p = dflt := by
  have hf : (rules.find? fun r => covers r p) = none := by simpa using h
  rw [verdict, hf]

/-- Either no rule covers the request in any of two readings, or some rule is the first. -/
theorem uncovered_or_firstInEither (covers : ρ → π → Bool) (covers' : ρ → π' → Bool)
    (rules : List ρ) (p : π) (p' : π') :
    (∀ r ∈ rules, covers r p = false ∧ covers' r p' = false) ∨
      ∃ r post, FirstInEither covers covers' rules p p' r post := by
  induction rules with
  | nil => exact Or.inl (by simp)
  | cons x rules ih =>
    by_cases hx : covers x p = true ∨ covers' x p' = true
    · exact Or.inr ⟨x, rules, [], rfl, by simp, hx⟩
    · have hno : covers x p = false ∧ covers' x p' = false := by simpa [not_or] using hx
      rcases ih with ih | ⟨r, post, pre, rfl, hpre, hr⟩
      · exact Or.inl (List.forall_mem_cons.mpr ⟨hno, ih⟩)
      · exact Or.inr ⟨r, post, x :: pre, rfl, List.forall_mem_cons.mpr ⟨hno, hpre⟩, hr⟩

theorem FirstInEither.verdict_eq_verdict_iff {r : ρ}
    (h : FirstInEither covers covers' rules p p' r post) :
    verdict covers effect dflt rules p = verdict covers' effect' dflt rules p' ↔
      covers r p = true ∧ covers' r p' = true ∧ effect r = effect' r ∨
        covers r p = true ∧ covers' r p' = false ∧
          FallsBack covers' effect' dflt post p' (effect r) ∨
        covers r p = false ∧ covers' r p' = true ∧
          FallsBack covers effect dflt post p (effect' r) := by
  obtain ⟨pre, rfl, hpre, hr⟩ := h
  rw [verdict_append_of_uncovered fun x hx => (hpre x hx).1,
    verdict_append_of_uncovered fun x hx => (hpre x hx).2, verdict_cons, verdict_cons,
    ← verdict_eq_iff_fallsBack, ← verdict_eq_iff_fallsBack]
  cases hc : covers r p with
  | true =>
    cases hc' : covers' r p' with
    | true => simp
    | false => simp [eq_comm]
  | false =>
    have hc' : covers' r p' = true := by simpa [hc] using hr
    simp [hc']

/-- Two readings of the rules decide alike about a request if and only if the first rule that one
of them applies is applied by both to like effect, or by one of them only and the other falls back
to its effect, or neither applies any. -/
theorem verdict_eq_verdict_iff : verdict covers effect dflt rules p =
      verdict covers' effect' dflt rules p' ↔
    (∀ r ∈ rules, covers r p = false ∧ covers' r p' = false) ∨
      ∃ r post, FirstInEither covers covers' rules p p' r post ∧
        (covers r p = true ∧ covers' r p' = true ∧ effect r = effect' r ∨
          covers r p = true ∧ covers' r p' = false ∧
            FallsBack covers' effect' dflt post p' (effect r) ∨
          covers r p = false ∧ covers' r p' = true ∧
            FallsBack covers effect dflt post p (effect' r)) := by
  constructor
  · intro h
    rcases uncovered_or_firstInEither covers covers' rules p p' with hno | ⟨r, post, hr⟩
    · exact Or.inl hno
    · exact Or.inr ⟨r, post, hr, hr.verdict_eq_verdict_iff.mp h⟩
  · rintro (hno | ⟨r, post, hr, h⟩)
    · rw [verdict_of_uncovered fun r hr => (hno r hr).1,
        verdict_of_uncovered fun r hr => (hno r hr).2]
    · exact hr.verdict_eq_verdict_iff.mpr h

end Readings

end Policy
