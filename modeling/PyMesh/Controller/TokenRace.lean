import PyMesh.Controller.Reachable
import Mathlib.Data.Fintype.Card

/-! Concurrent `validate_token` calls on one token. The SELECT and the commit of a call are
two accesses, and the commit writes the value that was computed from the row read before. -/
namespace PyMesh

open LTS Relational Resumption

namespace AuthManager

/-- The points at which a call of `validate_token` stands suspended. -/
inductive Validation where
  | select
  | countUse (tokenObj : AuthToken)
  | done (res : Except Exc Bool)

namespace Validation

/-- What is left of the call. -/
def prog (tokenStr : String) : Validation → Session Bool
  | select => validateToken tokenStr
  | countUse tokenObj => do
    commit (Database.updateToken tokenStr (AuthManager.countUse tokenObj))
    return true
  | done res => .ofExcept res

def result : Validation → Option (Except Exc Bool)
  | done res => some res
  | _ => none

def flush (tokenStr : String) : Validation → Database → Except Exc Database
  | countUse tokenObj, db => db.updateToken tokenStr (AuthManager.countUse tokenObj)
  | _, db => .ok db

def after (tokenStr : String) : Validation → Database → Validation
  | select, db => match db.authTokens.find tokenStr with
    | none => done (.ok false)
    | some tokenObj => if exhausted tokenObj then done (.ok false) else countUse tokenObj
  | countUse _, _ => done (.ok true)
  | done res, _ => done res

end Validation

/-- The calls of `validate_token` for one token. -/
def validation (tokenStr : String) : Frames Database Exc Bool where
  Frame := Validation
  prog := Validation.prog tokenStr
  result := Validation.result
  flush := Validation.flush tokenStr
  after := Validation.after tokenStr
  raised _ e := .done (.error e)
  prog_raised _ _ := rfl
  faithful f := by
    cases f with
    | select =>
      refine Prog.read_bind_eq fun db => ?_
      simp only [Validation.after]
      cases db.authTokens.find tokenStr with
      | none => rfl
      | some tokenObj => cases hx : exhausted tokenObj <;> simp [hx, Validation.prog]
    | countUse tokenObj => exact Prog.commit_bind_eq fun _ _ _ => rfl
    | done res => rfl

variable {ι : Type} [Fintype ι] [DecidableEq ι] {tokenStr : String} {k : Int} {i : ι}
  {ls : List ι} {c d : Pool (validation tokenStr) ι} {db : Database}

/-- The calls that have returned `True`. -/
def granted (c : Pool (validation tokenStr) ι) : Finset ι :=
  Finset.univ.filter fun i => Validation.result (c.frame i) = some (.ok true)

/-- All calls are about to read the token. -/
def calls (ι : Type) (tokenStr : String) (db : Database) : Pool (validation tokenStr) ι :=
  ⟨db, fun _ => .select⟩

/-- The `used_count` column of the token. -/
def usedCount (c : Pool (validation tokenStr) ι) : Option Int :=
  (c.shared.authTokens.find tokenStr).map AuthToken.usedCount

/-- The commit that a call is about to make comes before any other since the call has read
the token. -/
def Fresh (c : Pool (validation tokenStr) ι) (i : ι) : Prop :=
  ∀ tokenObj, c.frame i = .countUse tokenObj → usedCount c = some tokenObj.usedCount

/-- The column against the number of calls that returned `True`, and against what the calls
that are about to commit have read. -/
structure Counted (k : Int) (c : Pool (validation tokenStr) ι) (t : AuthToken) : Prop where
  found : c.shared.authTokens.find tokenStr = some t
  limit : t.maxUses = some k
  le_granted : t.usedCount ≤ (granted c).card
  le_limit : 0 ≤ k → t.usedCount ≤ k
  read : ∀ i r, c.frame i = .countUse r → r.usedCount < k ∧ r.usedCount ≤ (granted c).card ∧
    (r.usedCount = (granted c).card → t.usedCount = r.usedCount)

omit [Fintype ι] in
/-- The three kinds of steps: a SELECT that refuses, one that goes on, and a commit, which
always goes through. -/
theorem validation_step (h : Pool.Step c i d) {t : AuthToken}
    (ht : c.shared.authTokens.find tokenStr = some t) :
    (c.frame i = .select ∧ d.shared = c.shared ∧ d.frame i = .done (.ok false)) ∨
    (c.frame i = .select ∧ d.shared = c.shared ∧ exhausted t = false ∧ d.frame i = .countUse t) ∨
    ∃ r, c.frame i = .countUse r ∧ d.frame i = .done (.ok true) ∧
      d.shared.authTokens.find tokenStr = some { t with usedCount := r.usedCount + 1 } := by
  have hself := h.frame_self
  have hshared := h.shared
  cases hf : c.frame i with
  | select =>
    rw [hf] at hself hshared
    simp only [Frames.next, validation, Validation.flush, Validation.after, ht] at hself
    cases hx : exhausted t with
    | true =>
      rw [hx] at hself
      exact Or.inl ⟨rfl, hshared, hself⟩
    | false =>
      rw [hx] at hself
      exact Or.inr (Or.inl ⟨rfl, hshared, rfl, hself⟩)
  | countUse r =>
    obtain ⟨ts, hts, hu⟩ := Database.updateToken_ok ht (f := countUse r) fun _ => rfl
    have hflush : (validation tokenStr).flush (.countUse r) c.shared = _ := hu
    rw [hf] at hself hshared
    rw [Frames.next_ok hflush] at hself
    rw [Frames.upd_ok hflush] at hshared
    refine Or.inr (Or.inr ⟨r, rfl, hself, ?_⟩)
    obtain ⟨hm, hk⟩ := Table.find_eq_some_iff.mp ht
    rw [hshared]
    refine Table.find_eq_some_iff.mpr ⟨?_, hk⟩
    rw [hts]
    exact List.mem_map.mpr ⟨t, hm, if_pos hk⟩
  | done res =>
    have hr := h.result
    rw [hf] at hr
    cases hr

theorem granted_of_select (h : Pool.Step c i d) (hc : Validation.result (c.frame i) = none)
    (hd : Validation.result (d.frame i) ≠ some (.ok true)) : granted d = granted c := by
  ext j
  by_cases hj : j = i
  · subst j
    simp [granted, hc, hd]
  · simp [granted, h.frame_of_ne hj]

theorem granted_of_commit (h : Pool.Step c i d) (hc : Validation.result (c.frame i) = none)
    (hd : Validation.result (d.frame i) = some (.ok true)) :
    (granted d).card = (granted c).card + 1 := by
  have hi : i ∉ granted c := by simp [granted, hc]
  have heq : granted d = insert i (granted c) := by
    ext j
    by_cases hj : j = i
    · subst j
      simp [granted, hd]
    · simp [granted, hj, h.frame_of_ne hj]
  rw [heq, Finset.card_insert_of_notMem hi]

omit [Fintype ι] [DecidableEq ι] in
theorem fresh_of_select (hf : c.frame i = .select) : Fresh c i := by
  intro r hr
  rw [hf] at hr
  cases hr

theorem exhausted_eq_false {t : AuthToken} (ht : t.maxUses = some k) (hx : exhausted t = false) :
    t.usedCount < k := by
  simpa [exhausted, ht] using hx

/-- A SELECT leaves the column and the granted calls as they are. -/
theorem counted_select (h : Pool.Step c i d) {t : AuthToken} (hc : Counted k c t)
    (hf : c.frame i = .select) (hsh : d.shared = c.shared)
    (hd : ∀ r, d.frame i = .countUse r → r = t ∧ exhausted t = false)
    (hg : granted d = granted c) : Counted k d t ∧
      (t.usedCount = (granted d).card ↔ t.usedCount = (granted c).card ∧ Fresh c i) := by
  refine ⟨⟨hsh ▸ hc.found, hc.limit, hg ▸ hc.le_granted, hc.le_limit, ?_⟩, ?_⟩
  · intro j r hj
    rw [hg]
    by_cases hji : j = i
    · subst j
      obtain ⟨rfl, hx⟩ := hd r hj
      exact ⟨exhausted_eq_false hc.limit hx, hc.le_granted, fun _ => rfl⟩
    · rw [h.frame_of_ne hji] at hj
      exact hc.read j r hj
  · rw [hg]
    exact ⟨fun he => ⟨he, fresh_of_select hf⟩, And.left⟩

/-- A commit counts one more granted call, and one more than what it had read in the column. -/
theorem counted_commit (h : Pool.Step c i d) {t r : AuthToken} (hc : Counted k c t)
    (hf : c.frame i = .countUse r) (hd : d.frame i = .done (.ok true))
    (ht : d.shared.authTokens.find tokenStr = some { t with usedCount := r.usedCount + 1 }) :
    Counted k d { t with usedCount := r.usedCount + 1 } ∧
      (r.usedCount + 1 = ((granted d).card : Int) ↔
        t.usedCount = (granted c).card ∧ Fresh c i) := by
  have hg := granted_of_commit h h.result (by rw [hd]; rfl)
  obtain ⟨hlt, hle, heq⟩ := hc.read i r hf
  have hfresh : Fresh c i ↔ t.usedCount = r.usedCount := by
    unfold Fresh usedCount
    rw [hc.found]
    constructor
    · intro hall
      exact Option.some.inj (hall r hf)
    · intro he r' hr'
      rw [hf] at hr'
      cases hr'
      exact congrArg some he
  refine ⟨⟨ht, hc.limit, ?_, fun _ => ?_, ?_⟩, ?_⟩
  · simp only [hg]
    omega
  · simp only
    omega
  · intro j r' hj
    by_cases hji : j = i
    · subst j
      rw [hd] at hj
      cases hj
    · rw [h.frame_of_ne hji] at hj
      obtain ⟨hlt', hle', -⟩ := hc.read j r' hj
      rw [hg]
      refine ⟨hlt', by omega, fun he => ?_⟩
      omega
  · rw [hfresh, hg]
    constructor
    · intro he
      have := heq (by omega)
      omega
    · rintro ⟨hu, he⟩
      omega

/-- A step keeps the counts in bounds. The column equals the number of granted calls after
it exactly when it did before and the step was not a commit of a stale read. -/
theorem counted_step (h : Pool.Step c i d) {t : AuthToken} (hc : Counted k c t) :
    ∃ t', Counted k d t' ∧
      (t'.usedCount = (granted d).card ↔ t.usedCount = (granted c).card ∧ Fresh c i) := by
  have hres : Validation.result (c.frame i) = none := h.result
  rcases validation_step h hc.found with ⟨hf, hsh, hd⟩ | ⟨hf, hsh, hx, hd⟩ | ⟨r, hf, hd, ht⟩
  · refine ⟨t, counted_select h hc hf hsh ?_ (granted_of_select h hres ?_)⟩
    · intro r hr
      rw [hd] at hr
      cases hr
    · rw [hd]
      simp [Validation.result]
  · refine ⟨t, counted_select h hc hf hsh ?_ (granted_of_select h hres ?_)⟩
    · intro r hr
      rw [hd] at hr
      cases hr
      exact ⟨rfl, hx⟩
    · rw [hd]
      simp [Validation.result]
  · exact ⟨_, counted_commit h hc hf hd ht⟩

/-- Along a run the column equals the number of granted calls exactly when no call has
committed a stale read. -/
theorem counted_run {t : AuthToken} {c₀ : Pool (validation tokenStr) ι} (h₀ : Counted k c₀ t)
    (ht : t.usedCount = (granted c₀).card) (h : Run Pool.Step c₀ ls c) :
    ∃ t', Counted k c t' ∧
      (t'.usedCount = (granted c).card ↔ Run (Guarded Pool.Step Fresh) c₀ ls c) := by
  induction h with
  | refl => exact ⟨t, h₀, fun _ => .refl, fun _ => ht⟩
  | tail h hl ih =>
    obtain ⟨t₁, hc, hiff⟩ := ih
    obtain ⟨t₂, hc₂, hiff₂⟩ := counted_step hl hc
    refine ⟨t₂, hc₂, ?_⟩
    rw [hiff₂, hiff, guarded_concat_iff Pool.step_det h hl]

omit [DecidableEq ι] in
/-- A token that has just been created has not been used. -/
theorem counted_calls {networkId description : String} {db₀ : Database}
    (h : (createToken tokenStr networkId description (some k)).run db₀ = (.ok tokenStr, db)) :
    ∃ t, t.usedCount = ((granted (calls ι tokenStr db)).card : Int) ∧
      Counted k (calls ι tokenStr db) t := by
  have hg : granted (calls ι tokenStr db) = ∅ := by simp [granted, calls, Validation.result]
  rcases run_createToken db₀ tokenStr networkId description (some k) with ⟨ts, hts, hr⟩ | hr
  · rw [hr] at h
    obtain rfl := (Prod.mk.inj h).2
    obtain ⟨t, hm, hk, hlim, hu⟩ : ∃ t ∈ ts.rows, Row.key t = tokenStr ∧ t.maxUses = some k ∧
        t.usedCount = 0 := by
      rw [hts]
      exact ⟨_, List.mem_append_right _ (List.mem_singleton.mpr rfl), rfl, rfl, rfl⟩
    refine ⟨t, by simp [hg, hu], Table.find_eq_some_iff.mpr ⟨hm, hk⟩, hlim, ?_, ?_, ?_⟩
    · simp [hu]
    · exact fun h0 => hu.trans_le h0
    · intro i r hr
      cases hr
  · rw [hr] at h
    cases (Prod.mk.inj h).1

/-- For a token with the limit `k` and any interleaving of the calls: at most `k` of them
have returned `True` and the column says how many, exactly when `k` is not negative and every
commit came before any other since its read. -/
theorem token_uses_iff {networkId description : String} {db₀ : Database}
    (h₀ : (createToken tokenStr networkId description (some k)).run db₀ = (.ok tokenStr, db))
    (h : Run Pool.Step (calls ι tokenStr db) ls c) :
    (((granted c).card : Int) ≤ k ∧ usedCount c = some ((granted c).card : Int)) ↔
      0 ≤ k ∧ Run (Guarded Pool.Step Fresh) (calls ι tokenStr db) ls c := by
  obtain ⟨t₀, ht₀, hc₀⟩ := counted_calls (ι := ι) h₀
  obtain ⟨t, hc, hiff⟩ := counted_run hc₀ ht₀ h
  have hused : usedCount c = some ((granted c).card : Int) ↔ t.usedCount = (granted c).card := by
    unfold usedCount
    rw [hc.found, Option.map_some, Option.some.injEq]
  rw [hused, ← hiff]
  constructor
  · rintro ⟨hle, he⟩
    exact ⟨by omega, he⟩
  · rintro ⟨hk, he⟩
    have hlim := hc.le_limit hk
    exact ⟨by omega, he⟩

/-- The tables with one token that may be used once. -/
def oneUse : Database := ((createToken "t" "default" "" (some 1)).run Database.empty).2

omit [Fintype ι] [DecidableEq ι] in
theorem fresh_iff_of_countUse {r : AuthToken} (h : c.frame i = Validation.countUse r) :
    usedCount c = some r.usedCount ↔ Fresh c i := by
  refine ⟨fun hu r' hr' => ?_, fun hf => hf r h⟩
  rw [h] at hr'
  cases hr'
  exact hu

omit [Fintype ι] [DecidableEq ι] in
theorem fresh_of_ne (h : ∀ r, c.frame i ≠ Validation.countUse r) : Fresh c i :=
  fun r hr => (h r hr).elim

instance (c : Pool (validation tokenStr) ι) (i : ι) : Decidable (Fresh c i) :=
  match h : c.frame i with
  | Validation.countUse _ => decidable_of_iff _ (fresh_iff_of_countUse h)
  | Validation.select => isTrue (fresh_of_ne fun _ hr => Validation.noConfusion (h.symm.trans hr))
  | Validation.done _ => isTrue (fresh_of_ne fun _ hr => Validation.noConfusion (h.symm.trans hr))

/-- The tables with one token that may be used twice. -/
def twoUses : Database := ((createToken "t" "default" "" (some 2)).run Database.empty).2

/-- A call that has read and waits, two that read and commit after each other, and one that comes
too late. -/
theorem token_uses_iff_waiting : ∃ c,
    Run (Guarded Pool.Step Fresh) (calls (Fin 4) "t" twoUses) [0, 2, 0, 1, 1, 3] c ∧
      Validation.result (c.frame 2) = none ∧ Validation.result (c.frame 3) = some (.ok false) ∧
      (granted c).card = 2 ∧ ((granted c).card : Int) ≤ 2 ∧
      usedCount c = some ((granted c).card : Int) := by
  have h₀ : (createToken "t" "default" "" (some 2)).run Database.empty = (.ok "t", twoUses) := rfl
  obtain ⟨c, hc, hp⟩ := Pool.exists_run_of_play (G := Fresh)
    (P := fun c => Validation.result (c.frame 2) = none ∧
      Validation.result (c.frame 3) = some (.ok false) ∧ (granted c).card = 2)
    (c := calls (Fin 4) "t" twoUses) (l := [0, 2, 0, 1, 1, 3]) (by decide +kernel)
  obtain ⟨hle, hused⟩ := (token_uses_iff h₀ hc.of_guarded).mpr ⟨by decide, hc⟩
  exact ⟨c, hc, hp.1, hp.2.1, hp.2.2, hle, hused⟩

/-- Two calls that read before either commits: both return `True`, and the column says 1. -/
theorem token_uses_fails : ∃ c, Run Pool.Step (calls (Fin 2) "t" oneUse) [0, 1, 0, 1] c ∧
    (granted c).card = 2 ∧ usedCount c = some 1 := by
  obtain ⟨c, hc, hp⟩ := Pool.exists_run_of_play (G := fun _ _ => True)
    (P := fun c => (granted c).card = 2 ∧ usedCount c = some 1)
    (c := calls (Fin 2) "t" oneUse) (l := [0, 1, 0, 1]) (by decide +kernel)
  exact ⟨c, hc.of_guarded, hp⟩

end AuthManager

end PyMesh
