import Mathlib.Data.List.Nodup
import Mathlib.Data.List.Pairwise

/-! Tables of rows under a primary key and uniqueness constraints that are checked at each
INSERT and at each row UPDATE, as a database does for constraints it cannot defer. -/
namespace Relational

/-- Rows with a primary key. Two rows `Clash` when they agree on a PRIMARY KEY or UNIQUE
column, so that one table cannot hold both. -/
class Row (ρ : Type) (κ : outParam Type) where
  key : ρ → κ
  Clash : ρ → ρ → Prop
  clash_symm : ∀ {a b : ρ}, Clash a b → Clash b a
  clash_of_key : ∀ {a b : ρ}, key a = key b → Clash a b

open Row

/-- A list of rows, no two of which clash. -/
@[ext]
structure Table (ρ : Type) {κ : Type} [Row ρ κ] where
  rows : List ρ
  unique : rows.Pairwise fun a b => ¬ Clash a b

namespace Table

variable {ρ κ : Type} [Row ρ κ]

def empty : Table ρ := ⟨[], .nil⟩

@[simp] theorem empty_rows : (empty : Table ρ).rows = [] := rfl

/-- DELETE of the rows that satisfy `p`. -/
def delete (t : Table ρ) (p : ρ → Bool) : Table ρ :=
  ⟨t.rows.filter fun r => !p r, t.unique.filter _⟩

@[simp] theorem mem_delete {t : Table ρ} {p : ρ → Bool} {a : ρ} :
    a ∈ (t.delete p).rows ↔ a ∈ t.rows ∧ p a = false := by
  simp [delete]

section Constraints

variable [DecidableRel (Clash : ρ → ρ → Prop)]

/-- The constraint check: a list of rows becomes a table unless two of them clash. -/
def ofRows (l : List ρ) : Option (Table ρ) :=
  if h : l.Pairwise fun a b => ¬ Clash a b then some ⟨l, h⟩ else none

/-- INSERT of one row. -/
def insert (t : Table ρ) (r : ρ) : Option (Table ρ) :=
  ofRows (t.rows ++ [r])

variable [DecidableEq κ]

/-- UPDATE of the row with primary key `k`. -/
def update (t : Table ρ) (k : κ) (f : ρ → ρ) : Option (Table ρ) :=
  ofRows (t.rows.map fun r => if key r = k then f r else r)

/-- One row UPDATE after the other; the constraints are checked at each of them. -/
def updateEach (t : Table ρ) (f : ρ → ρ) : List κ → Option (Table ρ)
  | [] => some t
  | k :: ks => (t.update k f).bind fun t' => t'.updateEach f ks

end Constraints

variable {t t' : Table ρ} {a b r : ρ} {k : κ} {f : ρ → ρ} {ks : List κ}

theorem rows_nodup (t : Table ρ) : t.rows.Nodup :=
  t.unique.imp fun h he => h (clash_of_key (congrArg key he))

theorem not_clash (ha : a ∈ t.rows) (hb : b ∈ t.rows) (hne : a ≠ b) : ¬ Clash a b :=
  have : Std.Symm fun a b : ρ => ¬ Clash a b := ⟨fun _ _ h h' => h (clash_symm h')⟩
  t.unique.forall ha hb hne

theorem eq_of_clash (ha : a ∈ t.rows) (hb : b ∈ t.rows) (h : Clash a b) : a = b := by
  by_contra hne
  exact not_clash ha hb hne h

theorem eq_of_key (ha : a ∈ t.rows) (hb : b ∈ t.rows) (h : key a = key b) : a = b :=
  eq_of_clash ha hb (clash_of_key h)

theorem keys_nodup (t : Table ρ) : (t.rows.map key).Nodup := by
  rw [List.Nodup, List.pairwise_map]
  exact t.unique.imp fun h he => h (clash_of_key he)

/-- A list of distinct rows satisfies the constraints when different rows do not clash. -/
theorem pairwise_iff {l : List ρ} (hl : l.Nodup) (g : ρ → ρ) :
    ((l.map g).Pairwise fun a b => ¬ Clash a b) ↔
      ∀ a ∈ l, ∀ b ∈ l, a ≠ b → ¬ Clash (g a) (g b) := by
  rw [List.pairwise_map]
  constructor
  · intro h a ha b hb hne
    have : Std.Symm fun a b => ¬ Clash (g a) (g b) := ⟨fun _ _ h h' => h (clash_symm h')⟩
    exact h.forall ha hb hne
  · exact hl.pairwise_of_forall_ne

section Select

variable [DecidableEq κ]

/-- SELECT by primary key. -/
def find (t : Table ρ) (k : κ) : Option ρ :=
  t.rows.find? fun r => key r = k

/-- The rows of a list are told apart by their keys when no key occurs twice. -/
theorem find?_key_eq_some_iff {α : Type} {l : List α} {g : α → κ} (hl : (l.map g).Nodup) {a : α} :
    (l.find? fun x => g x = k) = some a ↔ a ∈ l ∧ g a = k := by
  constructor
  · intro h
    exact ⟨List.mem_of_find?_eq_some h, by simpa using List.find?_some h⟩
  · rintro ⟨ha, hk⟩
    cases hf : l.find? fun x => g x = k with
    | none =>
      have hn := List.find?_eq_none.mp hf a ha
      simp [hk] at hn
    | some b =>
      have hb := List.mem_of_find?_eq_some hf
      have hbk : g b = k := by simpa using List.find?_some hf
      rw [List.inj_on_of_nodup_map hl hb ha (hbk.trans hk.symm)]

theorem find_eq_some_iff : t.find k = some r ↔ r ∈ t.rows ∧ key r = k :=
  find?_key_eq_some_iff t.keys_nodup

theorem find_eq_none_iff : t.find k = none ↔ ∀ r ∈ t.rows, key r ≠ k := by
  simp [find, List.find?_eq_none]

/-- A row at the end of a table is found when no other row has its key. -/
theorem find_append {t t' : Table ρ} {r : ρ} (h : t'.rows = t.rows ++ [r]) (k : κ) :
    t'.find k = (t.find k).or (if key r = k then some r else none) := by
  rw [find, h, List.find?_append, find]
  congr 1
  by_cases hk : key r = k <;> simp [hk]

/-- Rows that are rewritten in place keep their keys. -/
theorem find_map {t t' : Table ρ} {g : ρ → ρ} (h : t'.rows = t.rows.map g)
    (hg : ∀ r, key (g r) = key r) (k : κ) : t'.find k = (t.find k).map g := by
  rw [find, h, List.find?_map, find]
  congr 2
  funext r
  simp [hg]

/-- A row that is rewritten in place is found by its key as it was before. -/
theorem find_rewritten {t t' : Table ρ}
    (h : t'.rows = t.rows.map fun r => if key r = k then f r else r)
    (hf : ∀ r : ρ, key (f r) = key r) (k' : κ) :
    t'.find k' = if k = k' then (t.find k').map f else t.find k' := by
  have hkey : ∀ r : ρ, key (if key r = k then f r else r) = key r := by
    intro r
    split
    · exact hf r
    · rfl
  rw [find_map h hkey]
  cases hr : t.find k' with
  | none => simp
  | some r =>
    rw [Option.map_some, (find_eq_some_iff.mp hr).2]
    split
    · rename_i hk
      rw [if_pos hk.symm, Option.map_some]
    · rename_i hk
      rw [if_neg fun he => hk he.symm]

theorem find_delete (k' : κ) :
    (t.delete fun r => key r = k).find k' = if k = k' then none else t.find k' := by
  split
  next hk =>
    refine find_eq_none_iff.mpr fun r hr hr' => ?_
    rw [mem_delete, hr', hk] at hr
    simp at hr
  next hk =>
    refine Option.ext fun r => ?_
    rw [find_eq_some_iff, find_eq_some_iff, mem_delete]
    constructor
    · rintro ⟨⟨hr, -⟩, hkr⟩
      exact ⟨hr, hkr⟩
    · rintro ⟨hr, hkr⟩
      exact ⟨⟨hr, by simpa [hkr] using Ne.symm hk⟩, hkr⟩

/-- The rows with their keys in `done` updated, the others as they were. -/
def touch (f : ρ → ρ) (done : List κ) (r : ρ) : ρ := if key r ∈ done then f r else r

theorem touch_nil : t.rows.map (touch f []) = t.rows := by
  simp [show touch f [] = id from funext fun r => by simp [touch]]

theorem key_touch (hf : ∀ r : ρ, key (f r) = key r) (done : List κ) (r : ρ) :
    key (touch f done r) = key r := by
  unfold touch
  split
  · exact hf r
  · rfl

theorem touch_step (hf : ∀ r : ρ, key (f r) = key r) {done : List κ} (hk : k ∉ done) (r : ρ) :
    (if key (touch f done r) = k then f (touch f done r) else touch f done r) =
      touch f (done ++ [k]) r := by
  rw [key_touch hf]
  by_cases hr : key r = k
  · simp [touch, hr, hk]
  · simp [touch, hr]

end Select

section Constraints

variable [DecidableRel (Clash : ρ → ρ → Prop)]

theorem ofRows_eq_some_iff {l : List ρ} : ofRows l = some t ↔ t.rows = l := by
  unfold ofRows
  split
  · rw [Option.some.injEq]
    exact ⟨fun h => by rw [← h], fun h => Table.ext h.symm⟩
  · rename_i h
    constructor
    · intro hn; cases hn
    · intro he; exact (h (he ▸ t.unique)).elim

theorem ofRows_isSome_iff {l : List ρ} :
    (ofRows l).isSome ↔ l.Pairwise fun a b => ¬ Clash a b := by
  unfold ofRows
  split <;> simp_all

theorem insert_eq_some_iff :
    t.insert r = some t' ↔ t'.rows = t.rows ++ [r] := ofRows_eq_some_iff

theorem insert_isSome_iff : (t.insert r).isSome ↔ ∀ a ∈ t.rows, ¬ Clash a r := by
  rw [insert, ofRows_isSome_iff, List.pairwise_append]
  simp [t.unique]

variable {P : ρ → Prop}

theorem forall_insert (h : ∀ a ∈ t.rows, P a) (hr : P r) (hi : t.insert r = some t') :
    ∀ a ∈ t'.rows, P a := by
  intro a ha
  rw [insert_eq_some_iff.mp hi] at ha
  rcases List.mem_append.mp ha with ha | ha
  · exact h a ha
  · rw [List.mem_singleton.mp ha]
    exact hr

variable [DecidableEq κ]

theorem update_eq_some_iff : t.update k f = some t' ↔
    t'.rows = t.rows.map fun r => if key r = k then f r else r := ofRows_eq_some_iff

/-- An UPDATE that leaves the constrained columns alone always succeeds. -/
theorem update_isSome (hf : ∀ a b : ρ, Clash (f a) b → Clash a b) : (t.update k f).isSome := by
  rw [update, ofRows_isSome_iff, pairwise_iff t.rows_nodup]
  intro a ha b hb hne
  have hab := not_clash ha hb hne
  split <;> split
  · exact fun h => hab (clash_symm (hf _ _ (clash_symm (hf _ _ h))))
  · exact fun h => hab (hf _ _ h)
  · exact fun h => hab (clash_symm (hf _ _ (clash_symm h)))
  · exact hab

section Forall

theorem forall_update (h : ∀ a ∈ t.rows, P a) (hf : ∀ a, P a → key a = k → P (f a))
    (hu : t.update k f = some t') : ∀ a ∈ t'.rows, P a := by
  intro a ha
  rw [update_eq_some_iff.mp hu] at ha
  obtain ⟨b, hb, rfl⟩ := List.mem_map.mp ha
  split
  next hk => exact hf b (h b hb) hk
  next => exact h b hb

/-- What every single UPDATE keeps is kept by all of them, in any order and with repetitions. -/
theorem forall_updateEach (h : ∀ a ∈ t.rows, P a) (hf : ∀ a, P a → P (f a))
    (hu : t.updateEach f ks = some t') : ∀ a ∈ t'.rows, P a := by
  induction ks generalizing t with
  | nil =>
    cases hu
    exact h
  | cons k ks ih =>
    obtain ⟨u, hk, hu⟩ := Option.bind_eq_some_iff.mp hu
    exact ih (forall_update h (fun a ha _ => hf a ha) hk) hu

end Forall

section UpdateEach

variable (hf : ∀ r : ρ, key (f r) = key r)
include hf

theorem updateEach_aux (ks : List κ) {done : List κ} {u : Table ρ}
    (hu : u.rows = t.rows.map (touch f done)) (hn : (done ++ ks).Nodup) :
    ((u.updateEach f ks).isSome ↔ ∀ pre k post, ks = pre ++ k :: post →
      (t.rows.map (touch f (done ++ pre ++ [k]))).Pairwise fun a b => ¬ Clash a b) ∧
    ∀ u', u.updateEach f ks = some u' → u'.rows = t.rows.map (touch f (done ++ ks)) := by
  induction ks generalizing done u with
  | nil => simp [updateEach, hu]
  | cons k ks ih =>
    have hk : k ∉ done := fun h =>
      (List.nodup_append.mp hn).2.2 k h k List.mem_cons_self rfl
    have hrows : (u.rows.map fun r => if key r = k then f r else r) =
        t.rows.map (touch f (done ++ [k])) := by
      rw [hu, List.map_map]
      exact List.map_congr_left fun r _ => touch_step hf hk r
    have hupd : u.update k f = ofRows (t.rows.map (touch f (done ++ [k]))) := by
      rw [update, hrows]
    cases hv : u.update k f with
    | none =>
      refine ⟨?_, by simp [updateEach, hv]⟩
      have hbad : ¬ (t.rows.map (touch f (done ++ [k]))).Pairwise fun a b => ¬ Clash a b := by
        rw [← ofRows_isSome_iff, ← hupd, hv]
        simp
      simp only [updateEach, hv, Option.bind_none, Option.isSome_none, Bool.false_eq_true,
        false_iff]
      exact fun h => hbad (by simpa using h [] k ks rfl)
    | some v =>
      have hvr : v.rows = t.rows.map (touch f (done ++ [k])) :=
        ofRows_eq_some_iff.mp (hupd ▸ hv)
      obtain ⟨hs, hr⟩ := ih hvr (by simpa using hn)
      simp only [updateEach, hv, Option.bind_some]
      refine ⟨hs.trans ⟨?_, ?_⟩, fun u' h => by simpa using hr u' h⟩
      · intro h pre j post he
        cases pre with
        | nil =>
          obtain ⟨rfl, rfl⟩ : k = j ∧ ks = post := by simpa using he
          simpa [← hvr] using v.unique
        | cons x pre =>
          obtain ⟨rfl, rfl⟩ : k = x ∧ ks = pre ++ j :: post := by simpa using he
          simpa using h pre j post rfl
      · intro h pre j post he
        simpa using h (k :: pre) j post (by simp [he])

theorem updateEach_rows (hn : ks.Nodup) (h : t.updateEach f ks = some t') :
    t'.rows = t.rows.map (touch f ks) := by
  have hu : t.rows = t.rows.map (touch f []) := touch_nil.symm
  simpa using (updateEach_aux hf ks hu (by simpa using hn)).2 t' h

/-- A batch of row UPDATEs whose new rows do not clash among themselves goes through exactly
when no row is given, while a later row of the batch or a row outside it still stands, a
value that this other row holds. -/
theorem updateEach_isSome_iff (hn : ks.Nodup)
    (hnew : ∀ a ∈ t.rows, ∀ b ∈ t.rows, a ≠ b → key a ∈ ks → key b ∈ ks → ¬ Clash (f a) (f b)) :
    (t.updateEach f ks).isSome ↔ ∀ pre k post, ks = pre ++ k :: post →
      ∀ a ∈ t.rows, key a = k → ∀ b ∈ t.rows, b ≠ a → key b ∉ pre → ¬ Clash (f a) b := by
  have hu : t.rows = t.rows.map (touch f []) := touch_nil.symm
  rw [(updateEach_aux hf ks hu (by simpa using hn)).1]
  simp only [List.nil_append]
  constructor
  · intro h pre k post he a ha hak b hb hne hbp
    have hp := (pairwise_iff t.rows_nodup _).mp (h pre k post he) a ha b hb hne.symm
    have hbk : key b ≠ k := fun hbk => hne (eq_of_key hb ha (hbk.trans hak.symm))
    simpa [touch, hak, hbp, hbk] using hp
  · intro h pre k post he
    rw [pairwise_iff t.rows_nodup]
    -- A touched row met an untouched one when its own key was the one being written.
    have hcross : ∀ a ∈ t.rows, ∀ b ∈ t.rows, a ≠ b → key a ∈ pre ++ [k] →
        key b ∉ pre ++ [k] → ¬ Clash (f a) b := by
      intro a ha b hb hne hak hbk
      obtain ⟨p, q, hpq⟩ := List.append_of_mem hak
      have hks : ks = p ++ key a :: (q ++ post) := by
        rw [he, List.append_cons pre, hpq]; simp
      refine h p (key a) (q ++ post) hks a ha rfl b hb hne.symm ?_
      exact fun hbp => hbk (hpq ▸ List.mem_append_left _ hbp)
    have hmem : ∀ x, x ∈ pre ++ [k] → x ∈ ks := by
      intro x hx
      rw [he, List.append_cons pre]
      exact List.mem_append_left _ hx
    intro a ha b hb hne
    by_cases hak : key a ∈ pre ++ [k] <;> by_cases hbk : key b ∈ pre ++ [k] <;>
      simp only [touch, hak, hbk, if_true, if_false]
    · exact hnew a ha b hb hne (hmem _ hak) (hmem _ hbk)
    · exact hcross a ha b hb hne hak hbk
    · exact fun hc => hcross b hb a ha hne.symm hbk hak (clash_symm hc)
    · exact not_clash ha hb hne

end UpdateEach

end Constraints

end Table

end Relational
