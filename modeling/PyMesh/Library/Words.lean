import Mathlib.Algebra.BigOperators.Group.List.Basic
import Mathlib.Algebra.Order.BigOperators.Group.List
import Mathlib.Algebra.GroupWithZero.Nat
import Mathlib.Algebra.Order.Group.Nat
import Mathlib.Data.List.Perm.Subperm

/-! The words of a text, which separators are between, and how long a text has to be for them. -/
namespace Words

variable {α : Type} {p : α → Bool} {x y w : List α} {c : α}

def words (p : α → Bool) (x : List α) : List (List α) :=
  (x.splitOnP p).filter fun w => !w.isEmpty

/-- How much of a text some words take up, each with one separator after it. -/
def width (ws : List (List α)) : Nat := (ws.map fun w => w.length + 1).sum

theorem words_append (hc : p c = true) (x y : List α) :
    words p (x ++ c :: y) = words p x ++ words p y := by
  rw [words, List.splitOnP_append_cons x y hc, List.filter_append]
  rfl

theorem words_of_free (hx : ∀ c ∈ x, p c = false) : words p x = if x = [] then [] else [x] := by
  rw [words, List.splitOnP_eq_singleton hx]
  cases x <;> simp

theorem words_word (hx : ∀ c ∈ x, p c = false) (hne : x ≠ []) : words p x = [x] := by
  rw [words_of_free hx, if_neg hne]

/-- Every text is free of separators, or it has a first one. -/
theorem free_or_append (p : α → Bool) (x : List α) : (∀ c ∈ x, p c = false) ∨
    ∃ a c b, x = a ++ c :: b ∧ p c = true ∧ ∀ d ∈ a, p d = false := by
  induction x with
  | nil => exact Or.inl (by simp)
  | cons d x ih =>
    by_cases hd : p d = true
    · exact Or.inr ⟨[], d, x, rfl, hd, by simp⟩
    · have hd' : p d = false := by simpa using hd
      rcases ih with hx | ⟨a, c, b, rfl, hc, ha⟩
      · exact Or.inl (List.forall_mem_cons.mpr ⟨hd', hx⟩)
      · exact Or.inr ⟨d :: a, c, b, rfl, hc, List.forall_mem_cons.mpr ⟨hd', ha⟩⟩

/-- A word is not empty, and has no separator in it. -/
theorem of_mem_words (hw : w ∈ words p x) : w ≠ [] ∧ ∀ c ∈ w, p c = false := by
  induction hn : x.length using Nat.strongRecOn generalizing x with
  | _ n ih =>
    rcases free_or_append p x with hx | ⟨a, c, b, rfl, hc, ha⟩
    · rw [words_of_free hx] at hw
      split at hw
      next => cases hw
      next hne =>
        rw [List.mem_singleton.mp hw]
        exact ⟨hne, hx⟩
    · rw [words_append hc] at hw
      have hlen : (a ++ c :: b).length = a.length + (b.length + 1) := by simp
      rcases List.mem_append.mp hw with hw | hw
      · exact ih a.length (by omega) hw rfl
      · exact ih b.length (by omega) hw rfl

theorem mem_of_mem_words (hw : w ∈ words p x) (hc : c ∈ w) : c ∈ x := by
  induction hn : x.length using Nat.strongRecOn generalizing x with
  | _ n ih =>
    rcases free_or_append p x with hx | ⟨a, d, b, rfl, hd, ha⟩
    · rw [words_of_free hx] at hw
      split at hw
      next => cases hw
      next => exact List.mem_singleton.mp hw ▸ hc
    · rw [words_append hd] at hw
      have hlen : (a ++ d :: b).length = a.length + (b.length + 1) := by simp
      rcases List.mem_append.mp hw with hw | hw
      · exact List.mem_append_left _ (ih a.length (by omega) hw rfl)
      · exact List.mem_append_right _ (List.mem_cons_of_mem d (ih b.length (by omega) hw rfl))

theorem width_append (ws vs : List (List α)) : width (ws ++ vs) = width ws + width vs := by
  simp [width]

theorem width_cons (w : List α) (ws : List (List α)) :
    width (w :: ws) = w.length + 1 + width ws := by
  simp [width]

/-- The words of a text fit into it. -/
theorem width_words_le (p : α → Bool) (x : List α) : width (words p x) ≤ x.length + 1 := by
  induction hn : x.length using Nat.strongRecOn generalizing x with
  | _ n ih =>
    rcases free_or_append p x with hx | ⟨a, c, b, rfl, hc, ha⟩
    · rw [words_of_free hx]
      split
      next => simp [width]
      next => simp [width, hn]
    · have hlen : (a ++ c :: b).length = a.length + (b.length + 1) := by simp
      have h₁ := ih a.length (by omega) a rfl
      have h₂ := ih b.length (by omega) b rfl
      rw [words_append hc, width_append]
      omega

/-- Different words that are all among others are no wider than these. -/
theorem width_le_of_subset {β : Type} {f : β → List α} {l l' : List β} (hn : l.Nodup)
    (hs : l ⊆ l') : width (l.map f) ≤ width (l'.map f) := by
  obtain ⟨l'', hp, hl⟩ := hn.subperm hs
  have hperm : width (l''.map f) = width (l.map f) := by
    rw [width, width]
    exact ((hp.map f).map _).sum_eq
  rw [← hperm, width, width]
  exact ((hl.map f).map _).sum_le_sum (fun _ _ => Nat.zero_le _)

/-- The words of a text that is put together from words. -/
theorem words_intercalate (hc : p c = true) {ws : List (List α)}
    (hws : ∀ w ∈ ws, w ≠ [] ∧ ∀ d ∈ w, p d = false) : words p ([c].intercalate ws) = ws := by
  induction ws with
  | nil => rfl
  | cons w ws ih =>
    obtain ⟨hne, hw⟩ := hws w List.mem_cons_self
    have hrest := ih fun w' hw' => hws w' (List.mem_cons_of_mem w hw')
    cases ws with
    | nil => rw [List.intercalate_singleton, words_word hw hne]
    | cons w' ws =>
      rw [List.intercalate_cons_cons, List.append_assoc, List.singleton_append, words_append hc,
        hrest, words_word hw hne]
      rfl

theorem mem_intercalate {d : α} {ws : List (List α)} (h : d ∈ [c].intercalate ws) :
    d = c ∨ ∃ w ∈ ws, d ∈ w := by
  induction ws with
  | nil => cases h
  | cons w ws ih =>
    cases ws with
    | nil =>
      rw [List.intercalate_singleton] at h
      exact Or.inr ⟨w, by simp, h⟩
    | cons w' ws =>
      rw [List.intercalate_cons_cons, List.append_assoc, List.singleton_append] at h
      rcases List.mem_append.mp h with h | h
      · exact Or.inr ⟨w, by simp, h⟩
      · rcases List.mem_cons.mp h with h | h
        · exact Or.inl h
        · exact (ih h).imp_right fun ⟨w₁, hw₁, hd⟩ => ⟨w₁, List.mem_cons_of_mem w hw₁, hd⟩

theorem length_intercalate (c : α) {ws : List (List α)} (hne : ws ≠ []) :
    ([c].intercalate ws).length + 1 = width ws := by
  induction ws with
  | nil => exact (hne rfl).elim
  | cons w ws ih =>
    cases ws with
    | nil => simp [width]
    | cons w' ws =>
      have hrest := ih (by simp)
      rw [List.intercalate_cons_cons, width_cons]
      simp only [List.length_append, List.length_singleton]
      omega

end Words
