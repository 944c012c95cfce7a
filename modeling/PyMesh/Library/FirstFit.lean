import Mathlib.Data.List.Nodup
import Mathlib.Data.List.TakeWhile

/-! First fit: the first element of a pool, in the order of the pool, that is not held. -/
namespace FirstFit

variable {α : Type} [DecidableEq α] {pool held held' : List α} {a b : α} {n : Nat}

def firstFit (pool held : List α) : Option α :=
  pool.find? fun a => decide (a ∉ held)

/-- What is left of a pool. -/
def free (pool held : List α) : List α :=
  pool.filter fun a => decide (a ∉ held)

theorem firstFit_eq_none_iff : firstFit pool held = none ↔ ∀ a ∈ pool, a ∈ held := by
  simp [firstFit, List.find?_eq_none]

theorem firstFit_eq_some_iff : firstFit pool held = some a ↔
    a ∉ held ∧ ∃ pre post, pool = pre ++ a :: post ∧ ∀ b ∈ pre, b ∈ held := by
  simp [firstFit, List.find?_eq_some_iff_append]

theorem firstFit_mem (h : firstFit pool held = some a) : a ∈ pool :=
  List.mem_of_find?_eq_some h

theorem firstFit_not_held (h : firstFit pool held = some a) : a ∉ held :=
  (firstFit_eq_some_iff.mp h).1

/-- Only membership in the held list matters. -/
theorem firstFit_congr (h : ∀ a, a ∈ held ↔ a ∈ held') :
    firstFit pool held = firstFit pool held' := by
  simp only [firstFit, h]

/-- In an ascending pool the first fit is below every other free element. -/
theorem firstFit_le {r : α → α → Prop} (hpool : pool.Pairwise r)
    (h : firstFit pool held = some a) (hb : b ∈ pool) (hbh : b ∉ held) : b = a ∨ r a b := by
  obtain ⟨_, pre, post, rfl, hpre⟩ := firstFit_eq_some_iff.mp h
  rcases List.mem_append.mp hb with hb | hb
  · exact (hbh (hpre b hb)).elim
  · rcases List.mem_cons.mp hb with rfl | hb
    · exact Or.inl rfl
    · have hc := (List.pairwise_append.mp hpool).2.1
      exact Or.inr ((List.pairwise_cons.mp hc).1 b hb)

/-- With exactly the first `n` elements held, the first fit is the next one. -/
theorem firstFit_take (hpool : pool.Nodup) (h : ∀ a, a ∈ held ↔ a ∈ pool.take n) :
    firstFit pool held = pool[n]? := by
  rw [firstFit_congr h]
  cases hn : pool[n]? with
  | none =>
    have hlen : pool.length ≤ n := List.getElem?_eq_none_iff.mp hn
    exact firstFit_eq_none_iff.mpr fun a ha => by rwa [List.take_of_length_le hlen]
  | some a =>
    obtain ⟨hlt, rfl⟩ := List.getElem?_eq_some_iff.mp hn
    have hsplit : pool = pool.take n ++ pool[n] :: pool.drop (n + 1) := by
      rw [List.getElem_cons_drop, List.take_append_drop]
    refine firstFit_eq_some_iff.mpr ⟨?_, pool.take n, pool.drop (n + 1), hsplit, fun b hb => hb⟩
    intro hmem
    rw [hsplit] at hpool
    exact (List.nodup_append.mp hpool).2.2 _ hmem _ List.mem_cons_self rfl

/-- What is held can be taken out of the pool instead. -/
theorem firstFit_append (pool held held' : List α) :
    firstFit pool (held ++ held') = firstFit (free pool held) held' := by
  rw [firstFit, firstFit, free, List.find?_filter]
  congr 1
  funext a
  simp

/-- With the first `n` of the free elements taken, the next one is the first fit. -/
theorem firstFit_append_take (hpool : pool.Nodup) (held : List α) (n : Nat) :
    firstFit pool (held ++ (free pool held).take n) = (free pool held)[n]? := by
  rw [firstFit_append]
  exact firstFit_take (hpool.filter _) fun _ => Iff.rfl

end FirstFit
