import Mathlib.Data.List.Induction
import PyMesh.Library.Run

/-! Datagrams: what was sent once may arrive at any later time, any number of times, or never. -/
namespace Datagrams

open LTS

variable {S A M : Type} {handle : S → A ⊕ M → S × List M} {s : S} {m : M}

/-- The state of the parties, and every datagram that was ever sent. -/
structure Net (S M : Type) where
  state : S
  sent : List M

/-- An event is an action of a party, or a datagram that arrives; `handle` says what it makes of
the state, and what is sent. -/
inductive Step (handle : S → A ⊕ M → S × List M) (n : Net S M) : A ⊕ M → Net S M → Prop
  | act (a : A) : Step handle n (.inl a)
      ⟨(handle n.state (.inl a)).1, n.sent ++ (handle n.state (.inl a)).2⟩
  | arrive {m : M} (h : m ∈ n.sent) : Step handle n (.inr m)
      ⟨(handle n.state (.inr m)).1, n.sent ++ (handle n.state (.inr m)).2⟩

/-- The datagrams that have arrived, in their order. -/
def arrivals (es : List (A ⊕ M)) : List M := es.filterMap Sum.getRight?

/-- The state after events that start from `s`. -/
def stateAfter (handle : S → A ⊕ M → S × List M) (s : S) (es : List (A ⊕ M)) : S :=
  es.foldl (fun s e => (handle s e).1) s

variable {n n' : Net S M} {e : A ⊕ M} {es : List (A ⊕ M)}

/-- An entry of a list with one more element is an entry of the list, or that element. -/
theorem getElem?_concat_cases {α : Type} {l : List α} {a b : α} {k : Nat}
    (h : (l ++ [a])[k]? = some b) : (k < l.length ∧ l[k]? = some b) ∨ (k = l.length ∧ b = a) := by
  rcases Nat.lt_trichotomy k l.length with hlt | rfl | hgt
  · rw [List.getElem?_append_left hlt] at h
    exact Or.inl ⟨hlt, h⟩
  · exact Or.inr ⟨rfl, by simpa using h.symm⟩
  · rw [List.getElem?_eq_none (by simp; omega)] at h
    cases h

theorem stateAfter_append (es es' : List (A ⊕ M)) :
    stateAfter handle s (es ++ es') = stateAfter handle (stateAfter handle s es) es' := by
  simp [stateAfter]

theorem mem_arrivals : m ∈ arrivals es ↔ .inr m ∈ es := by
  simp only [arrivals, List.mem_filterMap, Sum.getRight?_eq_some_iff]
  constructor
  · rintro ⟨e, he, rfl⟩
    exact he
  · intro h
    exact ⟨_, h, rfl⟩

theorem Step.state (h : Step handle n e n') : n'.state = (handle n.state e).1 := by
  cases h with
  | act => rfl
  | arrive => rfl

theorem Step.sent (h : Step handle n e n') : n'.sent = n.sent ++ (handle n.state e).2 := by
  cases h with
  | act => rfl
  | arrive => rfl

theorem state_of_run (h : Run (Step handle) ⟨s, []⟩ es n) : n.state = stateAfter handle s es := by
  induction h with
  | refl => rfl
  | tail _ hs ih =>
    rw [hs.state, ih, stateAfter_append]
    rfl

/-- What has been sent was sent by one of the events. -/
theorem mem_sent (h : Run (Step handle) ⟨s, []⟩ es n) : m ∈ n.sent ↔
    ∃ k e, es[k]? = some e ∧ m ∈ (handle (stateAfter handle s (es.take k)) e).2 := by
  induction h with
  | refl => simp
  | @tail es u e v hu hs ih =>
    rw [hs.sent, List.mem_append, ih, state_of_run hu]
    constructor
    · rintro (⟨k, e', hk, hm⟩ | hm)
      · have hlt : k < es.length := (List.getElem?_eq_some_iff.mp hk).1
        refine ⟨k, e', by rw [List.getElem?_append_left hlt, hk], ?_⟩
        rwa [List.take_append_of_le_length (Nat.le_of_lt hlt)]
      · exact ⟨es.length, e, by simp, by simpa using hm⟩
    · rintro ⟨k, e', hk, hm⟩
      rcases getElem?_concat_cases hk with ⟨hlt, hk⟩ | ⟨rfl, rfl⟩
      · rw [List.take_append_of_le_length (Nat.le_of_lt hlt)] at hm
        exact Or.inl ⟨k, e', hk, hm⟩
      · exact Or.inr (by simpa using hm)

/-- No datagram comes out of nothing: what arrives was sent by an event before. -/
theorem sent_before (h : Run (Step handle) ⟨s, []⟩ es n) {k : Nat} (hk : es[k]? = some (.inr m)) :
    ∃ l < k, ∃ e, es[l]? = some e ∧ m ∈ (handle (stateAfter handle s (es.take l)) e).2 := by
  induction h with
  | refl => simp at hk
  | @tail es u e v hu hs ih =>
    have hpast : ∀ l < es.length, (es ++ [e])[l]? = es[l]? ∧ (es ++ [e]).take l = es.take l :=
      fun l hl => ⟨List.getElem?_append_left hl, List.take_append_of_le_length (Nat.le_of_lt hl)⟩
    rcases getElem?_concat_cases hk with ⟨hlt, hk⟩ | ⟨rfl, rfl⟩
    · obtain ⟨l, hl, e', he, hm⟩ := ih hk
      obtain ⟨hget, htake⟩ := hpast l (Nat.lt_trans hl hlt)
      exact ⟨l, hl, e', by rw [hget, he], by rwa [htake]⟩
    · cases hs with
      | arrive hm =>
        obtain ⟨l, e', he, hm⟩ := (mem_sent hu).mp hm
        have hl : l < es.length := (List.getElem?_eq_some_iff.mp he).1
        obtain ⟨hget, htake⟩ := hpast l hl
        exact ⟨l, hl, e', by rw [hget, he], by rwa [htake]⟩

section Play

variable [DecidableEq M]

/-- The net after these events, if what arrives in them has been sent. -/
def play (handle : S → A ⊕ M → S × List M) (n : Net S M) : List (A ⊕ M) → Option (Net S M)
  | [] => some n
  | e :: es =>
    if (e.elim (fun _ => true) fun m => decide (m ∈ n.sent)) = true then
      play handle ⟨(handle n.state e).1, n.sent ++ (handle n.state e).2⟩ es
    else none

theorem run_of_play (h : play handle n es = some n') : Run (Step handle) n es n' := by
  induction es generalizing n with
  | nil =>
    cases h
    exact .refl
  | cons e es ih =>
    rw [play] at h
    split at h
    next he =>
      refine (Run.single ?_).append (ih h)
      cases e with
      | inl a => exact .act a
      | inr m => exact .arrive (of_decide_eq_true he)
    next => cases h

/-- Events that can be played are a run, and what is seen of its end is so. -/
theorem exists_run_of_play {P : Net S M → Prop} [DecidablePred P]
    (h : (play handle n es).any fun n' => P n') : ∃ n', Run (Step handle) n es n' ∧ P n' := by
  obtain ⟨n', hn, hp⟩ := (Option.any_eq_true _ _).mp h
  exact ⟨n', run_of_play hn, of_decide_eq_true hp⟩

end Play

end Datagrams
