import PyMesh.Library.Run
import Mathlib.Logic.Function.Basic

/-! Programs over a shared store as resumptions: one constructor for one indivisible
access. A program can be run alone, or as one of many whose accesses interleave. -/
namespace Resumption

open LTS

/-- A program that returns an `α`, raises an `ε`, or makes one indivisible access to the
store: `upd` is what the access writes, and `next` goes on from what it has read. -/
inductive Prog (σ ε α : Type) where
  | ret (a : α)
  | raise (e : ε)
  | atom (upd : σ → σ) (next : σ → Prog σ ε α)

namespace Prog

variable {σ ε α β γ : Type}

def bind : Prog σ ε α → (α → Prog σ ε β) → Prog σ ε β
  | ret a, k => k a
  | raise e, _ => raise e
  | atom upd next, k => atom upd fun s => (next s).bind k

instance : Monad (Prog σ ε) where
  pure := ret
  bind := bind

/-- The handler also covers what is raised after an access; the access itself stands. -/
def handle : Prog σ ε α → (ε → Prog σ ε α) → Prog σ ε α
  | ret a, _ => ret a
  | raise e, h => h e
  | atom upd next, h => atom upd fun s => (next s).handle h

instance : MonadExceptOf ε (Prog σ ε) where
  throw := raise
  tryCatch := handle

/-- A computation that does not touch the store. -/
def ofExcept : Except ε α → Prog σ ε α
  | .ok a => ret a
  | .error e => raise e

/-- One access that reads. -/
def read (f : σ → α) : Prog σ ε α :=
  atom id fun s => ret (f s)

/-- One access that replaces the store, or raises and leaves it as it is. -/
def commit (f : σ → Except ε σ) : Prog σ ε Unit :=
  atom (fun s => (f s).toOption.getD s) fun s => ofExcept ((f s).map fun _ => ())

/-- One access that commits what `flush` makes of the store and goes on from the store it has
read, or raises. -/
def access (flush : σ → Except ε σ) (after : σ → Prog σ ε α) : Prog σ ε α :=
  atom (fun s => (flush s).toOption.getD s) fun s => match flush s with
    | .ok _ => after s
    | .error e => raise e

/-- The program that has a result already, or else goes on. -/
def endedOr : Option (Except ε α) → Prog σ ε α → Prog σ ε α
  | some res, _ => ofExcept res
  | none, p => p

/-- The program alone, its accesses one after the other: the outcome and the store left. -/
def run : Prog σ ε α → σ → Except ε α × σ
  | ret a, s => (.ok a, s)
  | raise e, s => (.error e, s)
  | atom upd next, s => (next s).run (upd s)

section Laws

variable {p : Prog σ ε α} {s s' : σ} {a : α} {e : ε}

@[simp] theorem pure_eq (a : α) : (pure a : Prog σ ε α) = ret a := rfl

@[simp] theorem throw_eq (e : ε) : (throw e : Prog σ ε α) = raise e := rfl

@[simp] theorem ret_bind (a : α) (k : α → Prog σ ε β) : (ret a >>= k) = k a := rfl

@[simp] theorem raise_bind (e : ε) (k : α → Prog σ ε β) : (raise e >>= k) = raise e := rfl

@[simp] theorem atom_bind (upd : σ → σ) (next : σ → Prog σ ε α) (k : α → Prog σ ε β) :
    (atom upd next >>= k) = atom upd fun s => next s >>= k := rfl

theorem bind_assoc (p : Prog σ ε α) (f : α → Prog σ ε β) (g : β → Prog σ ε γ) :
    (p >>= f >>= g) = p >>= fun a => f a >>= g := by
  induction p with
  | ret => rfl
  | raise => rfl
  | atom upd next ih =>
    simp only [atom_bind]
    exact congrArg (atom upd) (funext ih)

@[simp] theorem ofExcept_ok (a : α) : (ofExcept (.ok a) : Prog σ ε α) = ret a := rfl

@[simp] theorem ofExcept_error (e : ε) : (ofExcept (.error e) : Prog σ ε α) = raise e := rfl

@[simp] theorem run_ret (a : α) (s : σ) : (ret a : Prog σ ε α).run s = (.ok a, s) := rfl

@[simp] theorem run_raise (e : ε) (s : σ) : (raise e : Prog σ ε α).run s = (.error e, s) := rfl

@[simp] theorem run_read_bind (f : σ → α) (k : α → Prog σ ε β) (s : σ) :
    (read f >>= k).run s = (k (f s)).run s := rfl

theorem run_bind (p : Prog σ ε α) (k : α → Prog σ ε β) (s : σ) :
    (p >>= k).run s = match p.run s with
      | (.ok a, s') => (k a).run s'
      | (.error e, s') => (.error e, s') := by
  induction p generalizing s with
  | ret => rfl
  | raise => rfl
  | atom upd next ih => exact ih s (upd s)

theorem run_bind_ok (h : p.run s = (.ok a, s')) (k : α → Prog σ ε β) :
    (p >>= k).run s = (k a).run s' := by
  rw [run_bind, h]

theorem run_bind_error (h : p.run s = (.error e, s')) (k : α → Prog σ ε β) :
    (p >>= k).run s = (.error e, s') := by
  rw [run_bind, h]

theorem run_commit_ok {f : σ → Except ε σ} (h : f s = .ok s') (k : Unit → Prog σ ε β) :
    (commit f >>= k).run s = (k ()).run s' := by
  change (ofExcept ((f s).map fun _ => ()) >>= k).run ((f s).toOption.getD s) = _
  rw [h]
  rfl

theorem run_commit_error {f : σ → Except ε σ} (h : f s = .error e) (k : Unit → Prog σ ε β) :
    (commit f >>= k).run s = (.error e, s) := by
  change (ofExcept ((f s).map fun _ => ()) >>= k).run ((f s).toOption.getD s) = _
  rw [h]
  rfl

/-- A commit that cannot fail. -/
theorem run_commit_total (g : σ → σ) (k : Unit → Prog σ ε β) (s : σ) :
    (commit (fun s => .ok (g s)) >>= k).run s = (k ()).run (g s) := rfl

/-- A program that starts with a read, by what each outcome of the read leads to. -/
theorem read_bind_eq {f : σ → α} {k : α → Prog σ ε β} {after : σ → Prog σ ε β}
    (h : ∀ s, after s = k (f s)) : (read f >>= k) = access .ok after :=
  congrArg (atom _) (funext fun s => (h s).symm)

/-- A program that starts with a commit, by what its success leads to. -/
theorem commit_bind_eq {f : σ → Except ε σ} {k : Unit → Prog σ ε β} {after : σ → Prog σ ε β}
    (h : ∀ s s', f s = .ok s' → after s = k ()) : (commit f >>= k) = access f after := by
  refine congrArg (atom _) (funext fun s => ?_)
  change (ofExcept ((f s).map fun _ => ()) >>= k) = _
  cases hf : f s with
  | ok s' => exact (h s s' hf).symm
  | error e => rfl

theorem access_bind (flush : σ → Except ε σ) (after : σ → Prog σ ε α) (k : α → Prog σ ε β) :
    (access flush after >>= k) = access flush fun s => after s >>= k := by
  refine congrArg (atom _) (funext fun s => ?_)
  dsimp only
  cases flush s <;> rfl

theorem run_handle (p : Prog σ ε α) (h : ε → Prog σ ε α) (s : σ) :
    (tryCatch p h).run s = match p.run s with
      | (.ok a, s') => (.ok a, s')
      | (.error e, s') => (h e).run s' := by
  induction p generalizing s with
  | ret => rfl
  | raise => rfl
  | atom upd next ih => exact ih s (upd s)

end Laws

/-- The program over a larger store: `get` finds its part of it, `put` writes the part back. -/
def zoom {τ : Type} (get : τ → σ) (put : σ → τ → τ) : Prog σ ε α → Prog τ ε α
  | ret a => ret a
  | raise e => raise e
  | atom upd next => atom (fun t => put (upd (get t)) t) fun t => (next (get t)).zoom get put

/-- The outcome of a program that makes no access any more. -/
def result : Prog σ ε α → Option (Except ε α)
  | ret a => some (.ok a)
  | raise e => some (.error e)
  | atom _ _ => none

/-- No path of the program raises. -/
def Quiet : Prog σ ε α → Prop
  | ret _ => True
  | raise _ => False
  | atom _ next => ∀ s, (next s).Quiet

section Quiet

variable {p : Prog σ ε α}

theorem Quiet.bind {k : α → Prog σ ε β} (h : p.Quiet) (hk : ∀ a, (k a).Quiet) :
    (p >>= k).Quiet := by
  induction p with
  | ret a => exact hk a
  | raise => exact h
  | atom upd next ih => exact fun s => ih s (h s)

theorem quiet_handle (p : Prog σ ε α) {g : ε → Prog σ ε α} (hg : ∀ e, (g e).Quiet) :
    (tryCatch p g).Quiet := by
  induction p with
  | ret => trivial
  | raise e => exact hg e
  | atom upd next ih => exact ih

/-- A handler around such a program has only to do with what comes after it. -/
theorem Quiet.handle_bind (h : p.Quiet) (k : α → Prog σ ε β) (g : ε → Prog σ ε β) :
    tryCatch (p >>= k) g = p >>= fun a => tryCatch (k a) g := by
  induction p with
  | ret => rfl
  | raise => exact h.elim
  | atom upd next ih => exact congrArg (atom upd) (funext fun s => ih s (h s))

end Quiet

/-- Every access of the program moves the store along `R`, whatever was read before. -/
def Moves (R : σ → σ → Prop) : Prog σ ε α → Prop
  | ret _ => True
  | raise _ => True
  | atom upd next => ∀ s, R s (upd s) ∧ (next s).Moves R

section Moves

variable {τ : Type} {R : σ → σ → Prop} {p : Prog σ ε α}

theorem moves_true (p : Prog σ ε α) : p.Moves fun _ _ => True := by
  induction p with
  | ret => trivial
  | raise => trivial
  | atom upd next ih => exact fun s => ⟨trivial, ih s⟩

theorem Moves.bind {k : α → Prog σ ε β} (h : p.Moves R) (hk : ∀ a, (k a).Moves R) :
    (p >>= k).Moves R := by
  induction p with
  | ret a => exact hk a
  | raise => trivial
  | atom upd next ih => exact fun s => ⟨(h s).1, ih s (h s).2⟩

theorem Moves.zoom {R' : τ → τ → Prop} {get : τ → σ} {put : σ → τ → τ} (h : p.Moves R)
    (hR : ∀ t s, R (get t) s → R' t (put s t)) : (p.zoom get put).Moves R' := by
  induction p with
  | ret => trivial
  | raise => trivial
  | atom upd next ih => exact fun t => ⟨hR t _ (h (get t)).1, ih (get t) (h (get t)).2⟩

theorem moves_read (f : σ → α) (hR : ∀ s, R s s) : (read f : Prog σ ε α).Moves R :=
  fun s => ⟨hR s, trivial⟩

/-- What a program does after a read may depend on what a store can answer to it. -/
theorem moves_read_bind {f : σ → α} {k : α → Prog σ ε β} (hR : ∀ s, R s s)
    (hk : ∀ s, (k (f s)).Moves R) : (read f >>= k).Moves R :=
  fun s => ⟨hR s, hk s⟩

theorem moves_ofExcept_bind {x : Except ε α} {k : α → Prog σ ε β}
    (hk : ∀ a, x = .ok a → (k a).Moves R) : (ofExcept x >>= k).Moves R := by
  cases x with
  | ok a => exact hk a rfl
  | error e => trivial

theorem Moves.handle {h : ε → Prog σ ε α} (hp : p.Moves R) (hh : ∀ e, (h e).Moves R) :
    (tryCatch p h).Moves R := by
  induction p with
  | ret => trivial
  | raise e => exact hh e
  | atom upd next ih => exact fun s => ⟨(hp s).1, ih s (hp s).2⟩

/-- What every access of a program keeps is kept by its run. -/
theorem Moves.run {I : σ → Prop} (hp : p.Moves fun s s' => I s → I s') {s : σ} (hs : I s) :
    I (p.run s).2 := by
  induction p generalizing s with
  | ret => exact hs
  | raise => exact hs
  | atom upd next ih => exact ih s (hp s).2 ((hp s).1 hs)

theorem moves_commit {f : σ → Except ε σ} (hR : ∀ s, R s s)
    (hf : ∀ s s', f s = .ok s' → R s s') : (commit f).Moves R := by
  intro s
  cases h : f s with
  | ok s' =>
    refine ⟨?_, ?_⟩
    · simpa [h, Except.toOption] using hf s s' h
    · simp only [h, Except.map]
      trivial
  | error e =>
    refine ⟨?_, ?_⟩
    · simpa [h, Except.toOption] using hR s
    · simp only [h, Except.map]
      trivial

end Moves

end Prog

/-- The points at which programs of one kind can stand suspended. A frame has a result, or
it is about to make an access: `flush` is what the access commits, `after` is where the program
goes on from the store that the access has read, and `raised` where it ends if the access
raises. `faithful` ties a frame to the program it is a point of. -/
structure Frames (σ ε α : Type) where
  Frame : Type
  prog : Frame → Prog σ ε α
  result : Frame → Option (Except ε α)
  flush : Frame → σ → Except ε σ
  after : Frame → σ → Frame
  raised : Frame → ε → Frame
  prog_raised : ∀ f e, prog (raised f e) = .raise e
  faithful : ∀ f, prog f = .endedOr (result f) (.access (flush f) fun s => prog (after f s))

namespace Frames

variable {σ ε α : Type} (F : Frames σ ε α)

/-- What the access that is due makes of the store. -/
def upd (f : F.Frame) (s : σ) : σ := (F.flush f s).toOption.getD s

/-- The point after the access that is due. -/
def next (f : F.Frame) (s : σ) : F.Frame :=
  match F.flush f s with
  | .ok _ => F.after f s
  | .error e => F.raised f e

theorem prog_eq {f : F.Frame} (h : F.result f = none) :
    F.prog f = .atom (F.upd f) fun s => F.prog (F.next f s) := by
  refine (F.faithful f).trans ?_
  rw [h]
  refine congrArg (Prog.atom _) (funext fun s => ?_)
  unfold next
  cases F.flush f s with
  | ok => rfl
  | error e => exact (F.prog_raised f e).symm

variable {F} {f : F.Frame} {s s' : σ} {e : ε}

theorem upd_ok (h : F.flush f s = .ok s') : F.upd f s = s' := by
  simp [upd, h, Except.toOption]

theorem upd_error (h : F.flush f s = .error e) : F.upd f s = s := by
  simp [upd, h, Except.toOption]

theorem next_ok (h : F.flush f s = .ok s') : F.next f s = F.after f s := by
  simp [next, h]

theorem next_error (h : F.flush f s = .error e) : F.next f s = F.raised f e := by
  simp [next, h]

/-- Frames of two kinds side by side. -/
def sum (F G : Frames σ ε α) : Frames σ ε α where
  Frame := F.Frame ⊕ G.Frame
  prog := Sum.elim F.prog G.prog
  result := Sum.elim F.result G.result
  flush := Sum.elim F.flush G.flush
  after f s := f.map (fun f => F.after f s) fun g => G.after g s
  raised f e := f.map (fun f => F.raised f e) fun g => G.raised g e
  prog_raised
    | .inl f, e => F.prog_raised f e
    | .inr g, e => G.prog_raised g e
  faithful
    | .inl f => F.faithful f
    | .inr g => G.faithful g

variable {G : Frames σ ε α} {g : G.Frame}

@[simp] theorem sum_upd_inl : (F.sum G).upd (.inl f) s = F.upd f s := rfl

@[simp] theorem sum_upd_inr : (F.sum G).upd (.inr g) s = G.upd g s := rfl

@[simp] theorem sum_next_inl : (F.sum G).next (.inl f) s = .inl (F.next f s) := by
  change (match F.flush f s with | .ok _ => _ | .error e => _) = _
  unfold next
  cases F.flush f s <;> rfl

@[simp] theorem sum_next_inr : (F.sum G).next (.inr g) s = .inr (G.next g s) := by
  change (match G.flush g s with | .ok _ => _ | .error e => _) = _
  unfold next
  cases G.flush g s <;> rfl

section Finish

variable {β : Type}

/-- Frames that go on, after their last access, with a function of their own. -/
def finish (F : Frames σ ε α) (β : Type) : Frames σ ε β where
  Frame := F.Frame × (α → Except ε β)
  prog f := F.prog f.1 >>= fun a => .ofExcept (f.2 a)
  result f := (F.result f.1).map fun res => res.bind f.2
  flush f := F.flush f.1
  after f s := (F.after f.1 s, f.2)
  raised f e := (F.raised f.1 e, f.2)
  prog_raised f e := by
    rw [F.prog_raised]
    rfl
  faithful f := by
    rw [F.faithful f.1]
    rcases F.result f.1 with - | (e | a)
    · exact Prog.access_bind _ _ _
    · rfl
    · rfl

variable {h : (F.finish β).Frame}

theorem finish_result_none : (F.finish β).result h = none ↔ F.result h.1 = none := by
  change (F.result h.1).map _ = none ↔ _
  simp

end Finish

section OfProg

/-- Programs as the points of themselves. -/
def ofProg (σ ε α : Type) : Frames σ ε α where
  Frame := Prog σ ε α
  prog := id
  result := Prog.result
  flush
    | .atom upd _, s => .ok (upd s)
    | _, s => .ok s
  after
    | .atom _ next, s => next s
    | p, _ => p
  raised _ e := .raise e
  prog_raised _ _ := rfl
  faithful p := by cases p <;> rfl

/-- The access that is due of a program all of whose accesses move the store along `R`. -/
theorem ofProg_moves {R : σ → σ → Prop} {p : Prog σ ε α} (h : p.Moves R)
    (hr : (ofProg σ ε α).result p = none) (s : σ) :
    R s ((ofProg σ ε α).upd p s) ∧ ((ofProg σ ε α).next p s).Moves R := by
  cases p with
  | ret => cases hr
  | raise => cases hr
  | atom upd next => exact h s

end OfProg

end Frames

/-- Sessions named by `ι`, each suspended in a frame of its own, over one shared store. -/
structure Pool {σ ε α : Type} (F : Frames σ ε α) (ι : Type) where
  shared : σ
  frame : ι → F.Frame

namespace Pool

variable {σ ε α ι : Type} [DecidableEq ι] {F : Frames σ ε α} {c d : Pool F ι} {i j : ι}

/-- The next access of session `i`. -/
def access (c : Pool F ι) (i : ι) : Pool F ι :=
  ⟨F.upd (c.frame i) c.shared, Function.update c.frame i (F.next (c.frame i) c.shared)⟩

/-- A session that has no result yet makes its next access. -/
inductive Step : Pool F ι → ι → Pool F ι → Prop
  | access {c : Pool F ι} {i : ι} (h : F.result (c.frame i) = none) : Step c i (c.access i)

section Play

variable {G : Pool F ι → ι → Prop} [∀ c i, Decidable (G c i)]

/-- The pool after a schedule, if every session in it has an access left when it is due, and
the guard allows it. -/
def play (G : Pool F ι → ι → Prop) [∀ c i, Decidable (G c i)] (c : Pool F ι) :
    List ι → Option (Pool F ι)
  | [] => some c
  | i :: is =>
    if (F.result (c.frame i)).isNone ∧ G c i then (c.access i).play G is else none

theorem run_of_play {is : List ι} (h : c.play G is = some d) : Run (Guarded Step G) c is d := by
  induction is generalizing c with
  | nil =>
    cases h
    exact .refl
  | cons i is ih =>
    rw [play] at h
    split at h
    next hg =>
      have hr : F.result (c.frame i) = none := Option.isNone_iff_eq_none.mp hg.1
      exact (Run.single ⟨hg.2, .access hr⟩).append (ih h)
    next => cases h

/-- A schedule that can be played is a run, and what is seen of its end is so. -/
theorem exists_run_of_play {l : List ι} {P : Pool F ι → Prop} [DecidablePred P]
    (h : (c.play G l).any fun d => P d) : ∃ d, Run (Guarded Step G) c l d ∧ P d := by
  obtain ⟨d, hd, hp⟩ := (Option.any_eq_true _ _).mp h
  exact ⟨d, run_of_play hd, of_decide_eq_true hp⟩

end Play

/-- The same step on the programs: the chosen one gives up its first access. -/
theorem Step.prog (h : Step c i d) :
    ∃ upd next, F.prog (c.frame i) = .atom upd next ∧ d.shared = upd c.shared ∧
      (fun k => F.prog (d.frame k)) =
        Function.update (fun k => F.prog (c.frame k)) i (next c.shared) := by
  cases h with
  | access hi =>
    refine ⟨F.upd (c.frame i), fun s => F.prog (F.next (c.frame i) s), F.prog_eq hi, rfl, ?_⟩
    funext k
    by_cases hk : k = i
    · subst k
      simp [Pool.access]
    · simp [Pool.access, hk]

theorem Step.frame_self (h : Step c i d) : d.frame i = F.next (c.frame i) c.shared := by
  cases h
  simp [Pool.access]

theorem Step.frame_of_ne (h : Step c i d) (hj : j ≠ i) : d.frame j = c.frame j := by
  cases h
  simp [Pool.access, hj]

theorem Step.shared (h : Step c i d) : d.shared = F.upd (c.frame i) c.shared := by
  cases h
  rfl

theorem Step.result (h : Step c i d) : F.result (c.frame i) = none := by
  cases h
  assumption

/-- What every access makes smaller bounds the number of accesses of each session. -/
theorem count_add_rank_le (rank : F.Frame → Nat)
    (hrank : ∀ f s, F.result f = none → rank (F.next f s) < rank f) {ls : List ι}
    (h : Run Step c ls d) (i : ι) : ls.count i + rank (d.frame i) ≤ rank (c.frame i) := by
  induction h with
  | refl => simp
  | @tail ls d j e _ hs ih =>
    by_cases hij : i = j
    · subst i
      have hlt := hrank (d.frame j) d.shared hs.result
      rw [hs.frame_self, List.count_append, List.count_singleton_self]
      omega
    · rw [hs.frame_of_ne hij, List.count_append, List.count_singleton,
        if_neg (by simpa using Ne.symm hij)]
      omega

/-- A session without a result is never blocked. -/
theorem exists_step (h : F.result (c.frame i) = none) : ∃ d, Step c i d :=
  ⟨_, .access h⟩

/-- A step determines its target, so a run is determined by its schedule. -/
theorem step_det (c : Pool F ι) (i : ι) (d d' : Pool F ι) (h : Step c i d) (h' : Step c i d') :
    d = d' := by
  cases h
  cases h'
  rfl

/-- Frames of each session that stand for others: as long as these have an access left, it does the
same, and what comes after it stands for what comes after theirs. -/
structure Twins (F : Frames σ ε α) (R : ι → F.Frame → F.Frame → Prop) : Prop where
  due : ∀ i f g, R i f g → F.result f = none → F.result g = none
  upd : ∀ i f g, R i f g → ∀ s, F.upd g s = F.upd f s
  next : ∀ i f g, R i f g → ∀ s, R i (F.next f s) (F.next g s)

/-- Sessions may be exchanged for such ones: the same schedule can be run, and leaves the same
store. -/
theorem run_twins {R : ι → F.Frame → F.Frame → Prop} (hR : Twins F R) {c' : Pool F ι} {ls : List ι}
    (h : Run Step c ls d) (hs : c'.shared = c.shared) (hf : ∀ i, R i (c.frame i) (c'.frame i)) :
    ∃ d', Run Step c' ls d' ∧ d'.shared = d.shared ∧ ∀ i, R i (d.frame i) (d'.frame i) := by
  induction h with
  | refl => exact ⟨c', .refl, hs, hf⟩
  | @tail ls d j e _ hstep ih =>
    obtain ⟨d', hrun, hshared, htwin⟩ := ih
    have hdue := hR.due j _ _ (htwin j) hstep.result
    refine ⟨d'.access j, .tail hrun (.access hdue), ?_, fun i => ?_⟩
    · rw [hstep.shared, ← hR.upd j _ _ (htwin j), ← hshared]
      rfl
    · by_cases hij : i = j
      · subst i
        rw [hstep.frame_self, (Step.access hdue).frame_self, hshared]
        exact hR.next j _ _ (htwin j) d.shared
      · rw [hstep.frame_of_ne hij, (Step.access hdue).frame_of_ne hij]
        exact htwin i

end Pool

end Resumption
