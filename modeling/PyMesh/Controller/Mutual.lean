import PyMesh.Controller.Federation

/-! When peering is mutual: what the calls among any controllers leave in their tables. -/
namespace PyMesh

open LTS Relational Resumption Text

namespace FederationManager

/-- The URL that every controller announces as its own. -/
def announced : String := "http://localhost:8000"

/-- The URLs under which a table has peers. -/
def urls (t : Table FederatedController) : List String := t.rows.map FederatedController.url

variable {ι κ : Type} [DecidableEq ι] [DecidableEq κ] {m m' : Mesh ι} {f : Peering ι} {a : ι}
  {existing : Option FederatedController} {row : FederatedController} {url : ι → String}
  {call : κ → PeerCall ι} {c d : Pool (peering ι) κ} {i j : κ} {ls : List κ}

/-- No table has lost a peer. -/
def Grown (m m' : Mesh ι) : Prop := ∀ x, ∀ u ∈ urls (m x), u ∈ urls (m' x)

/-- A commit adds at most its own row, and adds it when no row was found. -/
structure Commits (a : ι) (existing : Option FederatedController) (row : FederatedController)
    (m m' : Mesh ι) : Prop where
  grown : Grown m m'
  added : ∀ x, ∀ u ∈ urls (m' x), u ∈ urls (m x) ∨ (x = a ∧ u = row.url)
  stored : existing = none → row.url ∈ urls (m' a)

theorem commits_insert (h : register a none row m = .ok m') : Commits a none row m m' := by
  unfold register at h
  obtain ⟨t, ht, rfl⟩ := checked_map_eq_ok h
  have hurls : urls t = urls (m a) ++ [row.url] := by
    simp [urls, Table.insert_eq_some_iff.mp ht]
  constructor
  · intro x u hu
    by_cases hx : x = a
    · subst x
      simp [hurls, hu]
    · simpa [hx] using hu
  · intro x u hu
    by_cases hx : x = a
    · subst x
      simpa [hurls] using hu
    · exact Or.inl (by simpa [hx] using hu)
  · intro _
    simp [hurls]

theorem commits_update {e : FederatedController} (h : register a (some e) row m = .ok m') :
    Commits a (some e) row m m' := by
  simp only [register, updatePeer] at h
  split at h
  next => cases h
  next =>
    obtain ⟨t, hu, rfl⟩ := checked_map_eq_ok h
    have hurls : urls t = urls (m a) := by
      simp only [urls, Table.update_eq_some_iff.mp hu, List.map_map]
      refine List.map_congr_left ?_
      intro r _
      dsimp only [Function.comp_apply]
      split <;> rfl
    have hx : ∀ x, urls (Function.update m a t x) = urls (m x) := by
      intro x
      by_cases hx : x = a
      · subst x
        simpa using hurls
      · simp [hx]
    constructor
    · intro x u hm
      rw [hx]
      exact hm
    · intro x u hm
      rw [hx] at hm
      exact Or.inl hm
    · intro hnone
      cases hnone

theorem commits_register (h : register a existing row m = .ok m') :
    Commits a existing row m m' := by
  cases existing with
  | none => exact commits_insert h
  | some e => exact commits_update h

omit [DecidableEq ι] in
theorem mem_urls_of_peerNamed {u : String} {e : FederatedController}
    (h : peerNamed a u m = some e) : u ∈ urls (m a) := by
  have hm := List.mem_of_find?_eq_some h
  have hu : e.url = u := by simpa using List.find?_some h
  exact hu ▸ List.mem_map_of_mem hm

/-- What a call has seen or written so far is in the tables. -/
def Holds (m : Mesh ι) (f : Peering ι) : Prop :=
  match f.point with
  | .selectThere => True
  | .commitThere existing => existing ≠ none → announced ∈ urls (m f.call.callee)
  | .selectHere => announced ∈ urls (m f.call.callee)
  | .commitHere existing => announced ∈ urls (m f.call.callee) ∧
    (existing ≠ none → cleanUrl f.call.url ∈ urls (m f.call.caller))
  | .done (.ok _) => announced ∈ urls (m f.call.callee) ∧
    cleanUrl f.call.url ∈ urls (m f.call.caller)
  | .done (.error _) => True

omit [DecidableEq ι] in
theorem Holds.grown (h : Holds m f) (hg : Grown m m') : Holds m' f := by
  obtain ⟨call, point⟩ := f
  cases point with
  | selectThere => trivial
  | commitThere existing =>
    intro hne
    exact hg _ _ (h hne)
  | selectHere => exact hg _ _ h
  | commitHere existing =>
    refine ⟨hg _ _ h.1, ?_⟩
    intro hne
    exact hg _ _ (h.2 hne)
  | done res =>
    cases res with
    | ok res => exact ⟨hg _ _ h.1, hg _ _ h.2⟩
    | error e => trivial

omit [DecidableEq ι] in
theorem calleeRow_url (call : PeerCall ι) : call.calleeRow.url = announced := by
  have h : Api.handshakeUrl (handshakePayload PeerCall.localInfo) = announced := by decide
  exact h

/-- A call that has succeeded. -/
def Succeeded (f : Peering ι) : Prop := ∃ res, f.point = .done (.ok res)

/-- What an access of a call does: it keeps what holds, it adds the announced URL at the callee
or, when the call succeeds with it, the URL of the callee at the caller. -/
structure Advances (m : Mesh ι) (f : Peering ι) (m' : Mesh ι) (f' : Peering ι) : Prop where
  call : f'.call = f.call
  holds : Holds m' f'
  grown : Grown m m'
  added : ∀ x, ∀ u ∈ urls (m' x), u ∈ urls (m x) ∨ u = announced ∨
    (Succeeded f' ∧ x = f.call.caller ∧ u = cleanUrl f.call.url)

theorem advances (h : Holds m f) (hr : f.result = none) :
    Advances m f ((peering ι).upd f m) ((peering ι).next f m) := by
  obtain ⟨call, point⟩ := f
  cases point with
  | selectThere =>
    refine ⟨rfl, ?_, fun _ _ hu => hu, fun _ _ hu => Or.inl hu⟩
    intro hne
    obtain ⟨e, he⟩ := Option.ne_none_iff_exists'.mp hne
    have hu := mem_urls_of_peerNamed he
    rwa [calleeRow_url] at hu
  | commitThere existing =>
    cases hreg : register call.callee existing call.calleeRow m with
    | ok m' =>
      have hflush : (peering ι).flush ⟨call, .commitThere existing⟩ m = .ok m' := by
        simp only [peering, Peering.flush, hreg]
      rw [Frames.upd_ok hflush, Frames.next_ok hflush]
      have hc := commits_register hreg
      refine ⟨rfl, ?_, hc.grown, ?_⟩
      · cases existing with
        | none =>
          have hstored := hc.stored rfl
          rw [calleeRow_url] at hstored
          exact hstored
        | some e => exact hc.grown _ _ (h (by simp))
      · intro x u hu
        rcases hc.added x u hu with hold | ⟨-, hnew⟩
        · exact Or.inl hold
        · exact Or.inr (Or.inl (hnew.trans (calleeRow_url call)))
    | error e =>
      have hflush : (peering ι).flush ⟨call, .commitThere existing⟩ m =
          .error (handshakeFailed call.url) := by
        simp only [peering, Peering.flush, hreg]
      rw [Frames.upd_error hflush, Frames.next_error hflush]
      exact ⟨rfl, trivial, fun _ _ hu => hu, fun _ _ hu => Or.inl hu⟩
  | selectHere =>
    refine ⟨rfl, ⟨h, ?_⟩, fun _ _ hu => hu, fun _ _ hu => Or.inl hu⟩
    intro hne
    obtain ⟨e, he⟩ := Option.ne_none_iff_exists'.mp hne
    exact mem_urls_of_peerNamed he
  | commitHere existing =>
    cases hreg : register call.caller existing call.callerRow m with
    | ok m' =>
      have hflush : (peering ι).flush ⟨call, .commitHere existing⟩ m = .ok m' := hreg
      rw [Frames.upd_ok hflush, Frames.next_ok hflush]
      have hc := commits_register hreg
      refine ⟨rfl, ⟨hc.grown _ _ h.1, ?_⟩, hc.grown, ?_⟩
      · cases existing with
        | none => exact hc.stored rfl
        | some e => exact hc.grown _ _ (h.2 (by simp))
      · intro x u hu
        rcases hc.added x u hu with hold | ⟨hx, hnew⟩
        · exact Or.inl hold
        · exact Or.inr (Or.inr ⟨⟨_, rfl⟩, hx, hnew⟩)
    | error e =>
      have hflush : (peering ι).flush ⟨call, .commitHere existing⟩ m = .error e := hreg
      rw [Frames.upd_error hflush, Frames.next_error hflush]
      exact ⟨rfl, trivial, fun _ _ hu => hu, fun _ _ hu => Or.inl hu⟩
  | done res => cases hr

/-- The calls, before the first of them has reached its callee; no controller has peers. -/
def sent (call : κ → PeerCall ι) : Pool (peering ι) κ :=
  ⟨fun _ => .empty, fun i => ⟨call i, .selectThere⟩⟩

/-- The tables against the calls: what each call has done holds, and every peer comes from a
handshake or from a call that has succeeded. -/
structure Peers (call : κ → PeerCall ι) (c : Pool (peering ι) κ) : Prop where
  calls : ∀ i, (c.frame i).call = call i
  holds : ∀ i, Holds c.shared (c.frame i)
  known : ∀ x, ∀ u ∈ urls (c.shared x), u = announced ∨
    ∃ j, Succeeded (c.frame j) ∧ (call j).caller = x ∧ cleanUrl (call j).url = u

theorem peers_step (h : Peers call c) (hs : Pool.Step c i d) : Peers call d := by
  have hadv := advances (h.holds i) hs.result
  rw [← hs.shared, ← hs.frame_self] at hadv
  -- A call that has succeeded makes no step, so it stands where it stood.
  have hkept : ∀ j, Succeeded (c.frame j) → Succeeded (d.frame j) := by
    intro j hj
    by_cases hji : j = i
    · subst j
      obtain ⟨res, hp⟩ := hj
      have hr : (c.frame i).result = none := hs.result
      simp only [Peering.result, hp] at hr
      cases hr
    · rw [hs.frame_of_ne hji]
      exact hj
  constructor
  · intro j
    by_cases hji : j = i
    · subst j
      rw [hadv.call]
      exact h.calls i
    · rw [hs.frame_of_ne hji]
      exact h.calls j
  · intro j
    by_cases hji : j = i
    · subst j
      exact hadv.holds
    · rw [hs.frame_of_ne hji]
      exact (h.holds j).grown hadv.grown
  · intro x u hu
    rcases hadv.added x u hu with hold | hnew | ⟨hsucc, hx, hnew⟩
    · rcases h.known x u hold with ha | ⟨j, hj, hx, hurl⟩
      · exact Or.inl ha
      · exact Or.inr ⟨j, hkept j hj, hx, hurl⟩
    · exact Or.inl hnew
    · rw [h.calls i] at hx hnew
      exact Or.inr ⟨i, hsucc, hx.symm, hnew.symm⟩

theorem peers_run (h : Run Pool.Step (sent call) ls c) : Peers call c := by
  refine h.invariant ?_ fun _ _ _ ha hs => peers_step ha hs
  refine ⟨fun _ => rfl, fun _ => trivial, ?_⟩
  intro x u hu
  cases hu

/-- Federation is mutual and loses no peer: after a call has succeeded both controllers have a
row for the other, and different callers have different rows. -/
structure Federated (url : ι → String) (call : κ → PeerCall ι) (c : Pool (peering ι) κ) :
    Prop where
  both : ∀ i, Succeeded (c.frame i) →
    cleanUrl (url (call i).callee) ∈ urls (c.shared (call i).caller) ∧
      cleanUrl (url (call i).caller) ∈ urls (c.shared (call i).callee)
  distinct : ∀ i j, Succeeded (c.frame i) → Succeeded (c.frame j) →
    (call i).callee = (call j).callee → (call i).caller ≠ (call j).caller →
    ∃ r ∈ (c.shared (call i).callee).rows, ∃ r' ∈ (c.shared (call i).callee).rows,
      r.url = cleanUrl (url (call i).caller) ∧ r'.url = cleanUrl (url (call j).caller) ∧ r ≠ r'

omit [DecidableEq κ] in
/-- What a call that has succeeded has left at its callee and at its caller. -/
theorem urls_of_succeeded (hnames : ∀ i, cleanUrl (call i).url = cleanUrl (url (call i).callee))
    (hp : Peers call c) (hi : Succeeded (c.frame i)) :
    announced ∈ urls (c.shared (call i).callee) ∧
      cleanUrl (url (call i).callee) ∈ urls (c.shared (call i).caller) := by
  obtain ⟨res, hdone⟩ := hi
  have hh := hp.holds i
  simp only [Holds, hdone, hp.calls i, hnames i] at hh
  exact hh

/-- Whatever the order of the accesses of calls that name each other's URLs: in every state that
is reached, federation is mutual exactly when for each call that has succeeded the caller's URL is
the announced one, or the callee has succeeded in calling that URL, and different callers of one
controller have URLs that differ in more than the slashes at their ends. -/
theorem federated_iff (hnames : ∀ i, cleanUrl (call i).url = cleanUrl (url (call i).callee))
    (h : Run Pool.Step (sent call) ls c) :
    Federated url call c ↔
      (∀ i, Succeeded (c.frame i) → cleanUrl (url (call i).caller) = announced ∨
        ∃ j, Succeeded (c.frame j) ∧ (call j).caller = (call i).callee ∧
          cleanUrl (url (call j).callee) = cleanUrl (url (call i).caller)) ∧
      ∀ i j, Succeeded (c.frame i) → Succeeded (c.frame j) →
        (call i).callee = (call j).callee → (call i).caller ≠ (call j).caller →
        cleanUrl (url (call i).caller) ≠ cleanUrl (url (call j).caller) := by
  have hp := peers_run h
  constructor
  · intro hf
    constructor
    · intro i hi
      rcases hp.known _ _ (hf.both i hi).2 with ha | ⟨j, hj, hcaller, hu⟩
      · exact Or.inl ha
      · rw [hnames j] at hu
        exact Or.inr ⟨j, hj, hcaller, hu⟩
    · intro i j hi hj hcallee hne hsame
      obtain ⟨r, hr, r', hr', hru, hru', hrows⟩ := hf.distinct i j hi hj hcallee hne
      apply hrows
      apply Table.eq_of_clash hr hr'
      exact Or.inr (hru.trans (hsame.trans hru'.symm))
  · rintro ⟨hknown, hdiffer⟩
    have hback : ∀ i, Succeeded (c.frame i) →
        cleanUrl (url (call i).caller) ∈ urls (c.shared (call i).callee) := by
      intro i hi
      rcases hknown i hi with ha | ⟨j, hj, hcaller, hu⟩
      · rw [ha]
        exact (urls_of_succeeded hnames hp hi).1
      · rw [← hcaller, ← hu]
        exact (urls_of_succeeded hnames hp hj).2
    constructor
    · intro i hi
      exact ⟨(urls_of_succeeded hnames hp hi).2, hback i hi⟩
    · intro i j hi hj hcallee hne
      obtain ⟨r, hr, hru⟩ := List.mem_map.mp (hback i hi)
      obtain ⟨r', hr', hru'⟩ := List.mem_map.mp (hback j hj)
      rw [← hcallee] at hr'
      refine ⟨r, hr, r', hr', hru, hru', ?_⟩
      rintro rfl
      exact hdiffer i j hi hj hcallee hne (hru.symm.trans hru')

/-- A controller on the local host, and three others. -/
def publicUrl : Fin 4 → String
  | 0 => "http://localhost:8000"
  | 1 => "http://cr1.example.com:8000"
  | 2 => "http://cr2.example.com:8000"
  | 3 => "http://cr3.example.com:8000/"

/-- A call of one of them that names another. -/
def naming (caller callee : Fin 4) : PeerCall (Fin 4) where
  caller := caller
  callee := callee
  url := publicUrl callee
  callerUuid := toString caller.val ++ toString callee.val
  calleeUuid := toString callee.val ++ toString caller.val
  replyUuid := ""

/-- Two controllers call a third one, which calls each of them. -/
def mutualCall (i : Fin 4) : PeerCall (Fin 4) :=
  { (match i with
      | 0 => naming 1 2
      | 1 => naming 2 1
      | 2 => naming 3 2
      | 3 => naming 2 3) with
    callerUuid := "caller" ++ toString i.val
    calleeUuid := "callee" ++ toString i.val }

/-- All four calls are on their way at once; each caller is known to its callee by the call that
comes back. -/
theorem federated_iff_mutual : ∃ c,
    Run Pool.Step (sent mutualCall) [0, 1, 0, 3, 1, 2, 0, 3, 2, 1, 0, 3, 2, 1, 3, 2] c ∧
    (∀ i, Succeeded (c.frame i)) ∧
    urls (c.shared 2) = [announced, "http://cr1.example.com:8000", "http://cr3.example.com:8000"] ∧
    Federated publicUrl mutualCall c := by
  obtain ⟨c, hrun, hres, hurls⟩ := Pool.exists_run_of_play (G := fun _ _ => True)
    (c := sent mutualCall)
    (P := fun c => (∀ i, (peering (Fin 4)).result (c.frame i) =
      some (.ok (mutualCall i).response)) ∧ urls (c.shared 2) =
        [announced, "http://cr1.example.com:8000", "http://cr3.example.com:8000"])
    (l := [0, 1, 0, 3, 1, 2, 0, 3, 2, 1, 0, 3, 2, 1, 3, 2]) (by decide +kernel)
  have hsucc : ∀ i, Succeeded (c.frame i) := fun i => ⟨_, Peering.result_eq_some_iff.mp (hres i)⟩
  refine ⟨c, hrun.of_guarded, hsucc, hurls, ?_⟩
  refine (federated_iff (by decide +kernel) hrun.of_guarded).mpr ⟨?_, ?_⟩
  · have hback : ∀ i, ∃ j, (mutualCall j).caller = (mutualCall i).callee ∧
        cleanUrl (publicUrl (mutualCall j).callee) =
          cleanUrl (publicUrl (mutualCall i).caller) := by
      decide +kernel
    intro i _
    obtain ⟨j, hcaller, hurl⟩ := hback i
    exact Or.inr ⟨j, hsucc j, hcaller, hurl⟩
  · have hdiffer : ∀ i j, (mutualCall i).callee = (mutualCall j).callee →
        (mutualCall i).caller ≠ (mutualCall j).caller →
          cleanUrl (publicUrl (mutualCall i).caller) ≠
            cleanUrl (publicUrl (mutualCall j).caller) := by
      decide +kernel
    exact fun i j _ _ => hdiffer i j

/-- Two others that call a third are one peer to it, and neither under its own URL. -/
theorem federated_fails : (∀ a b, publicUrl a = publicUrl b → a = b) ∧ ∃ c,
    Run Pool.Step (sent fun b : Bool => naming (if b then 1 else 2) 3)
      [true, true, true, false, false, true, false, false] c ∧
    (∀ b, Succeeded (c.frame b)) ∧ urls (c.shared 3) = [announced] ∧
    ¬ Federated publicUrl (fun b : Bool => naming (if b then 1 else 2) 3) c := by
  obtain ⟨c, hrun, hres, hurls⟩ := Pool.exists_run_of_play (G := fun _ _ => True)
    (c := sent fun b : Bool => naming (if b then 1 else 2) 3)
    (P := fun c => (∀ b, (peering (Fin 4)).result (c.frame b) =
      some (.ok (naming (if b then 1 else 2) 3).response)) ∧ urls (c.shared 3) = [announced])
    (l := [true, true, true, false, false, true, false, false]) (by decide +kernel)
  have hsucc : ∀ b, Succeeded (c.frame b) := by
    intro b
    exact ⟨(naming (if b then 1 else 2) 3).response, Peering.result_eq_some_iff.mp (hres b)⟩
  refine ⟨by decide +kernel, c, hrun.of_guarded, hsucc, hurls, ?_⟩
  intro hf
  have hmem : cleanUrl (publicUrl 1) ∈ urls (c.shared 3) := (hf.both true (hsucc true)).2
  rw [hurls] at hmem
  exact absurd hmem (by decide +kernel)

end FederationManager

end PyMesh
