import Convergence.Proofs.Lists
import Convergence.Reconcile.Registry
/-!
# Registries that come from registration

A registration looks at all states of the handler before it claims the first, and each claim after
that is an insertion (`run_enrol`).  So a handler is registered for all of its states or for none.

A registry made by registering handlers gives every state a handler that is meant for it
(`sound_ofHandlers`), every handler has all the states it is meant for (`lookup_of_mem`), and the
handler of one state is also the handler of every other state it is meant for
(`Exclusive.lookup_of_handles`).
-/

namespace Convergence.Registry

variable {r r' : Registry} {h : Handler} {s : State}

/-! ## Insertions -/

lemma insertClaim_of_free {claims : List (State × Handler)} (hfree : ∀ c ∈ claims, c.1 ≠ s) :
    insertClaim s h claims = claims ++ [(s, h)] := by
  induction claims with
  | nil => rfl
  | cons c rest ih =>
    obtain ⟨hc, hrest⟩ := List.forall_mem_cons.1 hfree
    rw [insertClaim, if_neg hc, ih hrest, List.cons_append]

/-- Who has a state already claims nothing more by asking for it again. -/
lemma insertClaim_of_mem {claims : List (State × Handler)}
    (hown : ∀ c ∈ claims, c.1 = s → c.2 = h) (hmem : (s, h) ∈ claims) :
    insertClaim s h claims = claims := by
  induction claims with
  | nil => simp at hmem
  | cons c rest ih =>
    obtain ⟨hc, hrest⟩ := List.forall_mem_cons.1 hown
    rw [insertClaim]
    split
    · next hs => rw [← hs, ← hc hs]
    · next hs =>
      have hlater : (s, h) ∈ rest := by
        rcases List.mem_cons.1 hmem with rfl | hlater
        · exact absurd rfl hs
        · exact hlater
      rw [ih hrest hlater]

/-- A state that is free is not claimed. -/
lemma lookup?_eq_none (hl : r.lookup? s = none) (h : Handler) : (s, h) ∉ r.claims := by
  rw [lookup?, Option.map_eq_none_iff] at hl
  intro hmem
  simpa using List.find?_eq_none.1 hl (s, h) hmem

/-- States that are free are claimed in turn, and each of them once. -/
lemma foldl_insert {states : List State} (hfree : ∀ s ∈ states, r.lookup? s = none) :
    states.foldl (fun r s => r.insert s h) r = ⟨r.claims ++ states.eraseDups.map (·, h)⟩ := by
  induction states using List.reverseRecOn with
  | nil => simp
  | append_singleton states s ih =>
    have hnew : ∀ c ∈ r.claims, c.1 ≠ s := by
      rintro c hc rfl
      exact lookup?_eq_none (hfree c.1 (by simp)) c.2 hc
    rw [List.foldl_concat, ih fun t ht => hfree t (List.mem_append_left _ ht), insert,
      eraseDups_concat]
    split
    · next hs =>
      -- the state has come up before, and is claimed by the handler itself
      rw [insertClaim_of_mem]
      · intro c hc hcs
        rcases List.mem_append.1 hc with hold | hclaim
        · exact absurd hcs (hnew c hold)
        · obtain ⟨t, -, rfl⟩ := List.mem_map.1 hclaim
          rfl
      · exact List.mem_append_right _ (List.mem_map.2 ⟨s, List.mem_eraseDups.2 hs, rfl⟩)
    · next hs =>
      -- nobody has claimed the state, neither before the loop nor in it
      rw [insertClaim_of_free, List.map_append, List.append_assoc, List.map_singleton]
      rintro c hc rfl
      rcases List.mem_append.1 hc with hold | hclaim
      · exact hnew c hold rfl
      · obtain ⟨t, ht, rfl⟩ := List.mem_map.1 hclaim
        exact hs (List.mem_eraseDups.1 ht)

/-- The loop over the states of a handler, whose rounds hand nothing on but the registry. -/
lemma run_loop (states : List State) (h : Handler) (r : Registry) :
    EStateM.run (states.foldlM (fun _ s => modify (·.insert s h)) PUnit.unit :
        InPlace Registry ReconcileError PUnit) r =
      .ok () (states.foldl (fun r s => r.insert s h) r) := by
  induction states generalizing r with
  | nil => rfl
  | cons s rest ih => simp [List.foldlM_cons, ih]

/-! ## One registration -/

lemma firstClaimed?_eq_none {triggers : List State} :
    r.firstClaimed? triggers = none ↔ ∀ s ∈ triggers, r.lookup? s = none := by
  simp [firstClaimed?, List.findSome?_eq_none_iff]

/-- Both checks come before the first claim. -/
lemma run_enrol (h : Handler) (r : Registry) : (enrol h).run r =
    if h.triggers.isEmpty then .error (.noTriggers h.name) r
    else
      match r.firstClaimed? h.triggers with
      | some (s, existing) => .error (.duplicateTrigger s existing.name h.name) r
      | none => .ok () ⟨r.claims ++ h.triggers.eraseDups.map (·, h)⟩ := by
  by_cases hnone : h.triggers.isEmpty = true
  · simp [enrol, hnone]
  · cases hfirst : r.firstClaimed? h.triggers with
    | some c => simp [enrol, hnone, hfirst]
    | none =>
      have hclaimed := foldl_insert (h := h) (firstClaimed?_eq_none.1 hfirst)
      simp [enrol, hnone, hfirst, run_loop, hclaimed]

/-- A handler that is refused has claimed no state. -/
lemma allOrNothing_enrol (h : Handler) : (enrol h).AllOrNothing := by
  intro r e r' hrun
  rw [run_enrol] at hrun
  split at hrun
  · cases hrun
    rfl
  · split at hrun
    · cases hrun
      rfl
    · cases hrun

lemma register_eq (r : Registry) (h : Handler) : r.register h =
    if h.triggers.isEmpty then .error (.noTriggers h.name)
    else
      match r.firstClaimed? h.triggers with
      | some (s, existing) => .error (.duplicateTrigger s existing.name h.name)
      | none => .ok ⟨r.claims ++ h.triggers.eraseDups.map (·, h)⟩ := by
  rw [register, InPlace.changed, InPlace.result, run_enrol]
  by_cases hnone : h.triggers.isEmpty = true
  · rw [if_pos hnone, if_pos hnone]
    rfl
  · rw [if_neg hnone, if_neg hnone]
    cases r.firstClaimed? h.triggers <;> rfl

/-- Every state is claimed by a handler that is meant for it. -/
def Sound (r : Registry) : Prop := ∀ c ∈ r.claims, c.2.handles c.1 = true

/-- No two handlers claim one state, and a handler claims all states that it is meant for. -/
structure Exclusive (r : Registry) : Prop where
  functional : ∀ c ∈ r.claims, ∀ c' ∈ r.claims, c.1 = c'.1 → c.2 = c'.2
  whole : ∀ c ∈ r.claims, ∀ s, c.2.handles s = true → (s, c.2) ∈ r.claims

/-- A handler that can be registered finds its states free, and claims each of them. -/
lemma claims_of_register (hreg : r.register h = .ok r') :
    (∀ s, h.handles s = true → r.lookup? s = none) ∧
      ∀ c, c ∈ r'.claims ↔ c ∈ r.claims ∨ h.handles c.1 = true ∧ c.2 = h := by
  rw [register_eq] at hreg
  split at hreg
  · cases hreg
  · split at hreg
    · cases hreg
    · next hfree =>
      cases hreg
      constructor
      · intro s hs
        have hs : s ∈ h.triggers := by simpa [Handler.handles] using hs
        simpa using List.findSome?_eq_none_iff.1 hfree s hs
      · intro c
        rw [List.mem_append, List.mem_map]
        refine or_congr_right ⟨?_, ?_⟩
        · rintro ⟨s, hs, rfl⟩
          exact ⟨by simpa [Handler.handles] using List.mem_eraseDups.1 hs, rfl⟩
        · rintro ⟨hs, rfl⟩
          exact ⟨c.1, List.mem_eraseDups.2 (by simpa [Handler.handles] using hs), rfl⟩

lemma Sound.handles (hr : r.Sound) (hl : r.lookup? s = some h) : h.handles s = true := by
  obtain ⟨c, hc, rfl⟩ := Option.map_eq_some_iff.1 hl
  have hs : c.1 = s := by simpa using List.find?_some hc
  exact hs ▸ hr c (List.mem_of_find?_eq_some hc)

lemma Sound.register (hr : r.Sound) (hreg : r.register h = .ok r') : r'.Sound := by
  intro c hc
  rcases ((claims_of_register hreg).2 c).1 hc with hold | ⟨hs, hhandler⟩
  · exact hr c hold
  · exact hhandler ▸ hs

lemma Exclusive.lookup?_eq_some_iff (hr : r.Exclusive) :
    r.lookup? s = some h ↔ (s, h) ∈ r.claims := by
  constructor
  · intro hl
    obtain ⟨c, hc, rfl⟩ := Option.map_eq_some_iff.1 hl
    obtain rfl : c.1 = s := by simpa using List.find?_some hc
    exact List.mem_of_find?_eq_some hc
  · intro hmem
    cases hl : r.lookup? s with
    | none => exact absurd hmem (lookup?_eq_none hl h)
    | some h' =>
      obtain ⟨c, hc, rfl⟩ := Option.map_eq_some_iff.1 hl
      have hs : c.1 = s := by simpa using List.find?_some hc
      have hsame : c.2 = h := hr.functional c (List.mem_of_find?_eq_some hc) (s, h) hmem hs
      rw [hsame]

lemma Exclusive.register (hr : r.Exclusive) (hreg : r.register h = .ok r') : r'.Exclusive := by
  obtain ⟨hfree, hclaims⟩ := claims_of_register hreg
  have hnew : ∀ c ∈ r.claims, h.handles c.1 = false := fun c hc =>
    Bool.eq_false_iff.2 fun hs => lookup?_eq_none (hfree c.1 hs) c.2 hc
  refine ⟨fun c hc c' hc' heq => ?_, fun c hc s hs => ?_⟩
  · -- a claim from before and a new one are about different states
    rcases (hclaims c).1 hc with hold | ⟨hs, hhandler⟩ <;>
      rcases (hclaims c').1 hc' with hold' | ⟨hs', hhandler'⟩
    · exact hr.functional c hold c' hold' heq
    · simp [← heq, hnew c hold] at hs'
    · simp [heq, hnew c' hold'] at hs
    · exact hhandler.trans hhandler'.symm
  · -- the new handler has claimed all its states
    rcases (hclaims c).1 hc with hold | ⟨-, hhandler⟩
    · exact (hclaims _).2 (Or.inl (hr.whole c hold s hs))
    · exact (hclaims _).2 (Or.inr ⟨hhandler ▸ hs, hhandler⟩)

/-! ## Registrations one after another -/

/-- What holds of no handlers and is kept by a registration holds of all handlers that are
registered. -/
theorem ofHandlers_invariant (Inv : List Handler → Registry → Prop) (start : Inv [] {})
    (keeps : ∀ done q h q', Inv done q → q.register h = .ok q' → Inv (done ++ [h]) q')
    {hs : List Handler} (hreg : ofHandlers hs = .ok r) : Inv hs r := by
  suffices hfold : ∀ (rest done : List Handler) (q : Registry), Inv done q →
      rest.foldlM Registry.register q = .ok r → Inv (done ++ rest) r from
    hfold hs [] {} start hreg
  intro rest
  induction rest with
  | nil =>
    intro done q hq hreg
    cases hreg
    rwa [List.append_nil]
  | cons h rest ih =>
    intro done q hq hreg
    rw [List.foldlM_cons] at hreg
    cases hfirst : q.register h with
    | error e =>
      rw [hfirst] at hreg
      cases hreg
    | ok q' =>
      rw [hfirst] at hreg
      simpa using ih (done ++ [h]) q' (keeps done q h q' hq hfirst) hreg

variable {hs : List Handler}

/-- The handlers of a registry are meant for the states they are registered for. -/
theorem sound_ofHandlers (h : ofHandlers hs = .ok r) : r.Sound :=
  ofHandlers_invariant (fun _ q => q.Sound) (by simp [Sound])
    (fun _ _ _ _ hq hreg => hq.register hreg) h

/-- Whoever has one of the states that a handler is meant for has all of them. -/
theorem exclusive_ofHandlers (h : ofHandlers hs = .ok r) : r.Exclusive :=
  ofHandlers_invariant (fun _ q => q.Exclusive) ⟨by simp, by simp⟩
    (fun _ _ _ _ hq hreg => hq.register hreg) h

/-- A handler that was registered has all the states that it is meant for. -/
theorem lookup_of_mem (hreg : ofHandlers hs = .ok r) (hmem : h ∈ hs)
    (hhandles : h.handles s = true) : r.lookup? s = some h := by
  have hclaimed : ∀ h ∈ hs, ∀ s, h.handles s = true → (s, h) ∈ r.claims := by
    refine ofHandlers_invariant
      (fun done q => ∀ h ∈ done, ∀ s, h.handles s = true → (s, h) ∈ q.claims)
      (by simp) (fun done q h q' hq hregistered h' hh' s hs => ?_) hreg
    refine ((claims_of_register hregistered).2 (s, h')).2 ?_
    rcases List.mem_append.1 hh' with hold | hnew
    · exact Or.inl (hq h' hold s hs)
    · exact Or.inr ⟨List.mem_singleton.1 hnew ▸ hs, List.mem_singleton.1 hnew⟩
  exact (exclusive_ofHandlers hreg).lookup?_eq_some_iff.2 (hclaimed h hmem s hhandles)

/-- The handler of one state is the handler of every state that it is meant for. -/
theorem Exclusive.lookup_of_handles (hr : r.Exclusive) {s' : State} (hl : r.lookup? s' = some h)
    (hs : h.handles s = true) : r.lookup? s = some h :=
  hr.lookup?_eq_some_iff.2 (hr.whole _ (hr.lookup?_eq_some_iff.1 hl) s hs)

end Convergence.Registry
