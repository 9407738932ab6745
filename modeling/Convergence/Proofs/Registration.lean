import Mathlib.Data.List.Induction
import Mathlib.Data.Set.Card
import Convergence.Proofs.Lists
import Convergence.Proofs.Registry
/-!
# First come, first served

Handlers ask to be registered one after another, in place, and whatever one of them leaves behind is
what the next one finds (`afterAll`).  One that is refused leaves everything as it was.  At every
point a state belongs to the handler that was registered and is meant for it
(`Owns`), and to nobody else.  So it can be told without the registry who will be refused, and why
(`Refused`).

The main statement is `registers_in_turn`.  It also says that handlers that are registered all at
once make the same registry, or fail like the first of them that is refused.
-/

namespace Convergence.Registry

/-- The registry that is there after a handler asked to be registered, refused or not. -/
def after (r : Registry) (h : Handler) : Registry := (enrol h).after r

/-- The registry after handlers asked to be registered, one after another. -/
def afterAll (hs : List Handler) : Registry := hs.foldl after {}

/-- The handler was registered one of the times that it asked. -/
def Admitted (hs : List Handler) (h : Handler) : Prop :=
  ∃ before later r, hs = before ++ h :: later ∧ (afterAll before).register h = .ok r

/-- The state belongs to the handler: it was registered, and is meant for the state. -/
def Owns (hs : List Handler) (h : Handler) (s : State) : Prop :=
  Admitted hs h ∧ h.handles s = true

/-- The state belongs to nobody. -/
def Free (hs : List Handler) (s : State) : Prop := ∀ h, ¬ Owns hs h s

/-- Why a handler is refused that asks after the others. -/
inductive Refused (hs : List Handler) (h : Handler) : ReconcileError → Prop where
  | idle (hnone : h.triggers = []) : Refused hs h (.noTriggers h.name)
  /-- One of its states belongs to a handler already, the earlier ones in its list to nobody. -/
  | clash {free rest : List State} {s : State} {owner : Handler}
      (hsplit : h.triggers = free ++ s :: rest) (hfree : ∀ t ∈ free, Free hs t)
      (howner : Owns hs owner s) : Refused hs h (.duplicateTrigger s owner.name h.name)

/-- No handler is refused. -/
def NoneRefused (hs : List Handler) : Prop :=
  ∀ before h later, hs = before ++ h :: later → ∀ e, ¬ Refused before h e

/-- The first handler that is refused is refused for this reason. -/
def FirstRefused (hs : List Handler) (e : ReconcileError) : Prop :=
  ∃ before h later, hs = before ++ h :: later ∧ NoneRefused before ∧ Refused before h e

variable {r r' : Registry} {h g : Handler} {hs : List Handler} {s : State} {e : ReconcileError}

/-! ## One registration -/

lemma firstClaimed?_eq_some {triggers : List State} {owner : Handler} :
    r.firstClaimed? triggers = some (s, owner) ↔ ∃ free rest, triggers = free ++ s :: rest ∧
      (∀ t ∈ free, r.lookup? t = none) ∧ r.lookup? s = some owner := by
  rw [firstClaimed?, List.findSome?_eq_some_iff]
  constructor
  · rintro ⟨free, s', rest, hsplit, hs', hfree⟩
    obtain ⟨owner', howner, heq⟩ := Option.map_eq_some_iff.1 hs'
    cases heq
    exact ⟨free, rest, hsplit, by simpa using hfree, howner⟩
  · rintro ⟨free, rest, hsplit, hfree, howner⟩
    exact ⟨free, s, rest, hsplit, by simp [howner], by simpa using hfree⟩

/-- A handler with states, all of which are free, claims each of them once. -/
lemma register_eq_ok : r.register h = .ok r' ↔
    (h.triggers ≠ [] ∧ ∀ s ∈ h.triggers, r.lookup? s = none) ∧
      r' = ⟨r.claims ++ h.triggers.eraseDups.map (·, h)⟩ := by
  rw [register_eq, ← firstClaimed?_eq_none]
  by_cases hnone : h.triggers = []
  · simp [hnone]
  · cases hfirst : r.firstClaimed? h.triggers with
    | none => simp [hnone, eq_comm (b := r')]
    | some c => simp [hnone]

/-- Any other handler is refused: it has no states, or one that is taken. -/
lemma register_eq_error : r.register h = .error e ↔
    (h.triggers = [] ∧ e = .noTriggers h.name) ∨
      ∃ s owner, r.firstClaimed? h.triggers = some (s, owner) ∧
        e = .duplicateTrigger s owner.name h.name := by
  rw [register_eq]
  by_cases hnone : h.triggers = []
  · simp [hnone, firstClaimed?, eq_comm (a := e)]
  · cases hfirst : r.firstClaimed? h.triggers with
    | none => simp [hnone]
    | some c =>
      obtain ⟨s, owner⟩ := c
      simp [hnone, eq_comm (a := e), and_assoc]

lemma after_of_ok (hreg : r.register h = .ok r') : r.after h = r' :=
  InPlace.after_of_result_eq_ok (InPlace.changed_eq_ok.1 hreg)

lemma after_of_error (hreg : r.register h = .error e) : r.after h = r :=
  (allOrNothing_enrol h).after_of_result_eq_error (InPlace.changed_eq_error.1 hreg)

/-- A property that registrations keep is kept by those who ask, registered or not. -/
lemma after_of_register {p : Registry → Prop} (hr : p r)
    (hreg : ∀ r', r.register h = .ok r' → p r') : p (r.after h) := by
  cases hcase : r.register h with
  | ok r' => exact after_of_ok hcase ▸ hreg r' hcase
  | error e => exact (after_of_error hcase).symm ▸ hr

lemma mem_claims_after {c : State × Handler} : c ∈ (r.after h).claims ↔
    c ∈ r.claims ∨ (∃ r', r.register h = .ok r') ∧ h.handles c.1 = true ∧ c.2 = h := by
  cases hreg : r.register h with
  | ok r' => simp [after_of_ok hreg, (claims_of_register hreg).2]
  | error e => simp [after_of_error hreg]

/-! ## Who owns a state -/

@[simp] lemma afterAll_nil : afterAll [] = {} := rfl

lemma afterAll_concat (hs : List Handler) (h : Handler) :
    afterAll (hs ++ [h]) = (afterAll hs).after h := by
  rw [afterAll, List.foldl_concat, ← afterAll]

lemma admitted_concat : Admitted (hs ++ [g]) h ↔
    Admitted hs h ∨ (∃ r, (afterAll hs).register g = .ok r) ∧ h = g := by
  constructor
  · rintro ⟨before, later, r, hsplit, hreg⟩
    rcases append_cons_eq_concat.1 hsplit with ⟨later', rfl, -⟩ | ⟨rfl, rfl, -⟩
    · exact Or.inl ⟨before, later', r, rfl, hreg⟩
    · exact Or.inr ⟨⟨r, hreg⟩, rfl⟩
  · rintro (⟨before, later, r, rfl, hreg⟩ | ⟨⟨r, hreg⟩, rfl⟩)
    · exact ⟨before, later ++ [g], r, by simp, hreg⟩
    · exact ⟨hs, [], r, rfl, hreg⟩

/-- The claims of a registry are what was registered. -/
lemma mem_claims_afterAll : (s, h) ∈ (afterAll hs).claims ↔ Owns hs h s := by
  induction hs using List.reverseRecOn generalizing h s with
  | nil => simp [Owns, Admitted]
  | append_singleton hs g ih =>
    rw [afterAll_concat, mem_claims_after, ih, Owns, Owns, admitted_concat]
    constructor
    · rintro (⟨hadmitted, hhandles⟩ | ⟨hreg, hhandles, rfl⟩)
      · exact ⟨Or.inl hadmitted, hhandles⟩
      · exact ⟨Or.inr ⟨hreg, rfl⟩, hhandles⟩
    · rintro ⟨hadmitted | ⟨hreg, rfl⟩, hhandles⟩
      · exact Or.inl ⟨hadmitted, hhandles⟩
      · exact Or.inr ⟨hreg, hhandles, rfl⟩

lemma exclusive_afterAll (hs : List Handler) : (afterAll hs).Exclusive := by
  induction hs using List.reverseRecOn with
  | nil => exact ⟨by simp, by simp⟩
  | append_singleton hs g ih =>
    rw [afterAll_concat]
    exact after_of_register ih fun r' hreg => ih.register hreg

lemma lookup?_afterAll : (afterAll hs).lookup? s = some h ↔ Owns hs h s :=
  (exclusive_afterAll hs).lookup?_eq_some_iff.trans mem_claims_afterAll

lemma lookup?_afterAll_eq_none : (afterAll hs).lookup? s = none ↔ Free hs s := by
  rw [Option.eq_none_iff_forall_ne_some]
  exact forall_congr' fun h => not_congr lookup?_afterAll

/-! ## How many states are owned -/

/-- No state is claimed twice. -/
lemma nodup_states_afterAll (hs : List Handler) : ((afterAll hs).claims.map Prod.fst).Nodup := by
  induction hs using List.reverseRecOn with
  | nil => simp
  | append_singleton hs g ih =>
    rw [afterAll_concat]
    refine after_of_register (p := fun r => (r.claims.map Prod.fst).Nodup) ih fun r' hreg => ?_
    obtain ⟨⟨-, hfree⟩, rfl⟩ := register_eq_ok.1 hreg
    rw [List.map_append, List.map_map, List.nodup_append]
    refine ⟨ih, by simpa [Function.comp_def] using nodup_eraseDups g.triggers, ?_⟩
    rintro s hs t ht rfl
    obtain ⟨c, hc, rfl⟩ := List.mem_map.1 hs
    have htrigger : c.1 ∈ g.triggers := by simpa [Function.comp_def] using ht
    exact lookup?_eq_none (hfree c.1 htrigger) c.2 hc

lemma size_afterAll (hs : List Handler) : (afterAll hs).size = {s | ¬ Free hs s}.ncard := by
  have howned : {s | ¬ Free hs s} = ((afterAll hs).claims.map Prod.fst).toFinset := by
    ext s
    simp only [Set.mem_ofPred_eq, Free, not_forall, not_not, List.coe_toFinset, List.mem_map,
      Prod.exists, exists_and_right, exists_eq_right]
    exact exists_congr fun h => mem_claims_afterAll.symm
  rw [howned, Set.ncard_coe_finset, List.toFinset_card_of_nodup (nodup_states_afterAll hs), size,
    List.length_map]

/-! ## Who is refused -/

lemma register_afterAll_eq_ok : (afterAll hs).register h = .ok r ↔
    (h.triggers ≠ [] ∧ ∀ s ∈ h.triggers, Free hs s) ∧ r = afterAll (hs ++ [h]) := by
  have hfree : (h.triggers ≠ [] ∧ ∀ s ∈ h.triggers, (afterAll hs).lookup? s = none) ↔
      h.triggers ≠ [] ∧ ∀ s ∈ h.triggers, Free hs s := by
    simp only [lookup?_afterAll_eq_none]
  constructor
  · intro hreg
    refine ⟨hfree.1 (register_eq_ok.1 hreg).1, ?_⟩
    rw [afterAll_concat, after_of_ok hreg]
  · rintro ⟨hadmissible, rfl⟩
    have hreg := register_eq_ok.2 ⟨hfree.2 hadmissible, rfl⟩
    rw [afterAll_concat, after_of_ok hreg, hreg]

lemma register_afterAll_eq_error : (afterAll hs).register h = .error e ↔ Refused hs h e := by
  rw [register_eq_error]
  simp only [firstClaimed?_eq_some, lookup?_afterAll, lookup?_afterAll_eq_none]
  constructor
  · rintro (⟨hnone, rfl⟩ | ⟨s, owner, ⟨free, rest, hsplit, hfree, howner⟩, rfl⟩)
    · exact .idle hnone
    · exact .clash hsplit hfree howner
  · intro hrefused
    cases hrefused with
    | idle hnone => exact Or.inl ⟨hnone, rfl⟩
    | clash hsplit hfree howner => exact Or.inr ⟨_, _, ⟨_, _, hsplit, hfree, howner⟩, rfl⟩

/-! ## All at once -/

lemma noneRefused_concat :
    NoneRefused (hs ++ [h]) ↔ NoneRefused hs ∧ ∀ e, ¬ Refused hs h e := by
  constructor
  · intro hnone
    refine ⟨fun before g later hsplit => ?_, hnone hs h [] rfl⟩
    exact hnone before g (later ++ [h]) (by simp [hsplit])
  · rintro ⟨hnone, hlast⟩ before g later hsplit
    rcases append_cons_eq_concat.1 hsplit with ⟨later', hsplit, -⟩ | ⟨rfl, rfl, -⟩
    · exact hnone before g later' hsplit
    · exact hlast

/-- Nobody is refused, or somebody is the first to be. -/
lemma noneRefused_or_firstRefused (hs : List Handler) :
    NoneRefused hs ∨ ∃ e, FirstRefused hs e := by
  induction hs using List.reverseRecOn with
  | nil => exact Or.inl fun before h later hsplit => by simp at hsplit
  | append_singleton hs h ih =>
    rcases ih with hnone | ⟨e, before, g, later, rfl, hnone, hrefused⟩
    · by_cases hlast : ∃ e, Refused hs h e
      · obtain ⟨e, hrefused⟩ := hlast
        exact Or.inr ⟨e, hs, h, [], rfl, hnone, hrefused⟩
      · exact Or.inl (noneRefused_concat.2 ⟨hnone, not_exists.1 hlast⟩)
    · exact Or.inr ⟨e, before, g, later ++ [h], by simp, hnone, hrefused⟩

lemma ofHandlers_of_noneRefused (hnone : NoneRefused hs) :
    ofHandlers hs = .ok (afterAll hs) := by
  induction hs using List.reverseRecOn with
  | nil => rfl
  | append_singleton hs h ih =>
    obtain ⟨hnone, hlast⟩ := noneRefused_concat.1 hnone
    rw [ofHandlers, List.foldlM_append, ← ofHandlers, ih hnone]
    cases hreg : (afterAll hs).register h with
    | ok r =>
      rw [afterAll_concat, after_of_ok hreg]
      change List.foldlM register (afterAll hs) [h] = .ok r
      rw [List.foldlM_cons, hreg]
      rfl
    | error e => exact absurd (register_afterAll_eq_error.1 hreg) (hlast e)

lemma ofHandlers_of_firstRefused (hfirst : FirstRefused hs e) : ofHandlers hs = .error e := by
  obtain ⟨before, h, later, rfl, hnone, hrefused⟩ := hfirst
  rw [ofHandlers, List.foldlM_append, ← ofHandlers, ofHandlers_of_noneRefused hnone]
  change List.foldlM register (afterAll before) (h :: later) = .error e
  rw [List.foldlM_cons, register_afterAll_eq_error.2 hrefused]
  rfl

lemma ofHandlers_eq_ok : ofHandlers hs = .ok r ↔ NoneRefused hs ∧ r = afterAll hs := by
  constructor
  · intro hbuilt
    rcases noneRefused_or_firstRefused hs with hnone | ⟨e, hfirst⟩
    · rw [ofHandlers_of_noneRefused hnone] at hbuilt
      exact ⟨hnone, (Except.ok.inj hbuilt).symm⟩
    · rw [ofHandlers_of_firstRefused hfirst] at hbuilt
      cases hbuilt
  · rintro ⟨hnone, rfl⟩
    exact ofHandlers_of_noneRefused hnone

lemma ofHandlers_eq_error : ofHandlers hs = .error e ↔ FirstRefused hs e := by
  refine ⟨fun hfailed => ?_, ofHandlers_of_firstRefused⟩
  rcases noneRefused_or_firstRefused hs with hnone | ⟨e', hfirst⟩
  · rw [ofHandlers_of_noneRefused hnone] at hfailed
    cases hfailed
  · rw [ofHandlers_of_firstRefused hfirst] at hfailed
    cases hfailed
    exact hfirst

/-! ## The whole -/

/-- What comes of handlers that ask to be registered, and of the next one that does. -/
structure InTurn (hs : List Handler) : Prop where
  /-- The next handler is registered just if it has states and all of them are free. -/
  admitted : ∀ h r, (afterAll hs).register h = .ok r ↔
    (h.triggers ≠ [] ∧ ∀ s ∈ h.triggers, Free hs s) ∧ r = afterAll (hs ++ [h])
  /-- It is refused for the first of its states that is taken, or for having none. -/
  refused : ∀ h e, (afterAll hs).register h = .error e ↔ Refused hs h e
  /-- The run of a registration that is refused ends in the registry that it began with. -/
  unchanged : ∀ h e, Refused hs h e →
    (enrol h).run (afterAll hs) = .error e (afterAll hs) ∧ afterAll (hs ++ [h]) = afterAll hs
  lookup : ∀ s h, (afterAll hs).lookup? s = some h ↔ Owns hs h s
  size : (afterAll hs).size = {s | ¬ Free hs s}.ncard
  /-- All at once makes the same registry, just if nobody is refused. -/
  built : ∀ r, ofHandlers hs = .ok r ↔ NoneRefused hs ∧ r = afterAll hs
  failed : ∀ e, ofHandlers hs = .error e ↔ FirstRefused hs e

/-- Handlers are registered first come, first served, each for all of its states or for none,
whoever asked and was refused before. -/
theorem registers_in_turn (hs : List Handler) : InTurn hs where
  admitted := fun _ _ => register_afterAll_eq_ok
  refused := fun _ _ => register_afterAll_eq_error
  unchanged := fun h e hrefused => by
    have hreg : (afterAll hs).register h = .error e := register_afterAll_eq_error.2 hrefused
    refine ⟨(allOrNothing_enrol h).run_eq_error.2 ⟨InPlace.changed_eq_error.1 hreg, rfl⟩, ?_⟩
    rw [afterAll_concat, after_of_error hreg]
  lookup := fun _ _ => lookup?_afterAll
  size := size_afterAll hs
  built := fun _ => ofHandlers_eq_ok
  failed := fun _ => ofHandlers_eq_error

-- a state listed twice is no clash; whoever asks for a state that is taken gets none of his states
example :
    let ask (name : String) (triggers : List State) := Handler.scripted 0 name triggers []
    let r := afterAll [ask "up" [.active, .active], ask "both" [.draft, .active], ask "idle" [],
      ask "down" [.inactive, .draft]]
    State.all.map (fun s => (r.lookup? s).map (·.name)) =
        [some "down", none, some "up", some "down", none, none] ∧ r.size = 3 := by
  decide

end Convergence.Registry
