import Convergence.Proofs.Dict
import Convergence.Proofs.Lists
import Convergence.Reconcile.Activation
/-!
# The properties that a deployment is given

An endpoint step with a connector gives each of its properties under a key made of the connector and
the property's name (`Step.Gives`).  Both are free texts, which may hold dots, so steps of different
connectors may give the same key; one step gives a key once at most (`Step.Gives.unique`).

The steps are gone through in order, and each step puts what it gives over what was there
(`find?_concat_of_gives`, `find?_concat_of_not_gives`).  So under a key is what the last step gives
that gives it (`find?_eq_some_iff`), and another order of the steps changes what is under a key only
if two steps that give it, with different values, have changed places (`find?_eq_or_swapped`).
-/

namespace Convergence

/-! ## What one step gives -/

namespace Step

variable {s : Step} {key value value' : String}

/-- The step gives the value under the key. -/
def Gives (s : Step) (key value : String) : Prop :=
  s.kind = endpointKind ∧ ∃ connector property, s.connector = some connector ∧
    s.properties.find? property = some value ∧ key = connector ++ "." ++ property

/-- The connector is given, so the key tells the property. -/
lemma Gives.unique (h : s.Gives key value) (h' : s.Gives key value') : value = value' := by
  obtain ⟨-, connector, property, hconnector, hfind, hkey⟩ := h
  obtain ⟨-, connector', property', hconnector', hfind', hkey'⟩ := h'
  obtain rfl : connector = connector' := Option.some.inj (hconnector.symm.trans hconnector')
  have hsame : connector ++ "." ++ property = connector ++ "." ++ property' :=
    hkey.symm.trans hkey'
  obtain rfl : property = property' := by
    simpa [String.toList_append, ← String.toList_inj] using hsame
  exact Option.some.inj (hfind.symm.trans hfind')

lemma mem_stepProperties : (key, value) ∈ stepProperties s ↔ s.Gives key value := by
  rw [stepProperties, Gives]
  cases hconnector : s.connector with
  | none => simp
  | some connector =>
    by_cases hkind : s.kind = endpointKind
    · have hendpoint : s.isEndpoint = true := by simp [isEndpoint, hkind]
      simp only [hendpoint, if_true, List.mem_map, Prod.mk.injEq, hkind, true_and,
        Option.some.injEq]
      constructor
      · rintro ⟨⟨property, v⟩, hmem, rfl, rfl⟩
        exact ⟨connector, property, rfl, (s.properties.mem_entries_iff _).1 hmem, rfl⟩
      · rintro ⟨_, property, rfl, hfind, rfl⟩
        exact ⟨(property, value), (s.properties.mem_entries_iff _).2 hfind, rfl, rfl⟩
    · simp [isEndpoint, hkind]

/-- The step is one of those that may give something. -/
def hasConnector (s : Step) : Bool := s.isEndpoint && s.connector.isSome

lemma stepProperties_of_not_hasConnector (h : s.hasConnector = false) : stepProperties s = [] := by
  rw [stepProperties]
  cases hconnector : s.connector with
  | none => rfl
  | some connector =>
    have hendpoint : s.isEndpoint = false := by simpa [hasConnector, hconnector] using h
    simp [hendpoint]

end Step

/-! ## What a list of steps gives -/

namespace Activation

variable {s t : Step} {steps steps' before after : List Step} {key value : String}

lemma applicationProperties_concat (steps : List Step) (s : Step) :
    applicationProperties (.ofSteps (steps ++ [s])) =
      (stepProperties s).foldl (fun d e => d.insert e.1 e.2)
        (applicationProperties (.ofSteps steps)) := by
  simp [applicationProperties, Revision.ofSteps, Dict.ofList, List.foldl_append]

/-- What the last step gives is put over what was there. -/
lemma find?_concat_of_gives (h : s.Gives key value) :
    (applicationProperties (.ofSteps (steps ++ [s]))).find? key = some value := by
  rw [applicationProperties_concat]
  refine Dict.find?_foldl_insert_of_mem (Step.mem_stepProperties.2 h) (fun e he heq => ?_) _
  exact (Step.mem_stepProperties.1 (heq ▸ he)).unique h

lemma find?_concat_of_not_gives (h : ∀ value, ¬ s.Gives key value) :
    (applicationProperties (.ofSteps (steps ++ [s]))).find? key
      = (applicationProperties (.ofSteps steps)).find? key := by
  rw [applicationProperties_concat]
  refine Dict.find?_foldl_insert_of_not_mem (fun e he heq => ?_) _
  exact h e.2 (Step.mem_stepProperties.1 (heq ▸ he))

lemma find?_eq_none_iff : (applicationProperties (.ofSteps steps)).find? key = none ↔
    ∀ s ∈ steps, ∀ value, ¬ s.Gives key value := by
  induction steps using List.reverseRecOn with
  | nil => simp [applicationProperties, Revision.ofSteps, Dict.ofList]
  | append_singleton steps last ih =>
    by_cases hlast : ∃ value, last.Gives key value
    · obtain ⟨value, hvalue⟩ := hlast
      rw [find?_concat_of_gives hvalue]
      exact iff_of_false (Option.some_ne_none value) fun h => h last (by simp) value hvalue
    · have hnot := not_exists.1 hlast
      rw [find?_concat_of_not_gives hnot, ih]
      refine ⟨fun h s hs => ?_, fun h s hs => h s (List.mem_append_left _ hs)⟩
      rcases List.mem_append.1 hs with hs | hs
      · exact h s hs
      · exact List.mem_singleton.1 hs ▸ hnot

/-- Under a key is what the last step gives that gives it. -/
lemma find?_eq_some_iff : (applicationProperties (.ofSteps steps)).find? key = some value ↔
    ∃ before s after, steps = before ++ s :: after ∧ s.Gives key value ∧
      ∀ t ∈ after, ∀ v, ¬ t.Gives key v := by
  induction steps using List.reverseRecOn with
  | nil => simp [applicationProperties, Revision.ofSteps, Dict.ofList]
  | append_singleton steps last ih =>
    by_cases hlast : ∃ v, last.Gives key v
    · obtain ⟨v, hv⟩ := hlast
      rw [find?_concat_of_gives hv]
      constructor
      · rintro ⟨rfl⟩
        exact ⟨steps, last, [], rfl, hv, by simp⟩
      · rintro ⟨before, s, after, heq, hs, hafter⟩
        rcases append_cons_eq_concat.1 heq with ⟨later, -, rfl⟩ | ⟨-, rfl, -⟩
        · exact absurd hv (hafter last (by simp) v)
        · rw [hv.unique hs]
    · have hnot := not_exists.1 hlast
      rw [find?_concat_of_not_gives hnot, ih]
      constructor
      · rintro ⟨before, s, after, rfl, hs, hafter⟩
        refine ⟨before, s, after ++ [last], by simp, hs, fun t ht => ?_⟩
        rcases List.mem_append.1 ht with ht | ht
        · exact hafter t ht
        · exact List.mem_singleton.1 ht ▸ hnot
      · rintro ⟨before, s, after, heq, hs, hafter⟩
        rcases append_cons_eq_concat.1 heq with ⟨later, rfl, rfl⟩ | ⟨-, rfl, -⟩
        · exact ⟨before, s, later, rfl, hs, fun t ht => hafter t (List.mem_append_left _ ht)⟩
        · exact absurd hs (hnot value)

/-- Only endpoint steps with a connector count. -/
lemma applicationProperties_filter (steps : List Step) :
    applicationProperties (.ofSteps (steps.filter (·.hasConnector)))
      = applicationProperties (.ofSteps steps) := by
  have hgiven : (steps.filter (·.hasConnector)).flatMap stepProperties
      = steps.flatMap stepProperties := by
    induction steps with
    | nil => rfl
    | cons s rest ih =>
      cases h : s.hasConnector with
      | true => simp [h, ih]
      | false => simp [h, ih, Step.stepProperties_of_not_hasConnector h]
  rw [applicationProperties, Revision.ofSteps, hgiven]
  rfl

/-! ## Steps in another order -/

/-- Whoever gives a key, too, comes before the last step that gives it. -/
lemma sublist_of_gives (hafter : ∀ u ∈ after, ∀ v, ¬ u.Gives key v) (hs : s.Gives key value)
    (hmem : s ∈ before ++ t :: after) (hne : s ≠ t) : [s, t].Sublist (before ++ t :: after) := by
  have hbefore : s ∈ before := by
    rcases List.mem_append.1 hmem with hmem | hmem
    · exact hmem
    · rcases List.mem_cons.1 hmem with rfl | hmem
      · exact absurd rfl hne
      · exact absurd hs (hafter s hmem value)
  exact (List.singleton_sublist.2 hbefore).append (List.singleton_sublist.2 List.mem_cons_self)

/-- Two steps give a key, with different values, and have changed places. -/
def Swapped (steps steps' : List Step) (key : String) : Prop :=
  ∃ s t v v', v ≠ v' ∧ s.Gives key v ∧ t.Gives key v' ∧ [s, t].Sublist steps ∧
    [t, s].Sublist steps'

lemma find?_eq_or_swapped (h : steps'.Perm steps) (key : String) :
    (applicationProperties (.ofSteps steps')).find? key
        = (applicationProperties (.ofSteps steps)).find? key ∨ Swapped steps steps' key := by
  cases hfind : (applicationProperties (.ofSteps steps)).find? key with
  | none =>
    refine Or.inl (find?_eq_none_iff.2 fun s hs => ?_)
    exact find?_eq_none_iff.1 hfind s (h.mem_iff.1 hs)
  | some v' =>
    obtain ⟨before, t, after, rfl, ht, hafter⟩ := find?_eq_some_iff.1 hfind
    have ht' : t ∈ steps' := h.mem_iff.2 (by simp)
    cases hfind' : (applicationProperties (.ofSteps steps')).find? key with
    | none => exact absurd ht (find?_eq_none_iff.1 hfind' t ht' v')
    | some v =>
      obtain ⟨before', s, after', rfl, hs, hafter'⟩ := find?_eq_some_iff.1 hfind'
      by_cases hv : v = v'
      · exact Or.inl (congrArg some hv)
      -- each of them is the last that gives the key in one of the orders, and not in the other
      · have hne : s ≠ t := fun heq => hv (hs.unique (heq ▸ ht))
        exact Or.inr ⟨s, t, v, v', hv, hs, ht,
          sublist_of_gives hafter hs (h.mem_iff.1 (by simp)) hne,
          sublist_of_gives hafter' ht ht' hne.symm⟩

/-! ## All of it -/

/-- The properties are what the steps give, and of what they give under one key the last. -/
structure Collects (steps : List Step) (d : Dict String) : Prop where
  contains_iff : ∀ key, d.contains key = true ↔ ∃ s ∈ steps, ∃ value, s.Gives key value
  find?_iff : ∀ key value, d.find? key = some value ↔
    ∃ before s after, steps = before ++ s :: after ∧ s.Gives key value ∧
      ∀ t ∈ after, ∀ v, ¬ t.Gives key v
  /-- Other steps contribute nothing. -/
  others : d = applicationProperties (.ofSteps (steps.filter (·.hasConnector)))
  /-- The order of the steps counts only among those that give the same key. -/
  reordered : ∀ r : Revision, r.spec.steps.Perm steps → ∀ key,
    (applicationProperties r).find? key = d.find? key ∨ Swapped steps r.spec.steps key

/-- The properties of a revision are what its steps give, the last counting under each key. -/
theorem applicationProperties_collects (r : Revision) :
    Collects r.spec.steps (applicationProperties r) where
  contains_iff key := by
    rw [Dict.contains, ← not_iff_not, Bool.not_eq_true, Option.isSome_eq_false_iff,
      Option.isNone_iff_eq_none]
    exact find?_eq_none_iff.trans (by simp)
  find?_iff key value := find?_eq_some_iff
  others := (applicationProperties_filter r.spec.steps).symm
  reordered r' h := find?_eq_or_swapped h

/-- A dot may belong to the connector or to the property. -/
example : (applicationProperties (.ofSteps
    [{ kind := "endpoint", connector := some "sql.prod", properties := .ofList [("url", "old")] },
      { kind := "log", connector := some "sql", properties := .ofList [("prod.url", "none")] },
      { kind := "endpoint", connector := some "sql", properties := .ofList [("prod.url", "new")] }]
    )).entries = [("sql.prod.url", "new")] := by
  decide

end Activation

end Convergence
