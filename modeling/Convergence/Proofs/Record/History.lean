import Mathlib.Tactic.Lemma
import Convergence.Proofs.Record.Operations
import Convergence.Reconcile.Deactivation
/-!
# The history of revisions

A record comes into being blank and is changed by operations, each of which may be refused.  This
file follows the history of revisions through all of them.

The main results are

* `continues_after`: no operation removes or reorders revisions, or touches an active one;
* `SoundHistory.after`: versions stay present and distinct, and the deployed one stays active;
* `history_of_changes`: both, and what they mean for a teardown, for every sequence of operations.
-/

namespace Convergence

/-- One operation on a record. -/
inductive Change where
  | publish (r : Revision)
  | promote (r : Revision)
  | applyUpdate (u : StatusUpdate) (now : Timestamp)
  | recordFailure (message : String) (now : Timestamp)
  /-- The operator wants a state. -/
  | want (s : State)
  /-- A state is put down as observed. -/
  | observe (s : State)
  | entrust (t : Token)
  /-- The draft is saved. -/
  | draft (r : Revision)
  | plan (steps : List Step)

namespace Integration

/-- The record of a new integration. -/
def blank (id : IntegrationId) (name : String) (createdAt : Timestamp) : Integration :=
  { id, name, createdAt }

/-- The record that is there after an operation, refused or not. -/
def after (i : Integration) : Change → Integration
  | .publish r => (Edit.publish r).after i
  | .promote r => (Edit.promote r).after i
  | .applyUpdate u now => (Edit.applyUpdate u now).after i
  | .recordFailure message now => i.recordFailure message now
  | .want s => { i with desired := some s }
  | .observe s => { i with current := some s }
  | .entrust t => { i with token := some t }
  | .draft r => { i with draft := some r }
  | .plan steps => { i with steps := steps }

/-- The record after a sequence of operations. -/
def afterAll (i : Integration) (changes : List Change) : Integration := changes.foldl after i

/-! ## Histories that go on -/

/-- A history of revisions goes on: the versions keep their places, and every active revision stays
where and as it was. -/
structure Continues (before after : List Revision) : Prop where
  versions : before.map (·.version) <+: after.map (·.version)
  active : ∀ (k : Nat) (r : Revision), before[k]? = some r → r.isImmutable = true →
    after[k]? = some r

namespace Continues

lemma refl (l : List Revision) : Continues l l := ⟨List.prefix_rfl, fun _ _ h _ => h⟩

lemma append (l m : List Revision) : Continues l (l ++ m) := by
  refine ⟨by simp, fun k r hk _ => ?_⟩
  have hlt : k < l.length := (List.getElem?_eq_some_iff.1 hk).1
  rwa [List.getElem?_append_left hlt]

/-- The first revision of a version stays the first if it is active: the versions before it are
still the same. -/
lemma find?_eq {before after : List Revision} (h : Continues before after) {v : Version}
    {r : Revision} (hr : before.find? (fun s => s.version == some v) = some r)
    (hactive : r.isImmutable = true) : after.find? (fun s => s.version == some v) = some r := by
  obtain ⟨hv, k, hk, rfl, hfirst⟩ := List.find?_eq_some_iff_getElem.1 hr
  obtain ⟨hk', heq⟩ :=
    List.getElem?_eq_some_iff.1 (h.active k _ (List.getElem?_eq_getElem hk) hactive)
  have hversion : ∀ (j : Nat) (hj : j < before.length) (hj' : j < after.length),
      after[j].version = before[j].version := by
    intro j hj hj'
    have := h.versions.getElem (i := j) (by simpa using hj)
    simpa using this.symm
  refine List.find?_eq_some_iff_getElem.2 ⟨hv, k, hk', heq, fun j hjk => ?_⟩
  rw [hversion j (by omega) (by omega)]
  exact hfirst j hjk

end Continues

/-! ## The first revision of a version -/

/-- The revision stands at this place of the history, and is the first one of the version. -/
structure FirstAt (v : Version) (history : List Revision) (k : Nat) (s : Revision) : Prop where
  there : history[k]? = some s
  version : s.version = some v
  first : ∀ (j : Nat) (t : Revision), j < k → history[j]? = some t → t.version ≠ some v

lemma revision?_eq_some_iff {i : Integration} {v : Version} {s : Revision} :
    i.revision? v = some s ↔ ∃ k, FirstAt v i.revisions k s := by
  rw [revision?, List.find?_eq_some_iff_getElem]
  constructor
  · rintro ⟨hv, k, hk, rfl, hfirst⟩
    refine ⟨k, List.getElem?_eq_getElem hk, by simpa using hv, fun j t hjk hj => ?_⟩
    obtain ⟨hlt, rfl⟩ := List.getElem?_eq_some_iff.1 hj
    simpa using hfirst j hjk
  · rintro ⟨k, hthere, hv, hfirst⟩
    obtain ⟨hk, rfl⟩ := List.getElem?_eq_some_iff.1 hthere
    refine ⟨by simpa using hv, k, hk, rfl, fun j hjk => ?_⟩
    simpa using hfirst j _ hjk (List.getElem?_eq_getElem (Nat.lt_trans hjk hk))

lemma revision?_eq_none_iff {i : Integration} {v : Version} :
    i.revision? v = none ↔ ∀ s ∈ i.revisions, s.version ≠ some v := by
  simp [revision?]

/-- What is replaced is the first revision of the version, wherever it stands. -/
lemma replaceVersion_eq_set {v : Version} {s : Revision} {l : List Revision} {k : Nat}
    (h : FirstAt v l k s) (r : Revision) : replaceVersion v r l = l.set k r := by
  induction l generalizing k with
  | nil => simpa using h.there
  | cons t rest ih =>
    rw [replaceVersion]
    cases k with
    | zero =>
      obtain rfl : t = s := by simpa using h.there
      rw [if_pos h.version, List.set_cons_zero]
    | succ k =>
      have hne : t.version ≠ some v := h.first 0 t k.succ_pos rfl
      have hrest : FirstAt v rest k s :=
        ⟨by simpa using h.there, h.version, fun j t' hjk hj =>
          h.first (j + 1) t' (Nat.succ_lt_succ hjk) (by simpa using hj)⟩
      rw [if_neg hne, ih hrest, List.set_cons_succ]

/-! ## Replacing the first revision of a version -/

lemma map_version_replaceVersion {v : Version} {s : Revision} (hs : s.version = some v)
    (l : List Revision) : (replaceVersion v s l).map (·.version) = l.map (·.version) := by
  induction l with
  | nil => rfl
  | cons r rest ih =>
    rw [replaceVersion]
    split
    · next h => simp [hs, h]
    · simp [ih]

lemma find?_replaceVersion {v : Version} {s r : Revision} (hs : s.version = some v)
    {l : List Revision} (h : l.find? (fun t => t.version == some v) = some r) :
    (replaceVersion v s l).find? (fun t => t.version == some v) = some s := by
  induction l with
  | nil => simp at h
  | cons t rest ih =>
    rw [replaceVersion]
    split
    · simp [hs]
    · next hne =>
      have hrest : rest.find? (fun t => t.version == some v) = some r := by simpa [hne] using h
      simp [hne, ih hrest]

/-- Every other revision stays; so does every active one, if the one replaced is not active. -/
lemma getElem?_replaceVersion {v : Version} {s r : Revision} {l : List Revision} {hole : Nat}
    (h : FirstAt v l hole r) (hr : r.isImmutable = false) {k : Nat} {t : Revision}
    (hk : l[k]? = some t) (ht : t.isImmutable = true) :
    (replaceVersion v s l)[k]? = some t := by
  have hne : hole ≠ k := by
    rintro rfl
    obtain rfl : r = t := by simpa [h.there] using hk
    simp [hr] at ht
  rw [replaceVersion_eq_set h, List.getElem?_set_ne hne, hk]

lemma continues_replaceVersion {v : Version} {s r : Revision} {l : List Revision} {hole : Nat}
    (hs : s.version = some v) (h : FirstAt v l hole r) (hr : r.isImmutable = false) :
    Continues l (replaceVersion v s l) := by
  refine ⟨?_, fun k t hk ht => getElem?_replaceVersion h hr hk ht⟩
  simp [map_version_replaceVersion hs]

/-! ## What promotion does to the history -/

section Promotion

variable {i : Integration} {v : Version} {r : Revision} {history : List Revision}

lemma continues_promotedHistory (hr : r.version = some v)
    (h : i.promotedHistory v r = .ok history) : Continues i.revisions history := by
  rcases promotedHistory_eq_ok h with ⟨_, _, _, _, rfl⟩ | ⟨existing, he, ha, rfl⟩ | ⟨_, rfl⟩
  · exact .refl _
  · obtain ⟨hole, hfirst⟩ := revision?_eq_some_iff.1 he
    exact continues_replaceVersion hr hfirst ha
  · exact .append _ _

/-- After a promotion the first revision of the version is active, and runs what was promoted. -/
lemma find?_promotedHistory (hr : r.version = some v) (hactive : r.isImmutable = true)
    (h : i.promotedHistory v r = .ok history) :
    ∃ s, history.find? (fun t => t.version == some v) = some s ∧ s.isImmutable = true ∧
      s.spec = r.spec := by
  rcases promotedHistory_eq_ok h with
    ⟨existing, he, ha, hspec, rfl⟩ | ⟨existing, he, _, rfl⟩ | ⟨he, rfl⟩
  · exact ⟨existing, he, ha, hspec⟩
  · exact ⟨r, find?_replaceVersion hr he, hactive, rfl⟩
  · refine ⟨r, ?_, hactive, rfl⟩
    have hnone : i.revisions.find? (fun t => t.version == some v) = none := he
    simp [List.find?_append, hnone, hr]

/-- After a promotion the deployed revision runs what was promoted. -/
lemma activeRevision?_promote {j : Integration} (h : i.promote r = .ok (j, v)) :
    ∃ s, j.activeRevision? = some s ∧ s.spec = r.spec := by
  obtain ⟨rfl, history, hh, rfl⟩ := promote_eq_ok h
  obtain ⟨s, hs, -, hspec⟩ := find?_promotedHistory rfl rfl hh
  exact ⟨s, hs, hspec⟩

/-- A promotion brings no version into the history but its own, and that one only if it is not
there. -/
lemma versions_promotedHistory (hr : r.version = some v)
    (h : i.promotedHistory v r = .ok history) :
    history.map (·.version) = i.revisions.map (·.version) ∨
      (i.revision? v = none ∧
        history.map (·.version) = i.revisions.map (·.version) ++ [some v]) := by
  rcases promotedHistory_eq_ok h with ⟨_, _, _, _, rfl⟩ | ⟨_, _, _, rfl⟩ | ⟨he, rfl⟩
  · exact Or.inl rfl
  · exact Or.inl (map_version_replaceVersion hr _)
  · exact Or.inr ⟨he, by simp [hr]⟩

end Promotion

/-! ## What an operation does to the history -/

/-- What an operation can do to the history: nothing, add a revision of a new version, or make one
the deployed one. -/
lemma after_cases (i : Integration) (c : Change) :
    ((i.after c).revisions = i.revisions ∧ (i.after c).deployed = i.deployed) ∨
      (∃ (r : Revision) (v : Version), i.revision? v = none ∧ (i.after c).deployed = i.deployed ∧
        (i.after c).revisions = i.revisions ++ [{ r with version := some v }]) ∨
      ∃ (r : Revision) (v : Version), (i.after c).deployed = some v ∧
        i.promotedHistory v { r with version := some v, currentState := .active }
          = .ok (i.after c).revisions := by
  cases c with
  | publish r =>
    rw [after]
    cases h : i.publish r with
    | error e => exact Or.inl (by simp [(allOrNothing_publish r).after_of_result_eq_error h])
    | ok p =>
      obtain ⟨-, hfree, hi⟩ := publish_eq_ok h
      rw [InPlace.after_of_result_eq_ok h, hi]
      exact Or.inr (Or.inl ⟨r, p.2, hfree, rfl, rfl⟩)
  | promote r =>
    rw [after]
    cases h : i.promote r with
    | error e => exact Or.inl (by simp [(allOrNothing_promote r).after_of_result_eq_error h])
    | ok p =>
      obtain ⟨-, history, hh, hi⟩ := promote_eq_ok h
      rw [InPlace.after_of_result_eq_ok h, hi]
      exact Or.inr (Or.inr ⟨r, p.2, rfl, hh⟩)
  | applyUpdate u now =>
    rw [after]
    cases h : i.applyUpdate u now with
    | error e =>
      have hresult := InPlace.changed_eq_error.1 h
      exact Or.inl (by simp [(allOrNothing_applyUpdate u now).after_of_result_eq_error hresult])
    | ok i' =>
      rw [InPlace.after_of_result_eq_ok (InPlace.changed_eq_ok.1 h)]
      obtain ⟨j, ⟨-, rfl⟩ | ⟨r, v, -, hp⟩, rfl⟩ := applyUpdate_eq_ok h
      · exact Or.inl ⟨rfl, rfl⟩
      · obtain ⟨-, history, hh, rfl⟩ := promote_eq_ok hp
        exact Or.inr (Or.inr ⟨r, v, rfl, hh⟩)
  | recordFailure message now => exact Or.inl ⟨rfl, rfl⟩
  | want s => exact Or.inl ⟨rfl, rfl⟩
  | observe s => exact Or.inl ⟨rfl, rfl⟩
  | entrust t => exact Or.inl ⟨rfl, rfl⟩
  | draft r => exact Or.inl ⟨rfl, rfl⟩
  | plan steps => exact Or.inl ⟨rfl, rfl⟩

/-- No operation removes or reorders revisions, or touches an active one. -/
theorem continues_after (i : Integration) (c : Change) :
    Continues i.revisions (i.after c).revisions := by
  rcases after_cases i c with ⟨h, _⟩ | ⟨r, v, _, _, h⟩ | ⟨r, v, _, h⟩
  · rw [h]
    exact .refl _
  · rw [h]
    exact .append _ _
  · exact continues_promotedHistory rfl h

/-- What an operation does to the versions in the history: nothing, or it adds one that was free. -/
lemma versions_after (i : Integration) (c : Change) :
    (i.after c).revisions.map (·.version) = i.revisions.map (·.version) ∨
      ∃ v, i.revision? v = none ∧
        (i.after c).revisions.map (·.version) = i.revisions.map (·.version) ++ [some v] := by
  rcases after_cases i c with ⟨h, _⟩ | ⟨r, v, hfree, _, h⟩ | ⟨r, v, _, h⟩
  · exact Or.inl (by rw [h])
  · exact Or.inr ⟨v, hfree, by simp [h]⟩
  · rcases versions_promotedHistory rfl h with heq | ⟨hfree, heq⟩
    · exact Or.inl heq
    · exact Or.inr ⟨v, hfree, heq⟩

/-! ## Histories in order -/

/-- The history of an integration is in order: every revision has a version of its own, and the
deployed one is there and active. -/
structure SoundHistory (i : Integration) : Prop where
  versioned : ∀ r ∈ i.revisions, ∃ v, r.version = some v
  distinct : (i.revisions.map (·.version)).Nodup
  deployed : ∀ v, i.deployed = some v → ∃ r, i.revision? v = some r ∧ r.isImmutable = true

lemma soundHistory_blank (id : IntegrationId) (name : String) (createdAt : Timestamp) :
    SoundHistory (blank id name createdAt) :=
  ⟨by simp [blank], by simp [blank], by simp [blank]⟩

lemma not_mem_versions {i : Integration} {v : Version} (h : i.revision? v = none) :
    some v ∉ i.revisions.map (·.version) := by
  intro hmem
  obtain ⟨r, hr, hv⟩ := List.mem_map.1 hmem
  have := List.find?_eq_none.1 h r hr
  exact this (by simp [hv])

namespace SoundHistory

variable {i : Integration}

/-- A history in order stays in order. -/
theorem after (h : SoundHistory i) (c : Change) : SoundHistory (i.after c) where
  versioned := by
    intro r hr
    have hmem : r.version ∈ (i.after c).revisions.map (·.version) := List.mem_map_of_mem hr
    have hold : ∀ w ∈ i.revisions.map (·.version), ∃ v, w = some v := by
      intro w hw
      obtain ⟨s, hs, rfl⟩ := List.mem_map.1 hw
      exact h.versioned s hs
    rcases versions_after i c with heq | ⟨v, _, heq⟩
    · exact hold _ (heq ▸ hmem)
    · rw [heq] at hmem
      rcases List.mem_append.1 hmem with hw | hw
      · exact hold _ hw
      · exact ⟨v, by simpa using hw⟩
  distinct := by
    rcases versions_after i c with heq | ⟨v, hfree, heq⟩
    · rw [heq]
      exact h.distinct
    · rw [heq]
      refine List.nodup_append.2 ⟨h.distinct, by simp, ?_⟩
      rintro w hw w' hw' rfl
      rw [List.mem_singleton.1 hw'] at hw
      exact not_mem_versions hfree hw
  deployed := by
    intro v hv
    -- the pointer is as before, or the operation was a promotion of the version
    rcases after_cases i c with ⟨_, hdep⟩ | ⟨_, _, _, hdep, _⟩ | ⟨r, w, hdep, hh⟩
    · obtain ⟨s, hs, ha⟩ := h.deployed v (hdep ▸ hv)
      exact ⟨s, (continues_after i c).find?_eq hs ha, ha⟩
    · obtain ⟨s, hs, ha⟩ := h.deployed v (hdep ▸ hv)
      exact ⟨s, (continues_after i c).find?_eq hs ha, ha⟩
    · obtain rfl : w = v := by simpa using hdep.symm.trans hv
      obtain ⟨s, hs, ha, -⟩ := find?_promotedHistory rfl rfl hh
      exact ⟨s, hs, ha⟩

/-- So it does through any sequence of operations. -/
theorem afterAll (h : SoundHistory i) (changes : List Change) :
    SoundHistory (i.afterAll changes) := by
  induction changes generalizing i with
  | nil => exact h
  | cons c rest ih => exact ih (h.after c)

/-- The deployed revision is in the history, under the version of the pointer, and active. -/
lemma activeRevision (h : SoundHistory i) {v : Version} (hv : i.deployed = some v) :
    ∃ r ∈ i.revisions, i.activeRevision? = some r ∧ r.version = some v ∧
      r.currentState = .active := by
  obtain ⟨r, hr, ha⟩ := h.deployed v hv
  refine ⟨r, List.mem_of_find?_eq_some hr, by simp [activeRevision?, hv, hr], ?_, ?_⟩
  · simpa using List.find?_some hr
  · simpa [Revision.isImmutable] using ha

/-- Once a revision is published, the one that a teardown acts on has a version. -/
lemma version_select (h : SoundHistory i) (hne : i.revisions ≠ []) :
    ∃ v, (Deactivation.select i).version = some v := by
  rw [Deactivation.select]
  cases hact : i.activeRevision? with
  | some r =>
    obtain ⟨v, hv, hr⟩ := Option.bind_eq_some_iff.1 hact
    exact ⟨v, by simpa using List.find?_some hr⟩
  | none =>
    have hlast := List.getLast?_eq_some_getLast hne
    simpa [hlast] using h.versioned _ (List.getLast_mem hne)

end SoundHistory

/-- A teardown of a revision with a version does not fail for want of one. -/
lemma execute_deactivate_ne_missingVersion {c : Call} {v : Version}
    (h : c.revision.version = some v) (e : Environment) (id : String) :
    (Handler.deactivate.execute c e).1 ≠ .failed (.missingVersion id) := by
  simp only [Handler.execute, Handler.deactivate, Deactivation.attempt, h]
  split
  · split <;> simp
  · split <;> simp

/-- **The history of revisions is in order after every sequence of operations**, refused ones
included: versions are present and distinct, the deployed revision is an active one of its version,
no further operation touches an active revision or the places of the others, and with a revision
published a teardown never lacks a version. -/
theorem history_of_changes (id : IntegrationId) (name : String) (createdAt : Timestamp)
    (changes : List Change) :
    let i := (blank id name createdAt).afterAll changes
    (∀ r ∈ i.revisions, ∃ v, r.version = some v) ∧
      (i.revisions.map (·.version)).Nodup ∧
      (∀ v, i.deployed = some v → ∃ r ∈ i.revisions, i.activeRevision? = some r ∧
        r.version = some v ∧ r.currentState = .active) ∧
      (∀ c, Continues i.revisions (i.after c).revisions) ∧
      (i.revisions ≠ [] →
        (∃ v, (Handler.deactivate.select i).version = some v) ∧
        ∀ clock moment e id', (Handler.deactivate.execute
            { integration := i, revision := Handler.deactivate.select i, clock, moment } e).1
          ≠ .failed (.missingVersion id')) := by
  intro i
  have h : SoundHistory i := (soundHistory_blank id name createdAt).afterAll changes
  refine ⟨h.versioned, h.distinct, fun v hv => h.activeRevision hv, continues_after i, ?_⟩
  intro hne
  obtain ⟨v, hv⟩ := h.version_select hne
  exact ⟨⟨v, hv⟩, fun clock moment e id' => execute_deactivate_ne_missingVersion hv e id'⟩

end Integration

end Convergence
