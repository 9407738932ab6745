import Mathlib.Tactic.Lemma
import Convergence.Record.Integration
/-!
# What the operations on a record do

The operations change a record in place.  First comes what a run of each ends in (`run_publish`,
`run_promote`, `run_applyUpdate`): a check that refuses stands before every write, so each of them
is all or nothing (`allOrNothing_publish`, `allOrNothing_promote`, `allOrNothing_applyUpdate`).

Then, for the operations as functions of the record, what each has done if it was not refused:
`publish_eq_ok`, `promotedHistory_eq_ok`, `promote_eq_ok` and `applyUpdate_eq_ok`.  Everything else
about the operations is derived from these; so it is that what a handler reports leaves alone what
belongs to the owner of the record (`SameOwn`).
-/

namespace Convergence.Integration

variable {i i' : Integration} {r : Revision} {v : Version}

/-! ## Runs in place -/

/-- The history of revisions with one more active revision, as `Edit.enter` makes it. -/
def promotedHistory (i : Integration) (version : Version) (promoted : Revision) :
    Except RecordError (List Revision) :=
  match i.revision? version with
  | some existing =>
    if existing.isImmutable then
      if existing.spec = promoted.spec then .ok i.revisions else .error (.immutableRevision version)
    else .ok (replaceVersion version promoted i.revisions)
  | none => .ok (i.revisions ++ [promoted])

/-- The record with what a report puts on it beside a promotion. -/
def reported (i : Integration) (u : StatusUpdate) (now : Timestamp) : Integration :=
  { i with
    gitRepo := u.gitRepo <|> i.gitRepo
    current := some u.state
    statusMessage := u.message
    stepsDone := u.stepsDone
    lastUpdated := some now }

lemma run_publish (i : Integration) (r : Revision) : (Edit.publish r).run i =
    match i.revision? (i.versionFor r) with
    | some _ => .error (.duplicateRevision (i.versionFor r)) i
    | none =>
      .ok (i.versionFor r)
        { i with revisions := i.revisions ++ [{ r with version := some (i.versionFor r) }] } := by
  cases h : i.revision? (i.versionFor r) <;> simp [Edit.publish, h, -bind_pure_comp]

lemma run_enter (i : Integration) (v : Version) (r : Revision) : (Edit.enter v r).run i =
    match i.promotedHistory v r with
    | .ok history => .ok () { i with revisions := history }
    | .error e => .error e i := by
  rw [promotedHistory]
  cases h : i.revision? v with
  | none => simp [Edit.enter, h]
  | some existing =>
    by_cases hactive : existing.isImmutable = true
    · by_cases hspec : existing.spec = r.spec <;> simp [Edit.enter, h, hactive, hspec]
    · simp [Edit.enter, h, hactive]

/-- Only the history can refuse a promotion, and it does so before anything is written. -/
lemma run_promote (i : Integration) (r : Revision) : (Edit.promote r).run i =
    match i.promotedHistory (i.versionFor r)
        { r with version := some (i.versionFor r), currentState := .active } with
    | .ok history =>
      .ok (i.versionFor r)
        { i with revisions := history, deployed := some (i.versionFor r), draft := none }
    | .error e => .error e i := by
  cases h : i.promotedHistory (i.versionFor r)
      { r with version := some (i.versionFor r), currentState := .active } <;>
    simp [Edit.promote, run_enter, h, -bind_pure_comp]

/-- A report is written down after its promotion, if that was not refused. -/
lemma run_applyUpdate (i : Integration) (u : StatusUpdate) (now : Timestamp) :
    (Edit.applyUpdate u now).run i =
      match u.promoted with
      | none => .ok () (i.reported u now)
      | some r =>
        match (Edit.promote r).run i with
        | .ok _ j => .ok () (j.reported u now)
        | .error e j => .error e j := by
  cases hpromoted : u.promoted with
  | none => cases hrepo : u.gitRepo <;> simp [Edit.applyUpdate, hpromoted, hrepo, reported]
  | some r =>
    cases hrun : (Edit.promote r).run i <;> cases hrepo : u.gitRepo <;>
      simp [Edit.applyUpdate, hpromoted, hrun, hrepo, reported]

/-! ## All or nothing -/

lemma allOrNothing_publish (r : Revision) : (Edit.publish r).AllOrNothing := by
  intro i e j hrun
  rw [run_publish] at hrun
  split at hrun
  · cases hrun
    rfl
  · cases hrun

lemma allOrNothing_promote (r : Revision) : (Edit.promote r).AllOrNothing := by
  intro i e j hrun
  rw [run_promote] at hrun
  split at hrun
  · cases hrun
  · cases hrun
    rfl

/-- A report that is refused has been refused by its promotion. -/
lemma allOrNothing_applyUpdate (u : StatusUpdate) (now : Timestamp) :
    (Edit.applyUpdate u now).AllOrNothing := by
  intro i e j hrun
  rw [run_applyUpdate] at hrun
  split at hrun
  · cases hrun
  · next r _ =>
    -- what stands after the promotion is never refused
    cases hpromote : (Edit.promote r).run i with
    | ok v k => simp [hpromote] at hrun
    | error e' k =>
      obtain ⟨rfl, rfl⟩ : e' = e ∧ k = j := by simpa [hpromote] using hrun
      exact allOrNothing_promote r i e' k hpromote

/-! ## The operations as functions -/

lemma publish_eq (i : Integration) (r : Revision) : i.publish r =
    match i.revision? (i.versionFor r) with
    | some _ => .error (.duplicateRevision (i.versionFor r))
    | none =>
      .ok ({ i with revisions := i.revisions ++ [{ r with version := some (i.versionFor r) }] },
        i.versionFor r) := by
  rw [publish, InPlace.result, run_publish]
  cases i.revision? (i.versionFor r) <;> rfl

lemma promote_eq (i : Integration) (r : Revision) : i.promote r =
    match i.promotedHistory (i.versionFor r)
        { r with version := some (i.versionFor r), currentState := .active } with
    | .ok history =>
      .ok ({ i with revisions := history, deployed := some (i.versionFor r), draft := none },
        i.versionFor r)
    | .error e => .error e := by
  rw [promote, InPlace.result, run_promote]
  cases i.promotedHistory (i.versionFor r)
    { r with version := some (i.versionFor r), currentState := .active } <;> rfl

lemma applyUpdate_eq (i : Integration) (u : StatusUpdate) (now : Timestamp) : i.applyUpdate u now =
    match u.promoted with
    | none => .ok (i.reported u now)
    | some r => (i.promote r).map (·.1.reported u now) := by
  rw [applyUpdate, InPlace.changed, InPlace.result, run_applyUpdate]
  cases u.promoted with
  | none => rfl
  | some r =>
    simp only [promote, InPlace.result]
    cases (Edit.promote r).run i <;> rfl

/-- A published revision has a version that was free, and comes last. -/
lemma publish_eq_ok (h : i.publish r = .ok (i', v)) :
    v = i.versionFor r ∧ i.revision? v = none ∧
      i' = { i with revisions := i.revisions ++ [{ r with version := some v }] } := by
  rw [publish_eq] at h
  split at h
  · cases h
  · next hfree =>
    cases h
    exact ⟨rfl, hfree, rfl⟩

/-- A promoted revision finds an active one that runs the same, takes the place of one that is not
active, or comes last. -/
lemma promotedHistory_eq_ok {history : List Revision} (h : i.promotedHistory v r = .ok history) :
    (∃ existing, i.revision? v = some existing ∧ existing.isImmutable = true ∧
        existing.spec = r.spec ∧ history = i.revisions) ∨
      (∃ existing, i.revision? v = some existing ∧ existing.isImmutable = false ∧
        history = replaceVersion v r i.revisions) ∨
      (i.revision? v = none ∧ history = i.revisions ++ [r]) := by
  rw [promotedHistory] at h
  split at h
  · next existing he =>
    split at h
    · next ha =>
      split at h
      · next hspec =>
        cases h
        exact Or.inl ⟨existing, he, ha, hspec, rfl⟩
      · cases h
    · next ha =>
      cases h
      exact Or.inr (Or.inl ⟨existing, he, by simpa using ha, rfl⟩)
  · next he =>
    cases h
    exact Or.inr (Or.inr ⟨he, rfl⟩)

lemma promote_eq_ok (h : i.promote r = .ok (i', v)) :
    v = i.versionFor r ∧ ∃ history,
      i.promotedHistory v { r with version := some v, currentState := .active } = .ok history ∧
      i' = { i with revisions := history, deployed := some v, draft := none } := by
  rw [promote_eq] at h
  split at h
  · next history hh =>
    cases h
    exact ⟨rfl, history, hh, rfl⟩
  · cases h

/-- A promotion is accepted if an active revision of its version runs the same. -/
lemma exists_promote (h : ∀ existing, i.revision? (i.versionFor r) = some existing →
    existing.isImmutable = true → existing.spec = r.spec) :
    ∃ j, i.promote r = .ok (j, i.versionFor r) := by
  simp only [promote_eq, promotedHistory]
  cases he : i.revision? (i.versionFor r) with
  | none => exact ⟨_, rfl⟩
  | some existing =>
    by_cases ha : existing.isImmutable = true
    · simp only [ha, h existing he ha, if_true]
      exact ⟨_, rfl⟩
    · simp only [ha, Bool.false_eq_true, if_false]
      exact ⟨_, rfl⟩

/-- An update that is taken over first promotes what it promotes, and then sets what it reports. -/
lemma applyUpdate_eq_ok {u : StatusUpdate} {now : Timestamp} (h : i.applyUpdate u now = .ok i') :
    ∃ j : Integration,
      ((u.promoted = none ∧ j = i) ∨ ∃ r v, u.promoted = some r ∧ i.promote r = .ok (j, v)) ∧
      i' = { j with
        gitRepo := u.gitRepo <|> j.gitRepo
        current := some u.state
        statusMessage := u.message
        stepsDone := u.stepsDone
        lastUpdated := some now } := by
  rw [applyUpdate_eq] at h
  split at h
  · next hr =>
    cases h
    exact ⟨i, Or.inl ⟨hr, rfl⟩, rfl⟩
  · next r hr =>
    cases hp : i.promote r with
    | error e => simp [hp, Except.map] at h
    | ok p =>
      obtain ⟨j, v⟩ := p
      rw [hp] at h
      cases h
      exact ⟨j, Or.inr ⟨r, v, hr, hp⟩, rfl⟩

/-! ## What belongs to the owner -/

/-- What belongs to the owner of a record is the same in both. -/
structure SameOwn (i j : Integration) : Prop where
  id : j.id = i.id
  name : j.name = i.name
  desired : j.desired = i.desired
  steps : j.steps = i.steps
  token : j.token = i.token
  createdAt : j.createdAt = i.createdAt

variable {j : Integration}

lemma SameOwn.refl (i : Integration) : i.SameOwn i := ⟨rfl, rfl, rfl, rfl, rfl, rfl⟩

lemma SameOwn.trans {k : Integration} (h : i.SameOwn j) (h' : j.SameOwn k) : i.SameOwn k :=
  ⟨h'.id.trans h.id, h'.name.trans h.name, h'.desired.trans h.desired, h'.steps.trans h.steps,
    h'.token.trans h.token, h'.createdAt.trans h.createdAt⟩

lemma sameOwn_applyUpdate {u : StatusUpdate} {now : Timestamp} (h : i.applyUpdate u now = .ok j) :
    i.SameOwn j := by
  obtain ⟨k, ⟨-, rfl⟩ | ⟨r, v, -, hp⟩, rfl⟩ := applyUpdate_eq_ok h
  · exact ⟨rfl, rfl, rfl, rfl, rfl, rfl⟩
  · obtain ⟨-, history, -, rfl⟩ := promote_eq_ok hp
    exact ⟨rfl, rfl, rfl, rfl, rfl, rfl⟩

lemma sameOwn_recordFailure (i : Integration) (message : String) (now : Timestamp) :
    i.SameOwn (i.recordFailure message now) := ⟨rfl, rfl, rfl, rfl, rfl, rfl⟩

end Convergence.Integration
