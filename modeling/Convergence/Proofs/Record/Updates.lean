import Convergence.Proofs.Record.History
/-!
# What a handler reports is taken over entirely or not at all

Only the promotion that a report may carry can be refused, and it comes first: if the first
published revision of its version is active and runs something else, the whole report is refused.
`promote_eq_error_iff` says so for a promotion, and `applyUpdate_eq_error_iff` for a report.

The main result is `applyUpdate_entirely_or_not`.  It holds for every record, also for one whose
history has revisions without a version or several of one version.
-/

namespace Convergence.Integration

variable {i j : Integration} {r : Revision} {v : Version} {u : StatusUpdate} {now : Timestamp}

/-! ## Promotions that are refused -/

/-- The first published revision of the version under which this one would be promoted is active,
and runs something else. -/
def Clashes (i : Integration) (r : Revision) : Prop :=
  ∃ k s, FirstAt (i.versionFor r) i.revisions k s ∧ s.currentState = .active ∧ s.spec ≠ r.spec

/-- The history cannot take in a revision exactly if the first one of its version is active and runs
something else. -/
lemma promotedHistory_eq_error_iff {e : RecordError} :
    i.promotedHistory v r = .error e ↔
      (∃ k s, FirstAt v i.revisions k s ∧ s.currentState = .active ∧ s.spec ≠ r.spec) ∧
        e = .immutableRevision v := by
  constructor
  · intro h
    rw [promotedHistory] at h
    split at h
    · next s hs =>
      obtain ⟨k, hfirst⟩ := revision?_eq_some_iff.1 hs
      split at h
      · next hactive =>
        split at h
        · cases h
        · next hspec =>
          cases h
          exact ⟨⟨k, s, hfirst, by simpa [Revision.isImmutable] using hactive, hspec⟩, rfl⟩
      · cases h
    · cases h
  · rintro ⟨⟨k, s, hfirst, hactive, hspec⟩, rfl⟩
    have hs : i.revision? v = some s := revision?_eq_some_iff.2 ⟨k, hfirst⟩
    simp [promotedHistory, hs, Revision.isImmutable, hactive, hspec]

/-- A promotion is refused exactly if it clashes. -/
lemma promote_eq_error_iff {e : RecordError} :
    i.promote r = .error e ↔ i.Clashes r ∧ e = .immutableRevision (i.versionFor r) := by
  rw [promote_eq]
  have hrefused := promotedHistory_eq_error_iff (i := i) (v := i.versionFor r) (e := e)
    (r := { r with version := some (i.versionFor r), currentState := .active })
  refine Iff.trans ?_ hrefused
  cases i.promotedHistory (i.versionFor r)
      { r with version := some (i.versionFor r), currentState := .active } <;> simp

/-- A report is refused exactly if it carries a promotion that clashes. -/
lemma applyUpdate_eq_error_iff {e : RecordError} :
    i.applyUpdate u now = .error e ↔
      ∃ r, u.promoted = some r ∧ i.Clashes r ∧ e = .immutableRevision (i.versionFor r) := by
  rw [applyUpdate_eq]
  cases hu : u.promoted with
  | none => simp
  | some r =>
    have hrefused := promote_eq_error_iff (i := i) (r := r) (e := e)
    cases hp : i.promote r with
    | error e' => simpa [Except.map, hp] using hrefused
    | ok p => simpa [Except.map, hp] using hrefused

/-! ## Reports that are taken over -/

/-- The history after a promotion.  What is promoted bears the version. -/
inductive Promoted (v : Version) (r : Revision) (history : List Revision) :
    List Revision → Prop where
  /-- The first revision of the version is active, and runs the same. -/
  | kept {k : Nat} {s : Revision} (hs : FirstAt v history k s) (hactive : s.currentState = .active)
      (hspec : s.spec = r.spec) : Promoted v r history history
  /-- The first revision of the version is not active. -/
  | replaced {k : Nat} {s : Revision} (hs : FirstAt v history k s)
      (hactive : s.currentState ≠ .active) : Promoted v r history (history.set k r)
  /-- No revision has the version. -/
  | appended (hfree : ∀ s ∈ history, s.version ≠ some v) : Promoted v r history (history ++ [r])

/-- A history that takes in a promotion comes to one of the cases. -/
lemma promoted_promotedHistory {history : List Revision}
    (h : i.promotedHistory v r = .ok history) : Promoted v r i.revisions history := by
  rcases promotedHistory_eq_ok h with
    ⟨s, hs, hactive, hspec, rfl⟩ | ⟨s, hs, hactive, rfl⟩ | ⟨hfree, rfl⟩
  · obtain ⟨k, hfirst⟩ := revision?_eq_some_iff.1 hs
    exact .kept hfirst (by simpa [Revision.isImmutable] using hactive) hspec
  · obtain ⟨k, hfirst⟩ := revision?_eq_some_iff.1 hs
    rw [replaceVersion_eq_set hfirst]
    exact .replaced hfirst (by simpa [Revision.isImmutable] using hactive)
  · exact .appended (revision?_eq_none_iff.1 hfree)

/-- The second record is the first one after the report was taken over. -/
structure TakesOver (i : Integration) (u : StatusUpdate) (now : Timestamp) (j : Integration) :
    Prop where
  state : j.current = some u.state
  message : j.statusMessage = u.message
  stepsDone : j.stepsDone = u.stepsDone
  lastUpdated : j.lastUpdated = some now
  /-- The address is the reported one, if there is one. -/
  gitRepo : j.gitRepo = u.gitRepo.or i.gitRepo
  own : i.SameOwn j
  unpromoted : u.promoted = none →
    j.revisions = i.revisions ∧ j.deployed = i.deployed ∧ j.draft = i.draft
  promoted : ∀ r, u.promoted = some r →
    Promoted (i.versionFor r)
        { r with version := some (i.versionFor r), currentState := .active }
        i.revisions j.revisions ∧
      j.deployed = some (i.versionFor r) ∧ j.draft = none

lemma takesOver_of_applyUpdate (h : i.applyUpdate u now = .ok j) : i.TakesOver u now j := by
  have hown : i.SameOwn j := sameOwn_applyUpdate h
  obtain ⟨k, hk, rfl⟩ := applyUpdate_eq_ok h
  have hrepo : (u.gitRepo <|> k.gitRepo) = u.gitRepo.or i.gitRepo := by
    rcases hk with ⟨-, rfl⟩ | ⟨r, v, -, hp⟩
    · cases u.gitRepo <;> rfl
    · obtain ⟨-, history, -, rfl⟩ := promote_eq_ok hp
      cases u.gitRepo <;> rfl
  refine ⟨rfl, rfl, rfl, rfl, hrepo, hown, fun hnone => ?_, fun r hr => ?_⟩
  · rcases hk with ⟨-, rfl⟩ | ⟨r, v, hr, -⟩
    · exact ⟨rfl, rfl, rfl⟩
    · cases hnone.symm.trans hr
  · rcases hk with ⟨hnone, -⟩ | ⟨r', v, hr', hp⟩
    · cases hnone.symm.trans hr
    · obtain rfl : r' = r := Option.some.inj (hr'.symm.trans hr)
      obtain ⟨rfl, history, hh, rfl⟩ := promote_eq_ok hp
      exact ⟨promoted_promotedHistory hh, rfl, rfl⟩

/-- **A report is taken over entirely or not at all**, whatever the record looks like.  It is
refused exactly if it carries a promotion that clashes with the history, and then the run ends in
the record that it began with; otherwise it ends in a record that has all that is reported, and
nothing else has changed.  For a caller who drops the record of a refused report it comes to the
same. -/
theorem applyUpdate_entirely_or_not (i : Integration) (u : StatusUpdate) (now : Timestamp) :
    (∀ e j, (Edit.applyUpdate u now).run i = .error e j ↔
        (∃ r, u.promoted = some r ∧ i.Clashes r ∧ e = .immutableRevision (i.versionFor r)) ∧
          j = i) ∧
      ((¬ ∃ r, u.promoted = some r ∧ i.Clashes r) →
        ∃ j, (Edit.applyUpdate u now).run i = .ok () j ∧ i.TakesOver u now j) ∧
      (∀ e, i.applyUpdate u now = .error e ↔
        ∃ r, u.promoted = some r ∧ i.Clashes r ∧ e = .immutableRevision (i.versionFor r)) ∧
      ∀ j, i.applyUpdate u now = .ok j ↔ (Edit.applyUpdate u now).run i = .ok () j := by
  have hrefused : ∀ e, i.applyUpdate u now = .error e ↔
      ∃ r, u.promoted = some r ∧ i.Clashes r ∧ e = .immutableRevision (i.versionFor r) :=
    fun _ => applyUpdate_eq_error_iff
  have htaken : ∀ j, i.applyUpdate u now = .ok j ↔ (Edit.applyUpdate u now).run i = .ok () j := by
    intro j
    rw [applyUpdate, InPlace.changed_eq_ok, InPlace.result_eq_ok]
  refine ⟨fun e j => ?_, fun hno => ?_, hrefused, htaken⟩
  · rw [(allOrNothing_applyUpdate u now).run_eq_error, ← InPlace.changed_eq_error, ← hrefused]
    rfl
  · cases h : i.applyUpdate u now with
    | error e =>
      obtain ⟨r, hr, hclash, -⟩ := (hrefused e).1 h
      exact absurd ⟨r, hr, hclash⟩ hno
    | ok j => exact ⟨j, (htaken j).1 h, takesOver_of_applyUpdate h⟩

end Convergence.Integration
