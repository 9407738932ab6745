import Convergence.Proofs.Record.History
/-!
# Revisions without a version

A revision without a version gets one more than the highest version of the record when it is
published or promoted.  It becomes a new entry of the history as long as there is a higher version
(`appends_iff`).  Once the last version is taken there is none: a publication is refused, and a
promotion goes to the revision that bears the last version (`not_forall_appends`).
-/

namespace Convergence

namespace Version

/-- The last version that there is. -/
def last : Version := 4294967295

lemma toNat_last : last.toNat = 4294967295 := rfl

lemma le_last (v : Version) : v ≤ last := by
  have hlt := v.toNat_lt
  rw [UInt32.le_iff_toNat_le, toNat_last]
  omega

/-- A version that is not the last one has a next one. -/
lemma toNat_add_one {v : Version} (h : v ≠ last) : (v + 1).toNat = v.toNat + 1 := by
  have hlt := v.toNat_lt
  rw [Ne, ← UInt32.toNat_inj, toNat_last] at h
  rw [UInt32.toNat_add, UInt32.toNat_one]
  omega

lemma lt_size_iff {v : Version} : v.toNat + 1 < UInt32.size ↔ v ≠ last := by
  have hlt := v.toNat_lt
  rw [Ne, ← UInt32.toNat_inj, toNat_last]
  change v.toNat + 1 < 4294967296 ↔ _
  omega

lemma max_eq (v w : Version) : max v w = if v ≤ w then w else v := rfl

instance : Std.LawfulOrderMax Version where
  max_eq_or v w := by
    rw [max_eq]
    split <;> simp
  max_le_iff u v w := by
    rw [max_eq]
    grind

end Version

namespace Integration

variable {i : Integration} {r : Revision}

/-- The last version is free. -/
def HasVersionsLeft (i : Integration) : Prop := ∀ s ∈ i.revisions, s.version ≠ some .last

/-- The version is above all that are taken. -/
def IsAbove (v : Version) (i : Integration) : Prop :=
  ∀ s ∈ i.revisions, ∀ w, s.version = some w → w < v

/-! ## The next version -/

/-- No version is taken, or the next version is counted from the highest one that is. -/
lemma nextVersion_cases (i : Integration) :
    (∀ s ∈ i.revisions, s.version = none) ∨
      ∃ v, (∃ s ∈ i.revisions, s.version = some v) ∧
        (∀ s ∈ i.revisions, ∀ w, s.version = some w → w ≤ v) ∧
        i.nextVersion = if v = .last then .last else v + 1 := by
  rw [nextVersion]
  cases hmax : (i.revisions.filterMap (·.version)).max? with
  | none =>
    refine Or.inl fun s hs => ?_
    have hnil := List.max?_eq_none_iff.1 hmax
    exact List.filterMap_eq_nil_iff.1 hnil s hs
  | some v =>
    obtain ⟨hmem, hhighest⟩ := List.max?_eq_some_iff.1 hmax
    refine Or.inr ⟨v, List.mem_filterMap.1 hmem, fun s hs w hw => ?_, ?_⟩
    · exact hhighest w (List.mem_filterMap.2 ⟨s, hs, hw⟩)
    · by_cases hv : v = .last
      · rw [if_pos hv]
        simp only [Version.lt_size_iff, hv, ne_eq, not_true_eq_false, if_false]
      · rw [if_neg hv]
        simp only [Version.lt_size_iff, hv, ne_eq, not_false_eq_true, if_true]

/-- As long as there is a higher version, the next one is above all that are taken. -/
lemma isAbove_nextVersion (h : i.HasVersionsLeft) : IsAbove i.nextVersion i := by
  intro s hs w hw
  rcases i.nextVersion_cases with hnone | ⟨v, ⟨t, ht, hv⟩, hhighest, hnext⟩
  · rw [hnone s hs] at hw
    cases hw
  · have hne : v ≠ .last := by
      rintro rfl
      exact h t ht hv
    have hle := UInt32.le_iff_toNat_le.1 (hhighest s hs w hw)
    rw [hnext, if_neg hne, UInt32.lt_iff_toNat_lt, Version.toNat_add_one hne]
    omega

/-- Once the last version is taken, it is the next one again. -/
lemma nextVersion_eq_last (h : ∃ s ∈ i.revisions, s.version = some .last) :
    i.nextVersion = .last := by
  obtain ⟨t, ht, hlast⟩ := h
  rcases i.nextVersion_cases with hnone | ⟨v, -, hhighest, hnext⟩
  · cases (hnone t ht).symm.trans hlast
  · have hv : v = .last := UInt32.le_antisymm v.le_last (hhighest t ht _ hlast)
    rw [hnext, if_pos hv]

/-! ## What becomes of a revision without a version -/

/-- The operation puts the revision at the end of the history, under a version above all others, and
gives that version. -/
def Appends (i : Integration) (r : Revision) (result : Except RecordError (Integration × Version)) :
    Prop :=
  ∃ j v, result = .ok (j, v) ∧ j.revisions = i.revisions ++ [{ r with version := some v }] ∧
    IsAbove v i

/-- A version above all others is not the last one. -/
lemma Appends.hasVersionsLeft {result : Except RecordError (Integration × Version)}
    (h : Appends i r result) : i.HasVersionsLeft := by
  obtain ⟨j, v, -, -, habove⟩ := h
  intro s hs hlast
  have hlt := UInt32.lt_iff_toNat_lt.1 (habove s hs _ hlast)
  have hle := UInt32.le_iff_toNat_le.1 v.le_last
  omega

/-- **A revision without a version becomes a new entry exactly if the last version is free**, when
it is published and when it is promoted: it comes last, under a version above all others, and every
entry before it stays as it was.  Once the last version is taken, a publication is refused. -/
theorem appends_iff (i : Integration) {r : Revision} (hr : r.version = none) :
    (Appends i r (i.publish r) ↔ i.HasVersionsLeft) ∧
      (Appends i { r with currentState := .active } (i.promote r) ↔ i.HasVersionsLeft) ∧
      ((∃ s ∈ i.revisions, s.version = some .last) →
        i.publish r = .error (.duplicateRevision .last)) := by
  have hversion : i.versionFor r = i.nextVersion := by simp [versionFor, hr]
  have hfree : i.HasVersionsLeft → i.revision? i.nextVersion = none := by
    intro h
    refine revision?_eq_none_iff.2 fun s hs hv => ?_
    exact UInt32.lt_irrefl _ (isAbove_nextVersion h s hs _ hv)
  refine ⟨⟨Appends.hasVersionsLeft, fun h => ?_⟩, ⟨Appends.hasVersionsLeft, fun h => ?_⟩,
    fun h => ?_⟩
  · exact ⟨_, _, by simp only [publish_eq, hversion, hfree h]; rfl, rfl, isAbove_nextVersion h⟩
  · exact ⟨_, _, by simp only [promote_eq, promotedHistory, hversion, hfree h]; rfl, rfl,
      isAbove_nextVersion h⟩
  · rw [nextVersion_eq_last h] at hversion
    obtain ⟨t, ht, hlast⟩ := h
    cases htaken : i.revision? .last with
    | none => exact absurd hlast (revision?_eq_none_iff.1 htaken t ht)
    | some s => simp only [publish_eq, hversion, htaken]

/-! ## The last versions -/

/-- The record of an integration with one revision, a draft of this version. -/
def numberedRecord (v : Version) : Integration where
  id := "x"
  name := "Orders Sync"
  revisions := [{ version := some v }]
  createdAt :=
    ((Date.ofNumbers? 2024 1 2).bind fun date => Timestamp.ofNumbers? date 9 0 0 0).get
      (by decide)

/-- One version is left, and the revision gets it. -/
theorem appends_before_last : ({} : Revision).version = none ∧
    Appends (numberedRecord 4294967294) {} ((numberedRecord 4294967294).publish {}) ∧
    Appends (numberedRecord 4294967294) { currentState := .active }
      ((numberedRecord 4294967294).promote {}) := by
  have hleft : (numberedRecord 4294967294).HasVersionsLeft := by
    intro s hs
    obtain rfl : s = { version := some 4294967294 } := by simpa [numberedRecord] using hs
    decide
  obtain ⟨hpublish, hpromote, -⟩ := appends_iff (numberedRecord 4294967294) (r := {}) rfl
  exact ⟨rfl, hpublish.2 hleft, hpromote.2 hleft⟩

/-- It is not so that a revision without a version always becomes a new entry when it is published,
nor that it always does when it is promoted. -/
theorem not_forall_appends :
    (¬ ∀ (i : Integration) (r : Revision), r.version = none → Appends i r (i.publish r)) ∧
      ¬ ∀ (i : Integration) (r : Revision), r.version = none →
        Appends i { r with currentState := .active } (i.promote r) := by
  have htaken : ¬ (numberedRecord .last).HasVersionsLeft := fun hleft =>
    hleft _ List.mem_cons_self rfl
  exact ⟨fun hall => htaken (hall (numberedRecord .last) {} rfl).hasVersionsLeft,
    fun hall => htaken (hall (numberedRecord .last) {} rfl).hasVersionsLeft⟩

/-- With the last version taken, the promotion goes to the revision that bears it. -/
example : ((numberedRecord .last).promote {}).toOption.map (fun p => (p.1.revisions, p.2)) =
    some ([{ version := some .last, currentState := .active }], .last) := by
  decide

end Integration

end Convergence
