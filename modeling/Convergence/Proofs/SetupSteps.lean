import Convergence.Proofs.Lists
import Convergence.Reconcile.SetupSteps
/-!
# Lists of setup steps

Marking a step adds it at the end if it is not there.  So the steps of a record are its distinct
steps in the order in which they occur first (`done_ofList_eq_eraseDups`).

Marked steps are noted as if they had been on the record (`foldl_mark_ofList`).  So whatever was on
the record and is marked later, the list is an ordered set of both (`ordered_foldl_mark`).
-/

namespace Convergence.SetupSteps

lemma mem_mark {s : SetupSteps} {step other : String} :
    other ∈ (s.mark step).done ↔ other ∈ s.done ∨ other = step := by
  rw [mark]
  split
  · next h =>
    refine ⟨Or.inl, ?_⟩
    rintro (hmem | rfl)
    · exact hmem
    · exact h
  · simp

lemma done_mark {s : SetupSteps} {step : String} (h : step ∉ s.done) :
    (s.mark step).done = s.done ++ [step] := by
  rw [mark, dif_neg h]

lemma isDone_iff {s : SetupSteps} {step : String} : s.isDone step = true ↔ step ∈ s.done :=
  List.contains_iff_mem

lemma not_mem_of_isDone {s : SetupSteps} {step : String} (h : s.isDone step = false) :
    step ∉ s.done := by
  intro hmem
  rw [isDone_iff.2 hmem] at h
  cases h

lemma mem_foldl_mark {steps : List String} {s : SetupSteps} {step : String} :
    step ∈ (steps.foldl mark s).done ↔ step ∈ s.done ∨ step ∈ steps := by
  induction steps generalizing s with
  | nil => simp
  | cons first rest ih =>
    rw [List.foldl_cons, ih, mem_mark, List.mem_cons, or_assoc]

lemma mem_ofList {steps : List String} {step : String} :
    step ∈ (ofList steps).done ↔ step ∈ steps := by
  rw [ofList, mem_foldl_mark]
  simp

lemma done_foldl_mark {steps : List String} {s : SetupSteps} (h : (s.done ++ steps).Nodup) :
    (steps.foldl mark s).done = s.done ++ steps := by
  induction steps generalizing s with
  | nil => simp
  | cons first rest ih =>
    have hnot : first ∉ s.done := by
      intro hmem
      exact (List.nodup_append.1 h).2.2 first hmem first List.mem_cons_self rfl
    have hdone := done_mark hnot
    rw [List.foldl_cons, ih (by simpa [hdone] using h), hdone, List.append_assoc,
      List.singleton_append]

lemma done_ofList {steps : List String} (h : steps.Nodup) : (ofList steps).done = steps := by
  rw [ofList, done_foldl_mark (by simpa using h)]
  rfl

/-- The steps of a record, each where it occurs first. -/
theorem done_ofList_eq_eraseDups (steps : List String) :
    (ofList steps).done = steps.eraseDups := by
  induction steps using List.reverseRecOn with
  | nil => rfl
  | append_singleton before step ih =>
    have hmark : ofList (before ++ [step]) = (ofList before).mark step := by
      simp [ofList]
    rw [hmark, eraseDups_concat]
    by_cases h : step ∈ before
    · rw [if_pos h, ← ih, mark, dif_pos (mem_ofList.2 h)]
    · rw [if_neg h, ← ih, done_mark fun hmem => h (mem_ofList.1 hmem)]

/-! ## Records and later marks -/

/-- Lists of the same steps are the same. -/
lemma ext_done {s t : SetupSteps} (h : s.done = t.done) : s = t := by
  cases s
  cases t
  simpa using h

lemma foldl_mark_ofList (recorded marks : List String) :
    marks.foldl mark (ofList recorded) = ofList (recorded ++ marks) := by
  rw [ofList, ofList, List.foldl_append]

/-- The steps that are done are the ordered set of the recorded ones and those marked later. -/
structure Ordered (recorded marks : List String) (s : SetupSteps) : Prop where
  nodup : s.done.Nodup
  mem_iff : ∀ step, step ∈ s.done ↔ step ∈ recorded ∨ step ∈ marks
  /-- They come in the order in which they occur first. -/
  inOrder : s.done.Pairwise fun a b => (recorded ++ marks).idxOf a < (recorded ++ marks).idxOf b
  /-- The recorded steps stay in front, without their repeats. -/
  recorded_prefix : recorded.eraseDups <+: s.done
  isDone_iff : ∀ step, s.isDone step = true ↔ step ∈ s.done
  /-- Once noted on a record, they are read back as they are. -/
  reread : ofList s.done = s

/-- Whatever was recorded and is marked later, each step is listed once, where it occurs first. -/
theorem ordered_foldl_mark (recorded marks : List String) :
    Ordered recorded marks (marks.foldl mark (ofList recorded)) := by
  have hdone : (marks.foldl mark (ofList recorded)).done = (recorded ++ marks).eraseDups := by
    rw [foldl_mark_ofList, done_ofList_eq_eraseDups]
  exact
    { nodup := hdone ▸ nodup_eraseDups _
      mem_iff := fun step => by rw [hdone, List.mem_eraseDups, List.mem_append]
      inOrder := hdone ▸ pairwise_idxOf_eraseDups _
      recorded_prefix := by
        rw [hdone, List.eraseDups_append]
        exact List.prefix_append _ _
      isDone_iff := fun step => isDone_iff
      reread := ext_done (done_ofList (hdone ▸ nodup_eraseDups _)) }

end Convergence.SetupSteps
