import Mathlib.Tactic.Lemma
import Convergence.Reconcile.Marker
/-!
# Which markers are held

What each operation on markers does to the markers held, and to the set of integrations that have
one.

Nothing in the set itself keeps it from holding two markers for one integration.  `Single` says that
it holds none such; a marker that is inserted once all others of its integration are dropped keeps
it so (`Single.replace`), and a listing is then strictly in the order of the ids
(`Single.pairwise_listing`).
-/

namespace Convergence.Markers

variable {s : Markers} {m n : Marker} {id other : String}

lemma containsId_eq_true : s.containsId id = true ↔ ∃ m ∈ s.held, m.id = id := by
  simp [containsId]

lemma containsId_of_contains (h : s.contains m = true) : s.containsId m.id = true :=
  containsId_eq_true.2 ⟨m, by simpa [contains] using h, rfl⟩

@[simp] lemma containsId_none (id : String) : none.containsId id = false := rfl

@[simp] lemma containsId_eraseId_self (s : Markers) (id : String) :
    (s.eraseId id).containsId id = false := by
  simp [containsId, eraseId]

lemma containsId_of_eraseId (h : (s.eraseId other).containsId id = true) :
    s.containsId id = true := by
  obtain ⟨m, hm, hid⟩ := containsId_eq_true.1 h
  exact containsId_eq_true.2 ⟨m, (List.mem_filter.1 hm).1, hid⟩

lemma containsId_of_insert (h : (s.insert m).containsId id = true) :
    m.id = id ∨ s.containsId id = true := by
  obtain ⟨n, hn, hid⟩ := containsId_eq_true.1 h
  rw [insert] at hn
  split at hn
  · exact Or.inr (containsId_eq_true.2 ⟨n, hn, hid⟩)
  · rcases List.mem_append.1 hn with hn | hn
    · exact Or.inr (containsId_eq_true.2 ⟨n, hn, hid⟩)
    · obtain rfl : n = m := by simpa using hn
      exact Or.inl hid

/-! ## Single markers -/

lemma contains_eraseId_of_ne (s : Markers) (h : m.id ≠ id) :
    (s.eraseId id).contains m = s.contains m := by
  simp [contains, eraseId, h]

lemma contains_insert : (s.insert m).contains n = true ↔ n = m ∨ s.contains n = true := by
  rw [insert]
  split
  · next hm =>
    refine ⟨Or.inr, ?_⟩
    rintro (rfl | hn)
    · simpa [contains] using hm
    · exact hn
  · simp [contains, or_comm]

/-! ## One marker for each integration -/

/-- No two markers are held for one integration. -/
def Single (s : Markers) : Prop := s.held.Pairwise fun m n => m.id ≠ n.id

lemma single_none : none.Single := List.Pairwise.nil

lemma Single.eraseId (h : s.Single) (id : String) : (s.eraseId id).Single :=
  List.Pairwise.filter _ h

/-- The markers held after one took the place of all others of its integration. -/
lemma mem_held_replace (s : Markers) (m n : Marker) :
    n ∈ ((s.eraseId m.id).insert m).held ↔ n = m ∨ n ∈ s.held ∧ n.id ≠ m.id := by
  simp [insert, Markers.eraseId, or_comm]

lemma Single.replace (h : s.Single) (m : Marker) : ((s.eraseId m.id).insert m).Single := by
  have hfree : m ∉ (s.eraseId m.id).held := by simp [Markers.eraseId]
  simp only [insert, hfree, dite_false, Single]
  refine List.pairwise_append.2 ⟨h.eraseId m.id, List.pairwise_singleton _ _, ?_⟩
  intro n hn n' hn'
  obtain rfl : n' = m := by simpa using hn'
  simpa using (List.mem_filter.1 hn).2

/-! ## Listings -/

/-- A listing shows the markers held. -/
lemma mem_listing (s : Markers) (m : Marker) : m ∈ s.listing ↔ m ∈ s.held :=
  (List.mergeSort_perm s.held Marker.inOrder).mem_iff

lemma inOrder_trans (k m n : Marker) (hkm : k.inOrder m = true)
    (hmn : m.inOrder n = true) : k.inOrder n = true := by
  simp only [Marker.inOrder, Bool.or_eq_true, Bool.and_eq_true, decide_eq_true_eq,
    beq_iff_eq] at hkm hmn ⊢
  rcases hkm with hkm | ⟨hkm, hrank⟩
  · rcases hmn with hmn | ⟨hmn, -⟩
    · exact Or.inl (String.lt_trans hkm hmn)
    · exact Or.inl (hmn ▸ hkm)
  · rcases hmn with hmn | ⟨hmn, hrank'⟩
    · exact Or.inl (hkm ▸ hmn)
    · exact Or.inr ⟨hkm.trans hmn, Nat.le_trans hrank hrank'⟩

lemma inOrder_total (m n : Marker) : (m.inOrder n || n.inOrder m) = true := by
  simp only [Marker.inOrder, Bool.or_eq_true, Bool.and_eq_true, decide_eq_true_eq, beq_iff_eq]
  by_cases heq : m.id = n.id
  · rcases Nat.le_total m.desired.rank n.desired.rank with hrank | hrank
    · exact Or.inl (Or.inr ⟨heq, hrank⟩)
    · exact Or.inr (Or.inr ⟨heq.symm, hrank⟩)
  · by_cases hlt : m.id < n.id
    · exact Or.inl (Or.inl hlt)
    · refine Or.inr (Or.inl (String.not_le.1 fun hle => heq ?_))
      exact String.le_antisymm hle (String.not_lt.1 hlt)

/-- With at most one marker for each integration, a listing is strictly in the order of the ids. -/
theorem Single.pairwise_listing (h : s.Single) : s.listing.Pairwise fun m n => m.id < n.id := by
  have hsorted : s.listing.Pairwise fun m n => m.inOrder n = true :=
    List.pairwise_mergeSort inOrder_trans inOrder_total s.held
  have hsingle : s.listing.Pairwise fun m n => m.id ≠ n.id :=
    (List.mergeSort_perm s.held Marker.inOrder).symm.pairwise h Ne.symm
  refine hsorted.imp₂ (fun m n horder hne => ?_) hsingle
  simpa [Marker.inOrder, hne] using horder

end Convergence.Markers
