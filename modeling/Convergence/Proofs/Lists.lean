import Mathlib.Data.List.Basic
import Mathlib.Data.List.Induction
import Mathlib.Tactic.Lemma
/-!
# Lists that grow at the end

A history is a list that grows at the end, so that a statement about one of its elements is about an
earlier one or about the last (`append_cons_eq_concat`).  So do the distinct elements of a list,
each where it occurs first (`eraseDups_concat`, `pairwise_idxOf_eraseDups`).
-/

namespace Convergence

variable {α : Type}

/-- An element of a list with a last one is found before the last one, or is the last one. -/
lemma append_cons_eq_concat {l before later : List α} {a last : α} :
    l ++ [last] = before ++ a :: later ↔
      (∃ later', l = before ++ a :: later' ∧ later = later' ++ [last]) ∨
        l = before ∧ last = a ∧ later = [] := by
  rcases List.eq_nil_or_concat' later with rfl | ⟨later', b, rfl⟩
  · simp [List.append_singleton_inj]
  · rw [← List.cons_append, ← List.append_assoc, List.append_singleton_inj]
    constructor
    · rintro ⟨rfl, rfl⟩
      exact Or.inl ⟨later', rfl, rfl⟩
    · rintro (⟨later'', rfl, hlater⟩ | ⟨-, -, hlater⟩)
      · obtain ⟨rfl, rfl⟩ := List.append_singleton_inj.1 hlater
        exact ⟨rfl, rfl⟩
      · simp at hlater

/-- Among the distinct elements of a list, the last one is if it has not occurred before. -/
lemma eraseDups_concat [BEq α] [LawfulBEq α] (l : List α) (a : α) :
    (l ++ [a]).eraseDups = if a ∈ l then l.eraseDups else l.eraseDups ++ [a] := by
  rw [List.eraseDups_append]
  by_cases h : a ∈ l
  · simp [List.removeAll, h]
  · simp [List.removeAll, h, List.eraseDups_cons]

lemma nodup_eraseDups [BEq α] [LawfulBEq α] (l : List α) : l.eraseDups.Nodup := by
  induction l using List.reverseRecOn with
  | nil => simp
  | append_singleton l a ih =>
    rw [eraseDups_concat]
    split
    · exact ih
    · next hnew =>
      refine List.nodup_append.2 ⟨ih, by simp, ?_⟩
      rintro b hb c hc rfl
      rw [List.mem_singleton.1 hc, List.mem_eraseDups] at hb
      exact hnew hb

/-- The distinct elements of a list come in the order in which they occur first. -/
lemma pairwise_idxOf_eraseDups [BEq α] [LawfulBEq α] (l : List α) :
    l.eraseDups.Pairwise fun a b => l.idxOf a < l.idxOf b := by
  induction l using List.reverseRecOn with
  | nil => simp
  | append_singleton l last ih =>
    -- an element of the list is still found where it was
    have hold : ∀ {a}, a ∈ l.eraseDups → (l ++ [last]).idxOf a = l.idxOf a := fun ha =>
      List.idxOf_append_of_mem (List.mem_eraseDups.1 ha)
    have hearlier : l.eraseDups.Pairwise fun a b =>
        (l ++ [last]).idxOf a < (l ++ [last]).idxOf b :=
      ih.imp_of_mem fun ha hb hlt => by rwa [hold ha, hold hb]
    rw [eraseDups_concat]
    split
    · exact hearlier
    · next hnew =>
      refine List.pairwise_append.2 ⟨hearlier, List.pairwise_singleton _ _, fun a ha b hb => ?_⟩
      rw [List.mem_singleton.1 hb, hold ha, List.idxOf_append_of_notMem hnew]
      exact Nat.lt_add_right _ (List.idxOf_lt_length_of_mem (List.mem_eraseDups.1 ha))

end Convergence
