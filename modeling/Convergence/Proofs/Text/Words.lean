import Mathlib.Data.List.TakeDrop
import Mathlib.Tactic.Lemma
import Convergence.Text.Blank
/-!
# Words at the front of a text

A word is read to its end where all of its characters belong to it and the next one does not
(`span_append`).  White space is skipped in front of a word, and there is none to skip if the word
begins at once (`trimStart_cons`).
-/

namespace Convergence.Text

/-- A word ends where a character follows that does not belong to it. -/
lemma span_append {p : Char → Bool} {word rest : List Char} (hword : ∀ c ∈ word, p c = true)
    (hrest : ∀ c ∈ rest.head?, p c = false) : (word ++ rest).span p = (word, rest) := by
  have hstop : rest.takeWhile p = [] ∧ rest.dropWhile p = rest := by
    cases rest with
    | nil => exact ⟨rfl, rfl⟩
    | cons c rest => simp [hrest c rfl]
  rw [List.span_eq_takeWhile_dropWhile, List.takeWhile_append_of_pos hword,
    List.dropWhile_append_of_pos hword, hstop.1, hstop.2, List.append_nil]

lemma span_self {p : Char → Bool} {word : List Char} (hword : ∀ c ∈ word, p c = true) :
    word.span p = (word, []) := by
  have hspan : (word ++ []).span p = (word, []) := span_append hword nofun
  rwa [List.append_nil] at hspan

lemma trimStart_cons {c : Char} (h : isBlank c = false) (cs : List Char) :
    trimStart (c :: cs) = c :: cs := by
  simp [trimStart, h]

lemma isBlank_of_isDigit {c : Char} (h : c.isDigit = true) : isBlank c = false := by
  have hdigit : 48 ≤ c.toNat ∧ c.toNat ≤ 57 := Char.isDigit_iff_toNat.1 h
  simp only [isBlank, blankRanges, List.any_cons, List.any_nil, Bool.or_false, Bool.or_eq_false_iff,
    Bool.and_eq_false_iff, decide_eq_false_iff_not]
  omega

end Convergence.Text
