import Mathlib.Data.List.DropRight
import Mathlib.Tactic.Lemma
import Convergence.Text.Blank
/-!
# The core of a text

A text is white space, a core without white space at either end, and white space.  Trimming gives
that core (`trim_eq_iff`), and nothing if there is white space only (`trim_eq_nil_iff`).
-/

namespace Convergence.Text

/-- A text and its core. -/
inductive Trimmed : List Char → List Char → Prop where
  | intro {before core after : List Char} (before_blank : ∀ c ∈ before, isBlank c = true)
      (after_blank : ∀ c ∈ after, isBlank c = true) (head : ∀ c ∈ core.head?, isBlank c = false)
      (last : ∀ c ∈ core.getLast?, isBlank c = false) : Trimmed (before ++ core ++ after) core

lemma trim_eq_rdropWhile (cs : List Char) : trim cs = (trimStart cs).rdropWhile isBlank := rfl

lemma trim_eq_nil_iff {cs : List Char} : trim cs = [] ↔ ∀ c ∈ cs, isBlank c = true := by
  rw [trim_eq_rdropWhile, List.rdropWhile_eq_nil_iff, trimStart]
  constructor
  · intro hrest c hc
    rw [← List.takeWhile_append_dropWhile (p := isBlank) (l := cs), List.mem_append] at hc
    rcases hc with hc | hc
    · exact List.mem_takeWhile_imp hc
    · exact hrest c hc
  · intro hall c hc
    exact hall c ((List.dropWhile_sublist _).subset hc)

/-- Trimming stops at both ends of the core. -/
lemma Trimmed.trim_eq {cs core : List Char} (h : Trimmed cs core) : trim cs = core := by
  cases h with
  | @intro before core after before_blank after_blank head last =>
    cases core with
    | nil =>
      refine trim_eq_nil_iff.2 fun c hc => ?_
      rw [List.append_nil] at hc
      exact (List.mem_append.1 hc).elim (before_blank c) (after_blank c)
    | cons d core =>
      have hstart : trimStart (before ++ d :: core ++ after) = d :: core ++ after := by
        rw [trimStart, List.append_assoc, List.dropWhile_append_of_pos before_blank,
          List.cons_append, List.dropWhile_cons_of_neg (by simp [head d rfl])]
      have hself : (d :: core).rdropWhile isBlank = d :: core := by
        refine List.rdropWhile_eq_self_iff.2 fun hne => ?_
        simpa using last _ (List.getLast_mem_getLast? hne)
      have hend : (after.reverse ++ (d :: core).reverse).dropWhile isBlank
          = (d :: core).reverse := by
        rw [List.dropWhile_append_of_pos (by simpa using after_blank)]
        exact List.reverse_eq_iff.1 hself
      rw [trim, hstart, trimStart, List.reverse_append, hend, List.reverse_reverse]

/-- The core is a front part of the text from its first character that is not white space on. -/
lemma trimmed_trim (cs : List Char) : Trimmed cs (trim cs) := by
  have hsplit : cs = cs.takeWhile isBlank ++ trim cs ++ (trimStart cs).rtakeWhile isBlank := by
    rw [List.append_assoc, trim_eq_rdropWhile, List.rdropWhile_append_rtakeWhile, trimStart,
      List.takeWhile_append_dropWhile]
  have hhead : ∀ c ∈ (trim cs).head?, isBlank c = false := by
    intro c hc
    obtain ⟨rest, hrest⟩ : trim cs <+: trimStart cs :=
      List.rdropWhile_prefix isBlank _
    have hfirst : (trimStart cs).head? = some c := by
      rw [← hrest, List.head?_append, Option.mem_def.1 hc, Option.some_or]
    simpa [← trimStart.eq_1, hfirst] using List.head?_dropWhile_not isBlank cs
  have hlast : ∀ c ∈ (trim cs).getLast?, isBlank c = false := by
    intro c hc
    obtain ⟨hne, rfl⟩ := List.mem_getLast?_eq_getLast hc
    exact Bool.eq_false_iff.2 (List.rdropWhile_last_not isBlank (trimStart cs) hne)
  have htrimmed : Trimmed
      (cs.takeWhile isBlank ++ trim cs ++ (trimStart cs).rtakeWhile isBlank) (trim cs) :=
    .intro (fun _ => List.mem_takeWhile_imp) (fun _ => List.mem_rtakeWhile_imp) hhead hlast
  rwa [← hsplit] at htrimmed

/-- Trimming gives the core. -/
theorem trim_eq_iff {cs core : List Char} : trim cs = core ↔ Trimmed cs core :=
  ⟨fun h => h ▸ trimmed_trim cs, Trimmed.trim_eq⟩

end Convergence.Text
