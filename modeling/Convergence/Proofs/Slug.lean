import Mathlib
import Convergence.Reconcile.Activation
/-!
# Names for resources are well formed

The words of a text are the maximal runs of letters and digits in it (`Runs`), and a resource name
is those of the lower-case form, with single dashes between them (`WellFormed`).

What the lower-case form of a text is depends on the whole of Unicode, and for one letter on what
stands around it.  But all that matters here is which ASCII letters and digits are in it, and this
is settled by `LowersTo`: of the characters beyond ASCII, only two have a lower-case form with a
letter in it.  So the words do not depend on the rest (`LowerForm.words_eq`).
-/

namespace Convergence.Slug

/-- The maximal runs of a class of characters in a text, in order: in front of each run and behind
the last one are characters of other classes, and a run ends only where one of them follows. -/
inductive Runs (p : Char → Bool) : List Char → List (List Char) → Prop where
  | gap {gap : List Char} (hgap : ∀ c ∈ gap, p c = false) : Runs p gap []
  | run {gap w rest : List Char} {ws : List (List Char)} (hgap : ∀ c ∈ gap, p c = false)
      (hne : w ≠ []) (hw : ∀ c ∈ w, p c = true) (hends : ∀ c ∈ rest.head?, p c = false)
      (hrest : Runs p rest ws) : Runs p (gap ++ w ++ rest) (w :: ws)

/-- What a character may become in lower case, as far as ASCII letters and digits are concerned. -/
inductive LowersTo : Char → List Char → Prop where
  | ascii {c : Char} (h : c.toNat < 128) : LowersTo c [c.toLower]
  /-- The Kelvin sign. -/
  | kelvin : LowersTo '\u212A' ['k']
  /-- The capital I with a dot becomes an i, and the dot a character of its own. -/
  | dotted : LowersTo '\u0130' ['i', '\u0307']
  /-- Any other character becomes something without ASCII letters and digits. -/
  | other {c : Char} {cs : List Char} (hc : 128 ≤ c.toNat) (hkelvin : c ≠ '\u212A')
      (hdotted : c ≠ '\u0130') (hne : cs ≠ []) (hcs : ∀ d ∈ cs, d.isAlphanum = false) :
      LowersTo c cs

/-- A lower-case form of a text: each character in lower case, in order. -/
def LowerForm (cs lowered : List Char) : Prop :=
  ∃ parts, List.Forall₂ LowersTo cs parts ∧ lowered = parts.flatten

/-- The words are made of lower-case letters and digits, and the text is these words with single
dashes between them: no dash stands at an end or beside another. -/
structure WellFormed (slug : List Char) (ws : List (List Char)) : Prop where
  joined : slug = ['-'].intercalate ws
  words : ∀ w ∈ ws, w ≠ [] ∧ ∀ c ∈ w, c.isLower = true ∨ c.isDigit = true
  ends : slug.head? ≠ some '-' ∧ slug.getLast? ≠ some '-'
  single : slug.IsChain fun a b => ¬ (a = '-' ∧ b = '-')

variable {cs a b : List Char} {ws : List (List Char)} {c : Char}

/-! ## Words are maximal runs -/

lemma words_cons_of_not (hc : isWordChar c = false) (cs : List Char) :
    words (c :: cs) = words cs := by
  simp [words, pieces, hc]

lemma words_append_gap {gap : List Char} (hgap : ∀ c ∈ gap, isWordChar c = false)
    (cs : List Char) : words (gap ++ cs) = words cs := by
  induction gap with
  | nil => rfl
  | cons d gap ih =>
    rw [List.cons_append, words_cons_of_not (hgap d List.mem_cons_self),
      ih fun c hc => hgap c (List.mem_cons_of_mem d hc)]

/-- Where no run begins, the first piece is empty. -/
lemma exists_pieces (hends : ∀ c ∈ cs.head?, isWordChar c = false) :
    ∃ ps, pieces cs = [] :: ps ∧ words cs = ps.filter (fun w => !w.isEmpty) := by
  cases cs with
  | nil => exact ⟨[], rfl, rfl⟩
  | cons c cs =>
    have hc : isWordChar c = false := hends c rfl
    exact ⟨pieces cs, by simp [pieces, hc], words_cons_of_not hc cs⟩

lemma words_append_run {w : List Char} (hne : w ≠ []) (hw : ∀ c ∈ w, isWordChar c = true)
    (hends : ∀ c ∈ cs.head?, isWordChar c = false) : words (w ++ cs) = w :: words cs := by
  obtain ⟨ps, hps, hwords⟩ := exists_pieces hends
  have hpieces : pieces (w ++ cs) = w :: ps := by
    clear hne
    induction w with
    | nil => exact hps
    | cons d w ih =>
      have hd : isWordChar d = true := hw d List.mem_cons_self
      have hrest := ih fun c hc => hw c (List.mem_cons_of_mem d hc)
      rw [List.cons_append, pieces, if_pos hd, hrest]
  rw [words, hpieces, hwords, List.filter_cons_of_pos (by simpa using hne)]

namespace Runs

variable {p : Char → Bool}

lemma words_eq (h : Runs isWordChar cs ws) : words cs = ws := by
  induction h with
  | @gap gap hgap =>
    have hwords := words_append_gap hgap []
    rwa [List.append_nil] at hwords
  | run hgap hne hw hends _ ih =>
    rw [List.append_assoc, words_append_gap hgap, words_append_run hne hw hends, ih]

lemma cons_of_not (hc : p c = false) (h : Runs p cs ws) : Runs p (c :: cs) ws := by
  cases h with
  | gap hgap => exact .gap (List.forall_mem_cons.2 ⟨hc, hgap⟩)
  | @run gap w rest ws hgap hne hw hends hrest =>
    have hlonger : Runs p ((c :: gap) ++ w ++ rest) (w :: ws) :=
      .run (List.forall_mem_cons.2 ⟨hc, hgap⟩) hne hw hends hrest
    simpa using hlonger

/-- A character of the class makes the first run longer, or is a run of its own. -/
lemma exists_cons (hc : p c = true) (h : Runs p cs ws) : ∃ ws', Runs p (c :: cs) ws' := by
  by_cases hends : ∀ d ∈ cs.head?, p d = false
  · have halone : Runs p ([] ++ [c] ++ cs) ([c] :: ws) :=
      .run (by simp) (by simp) (by simpa using hc) hends h
    exact ⟨_, halone⟩
  · cases h with
    | @gap gap hgap =>
      exact absurd (fun d hd => hgap d (List.mem_of_mem_head? hd)) hends
    | @run gap w rest ws hgap hne hw hends' hrest =>
      cases gap with
      | nil =>
        have hlonger : Runs p ([] ++ (c :: w) ++ rest) ((c :: w) :: ws) :=
          .run (by simp) (by simp) (List.forall_mem_cons.2 ⟨hc, hw⟩) hends' hrest
        exact ⟨_, hlonger⟩
      | cons d gap => exact absurd (by simpa using hgap d List.mem_cons_self) hends

lemma exists_runs (p : Char → Bool) (cs : List Char) : ∃ ws, Runs p cs ws := by
  induction cs with
  | nil => exact ⟨[], .gap (by simp)⟩
  | cons c cs ih =>
    obtain ⟨ws, h⟩ := ih
    cases hc : p c with
    | false => exact ⟨ws, h.cons_of_not hc⟩
    | true => exact h.exists_cons hc

lemma mem_run {w : List Char} (h : Runs p cs ws) (hmem : w ∈ ws) :
    w ≠ [] ∧ ∀ c ∈ w, c ∈ cs ∧ p c = true := by
  induction h with
  | gap _ => simp at hmem
  | run hgap hne hw hends _ ih =>
    rcases List.mem_cons.1 hmem with rfl | hmem
    · exact ⟨hne, fun c hc => ⟨by simp [hc], hw c hc⟩⟩
    · obtain ⟨hne', hw'⟩ := ih hmem
      exact ⟨hne', fun c hc => ⟨by simp [(hw' c hc).1], (hw' c hc).2⟩⟩

end Runs

/-- The words of a text are its maximal runs of letters and digits, and there is only one way to
list these. -/
theorem runs_iff : Runs isWordChar cs ws ↔ ws = words cs := by
  constructor
  · intro h
    exact h.words_eq.symm
  · rintro rfl
    obtain ⟨ws, h⟩ := Runs.exists_runs isWordChar cs
    rwa [h.words_eq]

lemma words_eq_nil : words cs = [] ↔ ∀ c ∈ cs, isWordChar c = false := by
  rw [eq_comm, ← runs_iff]
  constructor
  · intro h
    cases h with
    | gap hgap => exact hgap
  · exact .gap

/-! ## The lower-case form -/

/-- Two texts that begin with the same letters and digits and have the same words behind them. -/
def Alike (a b : List Char) : Prop :=
  a.takeWhile isWordChar = b.takeWhile isWordChar ∧
    words (a.dropWhile isWordChar) = words (b.dropWhile isWordChar)

namespace Alike

lemma words_eq (h : Alike a b) : words a = words b := by
  have hwords : ∀ cs : List Char, words cs = if cs.takeWhile isWordChar = []
      then words (cs.dropWhile isWordChar)
      else cs.takeWhile isWordChar :: words (cs.dropWhile isWordChar) := by
    intro cs
    have hsplit : words cs = words (cs.takeWhile isWordChar ++ cs.dropWhile isWordChar) := by
      rw [List.takeWhile_append_dropWhile]
    split
    · next hnone => rw [hsplit, hnone, List.nil_append]
    · next hne =>
      rw [hsplit, words_append_run hne fun c => List.mem_takeWhile_imp]
      intro c hc
      have hstop := List.head?_dropWhile_not isWordChar cs
      rwa [hc] at hstop
  rw [hwords a, hwords b, h.1, h.2]

lemma cons (c : Char) (h : Alike a b) : Alike (c :: a) (c :: b) := by
  cases hc : isWordChar c with
  | true => simpa [Alike, hc] using h
  | false => simpa [Alike, hc, words_cons_of_not hc] using h.words_eq

lemma append (cs : List Char) (h : Alike a b) : Alike (cs ++ a) (cs ++ b) := by
  induction cs with
  | nil => exact h
  | cons c cs ih => exact ih.cons c

/-- Between words, it does not matter what stands there. -/
lemma append_gap {gap gap' : List Char} (hne : gap ≠ []) (hne' : gap' ≠ [])
    (hgap : ∀ c ∈ gap, isWordChar c = false) (hgap' : ∀ c ∈ gap', isWordChar c = false)
    (h : Alike a b) : Alike (gap ++ a) (gap' ++ b) := by
  have hfront : ∀ {gap : List Char} (cs : List Char), gap ≠ [] →
      (∀ c ∈ gap, isWordChar c = false) → (gap ++ cs).takeWhile isWordChar = [] ∧
        words ((gap ++ cs).dropWhile isWordChar) = words cs := by
    intro gap cs hne hgap
    obtain ⟨d, gap, rfl⟩ := List.exists_cons_of_ne_nil hne
    have hd : isWordChar d = false := hgap d List.mem_cons_self
    refine ⟨by simp [hd], ?_⟩
    rw [List.cons_append, List.dropWhile_cons_of_neg (by simp [hd]), ← List.cons_append,
      words_append_gap hgap]
  exact ⟨(hfront a hne hgap).1.trans (hfront b hne' hgap').1.symm,
    (hfront a hne hgap).2.trans (h.words_eq.trans (hfront b hne' hgap').2.symm)⟩

end Alike

lemma lower_of_ascii (h : c.toNat < 128) : lower c = [c.toLower] := by
  have hkelvin : c ≠ '\u212A' := by
    rintro rfl
    exact absurd h (by decide)
  have hdotted : c ≠ '\u0130' := by
    rintro rfl
    exact absurd h (by decide)
  rw [lower, if_neg hkelvin, if_neg hdotted]

lemma toLower_of_not_ascii (h : 128 ≤ c.toNat) : c.toLower = c ∧ isWordChar c = false := by
  have hval : 128 ≤ c.val := UInt32.le_iff_toNat_le.2 h
  constructor
  · grind [Char.toLower]
  · grind [isWordChar, Char.isAlphanum, Char.isAlpha, Char.isUpper, Char.isLower, Char.isDigit]

lemma lowersTo_lower (c : Char) : LowersTo c (lower c) := by
  by_cases hascii : c.toNat < 128
  · rw [lower_of_ascii hascii]
    exact .ascii hascii
  rw [lower]
  split
  · next h => exact h ▸ .kelvin
  · next hkelvin =>
    split
    · next h => exact h ▸ .dotted
    · next hdotted =>
      obtain ⟨hsame, hword⟩ := toLower_of_not_ascii (Nat.le_of_not_lt hascii)
      rw [hsame]
      exact .other (Nat.le_of_not_lt hascii) hkelvin hdotted (by simp)
        (by simpa [isWordChar] using hword)

lemma lowerForm_lower (cs : List Char) : LowerForm cs (cs.flatMap lower) := by
  refine ⟨cs.map lower, ?_, by rw [List.flatMap_def]⟩
  induction cs with
  | nil => exact .nil
  | cons c cs ih => exact .cons (lowersTo_lower c) ih

/-- Two forms of one character in lower case keep texts alike that they stand in front of. -/
lemma LowersTo.alike {part part' : List Char} (h : LowersTo c part) (h' : LowersTo c part')
    (hab : Alike a b) : Alike (part ++ a) (part' ++ b) := by
  cases h with
  | ascii hc =>
    cases h' with
    | ascii _ => exact hab.append _
    | kelvin => exact absurd hc (by decide)
    | dotted => exact absurd hc (by decide)
    | other hc' _ _ _ _ => omega
  | kelvin =>
    cases h' with
    | ascii hc => exact absurd hc (by decide)
    | kelvin => exact hab.append _
    | other _ hkelvin _ _ _ => exact absurd rfl hkelvin
  | dotted =>
    cases h' with
    | ascii hc => exact absurd hc (by decide)
    | dotted => exact hab.append _
    | other _ _ hdotted _ _ => exact absurd rfl hdotted
  | other hc hkelvin hdotted hne hcs =>
    cases h' with
    | ascii hc' => omega
    | kelvin => exact absurd rfl hkelvin
    | dotted => exact absurd rfl hdotted
    | other _ _ _ hne' hcs' => exact hab.append_gap hne hne' hcs hcs'

/-- All lower-case forms of a text have the same words. -/
lemma LowerForm.words_eq {lowered lowered' : List Char} (h : LowerForm cs lowered)
    (h' : LowerForm cs lowered') : words lowered = words lowered' := by
  obtain ⟨parts, hparts, rfl⟩ := h
  obtain ⟨parts', hparts', rfl⟩ := h'
  refine Alike.words_eq ?_
  induction hparts generalizing parts' with
  | nil =>
    cases hparts' with
    | nil => exact ⟨rfl, rfl⟩
  | cons hc _ ih =>
    cases hparts' with
    | cons hc' hrest' => exact hc.alike hc' (ih _ hrest')

/-- A letter or digit in the lower-case form is a lower-case letter or a digit. -/
lemma isLower_or_isDigit (hc : c ∈ cs.flatMap lower) (hword : isWordChar c = true) :
    c.isLower = true ∨ c.isDigit = true := by
  obtain ⟨d, -, hd⟩ := List.mem_flatMap.1 hc
  rw [lower] at hd
  split at hd
  · rw [List.mem_singleton.1 hd]
    decide
  · split at hd
    · rcases List.mem_cons.1 hd with rfl | hd
      · decide
      · rw [List.mem_singleton.1 hd] at hword
        exact absurd hword (by decide)
    · rw [List.mem_singleton.1 hd] at hword ⊢
      grind [isWordChar, Char.isAlphanum, Char.isAlpha, Char.toLower, Char.isUpper, Char.isLower]

/-- Which characters have a letter or digit in their lower-case form. -/
lemma exists_mem_lower : (∃ d ∈ lower c, isWordChar d = true) ↔
    isWordChar c = true ∨ c = '\u212A' ∨ c = '\u0130' := by
  rw [lower]
  split
  · next h => simp [h, isWordChar, Char.isAlphanum]
  · next hkelvin =>
    split
    · next h => simp [h, isWordChar]
    · next hdotted =>
      simp only [List.mem_singleton, exists_eq_left, hkelvin, hdotted, or_false]
      grind [isWordChar, Char.isAlphanum, Char.isAlpha, Char.toLower, Char.isUpper, Char.isLower,
        Char.isDigit]

/-! ## Joined words -/

lemma join_eq (ws : List (List Char)) : join ws = ['-'].intercalate ws := by
  induction ws with
  | nil => rfl
  | cons w ws ih =>
    cases ws with
    | nil => simp [join]
    | cons v rest =>
      rw [join, ih, List.intercalate_cons_cons]
      simp

lemma head?_join {w : List Char} (hne : w ≠ []) (ws : List (List Char)) :
    (join (w :: ws)).head? = w.head? := by
  cases ws with
  | nil => rfl
  | cons v rest => rw [join, List.head?_append_of_ne_nil _ hne]

lemma join_eq_nil (hws : ∀ w ∈ ws, w ≠ []) : join ws = [] ↔ ws = [] := by
  cases ws with
  | nil => simp [join]
  | cons w rest =>
    have hw : w ≠ [] := hws w List.mem_cons_self
    have hhead := head?_join hw rest
    simp only [reduceCtorEq, iff_false]
    intro hnil
    rw [hnil, List.head?_nil, eq_comm, List.head?_eq_none_iff] at hhead
    exact hw hhead

lemma mem_join (h : c ∈ join ws) : c = '-' ∨ ∃ w ∈ ws, c ∈ w := by
  induction ws with
  | nil => simp [join] at h
  | cons w ws ih =>
    cases ws with
    | nil => exact Or.inr ⟨w, by simp, h⟩
    | cons v rest =>
      rw [join, List.mem_append, List.mem_cons] at h
      rcases h with hw | rfl | hrest
      · exact Or.inr ⟨w, by simp, hw⟩
      · exact Or.inl rfl
      · exact (ih hrest).imp_right fun ⟨u, hu, hc⟩ => ⟨u, List.mem_cons_of_mem w hu, hc⟩

/-- Joined words begin and end with a word. -/
lemma ends_join (hws : ∀ w ∈ ws, w ≠ [] ∧ '-' ∉ w) :
    (join ws).head? ≠ some '-' ∧ (join ws).getLast? ≠ some '-' := by
  induction ws with
  | nil => simp [join]
  | cons w ws ih =>
    obtain ⟨hne, hw⟩ := hws w List.mem_cons_self
    have hrest : ∀ v ∈ ws, v ≠ [] ∧ '-' ∉ v := fun v hv => hws v (List.mem_cons_of_mem w hv)
    refine ⟨?_, ?_⟩
    · rw [head?_join hne]
      exact fun h => hw (List.mem_of_head? h)
    · cases ws with
      | nil => exact fun h => hw (List.mem_of_getLast? h)
      | cons v rest =>
        have hjoin : join (v :: rest) ≠ [] := by
          rw [Ne, join_eq_nil fun u hu => (hrest u hu).1]
          simp
        rw [join, List.getLast?_append_cons, List.getLast?_cons_of_ne_nil hjoin]
        exact (ih hrest).2

/-- Between two dashes in joined words is a word. -/
lemma single_join (hws : ∀ w ∈ ws, w ≠ [] ∧ '-' ∉ w) :
    (join ws).IsChain fun a b => ¬ (a = '-' ∧ b = '-') := by
  induction ws with
  | nil => simp [join]
  | cons w ws ih =>
    have hw : '-' ∉ w := (hws w List.mem_cons_self).2
    have hrest : ∀ v ∈ ws, v ≠ [] ∧ '-' ∉ v := fun v hv => hws v (List.mem_cons_of_mem w hv)
    have hword : w.IsChain fun a b => ¬ (a = '-' ∧ b = '-') := by
      refine List.Pairwise.isChain (List.pairwise_of_forall_mem_list ?_)
      rintro a ha b - ⟨rfl, -⟩
      exact hw ha
    cases ws with
    | nil => exact hword
    | cons v rest =>
      rw [join, List.isChain_append, List.isChain_cons]
      refine ⟨hword, ⟨?_, ih hrest⟩, ?_⟩
      · rintro c hc ⟨-, rfl⟩
        exact (ends_join hrest).1 hc
      · rintro a ha b - ⟨rfl, -⟩
        exact hw (List.mem_of_getLast? ha)

/-- The words of joined words are these words. -/
lemma words_join (hws : ∀ w ∈ ws, w ≠ [] ∧ ∀ c ∈ w, isWordChar c = true) :
    words (join ws) = ws := by
  refine Runs.words_eq ?_
  induction ws with
  | nil => exact .gap (by simp [join])
  | cons w ws ih =>
    obtain ⟨hne, hw⟩ := hws w List.mem_cons_self
    have hrest := ih fun v hv => hws v (List.mem_cons_of_mem w hv)
    cases ws with
    | nil =>
      have hlast : Runs isWordChar ([] ++ w ++ join []) [w] :=
        .run (by simp) hne hw (by simp [join]) hrest
      simpa [join] using hlast
    | cons v rest =>
      have hdash : isWordChar '-' = false := by decide
      have hjoined : Runs isWordChar ([] ++ w ++ '-' :: join (v :: rest)) (w :: v :: rest) :=
        .run (by simp) hne hw (by simpa using hdash) (hrest.cons_of_not hdash)
      simpa [join] using hjoined

/-! ## Names made from texts -/

lemma toList_ofText (s : String) : (ofText s).toList = join (words (s.toList.flatMap lower)) := by
  rw [ofText, String.toList_ofList]

/-- What the words of a lower-case form are made of. -/
lemma mem_words_lower {w : List Char} (h : w ∈ words (cs.flatMap lower)) :
    w ≠ [] ∧ ∀ c ∈ w, isWordChar c = true ∧ (c.isLower = true ∨ c.isDigit = true) := by
  obtain ⟨hne, hw⟩ := (runs_iff.2 rfl).mem_run h
  exact ⟨hne, fun c hc => ⟨(hw c hc).2, isLower_or_isDigit (hw c hc).1 (hw c hc).2⟩⟩

lemma wellFormed_ofText (s : String) :
    WellFormed (ofText s).toList (words (s.toList.flatMap lower)) := by
  have hdashes : ∀ w ∈ words (s.toList.flatMap lower), w ≠ [] ∧ '-' ∉ w := by
    intro w hw
    refine ⟨(mem_words_lower hw).1, fun hmem => ?_⟩
    have hdash := ((mem_words_lower hw).2 _ hmem).1
    exact absurd hdash (by decide)
  rw [toList_ofText]
  exact {
    joined := join_eq _
    words := fun w hw => ⟨(mem_words_lower hw).1, fun c hc => ((mem_words_lower hw).2 c hc).2⟩
    ends := ends_join hdashes
    single := single_join hdashes }

/-- A character of a resource name is in lower case. -/
lemma lower_of_mem_ofText {s : String} (h : c ∈ (ofText s).toList) : lower c = [c] := by
  have hc : c = '-' ∨ c.isLower = true ∨ c.isDigit = true := by
    rw [toList_ofText] at h
    refine (mem_join h).imp_right ?_
    rintro ⟨w, hw, hmem⟩
    exact ((mem_words_lower hw).2 c hmem).2
  have hascii : c.toNat < 128 ∧ c.toLower = c := by
    rcases hc with rfl | hlower | hdigit
    · decide
    · grind [Char.isLower, Char.toLower, Char.toNat, UInt32.le_iff_toNat_le]
    · grind [Char.isDigit, Char.toLower, Char.toNat, UInt32.le_iff_toNat_le]
  rw [lower_of_ascii hascii.1, hascii.2]

/-- A resource name is the name that is made from it. -/
lemma ofText_ofText (s : String) : ofText (ofText s) = ofText s := by
  have hlower : (ofText s).toList.flatMap lower = (ofText s).toList := by
    rw [List.flatMap_congr fun c hc => lower_of_mem_ofText hc, List.flatMap_singleton']
  refine String.toList_inj.1 ?_
  rw [toList_ofText (ofText s), hlower, toList_ofText, words_join]
  exact fun w hw => ⟨(mem_words_lower hw).1, fun c hc => ((mem_words_lower hw).2 c hc).1⟩

/-- Only a text without a letter or digit in its lower-case form gives no name. -/
lemma ofText_ne_empty {s : String} : ofText s ≠ "" ↔
    ∃ c ∈ s.toList, isWordChar c = true ∨ c = '\u212A' ∨ c = '\u0130' := by
  have hwords : ofText s = "" ↔ ∀ c ∈ s.toList.flatMap lower, isWordChar c = false := by
    rw [← String.toList_eq_nil_iff, toList_ofText, join_eq_nil fun w hw => (mem_words_lower hw).1,
      words_eq_nil]
  rw [Ne, hwords]
  simp only [← exists_mem_lower, List.mem_flatMap, not_forall, Bool.not_eq_false]
  constructor
  · rintro ⟨d, ⟨c, hc, hd⟩, hword⟩
    exact ⟨c, hc, d, hd, hword⟩
  · rintro ⟨c, hc, d, hd, hword⟩
    exact ⟨d, ⟨c, hc, hd⟩, hword⟩

/-! ## Resource names -/

/-- An integration is named after its name, or after its id if there is no word in the name. -/
lemma resourceName_cases (i : Integration) :
    (ofText i.name ≠ "" ∧ resourceName i = ofText i.name) ∨
      (ofText i.name = "" ∧ resourceName i = ofText i.id) := by
  rw [resourceName]
  by_cases hname : ofText i.name = ""
  · exact Or.inr ⟨hname, by simp [hname]⟩
  · exact Or.inl ⟨hname, by simp [hname]⟩

lemma resourceName_ne_empty (i : Integration) :
    resourceName i ≠ "" ↔ ofText i.name ≠ "" ∨ ofText i.id ≠ "" := by
  rcases resourceName_cases i with ⟨hname, heq⟩ | ⟨hname, heq⟩
  · simp [heq, hname]
  · simp [heq, hname]

/-- Every name made from a text is well formed: its words are the maximal runs of letters and digits
in the lower-case form of the text, whichever that is; and it is the name made from itself.  The
name of an integration is one of these, and it is not empty if the name or the id has a letter, a
digit, or one of the two characters that become a letter. -/
theorem wellFormed_names :
    (∀ s : String, ofText (ofText s) = ofText s ∧ ∃ ws, WellFormed (ofText s).toList ws ∧
      (∃ lowered, LowerForm s.toList lowered) ∧
      ∀ lowered, LowerForm s.toList lowered → ∀ ws', Runs Char.isAlphanum lowered ws' ↔ ws' = ws) ∧
    ∀ i : Integration, (∃ s ∈ [i.name, i.id], resourceName i = ofText s) ∧
      (resourceName i ≠ "" ↔ ∃ c ∈ i.name.toList ++ i.id.toList,
        c.isAlphanum = true ∨ c = '\u212A' ∨ c = '\u0130') := by
  refine ⟨fun s => ⟨ofText_ofText s, _, wellFormed_ofText s, ⟨_, lowerForm_lower _⟩, ?_⟩,
    fun i => ⟨?_, ?_⟩⟩
  · intro lowered hlowered ws'
    rw [← hlowered.words_eq (lowerForm_lower _)]
    exact runs_iff
  · rcases resourceName_cases i with ⟨-, heq⟩ | ⟨-, heq⟩
    · exact ⟨i.name, by simp, heq⟩
    · exact ⟨i.id, by simp, heq⟩
  · rw [resourceName_ne_empty, ofText_ne_empty, ofText_ne_empty]
    simp only [List.mem_append, or_and_right, exists_or, isWordChar]

-- the Kelvin sign becomes a letter; the dot of the capital I does not, and ends a word
example : ofText "\u212Aelvin & \u0130zmir--42!" = "kelvin-i-zmir-42" ∧ ofText "***" = "" := by
  decide +kernel

end Convergence.Slug
