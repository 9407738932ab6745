import Convergence.Proofs.Text.Decimal
import Convergence.Proofs.Toml.Quoted
import Convergence.Toml.Reader
/-!
# Reading single values of TOML back

Texts, truth values and natural numbers are written without other values in them.  Each is read back
from the end of its line (`value?_scalarChars`).  A numeral is neither a date nor a time of day,
because both have something else than digits in them.
-/

namespace Convergence.Toml

open Decimal Text

/-! ## Numerals -/

variable {cs : List Char}

lemma after?_of_digits {c : Char} (hc : c.isDigit = false)
    (hdigits : ∀ d ∈ cs, d.isDigit = true) : after? c cs = none := by
  cases cs with
  | nil => rfl
  | cons d cs =>
    rw [after?, if_neg (ne_of_isDigit (hdigits d List.mem_cons_self) hc)]

lemma eq_drop_of_exactDigits? {count n : Nat} {rest : List Char}
    (h : exactDigits? count cs = some (n, rest)) : rest = cs.drop count := by
  rw [exactDigits?] at h
  split at h
  · obtain ⟨m, -, hpair⟩ := Option.map_eq_some_iff.1 h
    exact (congrArg Prod.snd hpair).symm
  · cases h

/-- Behind the digits of a year or an hour come more digits or nothing, and no separator. -/
lemma after?_of_exactDigits? {c : Char} (hc : c.isDigit = false)
    (hdigits : ∀ d ∈ cs, d.isDigit = true) {count n : Nat} {rest : List Char}
    (h : exactDigits? count cs = some (n, rest)) : after? c rest = none := by
  rw [eq_drop_of_exactDigits? h]
  exact after?_of_digits hc fun d hd => hdigits d (List.mem_of_mem_drop hd)

lemma afterDate?_of_digits (hdigits : ∀ d ∈ cs, d.isDigit = true) : afterDate? cs = none := by
  rw [afterDate?]
  cases h : exactDigits? 4 cs with
  | none => rfl
  | some p =>
    have hafter := after?_of_exactDigits? (c := '-') (by decide) hdigits h
    simp only [Option.bind_eq_bind, Option.bind_some, hafter, Option.bind_none]

lemma afterTime?_of_digits (hdigits : ∀ d ∈ cs, d.isDigit = true) : afterTime? cs = none := by
  rw [afterTime?]
  cases h : exactDigits? 2 cs with
  | none => rfl
  | some p =>
    have hafter := after?_of_exactDigits? (c := ':') (by decide) hdigits h
    simp only [Option.bind_eq_bind, Option.bind_some, hafter, Option.bind_none]

lemma isMoment_of_digits (hdigits : ∀ d ∈ cs, d.isDigit = true) : isMoment cs = false := by
  rw [isMoment, afterDate?_of_digits hdigits, afterTime?_of_digits hdigits]
  rfl

lemma ungroup_of_digits (hne : cs ≠ []) (hdigits : ∀ d ∈ cs, d.isDigit = true) :
    ungroup Char.isDigit cs = some cs := by
  induction cs with
  | nil => exact absurd rfl hne
  | cons c cs ih =>
    obtain ⟨hc, hrest⟩ := List.forall_mem_cons.1 hdigits
    cases cs with
    | nil => rw [ungroup, if_pos hc]
    | cons d cs =>
      have hd : d ≠ '_' := ne_of_isDigit (hrest d List.mem_cons_self) (by decide)
      rw [ungroup, if_pos hc, if_neg hd, ih (List.cons_ne_nil d cs) hrest, Option.map_some]

lemma integerNode?_nat {n : Nat} (h : Node.fits64 n = true) :
    integerNode? false n = some (.nat n) := by
  rw [integerNode?]
  simp only [Bool.false_eq_true, if_false]
  rw [if_pos h, Node.nat]

lemma decimalNode?_numeral {n : Nat} (h : Node.fits64 n = true) :
    decimalNode? false (numeral n) = some (.nat n) := by
  have hpower : (numeral n).span (fun c => c ≠ 'e' && c ≠ 'E') = (numeral n, []) := by
    refine span_self fun c hc => ?_
    have hdigit := isDigit_of_mem_numeral c hc
    simp [ne_of_isDigit hdigit (d := 'e') (by decide), ne_of_isDigit hdigit (d := 'E') (by decide)]
  have hpoint : (numeral n).span (· ≠ '.') = (numeral n, []) := by
    refine span_self fun c hc => ?_
    simpa using ne_of_isDigit (isDigit_of_mem_numeral c hc) (d := '.') (by decide)
  have hwhole : wholeDigits? (numeral n) = some (numeral n) := by
    rw [wholeDigits?, ungroup_of_digits (numeral_ne_nil n) isDigit_of_mem_numeral]
    simp only [leadingZero_numeral, Bool.false_eq_true, if_false]
  have hempty : (([] : List Char).isEmpty && ([] : List Char).isEmpty) = true := rfl
  rw [decimalNode?, hpower]
  simp only [hpoint]
  refine Option.bind_eq_some_iff.2 ⟨numeral n, hwhole, Option.bind_eq_some_iff.2 ⟨[], rfl,
    Option.bind_eq_some_iff.2 ⟨(false, []), rfl, ?_⟩⟩⟩
  rw [if_pos hempty, ofParts_numeral]
  exact integerNode?_nat h

lemma bareNode?_numeral {n : Nat} (h : Node.fits64 n = true) :
    bareNode? (numeral n) = some (.nat n) := by
  have hdigits := isDigit_of_mem_numeral (n := n)
  -- a word with another character in it is no numeral
  have hother : ∀ {c : Char} {cs : List Char}, c ∈ cs → c.isDigit = false → numeral n ≠ cs := by
    rintro c cs hmem hc rfl
    exact absurd (hdigits c hmem) (by simp [hc])
  rw [bareNode?, if_neg (hother (c := 't') (by simp) (by decide)),
    if_neg (hother (c := 'f') (by simp) (by decide)), isMoment_of_digits hdigits,
    if_neg (by decide), numberNode?.eq_def]
  split
  · next heq => exact absurd heq (hother (c := '-') (by simp) (by decide))
  · next heq => exact absurd heq (hother (c := '+') (by simp) (by decide))
  rw [unsignedNode?.eq_def]
  split
  · next heq => exact absurd heq (hother (c := 'i') (by simp) (by decide))
  · next heq => exact absurd heq (hother (c := 'n') (by simp) (by decide))
  · next heq => exact absurd heq (hother (c := 'x') (by simp) (by decide))
  · next heq => exact absurd heq (hother (c := 'o') (by simp) (by decide))
  · next heq => exact absurd heq (hother (c := 'b') (by simp) (by decide))
  · exact decimalNode?_numeral h

/-! ## Words at the end of a line -/

lemma bare?_lineEnd {word : List Char} (hword : ∀ c ∈ word, endsWord c = false)
    (rest : List Char) :
    bare? (word ++ '\n' :: rest) = (bareNode? word).map (·, '\n' :: rest) := by
  have hspan : (word ++ '\n' :: rest).span (fun c => !endsWord c) = (word, '\n' :: rest) :=
    span_append (fun c hc => by simp [hword c hc]) (by simp [endsWord])
  rw [bare?, hspan]
  dsimp only
  split
  · next heq => cases heq
  · rfl

lemma endsWord_of_isDigit {c : Char} (h : c.isDigit = true) : endsWord c = false := by
  cases hc : endsWord c with
  | false => rfl
  | true =>
    simp only [endsWord, Bool.or_eq_true, decide_eq_true_eq] at hc
    rcases hc with (((((((((((rfl | rfl) | rfl) | rfl) | rfl) | rfl) | rfl) | rfl) | rfl) | rfl)
      | rfl) | rfl) | rfl <;> exact absurd h (by decide)

/-! ## Values -/

/-- The node is a text, a truth value or a natural number of 64 bits. -/
inductive IsScalar : Node → Prop where
  | str (s : String) : IsScalar (.str s)
  | bool (b : Bool) : IsScalar (.bool b)
  | nat {n : Nat} (h : Node.fits64 n = true) : IsScalar (.nat n)

lemma scalarChars_nat (n : Nat) : scalarChars (.nat n) = numeral n := by
  have hnat : ¬ (n : Int) < 0 := by omega
  rw [Node.nat, scalarChars, intNumeral, if_neg hnat, Int.natAbs_natCast]

/-- A value begins at once, and goes on without a carriage return. -/
lemma exists_scalarChars {n : Node} (h : IsScalar n) :
    ∃ c cs, scalarChars n = c :: cs ∧ isSpace c = false ∧ '\r' ∉ scalarChars n := by
  cases h with
  | str s =>
    obtain ⟨quote, body, hquote, hbody, hencloses⟩ := exists_quotedChars s.toList
    have hspace : isSpace quote = false ∧ quote ≠ '\r' := by
      rcases hquote with rfl | rfl <;> decide
    refine ⟨quote, body, hbody, hspace.1, ?_⟩
    rw [scalarChars, hbody]
    simp [hspace.2.symm, hencloses.return_not_mem]
  | bool b => cases b <;> exact ⟨_, _, rfl, by decide, by decide⟩
  | @nat n =>
    obtain ⟨c, cs, hcs⟩ := List.exists_cons_of_ne_nil (numeral_ne_nil n)
    have hdigits := isDigit_of_mem_numeral (n := n)
    have hc : c.isDigit = true := hdigits c (hcs ▸ List.mem_cons_self)
    rw [scalarChars_nat]
    refine ⟨c, cs, hcs, ?_, fun hr => absurd (hdigits _ hr) (by decide)⟩
    simp [isSpace, ne_of_isDigit hc (d := ' ') (by decide),
      ne_of_isDigit hc (d := '\t') (by decide), ne_of_isDigit hc (d := '\r') (by decide)]

/-- A value is read at the end of its line. -/
theorem value?_scalarChars {n : Node} (h : IsScalar n) (fuel depth : Nat) (rest : List Char) :
    value? (fuel + 1) depth (scalarChars n ++ '\n' :: rest) = some (n, '\n' :: rest) := by
  cases h with
  | str s =>
    obtain ⟨quote, body, hquote, hbody, hencloses⟩ := exists_quotedChars s.toList
    have hrest : ∀ c ∈ ('\n' :: rest).head?, c ≠ quote := by
      rcases hquote with rfl | rfl <;> simp
    have hread := hencloses.reads ('\n' :: rest) hrest
    rw [scalarChars, hbody, List.cons_append]
    rcases hquote with rfl | rfl
    · rw [value?, hread, Option.map_some, String.ofList_toList]
    · rw [value?, hread, Option.map_some, String.ofList_toList]
  | bool b =>
    cases b
    · rw [scalarChars, List.cons_append, value?]
      · exact @bare?_lineEnd ['f', 'a', 'l', 's', 'e'] (by simp [endsWord]) rest
      all_goals exact nofun
    · rw [scalarChars, List.cons_append, value?]
      · exact @bare?_lineEnd ['t', 'r', 'u', 'e'] (by simp [endsWord]) rest
      all_goals exact nofun
  | @nat n h =>
    have hword : ∀ c ∈ numeral n, endsWord c = false :=
      fun c hc => endsWord_of_isDigit (isDigit_of_mem_numeral c hc)
    have hread := bare?_lineEnd hword rest
    rw [bareNode?_numeral h, Option.map_some] at hread
    obtain ⟨c, cs, hcs⟩ := List.exists_cons_of_ne_nil (numeral_ne_nil n)
    have hc : c.isDigit = true := isDigit_of_mem_numeral c (hcs ▸ List.mem_cons_self)
    rw [hcs, List.cons_append] at hread
    rw [scalarChars_nat, hcs, List.cons_append, value?]
    · exact hread
    all_goals
      intro more heq
      exact ne_of_isDigit hc (by decide) (List.cons.inj heq).1

end Convergence.Toml
