import Mathlib.Algebra.Group.Nat.Defs
import Mathlib.Tactic.Lemma
import Convergence.Proofs.Text.Words
import Convergence.Text.Scientific
/-!
# What numerals look like

A numeral has decimal digits only and no leading zero.  One that is padded with zeros has at least
the width asked for, has exactly that width if the number is below the power of ten, and stands for
the same number.
-/

namespace Convergence.Decimal

lemma isDigit_digitChar {d : Nat} (h : d < 10) : (digitChar d).isDigit = true := by
  have hall : ∀ d < 10, (digitChar d).isDigit = true := by decide
  exact hall d h

lemma hexDigit?_digitChar {d : Nat} (h : d < 16) : hexDigit? (digitChar d) = some d := by
  have hall : ∀ d < 16, hexDigit? (digitChar d) = some d := by decide
  exact hall d h

lemma isDigit_of_mem_numeral {n : Nat} : ∀ c ∈ numeral n, c.isDigit = true := by
  induction n using Nat.strongRecOn with
  | _ n ih =>
    intro c hc
    rw [numeral] at hc
    split at hc
    · next h =>
      rw [List.mem_singleton.1 hc]
      exact isDigit_digitChar h
    · next h =>
      rcases List.mem_append.1 hc with hc | hc
      · exact ih (n / 10) (by omega) c hc
      · rw [List.mem_singleton.1 hc]
        exact isDigit_digitChar (Nat.mod_lt n (by decide))

lemma ne_of_isDigit {c d : Char} (hc : c.isDigit = true) (hd : d.isDigit = false) : c ≠ d := by
  rintro rfl
  exact absurd hc (by simp [hd])

lemma length_numeral {n : Nat} (h : n < 10) : (numeral n).length = 1 := by
  rw [numeral, if_pos h]
  rfl

/-- Only the numeral of zero begins with a zero. -/
lemma head?_numeral {n : Nat} (h : n ≠ 0) : (numeral n).head? ≠ some '0' := by
  induction n using Nat.strongRecOn with
  | _ n ih =>
    rw [numeral]
    split
    · next hlt =>
      have hall : ∀ d < 10, d ≠ 0 → [digitChar d].head? ≠ some '0' := by decide
      exact hall n hlt h
    · next hge =>
      have hrest := ih (n / 10) (by omega) (by omega)
      obtain ⟨c, hc⟩ :=
        Option.isSome_iff_exists.1 (List.isSome_head?.2 (numeral_ne_nil (n / 10)))
      rw [List.head?_append, hc, Option.some_or, ← hc]
      exact hrest

lemma length_numeral_le {n width : Nat} (hwidth : 0 < width) (h : n < 10 ^ width) :
    (numeral n).length ≤ width := by
  induction width generalizing n with
  | zero => omega
  | succ width ih =>
    rw [numeral]
    split
    · exact hwidth
    · next hge =>
      rw [Nat.pow_succ] at h
      have hpos : 0 < width := by
        rcases Nat.eq_zero_or_pos width with rfl | hpos
        · omega
        · exact hpos
      have hrest := ih hpos (n := n / 10) (by omega)
      rw [List.length_append, List.length_singleton]
      omega

lemma leadingZero_numeral (n : Nat) :
    ((numeral n).length > 1 && (numeral n).head? = some '0') = false := by
  by_cases h : n < 10
  · simp [length_numeral h]
  · simp [head?_numeral (n := n) (by omega)]

/-- A digit goes on with a number as the library has it. -/
lemma valueFrom_of_isDigit {cs : List Char} (h : ∀ c ∈ cs, c.isDigit = true) (n : Nat) :
    valueFrom 10 digit? n cs = some (Nat.ofDigitChars 10 cs n) := by
  induction cs generalizing n with
  | nil => rfl
  | cons c cs ih =>
    have hc : '0' ≤ c ∧ c ≤ '9' := Char.isDigit_iff_toNat.1 (h c (by simp))
    have hlt : c.toNat - '0'.toNat < 10 := by
      have hle : c.toNat ≤ '9'.toNat := hc.2
      have hnine : '9'.toNat = 57 := rfl
      have hzero : '0'.toNat = 48 := rfl
      omega
    rw [valueFrom, digit?, if_pos hc]
    simp only [hlt, if_true]
    rw [ih fun d hd => h d (by simp [hd]), Nat.ofDigitChars_cons, Nat.mul_comm n]

lemma ofDigitChars_numeral (n : Nat) : Nat.ofDigitChars 10 (numeral n) 0 = n := by
  have hvalue := valueFrom_numeral n
  rw [valueFrom_of_isDigit isDigit_of_mem_numeral] at hvalue
  exact Option.some.inj hvalue

lemma ofParts_of_isDigit {cs : List Char} (h : ∀ c ∈ cs, c.isDigit = true) :
    (Scientific.ofParts cs [] false []).mantissa = Nat.ofDigitChars 10 cs 0 := by
  simp [Scientific.ofParts, valueFrom_of_isDigit h]

lemma ofParts_numeral (n : Nat) : (Scientific.ofParts (numeral n) [] false []).mantissa = n := by
  rw [ofParts_of_isDigit isDigit_of_mem_numeral, ofDigitChars_numeral]

/-! ## Padding -/

lemma padded_ne_nil (width n : Nat) : padded width n ≠ [] := by simp [padded, numeral_ne_nil]

lemma isDigit_of_mem_padded {width n : Nat} : ∀ c ∈ padded width n, c.isDigit = true := by
  intro c hc
  rcases List.mem_append.1 hc with hc | hc
  · rw [(List.mem_replicate.1 hc).2]
    rfl
  · exact isDigit_of_mem_numeral c hc

lemma length_padded {width n : Nat} (hwidth : 0 < width) (h : n < 10 ^ width) :
    (padded width n).length = width := by
  have hle := length_numeral_le hwidth h
  rw [padded, List.length_append, List.length_replicate]
  omega

lemma valueFrom_replicate_zero (k : Nat) (cs : List Char) :
    valueFrom 10 digit? 0 (List.replicate k '0' ++ cs) = valueFrom 10 digit? 0 cs := by
  induction k with
  | zero => rfl
  | succ k ih =>
    have hzero : digit? '0' = some 0 := by decide
    rw [List.replicate_succ, List.cons_append, valueFrom, hzero]
    simpa using ih

/-- Zeros in front do not change a number. -/
lemma value?_padded (width n : Nat) : value? (padded width n) = some n := by
  rw [value?, if_neg (by simpa using padded_ne_nil width n), padded, valueFrom_replicate_zero,
    valueFrom_numeral]

end Convergence.Decimal
