import Mathlib.Logic.Basic
import Mathlib.Tactic.ByContra
import Mathlib.Tactic.Lemma
import Convergence.Text.Unsigned
/-!
# Which texts are numbers

A numeral is one or more digits, perhaps with a plus sign before them (`Writes`).  Just the numerals
of numbers below 2 ^ 64 are read (`read_eq_ok_iff`).  Of the other texts, one is too large if a
number that is too large stands at its front, whatever follows; and any that is left, but for the
empty one, has a character that does not belong there (`read_eq_error_iff`).
-/

namespace Convergence.Unsigned

/-- There is no sign, or a plus sign. -/
def IsSign (sign : List Char) : Prop := sign = [] ∨ sign = ['+']

/-- The text is a numeral of the number. -/
inductive Writes : List Char → Nat → Prop where
  | intro {sign digits : List Char} (hsign : IsSign sign) (hne : digits ≠ [])
      (hdigits : ∀ c ∈ digits, c.isDigit = true) :
      Writes (sign ++ digits) (Nat.ofDigitChars 10 digits 0)

/-- Numbers at the front of the text are below 2 ^ 64. -/
def FrontFits (cs : List Char) : Prop :=
  ∀ sign digits rest, cs = sign ++ digits ++ rest → IsSign sign →
    (∀ c ∈ digits, c.isDigit = true) → Nat.ofDigitChars 10 digits 0 < UInt64.size

/-- What is wrong with a text that is no numeral of a number below 2 ^ 64. -/
inductive Spoils : Fault → List Char → Prop where
  | empty : Spoils .empty []
  | tooLarge {cs : List Char} (hlarge : ¬ FrontFits cs) : Spoils .tooLarge cs
  | invalidDigit {cs : List Char} (hne : cs ≠ []) (hfits : FrontFits cs)
      (hno : ∀ n, ¬ Writes cs n) : Spoils .invalidDigit cs

/-! ## Digits -/

lemma digit?_of_isDigit {c : Char} (h : c.isDigit = true) :
    Decimal.digit? c = some (c.toNat - '0'.toNat) := by
  have hbounds : '0' ≤ c ∧ c ≤ '9' := Char.isDigit_iff_toNat.1 h
  rw [Decimal.digit?, if_pos hbounds]

lemma digit?_eq_none {c : Char} (h : ¬ c.isDigit = true) : Decimal.digit? c = none := by
  have hbounds : ¬ ('0' ≤ c ∧ c ≤ '9') := fun hb => h (Char.isDigit_iff_toNat.2 hb)
  rw [Decimal.digit?, if_neg hbounds]

lemma le_ofDigitChars (cs : List Char) (n : Nat) : n ≤ Nat.ofDigitChars 10 cs n := by
  rw [Nat.ofDigitChars_eq_ofDigitChars_zero]
  have hpos : 0 < 10 ^ cs.length := Nat.pow_pos (by decide)
  have hle : n ≤ 10 ^ cs.length * n := Nat.le_mul_of_pos_left n hpos
  omega

/-- Without digits the number stays what it was. -/
lemma ne_nil_of_size_le {n : Nat} {digits : List Char} (hn : n < UInt64.size)
    (hlarge : UInt64.size ≤ Nat.ofDigitChars 10 digits n) : digits ≠ [] := by
  rintro rfl
  rw [Nat.ofDigitChars_nil] at hlarge
  omega

/-- One more digit is read if the number stays below the bound. -/
lemma readFrom_cons {c : Char} (h : c.isDigit = true) (n : Nat) (cs : List Char) :
    readFrom n (c :: cs) =
      if Nat.ofDigitChars 10 [c] n < UInt64.size then readFrom (Nat.ofDigitChars 10 [c] n) cs
      else .error .tooLarge := by
  rw [readFrom, digit?_of_isDigit h, Nat.ofDigitChars_cons, Nat.ofDigitChars_nil, Nat.mul_comm 10]

lemma readFrom_of_not_isDigit {c : Char} (h : ¬ c.isDigit = true) (n : Nat) (cs : List Char) :
    readFrom n (c :: cs) = .error .invalidDigit := by
  rw [readFrom, digit?_eq_none h]

/-- Digits are read on as long as the number stays below the bound; since it never goes down, it is
enough to look at the end. -/
lemma readFrom_eq_ok_iff {n m : Nat} {cs : List Char} (hn : n < UInt64.size) :
    readFrom n cs = .ok m ↔
      (∀ c ∈ cs, c.isDigit = true) ∧ m = Nat.ofDigitChars 10 cs n ∧ m < UInt64.size := by
  induction cs generalizing n with
  | nil =>
    rw [readFrom, Except.ok.injEq, Nat.ofDigitChars_nil, and_iff_right (List.forall_mem_nil _)]
    constructor
    · rintro rfl
      exact ⟨rfl, hn⟩
    · rintro ⟨rfl, -⟩
      rfl
  | cons c cs ih =>
    by_cases hc : c.isDigit = true
    · have hvalue : Nat.ofDigitChars 10 (c :: cs) n
          = Nat.ofDigitChars 10 cs (Nat.ofDigitChars 10 [c] n) :=
        Nat.ofDigitChars_append (l := [c]) n
      rw [readFrom_cons hc, List.forall_mem_cons, hvalue]
      split
      · next hlt => rw [ih hlt, and_iff_right hc]
      · next hge =>
        have hle := le_ofDigitChars cs (Nat.ofDigitChars 10 [c] n)
        constructor
        · intro h
          cases h
        · rintro ⟨-, rfl, hlt⟩
          omega
    · rw [readFrom_of_not_isDigit hc]
      constructor
      · intro h
        cases h
      · rintro ⟨hdigits, -⟩
        exact absurd (hdigits c (by simp)) hc

/-- Reading stops at the first digit with which the number is too large. -/
lemma readFrom_eq_tooLarge_iff {n : Nat} {cs : List Char} (hn : n < UInt64.size) :
    readFrom n cs = .error .tooLarge ↔ ∃ digits rest, cs = digits ++ rest ∧
      (∀ c ∈ digits, c.isDigit = true) ∧ UInt64.size ≤ Nat.ofDigitChars 10 digits n := by
  induction cs generalizing n with
  | nil =>
    refine ⟨nofun, ?_⟩
    rintro ⟨digits, rest, hsplit, -, hlarge⟩
    exact absurd (List.append_eq_nil_iff.1 hsplit.symm).1 (ne_nil_of_size_le hn hlarge)
  | cons c cs ih =>
    by_cases hc : c.isDigit = true
    · have hvalue : ∀ digits, Nat.ofDigitChars 10 (c :: digits) n
          = Nat.ofDigitChars 10 digits (Nat.ofDigitChars 10 [c] n) :=
        fun _ => Nat.ofDigitChars_append (l := [c]) n
      rw [readFrom_cons hc]
      split
      · next hlt =>
        rw [ih hlt]
        constructor
        · rintro ⟨digits, rest, rfl, hdigits, hlarge⟩
          exact ⟨c :: digits, rest, rfl, List.forall_mem_cons.2 ⟨hc, hdigits⟩,
            by rwa [hvalue]⟩
        · rintro ⟨digits, rest, hsplit, hdigits, hlarge⟩
          obtain ⟨d, digits, rfl⟩ := List.exists_cons_of_ne_nil (ne_nil_of_size_le hn hlarge)
          obtain ⟨rfl, rfl⟩ := List.cons.inj hsplit
          rw [hvalue] at hlarge
          exact ⟨digits, rest, rfl, (List.forall_mem_cons.1 hdigits).2, hlarge⟩
      · next hge =>
        exact ⟨fun _ => ⟨[c], cs, rfl, by simpa using hc, Nat.not_lt.1 hge⟩, fun _ => rfl⟩
    · rw [readFrom_of_not_isDigit hc]
      refine ⟨nofun, ?_⟩
      rintro ⟨digits, rest, hsplit, hdigits, hlarge⟩
      obtain ⟨d, digits, rfl⟩ := List.exists_cons_of_ne_nil (ne_nil_of_size_le hn hlarge)
      obtain ⟨rfl, -⟩ := List.cons.inj hsplit
      exact absurd (hdigits c (by simp)) hc

lemma readFrom_ne_empty (n : Nat) (cs : List Char) : readFrom n cs ≠ .error .empty := by
  induction cs generalizing n with
  | nil => exact nofun
  | cons c cs ih =>
    by_cases hc : c.isDigit = true
    · rw [readFrom_cons hc]
      split
      · exact ih _
      · exact nofun
    · rw [readFrom_of_not_isDigit hc]
      exact nofun

/-! ## The sign -/

/-- What stands behind the sign. -/
def unsigned : List Char → List Char
  | '+' :: cs => cs
  | cs => cs

/-- A text is its sign and what stands behind it. -/
lemma exists_sign (cs : List Char) : ∃ sign, IsSign sign ∧ cs = sign ++ unsigned cs := by
  rw [unsigned.eq_def]
  split
  · exact ⟨['+'], Or.inr rfl, rfl⟩
  · exact ⟨[], Or.inl rfl, rfl⟩

/-- A sign ends where digits begin. -/
lemma unsigned_append {sign digits rest : List Char} (hsign : IsSign sign) (hne : digits ≠ [])
    (hdigits : ∀ c ∈ digits, c.isDigit = true) :
    unsigned (sign ++ digits ++ rest) = digits ++ rest := by
  obtain ⟨d, digits, rfl⟩ := List.exists_cons_of_ne_nil hne
  have hd : d ≠ '+' := by
    rintro rfl
    exact absurd (hdigits '+' (by simp)) (by decide)
  rcases hsign with rfl | rfl
  · rw [unsigned.eq_def]
    split
    · next hcs =>
      exact absurd (List.cons.inj hcs).1 hd
    · rfl
  · rfl

lemma read_of_unsigned {cs : List Char} (h : unsigned cs ≠ []) :
    read cs = readFrom 0 (unsigned cs) := by
  rw [read.eq_def]
  split
  · exact absurd rfl h
  · exact absurd rfl h
  · rfl
  · next hplus =>
    rw [unsigned.eq_def]
    split
    · exact (hplus _ rfl).elim
    · rfl

lemma writes_iff {cs : List Char} {n : Nat} : Writes cs n ↔ unsigned cs ≠ [] ∧
    (∀ c ∈ unsigned cs, c.isDigit = true) ∧ n = Nat.ofDigitChars 10 (unsigned cs) 0 := by
  constructor
  · rintro @⟨sign, digits, hsign, hne, hdigits⟩
    have hrest : unsigned (sign ++ digits ++ []) = digits ++ [] :=
      unsigned_append hsign hne hdigits
    rw [List.append_nil, List.append_nil] at hrest
    rw [hrest]
    exact ⟨hne, hdigits, rfl⟩
  · rintro ⟨hne, hdigits, rfl⟩
    obtain ⟨sign, hsign, hcs⟩ := exists_sign cs
    have hwrites := Writes.intro hsign hne hdigits
    rwa [← hcs] at hwrites

/-- A number that is too large stands behind the sign. -/
lemma not_frontFits_iff {cs : List Char} : ¬ FrontFits cs ↔
    ∃ digits rest, unsigned cs = digits ++ rest ∧ (∀ c ∈ digits, c.isDigit = true) ∧
      UInt64.size ≤ Nat.ofDigitChars 10 digits 0 := by
  constructor
  · intro hlarge
    simp only [FrontFits, not_forall, Nat.not_lt] at hlarge
    obtain ⟨sign, digits, rest, rfl, hsign, hdigits, hle⟩ := hlarge
    have hne : digits ≠ [] := ne_nil_of_size_le (by decide) hle
    exact ⟨digits, rest, unsigned_append hsign hne hdigits, hdigits, hle⟩
  · rintro ⟨digits, rest, hrest, hdigits, hle⟩ hfits
    obtain ⟨sign, hsign, hcs⟩ := exists_sign cs
    rw [hrest, ← List.append_assoc] at hcs
    exact absurd (hfits sign digits rest hcs hsign hdigits) (Nat.not_lt.2 hle)

lemma Writes.lt {cs : List Char} {n : Nat} (h : Writes cs n) (hfits : FrontFits cs) :
    n < UInt64.size := by
  obtain @⟨sign, digits, hsign, -, hdigits⟩ := h
  exact hfits sign digits [] (by simp) hsign hdigits

/-! ## Reading -/

/-- Without anything behind the sign, the text is empty or a plus sign. -/
lemma read_of_unsigned_eq_nil {cs : List Char} (h : unsigned cs = []) :
    read cs = .error (if cs = [] then .empty else .invalidDigit) := by
  obtain ⟨sign, rfl | rfl, hcs⟩ := exists_sign cs
  · rw [hcs, h]
    rfl
  · rw [hcs, h]
    rfl

/-- Just the numerals of numbers below 2 ^ 64 are read. -/
theorem read_eq_ok_iff {cs : List Char} {n : Nat} :
    read cs = .ok n ↔ Writes cs n ∧ n < UInt64.size := by
  rw [writes_iff]
  by_cases hrest : unsigned cs = []
  · rw [read_of_unsigned_eq_nil hrest]
    exact ⟨nofun, fun h => absurd hrest h.1.1⟩
  · rw [read_of_unsigned hrest, readFrom_eq_ok_iff (by decide), and_iff_right hrest, and_assoc]

lemma read_eq_empty_iff {cs : List Char} : read cs = .error .empty ↔ cs = [] := by
  constructor
  · intro h
    by_cases hrest : unsigned cs = []
    · rw [read_of_unsigned_eq_nil hrest] at h
      by_contra hne
      rw [if_neg hne] at h
      cases h
    · rw [read_of_unsigned hrest] at h
      exact absurd h (readFrom_ne_empty _ _)
  · rintro rfl
    rfl

lemma read_eq_tooLarge_iff {cs : List Char} : read cs = .error .tooLarge ↔ ¬ FrontFits cs := by
  rw [not_frontFits_iff]
  by_cases hrest : unsigned cs = []
  · rw [read_of_unsigned_eq_nil hrest]
    constructor
    · intro h
      split at h <;> cases h
    · rintro ⟨digits, rest, hsplit, -, hle⟩
      exact absurd (List.append_eq_nil_iff.1 (hsplit.symm.trans hrest)).1
        (ne_nil_of_size_le (by decide) hle)
  · rw [read_of_unsigned hrest, readFrom_eq_tooLarge_iff (by decide)]

/-- What is wrong with a text that is not read. -/
theorem read_eq_error_iff {cs : List Char} {fault : Fault} :
    read cs = .error fault ↔ Spoils fault cs := by
  constructor
  · intro h
    cases fault with
    | empty => exact read_eq_empty_iff.1 h ▸ .empty
    | tooLarge => exact .tooLarge (read_eq_tooLarge_iff.1 h)
    | invalidDigit =>
      have hne : cs ≠ [] := by
        rintro rfl
        cases h
      have hfits : FrontFits cs := by
        by_contra hlarge
        cases h.symm.trans (read_eq_tooLarge_iff.2 hlarge)
      refine .invalidDigit hne hfits fun n hwrites => ?_
      cases h.symm.trans (read_eq_ok_iff.2 ⟨hwrites, hwrites.lt hfits⟩)
  · rintro (_ | hlarge | ⟨hne, hfits, hno⟩)
    · rfl
    · exact read_eq_tooLarge_iff.2 hlarge
    · cases h : read cs with
      | ok n => exact absurd (read_eq_ok_iff.1 h).1 (hno n)
      | error other =>
        cases other with
        | empty => exact absurd (read_eq_empty_iff.1 h) hne
        | tooLarge => exact absurd hfits (read_eq_tooLarge_iff.1 h)
        | invalidDigit => rfl

end Convergence.Unsigned
