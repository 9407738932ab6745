import Convergence.Text.Decimal
/-!
# Numbers below 2 ^ 64

A number as people write it in settings: digits, perhaps with a plus sign before them.  Main
statement: `Unsigned.readFrom_eq_ok`, by which a number is read exactly if it is not too large.
-/

namespace Convergence.Unsigned

/-- Why a text is no number below 2 ^ 64. -/
inductive Fault where
  /-- There are no characters at all. -/
  | empty
  /-- A character is no digit, or there are no digits. -/
  | invalidDigit
  | tooLarge
deriving DecidableEq, Repr

/-- What is wrong, in words. -/
def Fault.message : Fault → String
  | .empty => "cannot parse integer from empty string"
  | .invalidDigit => "invalid digit found in string"
  | .tooLarge => "number too large to fit in target type"

/-- Continues a number by further digits, from left to right; the first fault counts. -/
def readFrom : Nat → List Char → Except Fault Nat
  | n, [] => .ok n
  | n, c :: cs =>
    match Decimal.digit? c with
    | none => .error .invalidDigit
    | some d => if n * 10 + d < UInt64.size then readFrom (n * 10 + d) cs else .error .tooLarge

/-- The number that a text stands for. -/
def read : List Char → Except Fault Nat
  | [] => .error .empty
  | ['+'] => .error .invalidDigit
  | '+' :: cs => readFrom 0 cs
  | cs => readFrom 0 cs

/-- A number that is read so far and stays below the bound is read on. -/
theorem readFrom_eq_ok {n m : Nat} {cs : List Char} (h : readFrom n cs = .ok m) :
    Decimal.valueFrom 10 Decimal.digit? n cs = some m := by
  induction cs generalizing n with
  | nil => simpa [readFrom, Decimal.valueFrom] using h
  | cons c cs ih =>
    unfold readFrom at h
    unfold Decimal.valueFrom
    split at h
    · cases h
    · next d hd =>
      have hlt : d < 10 := by
        unfold Decimal.digit? at hd
        split at hd
        · next hc =>
          have h9 : c.toNat ≤ 57 := hc.2
          have h0 : 48 ≤ c.toNat := hc.1
          have : c.toNat - 48 = d := by simpa using hd
          omega
        · cases hd
      split at h
      · simpa [hd, hlt] using ih h
      · cases h

end Convergence.Unsigned
