/-!
# Decimal numerals

Natural numbers written in base ten, without leading zeros, and read back.  The main statement is
`value?_numeral`: reading undoes writing.
-/

namespace Convergence.Decimal

/-- The least number of more than 128 bits. -/
def bound128 : Nat := UInt64.size * UInt64.size

/-- The character of a digit below sixteen; hexadecimal digits above nine are lower case. -/
def digitChar (n : Nat) : Char := Nat.digitChar n

/-- The value of a decimal digit. -/
def digit? (c : Char) : Option Nat :=
  if '0' ≤ c ∧ c ≤ '9' then some (c.toNat - '0'.toNat) else none

/-- The value of a hexadecimal digit of either case. -/
def hexDigit? (c : Char) : Option Nat :=
  if '0' ≤ c ∧ c ≤ '9' then some (c.toNat - '0'.toNat)
  else if 'a' ≤ c ∧ c ≤ 'f' then some (c.toNat - 'a'.toNat + 10)
  else if 'A' ≤ c ∧ c ≤ 'F' then some (c.toNat - 'A'.toNat + 10)
  else none

/-- The digits of a number, most significant first. -/
def numeral (n : Nat) : List Char :=
  if n < 10 then [digitChar n] else numeral (n / 10) ++ [digitChar (n % 10)]
termination_by n

/-- The text of a number. -/
def text (n : Nat) : String := String.ofList (numeral n)

/-- The text of an integer: a minus sign before the digits of a negative one. -/
def intNumeral (n : Int) : List Char :=
  if n < 0 then '-' :: numeral n.natAbs else numeral n.natAbs

/-- Continues a number in some base by further digits. -/
def valueFrom (base : Nat) (digit : Char → Option Nat) : Nat → List Char → Option Nat
  | n, [] => some n
  | n, c :: cs =>
    match digit c with
    | some d => if d < base then valueFrom base digit (n * base + d) cs else none
    | none => none

/-- The number that a non-empty run of digits of a base stands for. -/
def valueIn? (base : Nat) (cs : List Char) : Option Nat :=
  if cs.isEmpty then none else valueFrom base hexDigit? 0 cs

/-- The number that a non-empty run of decimal digits stands for. -/
def value? (cs : List Char) : Option Nat :=
  if cs.isEmpty then none else valueFrom 10 digit? 0 cs

/-- A number in at least `width` digits, padded with zeros on the left. -/
def padded (width n : Nat) : List Char :=
  let cs := numeral n
  List.replicate (width - cs.length) '0' ++ cs

/-- The lowest `width` hexadecimal digits of a number, most significant first. -/
def hex (upper : Bool) : (width n : Nat) → List Char
  | 0, _ => []
  | w + 1, n =>
    let c := digitChar (n % 16)
    hex upper w (n / 16) ++ [if upper then c.toUpper else c]

theorem numeral_ne_nil (n : Nat) : numeral n ≠ [] := by
  unfold numeral; split <;> simp

theorem digit?_digitChar {d : Nat} (h : d < 10) : digit? (digitChar d) = some d := by
  have : d = 0 ∨ d = 1 ∨ d = 2 ∨ d = 3 ∨ d = 4 ∨ d = 5 ∨ d = 6 ∨ d = 7 ∨ d = 8 ∨ d = 9 := by omega
  rcases this with rfl | rfl | rfl | rfl | rfl | rfl | rfl | rfl | rfl | rfl <;> decide

theorem valueFrom_append (base : Nat) (digit : Char → Option Nat) (n : Nat) (cs ds : List Char) :
    valueFrom base digit n (cs ++ ds)
      = (valueFrom base digit n cs).bind (fun m => valueFrom base digit m ds) := by
  induction cs generalizing n with
  | nil => rfl
  | cons c cs ih =>
    simp only [List.cons_append, valueFrom]
    cases digit c with
    | none => rfl
    | some d =>
      by_cases h : d < base
      · simp [h, ih]
      · simp [h]

theorem valueFrom_numeral (n : Nat) : valueFrom 10 digit? 0 (numeral n) = some n := by
  induction n using Nat.strongRecOn with
  | _ n ih =>
    unfold numeral
    split
    · next h => simp [valueFrom, digit?_digitChar h, h]
    · next h =>
      have hd : n % 10 < 10 := Nat.mod_lt _ (by decide)
      rw [valueFrom_append, ih (n / 10) (by omega)]
      simp only [Option.bind_some, valueFrom, digit?_digitChar hd, hd, if_true]
      congr 1; omega

/-- Reading undoes writing. -/
theorem value?_numeral (n : Nat) : value? (numeral n) = some n := by
  unfold value?
  rw [if_neg (by simp [List.isEmpty_iff, numeral_ne_nil])]
  exact valueFrom_numeral n

end Convergence.Decimal
