/-!
# White space

The characters with the Unicode property White_Space, and texts without it at either end.
-/

namespace Convergence.Text

/-- The first and last code points of the runs of white space. -/
def blankRanges : List (Nat × Nat) :=
  [(0x09, 0x0D), (0x20, 0x20), (0x85, 0x85), (0xA0, 0xA0), (0x1680, 0x1680), (0x2000, 0x200A),
    (0x2028, 0x2029), (0x202F, 0x202F), (0x205F, 0x205F), (0x3000, 0x3000)]

/-- The character is white space. -/
def isBlank (c : Char) : Bool := blankRanges.any (fun r => r.1 ≤ c.toNat && c.toNat ≤ r.2)

/-- The text from its first character that is not white space. -/
def trimStart (cs : List Char) : List Char := cs.dropWhile isBlank

/-- The text without white space at either end. -/
def trim (cs : List Char) : List Char := (trimStart (trimStart cs).reverse).reverse

end Convergence.Text
