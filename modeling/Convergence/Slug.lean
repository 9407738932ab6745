/-!
# Names for resources

Deployments and repositories are named after free text: the words of its lower-case form, joined by
dashes.  A word is an unbroken run of ASCII letters and digits.
-/

namespace Convergence.Slug

/-- The lower-case form of a character, as far as it holds ASCII letters or digits: of the other
characters only the Kelvin sign and the capital I with a dot have a lower-case form with an ASCII
letter. -/
def lower (c : Char) : List Char :=
  if c = '\u212A' then ['k']
  else if c = '\u0130' then ['i', '\u0307']
  else [c.toLower]

/-- The character may stand in a word. -/
def isWordChar (c : Char) : Bool := c.isAlphanum

/-- The pieces of a text between the characters that stand in no word; some may be empty. -/
def pieces : List Char → List (List Char)
  | [] => [[]]
  | c :: cs =>
    if isWordChar c then
      match pieces cs with
      | piece :: rest => (c :: piece) :: rest
      | [] => [[c]]
    else [] :: pieces cs

/-- The words of a text. -/
def words (cs : List Char) : List (List Char) := (pieces cs).filter (fun w => !w.isEmpty)

/-- Words with a dash between each two. -/
def join : List (List Char) → List Char
  | [] => []
  | [w] => w
  | w :: v :: rest => w ++ '-' :: join (v :: rest)

/-- The resource name made from a text; empty if no word is in it. -/
def ofText (s : String) : String := String.ofList (join (words (s.toList.flatMap lower)))

end Convergence.Slug
