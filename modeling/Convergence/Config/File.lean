import Convergence.Json.Reader
import Convergence.Toml.Reader
import Convergence.Decoding
/-!
# Files

What reading a file gives, and the format that its name says it is in: JSON behind the extension
`json`, TOML behind any other and behind none.
-/

namespace Convergence

/-- Why a file gives no text. -/
inductive FileFault where
  | missing
  | isDirectory
  /-- Its bytes are no UTF-8. -/
  | notText
  /-- Anything else, in the words of the system. -/
  | other (reason : String)
deriving DecidableEq, Repr

/-- What went wrong, in words. -/
def FileFault.message : FileFault → String
  | .missing => "No such file or directory (os error 2)"
  | .isDirectory => "Is a directory (os error 21)"
  | .notText => "stream did not contain valid UTF-8"
  | .other reason => reason

/-- A file: its path and what reading it gives. -/
structure File where
  path : String
  content : Except FileFault String

namespace File

/-- A file of bytes. -/
def ofBytes (path : String) (bytes : ByteArray) : File :=
  match String.fromUTF8? bytes with
  | some text => ⟨path, .ok text⟩
  | none => ⟨path, .error .notText⟩

/-- The parts of a path between slashes. -/
def parts : List Char → List (List Char)
  | [] => [[]]
  | c :: cs =>
    if c = '/' then [] :: parts cs
    else
      match parts cs with
      | part :: rest => (c :: part) :: rest
      | [] => [[c]]

/-- The name that a path ends with; none if it ends with no name. -/
def name? (path : List Char) : Option (List Char) :=
  match ((parts path).filter fun p => p ≠ [] && p ≠ ['.']).getLast? with
  | some name => if name = ['.', '.'] then none else some name
  | none => none

/-- What follows the last dot of a name; none if there is no dot behind the first character. -/
def extensionOfName? (name : List Char) : Option (List Char) :=
  let (reversed, rest) := name.reverse.span (· ≠ '.')
  match rest with
  | _ :: _ :: _ => some reversed.reverse
  | _ => none

/-- The path has the extension `json`. -/
def isJson (path : String) : Bool :=
  (name? path.toList).bind extensionOfName? == some ['j', 's', 'o', 'n']

/-- What a document describes, in the format that its path says. -/
def decode? {α : Type} (path text : String) (ofNode? : Format → Node → Option α) : Option α :=
  if isJson path then (Json.read? text).bind (ofNode? .json)
  else (Toml.read? text).bind (ofNode? .toml)

end File

end Convergence
