import Convergence.Json.Lexer
/-!
# Reading JSON

Tokens are put together one by one.  A `Progress` holds the sequences and maps that are still open
and what may come next, so no nesting is too deep to read.
-/

namespace Convergence.Json

/-- A sequence or map that is still open, with what it holds so far, last first. -/
inductive Frame where
  | seq (items : List Node)
  /-- The members so far and the name of the one being read. -/
  | map (members : List (Option String × Node)) (name : Option String)

/-- What may come next. -/
inductive Expect where
  /-- A value. -/
  | value
  /-- A value, or the end of the sequence just opened. -/
  | firstItem
  /-- A name. -/
  | name
  /-- A name, or the end of the map just opened. -/
  | firstName
  /-- The colon behind a name. -/
  | colon (name : Option String)
  /-- A value has just ended: a comma, the end of what holds it, or nothing. -/
  | ended (value : Node)

/-- How far a document has been read. -/
structure Progress where
  /-- The open sequences and maps, innermost first, without those just opened. -/
  stack : List Frame
  /-- What may come next. -/
  expect : Expect

/-- The members with their names; none if a name is no text. -/
def namedMembers : List (Option String × Node) → Option (List (String × Node))
  | [] => some []
  | (none, _) :: _ => none
  | (some name, value) :: rest => (namedMembers rest).map ((name, value) :: ·)

/-- The map of the members; a map with a name that is no text is garbled. -/
def mapNode (members : List (Option String × Node)) : Node :=
  match namedMembers members with
  | some members => .map members
  | none => .garbled

/-- A value may come: it ends at once or opens a sequence or map. -/
def Progress.beginValue? (stack : List Frame) : Token → Option Progress
  | .openSeq => some ⟨stack, .firstItem⟩
  | .openMap => some ⟨stack, .firstName⟩
  | .text (some s) => some ⟨stack, .ended (.str s)⟩
  | .text none => some ⟨stack, .ended .garbled⟩
  | .scalar n => some ⟨stack, .ended n⟩
  | _ => none

/-- The state after one more token; none if the token may not come. -/
def Progress.next? (s : Progress) (token : Token) : Option Progress :=
  match s.expect, token with
  | .firstItem, .closeSeq => some ⟨s.stack, .ended (.seq [])⟩
  | .firstItem, token => Progress.beginValue? (.seq [] :: s.stack) token
  | .value, token => Progress.beginValue? s.stack token
  | .firstName, .closeMap => some ⟨s.stack, .ended (.map [])⟩
  | .firstName, .text name => some ⟨.map [] none :: s.stack, .colon name⟩
  | .name, .text name => some ⟨s.stack, .colon name⟩
  | .colon name, .colon =>
    match s.stack with
    | .map members _ :: rest => some ⟨.map members name :: rest, .value⟩
    | _ => none
  | .ended value, .comma =>
    match s.stack with
    | .seq items :: rest => some ⟨.seq (value :: items) :: rest, .value⟩
    | .map members name :: rest => some ⟨.map ((name, value) :: members) none :: rest, .name⟩
    | [] => none
  | .ended value, .closeSeq =>
    match s.stack with
    | .seq items :: rest => some ⟨rest, .ended (.seq (value :: items).reverse)⟩
    | _ => none
  | .ended value, .closeMap =>
    match s.stack with
    | .map members name :: rest =>
      some ⟨rest, .ended (mapNode ((name, value) :: members).reverse)⟩
    | _ => none
  | _, _ => none

/-- The state after all the tokens. -/
def Progress.run? : Progress → List Token → Option Progress
  | s, [] => some s
  | s, token :: rest =>
    match s.next? token with
    | some s' => Progress.run? s' rest
    | none => none

/-- The value of a document read to its end. -/
def Progress.result? (s : Progress) : Option Node :=
  match s.stack, s.expect with
  | [], .ended value => some value
  | _, _ => none

/-- The node of the tokens of one whole document. -/
def ofTokens? (tokens : List Token) : Option Node :=
  ((Progress.mk [] .value).run? tokens).bind Progress.result?

/-- The node that a JSON text describes; none if it is no JSON text. -/
def read? (s : String) : Option Node := (lex s.toList).bind ofTokens?

end Convergence.Json
