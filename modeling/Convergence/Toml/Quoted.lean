import Convergence.Text.Decimal
/-!
# Quoted texts of TOML

A text stands between single or double quotes; three of them may go over several lines.  Between
double quotes a backslash begins an escape; at the end of a line it joins the line to the next word.
-/

namespace Convergence.Toml

/-- How a text is quoted. -/
structure Quoting where
  /-- The kind of quote. -/
  quote : Char
  /-- A backslash begins an escape. -/
  escapes : Bool
  /-- The text may go over several lines. -/
  multi : Bool

/-- What the reader is in the middle of. -/
inductive Within where
  /-- Ordinary characters. -/
  | text
  /-- So many quotes in a row, which may be the end. -/
  | quotes (n : Nat)
  /-- Behind a backslash. -/
  | escape
  /-- In the digits of an escape: their value so far and how many are due after the next. -/
  | hex (value due : Nat)
  /-- Between a backslash and the next word; a line end was seen or not. -/
  | fold (lineEnd : Bool)

namespace Quoting

/-- The character may stand in the text as it is. -/
def allows (k : Quoting) (c : Char) : Bool :=
  if c = '\t' then true
  else if c = '\n' || c = '\r' then k.multi
  else 0x20 ≤ c.toNat && c.toNat ≠ 0x7F

/-- The character that an escape of one letter stands for. -/
def escaped? (c : Char) : Option Char :=
  if c = 'b' then some '\x08'
  else if c = 't' then some '\t'
  else if c = 'n' then some '\n'
  else if c = 'f' then some '\x0c'
  else if c = 'r' then some '\r'
  else if c = 'e' then some '\x1b'
  else if c = '\"' then some '\"'
  else if c = '\\' then some '\\'
  else none

/-- How many digits after the first an escape of this letter has. -/
def hexDue? (c : Char) : Option Nat :=
  if c = 'x' then some 1 else if c = 'u' then some 3 else if c = 'U' then some 7 else none

/-- What one more character of the text leads to, in the middle of ordinary characters.  The
characters so far are given last first. -/
def onChar (k : Quoting) (seen : List Char) (c : Char) : Option (Within × List Char) :=
  if c = k.quote then some (.quotes 1, seen)
  else if k.escapes && c = '\\' then some (.escape, seen)
  else if k.allows c then some (.text, c :: seen)
  else none

/-- What the character behind a backslash leads to. -/
def onEscape (k : Quoting) (seen : List Char) (c : Char) : Option (Within × List Char) :=
  match hexDue? c with
  | some due => some (.hex 0 due, seen)
  | none =>
    match escaped? c with
    | some d => some (.text, d :: seen)
    | none =>
      if k.multi && (c = ' ' || c = '\t' || c = '\r' || c = '\n') then
        some (.fold (c = '\n'), seen)
      else none

/-- The text whose characters are given last first, with some quotes behind them. -/
def ended (k : Quoting) (seen : List Char) (quotes : Nat) : String :=
  String.ofList (seen.reverse ++ List.replicate quotes k.quote)

/-- The rest of a text, from within it, and what follows its closing quotes. -/
def readFrom (k : Quoting) :
    Within → List Char → List Char → Option (String × List Char)
  | .text, seen, c :: cs =>
    if c = k.quote && !k.multi then some (k.ended seen 0, cs)
    else
      match k.onChar seen c with
      | some (within, seen) => readFrom k within seen cs
      | none => none
  | .quotes n, seen, c :: cs =>
    if c = k.quote then
      if n = 4 then some (k.ended seen 2, cs) else readFrom k (.quotes (n + 1)) seen cs
    else if 3 ≤ n then some (k.ended seen (n - 3), c :: cs)
    else
      match k.onChar (List.replicate n k.quote ++ seen) c with
      | some (within, seen) => readFrom k within seen cs
      | none => none
  | .escape, seen, c :: cs =>
    match k.onEscape seen c with
    | some (within, seen) => readFrom k within seen cs
    | none => none
  | .hex value due, seen, c :: cs =>
    match Decimal.hexDigit? c with
    | some d =>
      match due with
      | due + 1 => readFrom k (.hex (value * 16 + d) due) seen cs
      | 0 =>
        if (value * 16 + d).isValidChar then
          readFrom k .text (Char.ofNat (value * 16 + d) :: seen) cs
        else none
    | none => none
  | .fold lineEnd, seen, c :: cs =>
    if c = '\n' then readFrom k (.fold true) seen cs
    else if c = ' ' || c = '\t' || c = '\r' then readFrom k (.fold lineEnd) seen cs
    else if lineEnd then
      match k.onChar seen c with
      | some (within, seen) => readFrom k within seen cs
      | none => none
    else none
  | .quotes n, seen, [] => if 3 ≤ n then some (k.ended seen (n - 3), []) else none
  | _, _, [] => none

end Quoting

/-- The text without a line end at its front. -/
def dropLineEnd : List Char → List Char
  | '\n' :: cs => cs
  | '\r' :: '\n' :: cs => cs
  | cs => cs

/-- The text between quotes on one line, behind its opening quote. -/
def oneLine? (quote : Char) (cs : List Char) : Option (String × List Char) :=
  Quoting.readFrom ⟨quote, quote = '\"', false⟩ .text [] cs

/-- The text behind one opening quote: on one line, or over several if two quotes more follow. -/
def quoted? (quote : Char) (cs : List Char) : Option (String × List Char) :=
  if cs.take 2 = [quote, quote] then
    Quoting.readFrom ⟨quote, quote = '\"', true⟩ .text [] (dropLineEnd (cs.drop 2))
  else oneLine? quote cs

end Convergence.Toml
