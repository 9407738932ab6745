import Convergence.Json.Lexer
import Convergence.Json.Printer
import Convergence.Proofs.Text.Decimal
/-!
# Which texts are JSON

`Value` relates a text to the node that it stands for, as the grammar of JSON has it and without a
reader.  White space may stand around every value and every name.  Between quotes a character stands
for itself, or is escaped in one of three ways (`Spells`).  Of the numbers only the integers of 64
bits are covered: no record holds any other.

A node that is `plain` can be written without loss: it has no other numbers, and no garbled part.
What is written for it, in either layout, stands for it (`value_pretty`, `value_compact`).
-/

namespace Convergence

namespace Node

mutual

/-- The node can be written without loss. -/
def plain : Node → Bool
  | .int n => fits64 n
  | .inexact _ => false
  | .garbled => false
  | .seq items => plainItems items
  | .map members => plainMembers members
  | _ => true

/-- Every item can be written without loss. -/
def plainItems : List Node → Bool
  | [] => true
  | n :: rest => plain n && plainItems rest

/-- Every member can be written without loss. -/
def plainMembers : List (String × Node) → Bool
  | [] => true
  | (_, n) :: rest => plain n && plainMembers rest

end

lemma plainItems_cons {n : Node} {rest : List Node} :
    plainItems (n :: rest) = true ↔ n.plain = true ∧ plainItems rest = true := by
  rw [plainItems, Bool.and_eq_true]

lemma plainMembers_cons {m : String × Node} {rest : List (String × Node)} :
    plainMembers (m :: rest) = true ↔ m.2.plain = true ∧ plainMembers rest = true := by
  rw [plainMembers, Bool.and_eq_true]

end Node

namespace Json

open Decimal

/-! ## Texts between quotes -/

/-- The letters that stand behind a backslash for one character, with that character. -/
def shortEscapes : List (Char × Char) :=
  [('\"', '\"'), ('\\', '\\'), ('/', '/'), ('b', '\x08'), ('f', '\x0c'), ('n', '\n'), ('r', '\r'),
    ('t', '\t')]

/-- The piece is an escape of four hexadecimal digits, of either case, for a number. -/
inductive Unit16 : List Char → Nat → Prop where
  | intro {digits : List Char} {u : Nat} (hlength : digits.length = 4)
      (hvalue : valueIn? 16 digits = some u) : Unit16 ('\\' :: 'u' :: digits) u

/-- What may stand for a character between quotes. -/
inductive Spells : List Char → Char → Prop where
  | itself {c : Char} (hquote : c ≠ '\"') (hbackslash : c ≠ '\\') (hcontrol : ¬ c.toNat < 0x20) :
      Spells [c] c
  | short {e c : Char} (h : (e, c) ∈ shortEscapes) : Spells ['\\', e] c
  | unit {cs : List Char} {c : Char} (h : Unit16 cs c.toNat) : Spells cs c
  /-- A character beyond the first 65536 is escaped as the two halves of a surrogate pair. -/
  | pair {lead trail : List Char} {c : Char} (hc : 0x10000 ≤ c.toNat)
      (hlead : Unit16 lead (0xD800 + (c.toNat - 0x10000) / 0x400))
      (htrail : Unit16 trail (0xDC00 + (c.toNat - 0x10000) % 0x400)) : Spells (lead ++ trail) c

/-- What may stand between quotes for a list of characters. -/
inductive Spelled : List Char → List Char → Prop where
  | nil : Spelled [] []
  | cons {piece cs s : List Char} {c : Char} (hc : Spells piece c) (h : Spelled cs s) :
      Spelled (piece ++ cs) (c :: s)

/-! ## Numbers -/

/-- Decimal digits of a natural number, with no zero in front of others. -/
structure Digits (cs : List Char) : Prop where
  ne_nil : cs ≠ []
  isDigit : ∀ c ∈ cs, c.isDigit = true
  leading : cs.head? = some '0' → cs.length = 1

/-- The literals of an integer; a zero with a sign is none. -/
inductive Integer : List Char → Int → Prop where
  | natural {cs : List Char} (h : Digits cs) : Integer cs (Nat.ofDigitChars 10 cs 0)
  | negative {cs : List Char} (h : Digits cs) (hne : Nat.ofDigitChars 10 cs 0 ≠ 0) :
      Integer ('-' :: cs) (-(Nat.ofDigitChars 10 cs 0 : Nat))

/-! ## Values -/

mutual

/-- The text, with white space around it or without, stands for the node. -/
inductive Value : List Char → Node → Prop where
  | before {b : Char} {cs : List Char} {n : Node} (hb : isSpace b = true) (h : Value cs n) :
      Value (b :: cs) n
  | behind {b : Char} {cs : List Char} {n : Node} (h : Value cs n) (hb : isSpace b = true) :
      Value (cs ++ [b]) n
  | nullWord : Value ['n', 'u', 'l', 'l'] .null
  | trueWord : Value ['t', 'r', 'u', 'e'] (.bool true)
  | falseWord : Value ['f', 'a', 'l', 's', 'e'] (.bool false)
  | int {cs : List Char} {n : Int} (h : Integer cs n) (hfits : Node.fits64 n = true) :
      Value cs (.int n)
  | str {cs : List Char} {s : String} (h : Spelled cs s.toList) :
      Value ('\"' :: cs ++ ['\"']) (.str s)
  | emptySeq {blanks : List Char} (h : ∀ b ∈ blanks, isSpace b = true) :
      Value ('[' :: blanks ++ [']']) (.seq [])
  | seq {cs : List Char} {items : List Node} (h : Items cs items) :
      Value ('[' :: cs ++ [']']) (.seq items)
  | emptyMap {blanks : List Char} (h : ∀ b ∈ blanks, isSpace b = true) :
      Value ('\x7b' :: blanks ++ ['\x7d']) (.map [])
  | map {cs : List Char} {members : List (String × Node)} (h : Members cs members) :
      Value ('\x7b' :: cs ++ ['\x7d']) (.map members)

/-- The text stands for the items, with commas between them. -/
inductive Items : List Char → List Node → Prop where
  | last {cs : List Char} {n : Node} (h : Value cs n) : Items cs [n]
  | cons {cs ds : List Char} {n : Node} {items : List Node} (h : Value cs n)
      (hrest : Items ds items) : Items (cs ++ ',' :: ds) (n :: items)

/-- The text stands for the members, with commas between them. -/
inductive Members : List Char → List (String × Node) → Prop where
  | last {name cs : List Char} {s : String} {n : Node} (hname : Value name (.str s))
      (h : Value cs n) : Members (name ++ ':' :: cs) [(s, n)]
  | cons {name cs ds : List Char} {s : String} {n : Node} {members : List (String × Node)}
      (hname : Value name (.str s)) (h : Value cs n) (hrest : Members ds members) :
      Members (name ++ ':' :: cs ++ ',' :: ds) ((s, n) :: members)

end

/-! ## What is written for a node that holds no other -/

lemma unit16_hex {n : Nat} (h : n < 0x10000) : Unit16 ('\\' :: 'u' :: hex false 4 n) n := by
  have hdigit : ∀ m : Nat, hexDigit? (digitChar (m % 16)) = some (m % 16) :=
    fun m => hexDigit?_digitChar (Nat.mod_lt m (by decide))
  have hlt : ∀ m : Nat, m % 16 < 16 := fun m => Nat.mod_lt m (by decide)
  have hvalue : (((0 * 16 + n / 16 / 16 / 16 % 16) * 16 + n / 16 / 16 % 16) * 16
      + n / 16 % 16) * 16 + n % 16 = n := by omega
  refine .intro rfl ?_
  simp only [valueIn?, hex, List.nil_append, List.cons_append, List.isEmpty_cons, valueFrom, hdigit,
    hlt, hvalue, Bool.false_eq_true, if_false, if_true]

lemma spells_escapeChar (c : Char) : Spells (escapeChar c) c := by
  have hofNat : ∀ {n : Nat}, c.toNat = n → c = Char.ofNat n := fun h => by
    rw [← h, Char.ofNat_toNat]
  rw [escapeChar]
  repeat' split
  · next h =>
    subst h
    exact .short (by decide)
  · next h =>
    subst h
    exact .short (by decide)
  · next h => exact hofNat h ▸ .short (by decide)
  · next h => exact hofNat h ▸ .short (by decide)
  · next h => exact hofNat h ▸ .short (by decide)
  · next h => exact hofNat h ▸ .short (by decide)
  · next h => exact hofNat h ▸ .short (by decide)
  · next h => exact .unit (unit16_hex (Nat.lt_trans h (by decide)))
  · next hquote hbackslash _ _ _ _ _ hcontrol => exact .itself hquote hbackslash hcontrol

lemma spelled_flatMap_escapeChar (s : List Char) : Spelled (s.flatMap escapeChar) s := by
  induction s with
  | nil => exact .nil
  | cons c rest ih => exact .cons (spells_escapeChar c) ih

lemma value_quoted (s : String) : Value (quoted s) (.str s) :=
  .str (spelled_flatMap_escapeChar s.toList)

lemma digits_numeral (n : Nat) : Digits (numeral n) where
  ne_nil := numeral_ne_nil n
  isDigit := isDigit_of_mem_numeral
  leading h := by
    have hzero : n = 0 := by
      by_contra hne
      exact head?_numeral hne h
    exact length_numeral (by omega)

lemma integer_intNumeral (n : Int) : Integer (intNumeral n) n := by
  have hdigits := digits_numeral n.natAbs
  have hvalue := ofDigitChars_numeral n.natAbs
  rw [intNumeral]
  split
  · next hneg =>
    have hnegative := Integer.negative hdigits (by omega)
    have habs : -(n.natAbs : Int) = n := by omega
    rwa [hvalue, habs] at hnegative
  · next hpos =>
    have hnatural := Integer.natural hdigits
    have habs : (n.natAbs : Int) = n := by omega
    rwa [hvalue, habs] at hnatural

lemma value_scalar {n : Node} (h : n.plain = true) (hseq : ∀ items, n ≠ .seq items)
    (hmap : ∀ members, n ≠ .map members) : Value (scalar n) n := by
  cases n with
  | null => exact .nullWord
  | bool b =>
    cases b with
    | true => exact .trueWord
    | false => exact .falseWord
  | int n => exact .int (integer_intNumeral n) (by simpa [Node.plain] using h)
  | inexact literal => simp [Node.plain] at h
  | str s => exact value_quoted s
  | seq items => exact absurd rfl (hseq items)
  | map members => exact absurd rfl (hmap members)
  | garbled => simp [Node.plain] at h

/-! ## What is written for any node -/

lemma isSpace_of_mem_newLine (level : Nat) : ∀ b ∈ newLine level, isSpace b = true := by
  intro b hb
  rcases List.mem_cons.1 hb with rfl | hb
  · decide
  · rw [(List.mem_replicate.1 hb).2]
    decide

section Blanks

variable {blanks cs : List Char}

lemma Value.blank_append {n : Node} (hblanks : ∀ b ∈ blanks, isSpace b = true) (h : Value cs n) :
    Value (blanks ++ cs) n := by
  induction blanks with
  | nil => exact h
  | cons b rest ih =>
    exact .before (hblanks b (by simp)) (ih fun b' hb' => hblanks b' (by simp [hb']))

lemma Value.append_blank {n : Node} (h : Value cs n) (hblanks : ∀ b ∈ blanks, isSpace b = true) :
    Value (cs ++ blanks) n := by
  induction blanks generalizing cs with
  | nil => simpa using h
  | cons b rest ih =>
    have hrest := ih (h.behind (hblanks b (by simp))) fun b' hb' => hblanks b' (by simp [hb'])
    simpa using hrest

lemma Items.append_blank {items : List Node} (hblanks : ∀ b ∈ blanks, isSpace b = true) :
    ∀ {cs}, Items cs items → Items (cs ++ blanks) items
  | _, .last h => .last (h.append_blank hblanks)
  | _, .cons h hrest => by simpa using Items.cons h (hrest.append_blank hblanks)

lemma Members.append_blank {members : List (String × Node)}
    (hblanks : ∀ b ∈ blanks, isSpace b = true) :
    ∀ {cs}, Members cs members → Members (cs ++ blanks) members
  | _, .last hname h => by simpa using Members.last hname (h.append_blank hblanks)
  | _, .cons hname h hrest => by simpa using Members.cons hname h (hrest.append_blank hblanks)

end Blanks

mutual

/-- A node is written as a value, at every level of indentation. -/
theorem value_pretty (n : Node) (h : n.plain = true) (level : Nat) :
    Value (prettyChars level n) n := by
  match n with
  | .seq [] => exact .emptySeq (List.forall_mem_nil _)
  | .seq (m :: rest) =>
    have hitems := items_pretty (m :: rest) (by simp) (by simpa [Node.plain] using h) (level + 1)
    simpa [prettyChars] using Value.seq (hitems.append_blank (isSpace_of_mem_newLine level))
  | .map [] => exact .emptyMap (List.forall_mem_nil _)
  | .map (m :: rest) =>
    have hmembers :=
      members_pretty (m :: rest) (by simp) (by simpa [Node.plain] using h) (level + 1)
    simpa [prettyChars] using Value.map (hmembers.append_blank (isSpace_of_mem_newLine level))
  | .null | .bool _ | .int _ | .inexact _ | .str _ | .garbled =>
    exact value_scalar h (by simp) (by simp)

theorem items_pretty (items : List Node) (hne : items ≠ []) (h : Node.plainItems items = true)
    (level : Nat) : Items (prettyItems level items) items := by
  match items with
  | [] => exact absurd rfl hne
  | [n] =>
    have hn := value_pretty n (Node.plainItems_cons.1 h).1 level
    exact .last (hn.blank_append (isSpace_of_mem_newLine level))
  | n :: m :: rest =>
    obtain ⟨hplain, hrest⟩ := Node.plainItems_cons.1 h
    have hn := value_pretty n hplain level
    have htail := items_pretty (m :: rest) (by simp) hrest level
    exact .cons (hn.blank_append (isSpace_of_mem_newLine level)) htail

theorem members_pretty (members : List (String × Node)) (hne : members ≠ [])
    (h : Node.plainMembers members = true) (level : Nat) :
    Members (prettyMembers level members) members := by
  match members with
  | [] => exact absurd rfl hne
  | [(name, n)] =>
    have hn := value_pretty n (Node.plainMembers_cons.1 h).1 level
    have hname := (value_quoted name).blank_append (isSpace_of_mem_newLine level)
    exact .last hname (.before (by decide) hn)
  | (name, n) :: m :: rest =>
    obtain ⟨hplain, hrest⟩ := Node.plainMembers_cons.1 h
    have hn := value_pretty n hplain level
    have htail := members_pretty (m :: rest) (by simp) hrest level
    have hname := (value_quoted name).blank_append (isSpace_of_mem_newLine level)
    simpa [prettyMembers] using Members.cons hname (.before (b := ' ') (by decide) hn) htail

end

mutual

/-- A node is written as a value without white space. -/
theorem value_compact (n : Node) (h : n.plain = true) : Value (compactChars n) n := by
  match n with
  | .seq [] => exact .emptySeq (List.forall_mem_nil _)
  | .seq (m :: rest) =>
    exact .seq (items_compact (m :: rest) (by simp) (by simpa [Node.plain] using h))
  | .map [] => exact .emptyMap (List.forall_mem_nil _)
  | .map (m :: rest) =>
    exact .map (members_compact (m :: rest) (by simp) (by simpa [Node.plain] using h))
  | .null | .bool _ | .int _ | .inexact _ | .str _ | .garbled =>
    exact value_scalar h (by simp) (by simp)

theorem items_compact (items : List Node) (hne : items ≠ []) (h : Node.plainItems items = true) :
    Items (compactItems items) items := by
  match items with
  | [] => exact absurd rfl hne
  | [n] => exact .last (value_compact n (Node.plainItems_cons.1 h).1)
  | n :: m :: rest =>
    obtain ⟨hplain, hrest⟩ := Node.plainItems_cons.1 h
    exact .cons (value_compact n hplain) (items_compact (m :: rest) (by simp) hrest)

theorem members_compact (members : List (String × Node)) (hne : members ≠ [])
    (h : Node.plainMembers members = true) : Members (compactMembers members) members := by
  match members with
  | [] => exact absurd rfl hne
  | [(name, n)] =>
    exact .last (value_quoted name) (value_compact n (Node.plainMembers_cons.1 h).1)
  | (name, n) :: m :: rest =>
    obtain ⟨hplain, hrest⟩ := Node.plainMembers_cons.1 h
    have htail := members_compact (m :: rest) (by simp) hrest
    exact .cons (value_quoted name) (value_compact n hplain) htail

end

end Json

end Convergence
