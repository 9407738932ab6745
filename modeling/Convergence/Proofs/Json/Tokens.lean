import Convergence.Proofs.Json.Grammar
/-!
# The tokens of a JSON text

`tokens` lists the tokens that a text standing for a node should have, and the lexer finds exactly
these in every such text (`lex_of_value`).

A text is put together from pieces, and a word ends only where a character follows that ends it.
`Lexes` therefore speaks of a piece in front of any text that begins with such a character, and
pieces are joined by `Lexes.append`.  Between quotes a piece is read as code points, and those of a
surrogate pair make up one character only together; `Units` says what is read of a piece there.

The main results are

* `lexes_quoted` and `lexes_int`: the pieces between quotes, and the numbers;
* `Value.lexes`: all pieces, by induction over the grammar;
* `lex_of_value`: the whole text.
-/

namespace Convergence

namespace Json

open Decimal

mutual

/-- The tokens of a node. -/
def tokens : Node → List Token
  | .str s => [.text (some s)]
  | .seq items => .openSeq :: itemTokens items ++ [.closeSeq]
  | .map members => .openMap :: memberTokens members ++ [.closeMap]
  | n => [.scalar n]

/-- The tokens of items with commas between them. -/
def itemTokens : List Node → List Token
  | [] => []
  | [n] => tokens n
  | n :: m :: rest => tokens n ++ .comma :: itemTokens (m :: rest)

/-- The tokens of members with commas between them. -/
def memberTokens : List (String × Node) → List Token
  | [] => []
  | [(name, n)] => .text (some name) :: .colon :: tokens n
  | (name, n) :: m :: rest =>
    .text (some name) :: .colon :: tokens n ++ .comma :: memberTokens (m :: rest)

end

/-! ## Pieces of a text -/

/-- The text is over, or its first character ends a word. -/
def Ends (cs : List Char) : Prop := ∀ c ∈ cs.head?, endsWord c = true

/-- In front of a text that ends a word, the piece is cut into these tokens. -/
def Lexes (piece : List Char) (ts : List Token) : Prop :=
  ∀ rest, Ends rest → lexFrom .idle (piece ++ rest) = (lexFrom .idle rest).map (ts ++ ·)

variable {piece piece' : List Char} {ts ts' : List Token}

lemma ends_nil : Ends [] := by simp [Ends]

lemma ends_cons {c : Char} (h : endsWord c = true) (cs : List Char) : Ends (c :: cs) := by
  simpa [Ends] using h

namespace Lexes

lemma nil : Lexes [] [] := by
  intro rest _
  simp

/-- A character that is a token of its own, or white space, needs nothing behind it. -/
lemma cons {c : Char} {token : Option Token} (hc : start c = (token, .idle))
    (h : Lexes piece ts) : Lexes (c :: piece) (token.toList ++ ts) := by
  intro rest hrest
  have hpiece := h rest hrest
  rw [List.cons_append, lexFrom, hc]
  simp only [hpiece, Option.map_map, Function.comp_def, List.append_assoc]

lemma append (h : Lexes piece ts) (hends : ∀ rest, Ends rest → Ends (piece' ++ rest))
    (h' : Lexes piece' ts') : Lexes (piece ++ piece') (ts ++ ts') := by
  intro rest hrest
  rw [List.append_assoc, h _ (hends rest hrest), h' rest hrest, Option.map_map]
  simp [Function.comp_def]

/-- White space in front changes nothing. -/
lemma blank_append {blanks : List Char} (hblanks : ∀ b ∈ blanks, isSpace b = true)
    (h : Lexes piece ts) : Lexes (blanks ++ piece) ts := by
  induction blanks with
  | nil => exact h
  | cons b rest ih =>
    have hb : start b = (none, .idle) := by simp [start, hblanks b (by simp)]
    have hrest := ih fun b' hb' => hblanks b' (by simp [hb'])
    exact hrest.cons hb

end Lexes

/-! ## Texts -/

/-- Between quotes the piece is read as the code points, and these are of the characters. -/
structure Units (piece : List Char) (us : List Nat) (s : List Char) : Prop where
  lexed : ∀ units rest,
    lexFrom (.text units) (piece ++ rest) = lexFrom (.text (us.reverse ++ units)) rest
  paired : ∀ more, pairSurrogates (us ++ more) = (pairSurrogates more).map (s ++ ·)

lemma Units.nil : Units [] [] [] where
  lexed _ _ := rfl
  paired _ := by simp

lemma Units.append {us us' : List Nat} {s s' : List Char} (h : Units piece us s)
    (h' : Units piece' us' s') : Units (piece ++ piece') (us ++ us') (s ++ s') where
  lexed units rest := by
    rw [List.append_assoc, h.lexed, h'.lexed, List.reverse_append, List.append_assoc]
  paired more := by
    rw [List.append_assoc, h.paired, h'.paired, Option.map_map]
    simp [Function.comp_def]

/-- A character is no surrogate, so its code point stands for it alone. -/
lemma pairSurrogates_toNat_cons (c : Char) (more : List Nat) :
    pairSurrogates (c.toNat :: more) = (pairSurrogates more).map (c :: ·) := by
  have hvalid : c.toNat < 0xD800 ∨ 0xDFFF < c.toNat ∧ c.toNat < 0x110000 := c.valid
  have hlead : isLead c.toNat = false := by
    rw [isLead, Bool.and_eq_false_iff, decide_eq_false_iff_not, decide_eq_false_iff_not]
    omega
  have htrail : isTrail c.toNat = false := by
    rw [isTrail, Bool.and_eq_false_iff, decide_eq_false_iff_not, decide_eq_false_iff_not]
    omega
  rw [pairSurrogates.eq_def]
  simp [hlead, htrail, Char.ofNat_toNat]

/-- The halves of a character beyond the first 65536 stand for it together. -/
lemma pairSurrogates_pair_cons {c : Char} (hc : 0x10000 ≤ c.toNat) (more : List Nat) :
    pairSurrogates ((0xD800 + (c.toNat - 0x10000) / 0x400)
        :: (0xDC00 + (c.toNat - 0x10000) % 0x400) :: more)
      = (pairSurrogates more).map (c :: ·) := by
  have hvalid : c.toNat < 0xD800 ∨ 0xDFFF < c.toNat ∧ c.toNat < 0x110000 := c.valid
  have hlead : isLead (0xD800 + (c.toNat - 0x10000) / 0x400) = true := by
    rw [isLead, Bool.and_eq_true, decide_eq_true_eq, decide_eq_true_eq]
    omega
  have htrail : isTrail (0xDC00 + (c.toNat - 0x10000) % 0x400) = true := by
    rw [isTrail, Bool.and_eq_true, decide_eq_true_eq, decide_eq_true_eq]
    omega
  have hvalue : 0x10000 + (0xD800 + (c.toNat - 0x10000) / 0x400 - 0xD800) * 0x400
      + (0xDC00 + (c.toNat - 0x10000) % 0x400 - 0xDC00) = c.toNat := by omega
  rw [pairSurrogates.eq_def]
  simp only [hlead, htrail, if_true, hvalue, Char.ofNat_toNat]

/-- The digits of an escape are read to their end. -/
lemma lexFrom_hex {digits : List Char} {value due u : Nat} (hlength : digits.length = due + 1)
    (hvalue : valueFrom 16 hexDigit? value digits = some u) (units : List Nat)
    (rest : List Char) :
    lexFrom (.hex units value due) (digits ++ rest) = lexFrom (.text (u :: units)) rest := by
  induction digits generalizing value due with
  | nil => simp at hlength
  | cons c cs ih =>
    rw [valueFrom] at hvalue
    rw [List.cons_append, lexFrom]
    cases hdigit : hexDigit? c with
    | none => simp [hdigit] at hvalue
    | some d =>
      simp only [hdigit] at hvalue ⊢
      split at hvalue
      · cases due with
        | zero =>
          obtain rfl : cs = [] := by simpa using hlength
          obtain rfl : value * 16 + d = u := by simpa [valueFrom] using hvalue
          rfl
        | succ due => exact ih (by simpa using hlength) hvalue
      · cases hvalue

lemma lexFrom_unit16 {u : Nat} (h : Unit16 piece u) (units : List Nat) (rest : List Char) :
    lexFrom (.text units) (piece ++ rest) = lexFrom (.text (u :: units)) rest := by
  obtain ⟨hlength, hvalue⟩ := h
  rw [valueIn?] at hvalue
  split at hvalue
  · cases hvalue
  · simp [lexFrom, lexFrom_hex hlength hvalue]

lemma escaped?_of_mem_shortEscapes {e c : Char} (h : (e, c) ∈ shortEscapes) :
    e ≠ 'u' ∧ escaped? e = some c.toNat := by
  have hall : ∀ x ∈ shortEscapes, x.1 ≠ 'u' ∧ escaped? x.1 = some x.2.toNat := by decide
  exact hall _ h

lemma exists_units_of_spells {c : Char} (h : Spells piece c) : ∃ us, Units piece us [c] := by
  cases h with
  | itself hquote hbackslash hcontrol =>
    exact ⟨[c.toNat], fun units rest => by simp [lexFrom, hquote, hbackslash, hcontrol],
      pairSurrogates_toNat_cons c⟩
  | @short e _ h =>
    obtain ⟨hu, hescaped⟩ := escaped?_of_mem_shortEscapes h
    exact ⟨[c.toNat], fun units rest => by simp [lexFrom, hu, hescaped],
      pairSurrogates_toNat_cons c⟩
  | unit h => exact ⟨[c.toNat], lexFrom_unit16 h, pairSurrogates_toNat_cons c⟩
  | pair hc hlead htrail =>
    refine ⟨[_, _], fun units rest => ?_, pairSurrogates_pair_cons hc⟩
    rw [List.append_assoc, lexFrom_unit16 hlead, lexFrom_unit16 htrail]
    rfl

lemma exists_units_of_spelled {s : List Char} (h : Spelled piece s) : ∃ us, Units piece us s := by
  induction h with
  | nil => exact ⟨[], Units.nil⟩
  | cons hc _ ih =>
    obtain ⟨us, hus⟩ := exists_units_of_spells hc
    obtain ⟨us', hus'⟩ := ih
    exact ⟨us ++ us', hus.append hus'⟩

/-- What is read between quotes makes one token. -/
lemma lexes_of_lexed {us : List Nat} (h : ∀ units rest,
    lexFrom (.text units) (piece ++ rest) = lexFrom (.text (us ++ units)) rest) :
    Lexes ('\"' :: piece ++ ['\"']) [textToken us] := by
  intro rest _
  have hstart : start '\"' = (none, .text []) := rfl
  rw [List.append_assoc, List.cons_append, lexFrom, hstart]
  simp only [h, List.append_nil, List.cons_append, List.nil_append]
  simp [lexFrom, Option.map_map, Function.comp_def]

lemma lexes_quoted {s : String} (h : Spelled piece s.toList) :
    Lexes ('\"' :: piece ++ ['\"']) [.text (some s)] := by
  obtain ⟨us, hus⟩ := exists_units_of_spelled h
  have hpaired : pairSurrogates us = some s.toList := by simpa [pairSurrogates] using hus.paired []
  have htext : textToken us.reverse = .text (some s) := by simp [textToken, hpaired]
  exact htext ▸ lexes_of_lexed hus.lexed

/-! ## Words -/

/-- A word is read to its end. -/
lemma lexFrom_word {word : List Char} (hword : ∀ c ∈ word, endsWord c = false)
    (chars rest : List Char) :
    lexFrom (.word chars) (word ++ rest) = lexFrom (.word (word.reverse ++ chars)) rest := by
  induction word generalizing chars with
  | nil => rfl
  | cons c cs ih =>
    have hc : endsWord c = false := hword c (by simp)
    rw [List.cons_append, lexFrom]
    simp only [hc, Bool.false_eq_true, if_false]
    rw [ih fun c' hc' => hword c' (by simp [hc'])]
    simp

lemma start_of_not_endsWord {c : Char} (h : endsWord c = false) : start c = (none, .word [c]) := by
  simp only [endsWord, Bool.or_eq_false_iff, decide_eq_false_iff_not] at h
  simp [start, h]

lemma lexes_word {c : Char} {cs : List Char} {token : Token}
    (htoken : wordToken? (c :: cs) = some token)
    (hword : ∀ d ∈ c :: cs, endsWord d = false) : Lexes (c :: cs) [token] := by
  intro rest hrest
  have hcs : ∀ d ∈ cs, endsWord d = false := fun d hd => hword d (List.mem_cons_of_mem c hd)
  have hchars : (cs.reverse ++ [c]).reverse = c :: cs := by simp
  rw [List.cons_append, lexFrom, start_of_not_endsWord (hword c (by simp))]
  simp only [lexFrom_word hcs]
  cases rest with
  | nil => simp [lexFrom, htoken]
  | cons d rest =>
    have hd : endsWord d = true := hrest d (by simp)
    simp only [lexFrom, hchars, htoken, hd, if_true, Option.map_map, Function.comp_def]
    simp

lemma Digits.isEmpty_eq_false {ds : List Char} (h : Digits ds) : ds.isEmpty = false := by
  simpa using h.ne_nil

lemma Digits.leading_eq_false {ds : List Char} (h : Digits ds) :
    (ds.length > 1 && ds.head? = some '0') = false := by
  by_cases hzero : ds.head? = some '0'
  · simp [h.leading hzero]
  · simp [hzero]

lemma Digits.head?_ne_minus {ds : List Char} (h : Digits ds) : ds.head? ≠ some '-' := fun hhead =>
  absurd (h.isDigit _ (List.mem_of_head? hhead)) (by decide)

/-- An integer of 64 bits is read back from its literals. -/
lemma numberNode?_of_integer {cs : List Char} {n : Int} (h : Integer cs n)
    (hfits : Node.fits64 n = true) : numberNode? cs = some (.int n) := by
  rw [numberNode?]
  cases h with
  | natural h =>
    simp only [h.head?_ne_minus, decide_false, if_false, Bool.false_eq_true,
      Text.span_self h.isDigit, h.isEmpty_eq_false, h.leading_eq_false, Bool.or_self,
      ofParts_of_isDigit h.isDigit]
    simp [hfits]
  | @negative ds h hne =>
    have hzero : (-(Nat.ofDigitChars 10 ds 0 : Int) == 0) = false := by simpa using hne
    simp only [List.head?_cons, List.tail_cons, decide_true, if_true, Text.span_self h.isDigit,
      h.isEmpty_eq_false, h.leading_eq_false, Bool.or_self, if_false, Bool.false_eq_true,
      ofParts_of_isDigit h.isDigit]
    simp [hfits, hzero]

lemma endsWord_of_isDigit {c : Char} (h : c.isDigit = true) : endsWord c = false := by
  cases hc : endsWord c with
  | false => rfl
  | true =>
    simp only [endsWord, isSpace, Bool.or_eq_true, decide_eq_true_eq] at hc
    rcases hc with (((((((((rfl | rfl) | rfl) | rfl) | rfl) | rfl) | rfl) | rfl) | rfl) | rfl) | rfl
      <;> exact absurd h (by decide)

lemma Integer.endsWord_eq_false {cs : List Char} {n : Int} (h : Integer cs n) :
    ∀ c ∈ cs, endsWord c = false := by
  intro c hc
  cases h with
  | natural h => exact endsWord_of_isDigit (h.isDigit c hc)
  | negative h =>
    rcases List.mem_cons.1 hc with rfl | hc
    · decide
    · exact endsWord_of_isDigit (h.isDigit c hc)

lemma lexes_int {cs : List Char} {n : Int} (h : Integer cs n) (hfits : Node.fits64 n = true) :
    Lexes cs [.scalar (.int n)] := by
  have hnumber := numberNode?_of_integer h hfits
  have htoken : wordToken? cs = some (.scalar (.int n)) := by
    rw [wordToken?]
    split
    · next heq =>
      rw [heq] at hnumber
      cases hnumber
    split
    · next heq =>
      rw [heq] at hnumber
      cases hnumber
    split
    · next heq =>
      rw [heq] at hnumber
      cases hnumber
    rw [hnumber, Option.map_some]
  cases cs with
  | nil => cases hnumber
  | cons c cs => exact lexes_word htoken h.endsWord_eq_false

/-! ## Values -/

lemma start_of_isSpace {c : Char} (h : isSpace c = true) : start c = (none, .idle) := by
  simp [start, h]

lemma endsWord_of_isSpace {c : Char} (h : isSpace c = true) : endsWord c = true := by
  simp [endsWord, h]

mutual

/-- What stands for a node is cut into its tokens. -/
theorem Value.lexes : ∀ {cs : List Char} {n : Node}, Value cs n → Lexes cs (tokens n)
  | _, _, .before hb h => h.lexes.cons (start_of_isSpace hb)
  | _, _, .behind h hb => by
    have hblank : Lexes [_] [] := Lexes.nil.cons (start_of_isSpace hb)
    simpa using h.lexes.append (fun _ _ => ends_cons (endsWord_of_isSpace hb) _) hblank
  | _, _, .nullWord => lexes_word rfl (by simp [endsWord, isSpace])
  | _, _, .trueWord => lexes_word rfl (by simp [endsWord, isSpace])
  | _, _, .falseWord => lexes_word rfl (by simp [endsWord, isSpace])
  | _, _, .int h hfits => lexes_int h hfits
  | _, _, .str h => lexes_quoted h
  | _, _, .emptySeq h =>
    ((Lexes.nil.cons (c := ']') rfl).blank_append h).cons (c := '[') rfl
  | _, _, .seq h => by
    have hbody :=
      h.lexes.append (fun _ _ => ends_cons (by decide) _) (Lexes.nil.cons (c := ']') rfl)
    simpa [tokens] using hbody.cons (c := '[') rfl
  | _, _, .emptyMap h =>
    ((Lexes.nil.cons (c := '\x7d') rfl).blank_append h).cons (c := '\x7b') rfl
  | _, _, .map h => by
    have hbody :=
      h.lexes.append (fun _ _ => ends_cons (by decide) _) (Lexes.nil.cons (c := '\x7d') rfl)
    simpa [tokens] using hbody.cons (c := '\x7b') rfl

theorem Items.lexes : ∀ {cs : List Char} {items : List Node}, Items cs items →
    Lexes cs (itemTokens items)
  | _, _, .last h => h.lexes
  | _, _ :: [], .cons _ hrest => nomatch hrest
  | _, _ :: _ :: _, .cons h hrest =>
    h.lexes.append (fun _ _ => ends_cons (by decide) _) (hrest.lexes.cons (c := ',') rfl)

theorem Members.lexes : ∀ {cs : List Char} {members : List (String × Node)},
    Members cs members → Lexes cs (memberTokens members)
  | _, _, .last hname h =>
    hname.lexes.append (fun _ _ => ends_cons (by decide) _) (h.lexes.cons (c := ':') rfl)
  | _, _ :: [], .cons _ _ hrest => nomatch hrest
  | _, _ :: _ :: _, .cons hname h hrest => by
    have hmember :=
      hname.lexes.append (fun _ _ => ends_cons (by decide) _) (h.lexes.cons (c := ':') rfl)
    exact hmember.append (fun _ _ => ends_cons (by decide) _) (hrest.lexes.cons (c := ',') rfl)

end

/-- A text that stands for a node is cut into its tokens. -/
theorem lex_of_value {cs : List Char} {n : Node} (h : Value cs n) : lex cs = some (tokens n) := by
  have hlex := h.lexes [] ends_nil
  simpa [lex, lexFrom] using hlex

end Json

end Convergence
