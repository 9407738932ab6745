import Mathlib.Tactic.Lemma
import Convergence.Proofs.Text.Decimal
import Convergence.Toml.Printer
import Convergence.Toml.Quoted
/-!
# Reading quoted texts of TOML back

`Quoting.Spells` says which characters between quotes spell a text: those that stand for
themselves, escapes, and over several lines up to two quotes in a row.  The reader finds the text in
whatever spells it (`readFrom_of_spells_line`, `readFrom_of_spells_lines`), and each form that the
writer chooses among spells the text it is given.  So every text is read back from the form that is
chosen for it (`quoted?_quotedChars`).
-/

namespace Convergence.Toml

open Decimal

namespace Quoting

/-- The characters spell a text, behind a number of quotes that stand for themselves. -/
inductive Spells (k : Quoting) : Nat → List Char → List Char → Prop where
  | nil {quotes : Nat} : Spells k quotes [] []
  /-- A quote that stands for itself. -/
  | quote {quotes : Nat} {written cs : List Char} (hmulti : k.multi = true) (hquotes : quotes < 2)
      (h : Spells k (quotes + 1) written cs) : Spells k quotes (k.quote :: written) (k.quote :: cs)
  /-- Another character that stands for itself. -/
  | char {quotes : Nat} {c : Char} {written cs : List Char} (hallows : k.allows c = true)
      (hquote : c ≠ k.quote) (hreturn : c ≠ '\r') (hbackslash : k.escapes = true → c ≠ '\\')
      (h : Spells k 0 written cs) : Spells k quotes (c :: written) (c :: cs)
  | escape {quotes : Nat} {c : Char} {written cs : List Char} (hescapes : k.escapes = true)
      (hc : c.toNat < 0x80) (h : Spells k 0 written cs) :
      Spells k quotes (escapeChar c ++ written) (c :: cs)

variable {k : Quoting} {quotes : Nat} {written cs : List Char}

lemma exists_escapeChar (c : Char) : ∃ more, escapeChar c = '\\' :: more := by
  rw [escapeChar]
  repeat' split
  all_goals exact ⟨_, rfl⟩

lemma return_not_mem_escapeChar (c : Char) : '\r' ∉ escapeChar c := by
  have hdigit : ∀ m : Nat, '\r' ≠ (digitChar (m % 16)).toUpper := by
    have hall : ∀ d < 16, '\r' ≠ (digitChar d).toUpper := by decide
    exact fun m => hall (m % 16) (Nat.mod_lt m (by decide))
  rw [escapeChar]
  repeat' split
  all_goals simp [hex, hdigit]

lemma Spells.return_not_mem (h : Spells k quotes written cs) (hquote : k.quote ≠ '\r') :
    '\r' ∉ written := by
  induction h with
  | nil => exact List.not_mem_nil
  | quote _ _ _ ih => simp [ih, hquote.symm]
  | char _ _ hreturn _ _ ih => simp [ih, hreturn.symm]
  | escape _ _ _ ih => simp [ih, return_not_mem_escapeChar]

/-- On one line, no quote stands for itself. -/
lemma Spells.head_ne_quote (h : Spells k quotes written cs) (hquote : k.quote ≠ '\\')
    (hline : k.multi = false) : ∀ c ∈ written.head?, c ≠ k.quote := by
  intro c hc
  cases h with
  | nil => cases hc
  | quote hmulti => exact absurd hmulti (by simp [hline])
  | char _ hne => exact Option.some.inj hc ▸ hne
  | @escape _ d =>
    obtain ⟨more, hmore⟩ := exists_escapeChar d
    rw [hmore] at hc
    exact Option.some.inj hc ▸ hquote.symm

/-- A line end stands for itself if at all. -/
lemma Spells.head_ne_lineEnd (h : Spells k quotes written cs) (hquote : k.quote ≠ '\n')
    (hcs : '\n' ∉ cs) : ∀ c ∈ written.head?, c ≠ '\n' := by
  intro c hc
  cases h with
  | nil => cases hc
  | quote => exact Option.some.inj hc ▸ hquote
  | char =>
    cases hc
    exact fun heq => hcs (by simp [heq])
  | @escape _ d =>
    obtain ⟨more, hmore⟩ := exists_escapeChar d
    rw [hmore] at hc
    cases hc
    decide

/-! ## Reading one character -/

lemma readFrom_char {c : Char} (hallows : k.allows c = true) (hquote : c ≠ k.quote)
    (hbackslash : k.escapes = true → c ≠ '\\') (seen rest : List Char) :
    readFrom k .text seen (c :: rest) = readFrom k .text (c :: seen) rest := by
  have hescape : (k.escapes && decide (c = '\\')) = false := by
    cases h : k.escapes with
    | false => rfl
    | true => simpa using hbackslash h
  have hnext : k.onChar seen c = some (.text, c :: seen) := by
    simp [onChar, hquote, hescape, hallows]
  simp [readFrom, hquote, hnext]

lemma readFrom_backslash (hescapes : k.escapes = true) (hquote : k.quote ≠ '\\')
    (seen rest : List Char) :
    readFrom k .text seen ('\\' :: rest) = readFrom k .escape seen rest := by
  simp [readFrom, onChar, hquote.symm, hescapes]

lemma readFrom_letter (hescapes : k.escapes = true) (hquote : k.quote ≠ '\\') {letter c : Char}
    (hdue : hexDue? letter = none) (hc : escaped? letter = some c) (seen rest : List Char) :
    readFrom k .text seen ('\\' :: letter :: rest) = readFrom k .text (c :: seen) rest := by
  rw [readFrom_backslash hescapes hquote, readFrom, onEscape, hdue, hc]

lemma hexDigit?_upper {d : Nat} (h : d < 16) : hexDigit? (digitChar d).toUpper = some d := by
  have hall : ∀ d < 16, hexDigit? (digitChar d).toUpper = some d := by decide
  exact hall d h

/-- The four digits of an escape stand for the character that they are written for. -/
lemma readFrom_hex {c : Char} (hc : c.toNat < 0x80) (seen rest : List Char) :
    readFrom k (.hex 0 3) seen (hex true 4 c.toNat ++ rest) =
      readFrom k .text (c :: seen) rest := by
  have hdigit : ∀ m : Nat, hexDigit? (digitChar (m % 16)).toUpper = some (m % 16) :=
    fun m => hexDigit?_upper (Nat.mod_lt m (by decide))
  have hvalue : (((0 * 16 + c.toNat / 16 / 16 / 16 % 16) * 16 + c.toNat / 16 / 16 % 16) * 16
      + c.toNat / 16 % 16) * 16 + c.toNat % 16 = c.toNat := by omega
  have hvalid : c.toNat.isValidChar := c.valid
  simp only [hex, readFrom, hdigit, hvalue, List.nil_append, List.cons_append, if_true, hvalid,
    Char.ofNat_toNat]

lemma readFrom_escapeChar (hescapes : k.escapes = true) (hquote : k.quote ≠ '\\') {c : Char}
    (hc : c.toNat < 0x80) (seen rest : List Char) :
    readFrom k .text seen (escapeChar c ++ rest) = readFrom k .text (c :: seen) rest := by
  have hback : Char.ofNat c.toNat = c := Char.ofNat_toNat c
  rw [escapeChar]
  repeat' split
  · next h => exact readFrom_letter hescapes hquote rfl (by rw [← hback, h]; rfl) seen rest
  · next h => exact readFrom_letter hescapes hquote rfl (by rw [h]; rfl) seen rest
  · next h => exact readFrom_letter hescapes hquote rfl (by rw [h]; rfl) seen rest
  · next h => exact readFrom_letter hescapes hquote rfl (by rw [← hback, h]; rfl) seen rest
  · next h => exact readFrom_letter hescapes hquote rfl (by rw [h]; rfl) seen rest
  · next h => exact readFrom_letter hescapes hquote rfl (by rw [h]; rfl) seen rest
  · next h => exact readFrom_letter hescapes hquote rfl (by rw [h]; rfl) seen rest
  · rw [List.append_assoc, List.cons_append, readFrom_backslash hescapes hquote]
    exact readFrom_hex hc seen rest

/-! ## Reading whole texts -/

/-- What is spelled on one line is read up to the closing quote. -/
theorem readFrom_of_spells_line (h : Spells k quotes written cs) (hquote : k.quote ≠ '\\')
    (hline : k.multi = false) (seen rest : List Char) :
    readFrom k .text seen (written ++ k.quote :: rest)
      = some (String.ofList (seen.reverse ++ cs), rest) := by
  induction h generalizing seen with
  | nil => simp [readFrom, hline, ended]
  | quote hmulti => exact absurd hmulti (by simp [hline])
  | char hallows hne _ hbackslash _ ih =>
    rw [List.cons_append, readFrom_char hallows hne hbackslash, ih]
    simp
  | escape hescapes hc _ ih =>
    rw [List.append_assoc, readFrom_escapeChar hescapes hquote hc, ih]
    simp

/-- Where the reader is behind a number of quotes that may stand for themselves. -/
def behind : Nat → Within
  | 0 => .text
  | n + 1 => .quotes (n + 1)

/-- One or two quotes in front of another character stand for themselves. -/
lemma readFrom_behind (hmulti : k.multi = true) (hquotes : quotes ≤ 2) {c : Char}
    (hc : c ≠ k.quote) (seen rest : List Char) :
    readFrom k (behind quotes) seen (c :: rest)
      = readFrom k .text (List.replicate quotes k.quote ++ seen) (c :: rest) := by
  cases quotes with
  | zero => rfl
  | succ n =>
    have hfew : ¬ 3 ≤ n + 1 := by omega
    simp [behind, readFrom, hc, hfew, hmulti]

/-- Three quotes end a text, together with the one or two before them that stand for themselves. -/
lemma readFrom_closing (hmulti : k.multi = true) (hquotes : quotes ≤ 2) {rest : List Char}
    (hrest : ∀ c ∈ rest.head?, c ≠ k.quote) (seen : List Char) :
    readFrom k (behind quotes) seen (k.quote :: k.quote :: k.quote :: rest)
      = some (k.ended seen quotes, rest) := by
  have hcases : quotes = 0 ∨ quotes = 1 ∨ quotes = 2 := by omega
  rcases rest with _ | ⟨c, rest⟩
  · rcases hcases with rfl | rfl | rfl <;> simp [behind, readFrom, onChar, hmulti]
  · have hc : c ≠ k.quote := hrest c rfl
    rcases hcases with rfl | rfl | rfl <;> simp [behind, readFrom, onChar, hmulti, hc]

/-- What is spelled over several lines is read up to the closing quotes. -/
theorem readFrom_of_spells_lines (h : Spells k quotes written cs) (hquote : k.quote ≠ '\\')
    (hmulti : k.multi = true) (hquotes : quotes ≤ 2) {rest : List Char}
    (hrest : ∀ c ∈ rest.head?, c ≠ k.quote) (seen : List Char) :
    readFrom k (behind quotes) seen (written ++ k.quote :: k.quote :: k.quote :: rest)
      = some (String.ofList (seen.reverse ++ List.replicate quotes k.quote ++ cs), rest) := by
  induction h generalizing seen with
  | nil =>
    rw [List.nil_append, readFrom_closing hmulti hquotes hrest, ended, List.append_nil]
  | @quote quotes written cs _ hfew _ ih =>
    have hstep : readFrom k (behind quotes) seen
          (k.quote :: (written ++ k.quote :: k.quote :: k.quote :: rest))
        = readFrom k (behind (quotes + 1)) seen
          (written ++ k.quote :: k.quote :: k.quote :: rest) := by
      have hcases : quotes = 0 ∨ quotes = 1 := by omega
      rcases hcases with rfl | rfl <;> simp [behind, readFrom, onChar, hmulti]
    rw [List.cons_append, hstep, ih (by omega), List.replicate_succ']
    simp
  | char hallows hne _ hbackslash _ ih =>
    rw [List.cons_append, readFrom_behind hmulti hquotes hne,
      readFrom_char hallows hne hbackslash]
    have hread := ih (Nat.zero_le 2)
    rw [behind] at hread
    rw [hread]
    simp
  | @escape quotes c written cs hescapes hc _ ih =>
    obtain ⟨more, hmore⟩ := exists_escapeChar c
    have hstart := readFrom_escapeChar hescapes hquote hc
      (List.replicate quotes k.quote ++ seen) (written ++ k.quote :: k.quote :: k.quote :: rest)
    have hread := ih (Nat.zero_le 2)
    rw [behind] at hread
    rw [hmore, List.cons_append] at hstart
    rw [hmore, List.append_assoc, List.cons_append, readFrom_behind hmulti hquotes hquote.symm,
      hstart, hread]
    simp

end Quoting

/-! ## Between quotes -/

/-- Behind its opening quote, the body is read as the text up to its closing quote. -/
structure Encloses (quote : Char) (body cs : List Char) : Prop where
  reads : ∀ rest : List Char, (∀ c ∈ rest.head?, c ≠ quote) →
    quoted? quote (body ++ rest) = some (String.ofList cs, rest)
  return_not_mem : '\r' ∉ body

variable {quote : Char} {written cs : List Char}

lemma encloses_line (hquote : quote = '\"' ∨ quote = '\'')
    (h : Quoting.Spells ⟨quote, quote = '\"', false⟩ 0 written cs) :
    Encloses quote (written ++ [quote]) cs where
  reads rest hrest := by
    have hbackslash : quote ≠ '\\' := by rcases hquote with rfl | rfl <;> decide
    have honce : (written ++ quote :: rest).take 2 ≠ [quote, quote] := by
      intro heq
      cases written with
      | nil =>
        cases rest with
        | nil => simp at heq
        | cons c rest => exact hrest c rfl (by simpa using heq)
      | cons c written =>
        have hc := h.head_ne_quote hbackslash rfl c rfl
        simp only [List.cons_append, List.take_succ_cons, List.cons.injEq] at heq
        exact hc heq.1
    rw [List.append_assoc, List.singleton_append, quoted?, if_neg honce, oneLine?]
    simpa using Quoting.readFrom_of_spells_line h hbackslash rfl [] rest
  return_not_mem := by
    have hreturn : quote ≠ '\r' := by rcases hquote with rfl | rfl <;> decide
    simp [h.return_not_mem hreturn, hreturn.symm]

lemma dropLineEnd_of_head {cs : List Char} (h : ∀ c ∈ cs.head?, c ≠ '\n' ∧ c ≠ '\r') :
    dropLineEnd cs = cs := by
  rw [dropLineEnd.eq_def]
  split
  · exact absurd rfl (h '\n' rfl).1
  · exact absurd rfl (h '\r' rfl).2
  · rfl

/-- The line end behind the opening quotes is not taken for a part of the text. -/
lemma dropLineEnd_openingLine (hquote : quote = '\"' ∨ quote = '\'') {k : Quoting}
    (hk : k.quote = quote) (h : Quoting.Spells k 0 written cs) (rest : List Char) :
    dropLineEnd (openingLine cs ++ written ++ quote :: rest) = written ++ quote :: rest := by
  have hreturn : quote ≠ '\r' := by rcases hquote with rfl | rfl <;> decide
  have hlineEnd : quote ≠ '\n' := by rcases hquote with rfl | rfl <;> decide
  rw [openingLine]
  split
  · rfl
  · next hcs =>
    rw [List.nil_append]
    apply dropLineEnd_of_head
    intro c hc
    cases hwritten : written with
    | nil =>
      rw [hwritten] at hc
      exact Option.some.inj hc ▸ ⟨hlineEnd, hreturn⟩
    | cons d more =>
      rw [hwritten] at hc
      obtain rfl : d = c := Option.some.inj hc
      refine ⟨h.head_ne_lineEnd (hk ▸ hlineEnd) (by simpa using hcs) d (by simp [hwritten]), ?_⟩
      exact fun heq => h.return_not_mem (hk ▸ hreturn) (by simp [hwritten, heq])

lemma encloses_lines (hquote : quote = '\"' ∨ quote = '\'')
    (h : Quoting.Spells ⟨quote, quote = '\"', true⟩ 0 written cs) :
    Encloses quote (quote :: quote :: (openingLine cs ++ written ++ [quote, quote, quote])) cs where
  reads rest hrest := by
    have hbackslash : quote ≠ '\\' := by rcases hquote with rfl | rfl <;> decide
    have hread := Quoting.readFrom_of_spells_lines h hbackslash rfl (Nat.zero_le 2) hrest []
    rw [Quoting.behind] at hread
    rw [quoted?, if_pos (by simp)]
    simp only [List.cons_append, List.append_assoc, List.nil_append, List.drop_succ_cons,
      List.drop_zero]
    rw [← List.append_assoc, dropLineEnd_openingLine hquote rfl h, hread]
    simp
  return_not_mem := by
    have hreturn : quote ≠ '\r' := by rcases hquote with rfl | rfl <;> decide
    have hopening : '\r' ∉ openingLine cs := by
      rw [openingLine]
      split <;> simp
    simp [h.return_not_mem hreturn, hreturn.symm, hopening]

/-! ## The form that is chosen -/

lemma toNat_lt_of_escaped {c : Char}
    (h : (isControl c || c = '\t' || c = '\n' || c = '\\') = true) : c.toNat < 0x80 := by
  simp only [isControl, Bool.or_eq_true, Bool.and_eq_true, decide_eq_true_eq] at h
  rcases h with (((⟨⟨h, -⟩, -⟩ | h) | rfl) | rfl) | rfl
  · omega
  · omega
  all_goals decide

/-- Between single quotes, and without an escape between double quotes, all but control characters
may stand. -/
lemma allows_of_not_isControl {k : Quoting} {c : Char} (h : isControl c = false)
    (hlineEnd : c = '\n' → k.multi = true) : k.allows c = true ∧ c ≠ '\r' := by
  have hreturn : c ≠ '\r' := by
    rintro rfl
    exact absurd h (by decide)
  refine ⟨?_, hreturn⟩
  rw [Quoting.allows]
  split
  · rfl
  · next htab =>
    split
    · next hend =>
      simp only [hreturn, decide_false, Bool.or_false, decide_eq_true_eq] at hend
      exact hlineEnd hend
    · next hend =>
      simp only [Bool.or_eq_true, decide_eq_true_eq, not_or] at hend
      simp only [isControl, htab, hend.1, decide_true, ne_eq, not_false_eq_true,
        Bool.and_true, Bool.or_eq_false_iff, decide_eq_false_iff_not] at h
      simp only [Bool.and_eq_true, decide_eq_true_eq]
      omega

lemma spells_escapedChars (multi : Bool) (quotes : Nat) (cs : List Char) :
    Quoting.Spells ⟨'\"', true, multi⟩ quotes (escapedChars multi quotes cs) cs := by
  induction cs generalizing quotes with
  | nil => exact .nil
  | cons c cs ih =>
    rw [escapedChars]
    split
    · next hquote =>
      subst hquote
      split
      · next hfew =>
        simp only [Bool.and_eq_true, decide_eq_true_eq] at hfew
        exact .quote hfew.1 hfew.2 (ih (quotes + 1))
      · exact .escape rfl (by decide) (ih 0)
    · next hquote =>
      split
      · next hend =>
        simp only [Bool.and_eq_true, decide_eq_true_eq] at hend
        obtain ⟨rfl, hmulti⟩ := hend
        exact .char (by simp [Quoting.allows, hmulti]) hquote (by decide) (fun _ => by decide)
          (ih 0)
      · split
        · next hescaped => exact .escape rfl (toNat_lt_of_escaped hescaped) (ih 0)
        · next hplain =>
          simp only [Bool.or_eq_true, decide_eq_true_eq, not_or] at hplain
          obtain ⟨⟨⟨hcontrol, -⟩, hend⟩, hbackslash⟩ := hplain
          obtain ⟨hallows, hreturn⟩ := allows_of_not_isControl (k := ⟨'\"', true, multi⟩)
            (by simpa using hcontrol) (fun heq => absurd heq hend)
          exact .char hallows hquote hreturn (fun _ => hbackslash) (ih 0)

lemma spells_self_line {cs : List Char} (hcontrols : ∀ c ∈ cs, isControl c = false)
    (hquote : '\'' ∉ cs) (hend : '\n' ∉ cs) (quotes : Nat) :
    Quoting.Spells ⟨'\'', false, false⟩ quotes cs cs := by
  induction cs generalizing quotes with
  | nil => exact .nil
  | cons c cs ih =>
    obtain ⟨hc, hrest⟩ := List.forall_mem_cons.1 hcontrols
    simp only [List.mem_cons, not_or] at hquote hend
    obtain ⟨hallows, hreturn⟩ := allows_of_not_isControl (k := ⟨'\'', false, false⟩) hc
      (fun heq => absurd heq.symm hend.1)
    exact .char hallows (Ne.symm hquote.1) hreturn nofun (ih hrest hquote.2 hend.2 0)

lemma le_longestRun (c : Char) (run : Nat) (cs : List Char) : run ≤ longestRun c run cs := by
  induction cs generalizing run with
  | nil => exact Nat.le_refl run
  | cons d cs ih =>
    rw [longestRun]
    split
    · exact Nat.le_of_succ_le (ih (run + 1))
    · exact Nat.le_max_left _ _

lemma spells_self_lines {cs : List Char} (hcontrols : ∀ c ∈ cs, isControl c = false)
    {quotes : Nat} (hruns : longestRun '\'' quotes cs ≤ 2) :
    Quoting.Spells ⟨'\'', false, true⟩ quotes cs cs := by
  induction cs generalizing quotes with
  | nil => exact .nil
  | cons c cs ih =>
    obtain ⟨hc, hrest⟩ := List.forall_mem_cons.1 hcontrols
    rw [longestRun] at hruns
    split at hruns
    · next hquote =>
      subst hquote
      have hle := le_longestRun '\'' (quotes + 1) cs
      exact .quote rfl (by omega) (ih hrest hruns)
    · next hquote =>
      obtain ⟨hallows, hreturn⟩ := allows_of_not_isControl (k := ⟨'\'', false, true⟩) hc
        (fun _ => rfl)
      exact .char hallows hquote hreturn nofun (ih hrest (by omega))

/-- Every text is read back from the form that is chosen for it. -/
theorem exists_quotedChars (cs : List Char) :
    ∃ quote body, (quote = '\"' ∨ quote = '\'') ∧ quotedChars cs = quote :: body
      ∧ Encloses quote body cs := by
  have hbasic : Encloses '\"' (escapedChars false 0 cs ++ ['\"']) cs :=
    encloses_line (.inl rfl) (spells_escapedChars false 0 cs)
  have hmultiBasic := encloses_lines (.inl rfl) (spells_escapedChars true 0 cs)
  rw [quotedChars]
  split
  · exact ⟨_, _, .inl rfl, rfl, hbasic⟩
  split
  · next hplain =>
    simp only [Bool.and_eq_true, Bool.not_eq_true'] at hplain
    obtain ⟨⟨hcontrols, hquote⟩, hend⟩ := hplain
    have hspells : Quoting.Spells ⟨'\'', false, false⟩ 0 cs cs :=
      spells_self_line (by simpa using hcontrols) (by simpa using hquote) (by simpa using hend) 0
    exact ⟨_, _, .inr rfl, rfl, encloses_line (.inr rfl) hspells⟩
  split
  · exact ⟨_, _, .inl rfl, rfl, hmultiBasic⟩
  split
  · next hplain =>
    simp only [Bool.and_eq_true, Bool.not_eq_true', decide_eq_true_eq] at hplain
    have hspells : Quoting.Spells ⟨'\'', false, true⟩ 0 cs cs :=
      spells_self_lines (by simpa using hplain.1) hplain.2
    exact ⟨_, _, .inr rfl, rfl, encloses_lines (.inr rfl) hspells⟩
  split
  · exact ⟨_, _, .inl rfl, rfl, hmultiBasic⟩
  · exact ⟨_, _, .inl rfl, rfl, hbasic⟩

end Convergence.Toml
