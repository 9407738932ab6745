import Mathlib.Data.List.Forall2
import Convergence.Proofs.Json.RoundTrip
/-!
# Every well-formed text is read

`WellFormed` is the grammar of JSON as a whole, with nothing said about what a text stands for: it
has fractions and powers, numbers beyond every bound, escapes of half a surrogate pair, and nesting
of any depth.  The reader finds some node in every such text, wherever a value may come
(`WellFormed.reads`); parts that stand for no value come out as garbled, and do no harm to what is
around them.

A `Member` of an object is a name with a well-formed value, and `IsObject` says that a text is an
object with these members.  The reader finds exactly these members in it (`read?_of_isObject`).
-/

namespace Convergence.Json

open Decimal

/-! ## The grammar -/

/-- What may stand between quotes, be it a text or not. -/
inductive Quotable : List Char → Prop where
  | nil : Quotable []
  | itself {c : Char} {cs : List Char} (hquote : c ≠ '\"') (hbackslash : c ≠ '\\')
      (hcontrol : ¬ c.toNat < 0x20) (h : Quotable cs) : Quotable (c :: cs)
  | short {e c : Char} {cs : List Char} (hshort : (e, c) ∈ shortEscapes) (h : Quotable cs) :
      Quotable ('\\' :: e :: cs)
  | unit {digits cs : List Char} {u : Nat} (hunit : Unit16 digits u) (h : Quotable cs) :
      Quotable (digits ++ cs)

/-- What may follow the digits in front of a decimal point. -/
inductive Fraction : List Char → Prop where
  | none : Fraction []
  | some {ds : List Char} (hne : ds ≠ []) (h : ∀ c ∈ ds, c.isDigit = true) : Fraction ('.' :: ds)

/-- What may follow a number as a power of ten. -/
inductive Exponent : List Char → Prop where
  | none : Exponent []
  | some {e : Char} {sign ds : List Char} (he : e = 'e' ∨ e = 'E')
      (hsign : sign ∈ [[], ['+'], ['-']]) (hne : ds ≠ []) (h : ∀ c ∈ ds, c.isDigit = true) :
      Exponent (e :: sign ++ ds)

/-- The literal of a number. -/
inductive Number : List Char → Prop where
  | intro {sign whole fraction exponent : List Char} (hsign : sign ∈ [[], ['-']])
      (hwhole : Digits whole) (hfraction : Fraction fraction) (hexponent : Exponent exponent) :
      Number (sign ++ (whole ++ (fraction ++ exponent)))

/-- A name in front of a member, be it a text or not. -/
inductive Name : List Char → Prop where
  | intro {before cs behind : List Char} (hbefore : ∀ b ∈ before, isSpace b = true)
      (h : Quotable cs) (hbehind : ∀ b ∈ behind, isSpace b = true) :
      Name (before ++ ('\"' :: cs ++ ['\"']) ++ behind)

/-- The pieces with commas between them. -/
def commas : List (List Char) → List Char
  | [] => []
  | piece :: rest => piece ++ rest.flatMap (',' :: ·)

/-- A name and a value with a colon between them. -/
def memberText (m : List Char × List Char) : List Char := m.1 ++ ':' :: m.2

/-- The text is JSON. -/
inductive WellFormed : List Char → Prop where
  | blank {before cs behind : List Char} (hbefore : ∀ b ∈ before, isSpace b = true)
      (h : WellFormed cs) (hbehind : ∀ b ∈ behind, isSpace b = true) :
      WellFormed (before ++ cs ++ behind)
  | nullWord : WellFormed ['n', 'u', 'l', 'l']
  | trueWord : WellFormed ['t', 'r', 'u', 'e']
  | falseWord : WellFormed ['f', 'a', 'l', 's', 'e']
  | number {cs : List Char} (h : Number cs) : WellFormed cs
  | text {cs : List Char} (h : Quotable cs) : WellFormed ('\"' :: cs ++ ['\"'])
  | seq {blanks : List Char} {items : List (List Char)} (hblanks : ∀ b ∈ blanks, isSpace b = true)
      (h : ∀ cs ∈ items, WellFormed cs) : WellFormed ('[' :: blanks ++ commas items ++ [']'])
  | map {blanks : List Char} {members : List (List Char × List Char)}
      (hblanks : ∀ b ∈ blanks, isSpace b = true) (hnames : ∀ m ∈ members, Name m.1)
      (h : ∀ m ∈ members, WellFormed m.2) :
      WellFormed ('\x7b' :: blanks ++ commas (members.map memberText) ++ ['\x7d'])

/-! ## Pieces that are cut into tokens -/

variable {piece before behind blanks : List Char} {ts : List Token}

lemma ends_append_of_isSpace (hbehind : ∀ b ∈ behind, isSpace b = true) {rest : List Char}
    (h : Ends rest) : Ends (behind ++ rest) := by
  cases behind with
  | nil => exact h
  | cons b _ => exact ends_cons (endsWord_of_isSpace (hbehind b List.mem_cons_self)) _

lemma ends_flatMap_comma (pieces : List (List Char)) {rest : List Char} (h : Ends rest) :
    Ends (pieces.flatMap (',' :: ·) ++ rest) := by
  cases pieces with
  | nil => exact h
  | cons piece pieces => exact ends_cons (by decide) _

/-- White space around a piece changes nothing. -/
lemma Lexes.blank (hbefore : ∀ b ∈ before, isSpace b = true) (h : Lexes piece ts)
    (hbehind : ∀ b ∈ behind, isSpace b = true) : Lexes (before ++ piece ++ behind) ts := by
  have hblank : Lexes behind [] := by simpa using Lexes.nil.blank_append hbehind
  simpa using (h.blank_append hbefore).append (fun _ => ends_append_of_isSpace hbehind) hblank

lemma exists_units_of_quotable (h : Quotable piece) : ∃ us, ∀ units rest,
    lexFrom (.text units) (piece ++ rest) = lexFrom (.text (us ++ units)) rest := by
  induction h with
  | nil => exact ⟨[], fun _ _ => rfl⟩
  | @itself c cs hquote hbackslash hcontrol _ ih =>
    obtain ⟨us, hus⟩ := ih
    refine ⟨us ++ [c.toNat], fun units rest => ?_⟩
    simp [lexFrom, hquote, hbackslash, hcontrol, hus]
  | @short e c cs hshort _ ih =>
    obtain ⟨us, hus⟩ := ih
    obtain ⟨hu, hescaped⟩ := escaped?_of_mem_shortEscapes hshort
    refine ⟨us ++ [c.toNat], fun units rest => ?_⟩
    simp [lexFrom, hu, hescaped, hus]
  | @unit digits cs u hunit _ ih =>
    obtain ⟨us, hus⟩ := ih
    refine ⟨us ++ [u], fun units rest => ?_⟩
    rw [List.append_assoc, lexFrom_unit16 hunit, hus, List.append_assoc, List.singleton_append]

lemma exists_lexes_of_quotable (h : Quotable piece) :
    ∃ value, Lexes ('\"' :: piece ++ ['\"']) [.text value] := by
  obtain ⟨us, hus⟩ := exists_units_of_quotable h
  exact ⟨_, lexes_of_lexed hus⟩

lemma exists_lexes_of_name (h : Name piece) : ∃ value, Lexes piece [.text value] := by
  obtain ⟨hbefore, hcs, hbehind⟩ := h
  obtain ⟨value, hvalue⟩ := exists_lexes_of_quotable hcs
  exact ⟨value, hvalue.blank hbefore hbehind⟩

/-! ## Numbers -/

lemma isDigit_eq_false_of_mem_head? {fraction exponent : List Char} (hfraction : Fraction fraction)
    (hexponent : Exponent exponent) : ∀ c ∈ (fraction ++ exponent).head?, c.isDigit = false := by
  cases hfraction with
  | some => simp
  | none =>
    cases hexponent with
    | none => simp
    | some he => rcases he with rfl | rfl <;> simp

lemma exists_splitExponent {sign ds : List Char} (hsign : sign ∈ [[], ['+'], ['-']])
    (hne : ds ≠ []) (h : ∀ c ∈ ds, c.isDigit = true) :
    ∃ negative, splitExponent (sign ++ ds) = some (negative, ds) := by
  have hempty : ds.isEmpty = false := by simpa using hne
  have hall : ds.all Char.isDigit = true := List.all_eq_true.2 h
  simp only [List.mem_cons, List.not_mem_nil, or_false] at hsign
  rcases hsign with rfl | rfl | rfl
  · cases ds with
    | nil => exact absurd rfl hne
    | cons d ds =>
      have hd : d.isDigit = true := h d List.mem_cons_self
      have hplus : d ≠ '+' := ne_of_isDigit hd rfl
      have hminus : d ≠ '-' := ne_of_isDigit hd rfl
      exact ⟨false, by simp [splitExponent, hplus, hminus, hall]⟩
  · exact ⟨false, by simp [splitExponent, hempty, hall]⟩
  · exact ⟨true, by simp [splitExponent, hempty, hall]⟩

lemma exists_afterPoint {fraction exponent : List Char} (hfraction : Fraction fraction)
    (hexponent : Exponent exponent) : ∃ ds, (match fraction ++ exponent with
      | '.' :: cs =>
        if (cs.span Char.isDigit).1.isEmpty = true then none
        else some ((cs.span Char.isDigit).1, (cs.span Char.isDigit).2)
      | _ => some ([], fraction ++ exponent)) = some (ds, exponent) := by
  cases hfraction with
  | none =>
    cases hexponent with
    | none => exact ⟨[], rfl⟩
    | some he => rcases he with rfl | rfl <;> exact ⟨[], rfl⟩
  | @some ds hne hds =>
    have hspan : (ds ++ exponent).span Char.isDigit = (ds, exponent) :=
      Text.span_append hds (isDigit_eq_false_of_mem_head? .none hexponent)
    have hempty : ds.isEmpty = false := by simpa using hne
    exact ⟨ds, by simp only [List.cons_append, hspan, hempty, Bool.false_eq_true, if_false]⟩

lemma exists_power {exponent : List Char} (h : Exponent exponent) : ∃ power,
    (match exponent with
      | [] => some (false, [])
      | c :: cs => if (decide (c = 'e') || decide (c = 'E')) = true then splitExponent cs else none)
        = some power := by
  cases h with
  | none => exact ⟨(false, []), rfl⟩
  | @some e sign ds he hsign hne hds =>
    obtain ⟨negative, hsplit⟩ := exists_splitExponent hsign hne hds
    exact ⟨(negative, ds), by rcases he with rfl | rfl <;> exact hsplit⟩

lemma Digits.unsigned_eq {sign whole rest : List Char} (hsign : sign ∈ [[], ['-']])
    (hwhole : Digits whole) :
    (if (sign ++ (whole ++ rest)).head? = some '-' then (sign ++ (whole ++ rest)).tail
      else sign ++ (whole ++ rest)) = whole ++ rest := by
  have hhead : (whole ++ rest).head? ≠ some '-' := by
    rw [List.head?_append_of_ne_nil _ hwhole.ne_nil]
    exact hwhole.head?_ne_minus
  simp only [List.mem_cons, List.not_mem_nil, or_false] at hsign
  rcases hsign with rfl | rfl
  · rw [List.nil_append, if_neg hhead]
  · rfl

/-- Every literal of a number has a node. -/
lemma exists_numberNode? (h : Number piece) : ∃ n, numberNode? piece = some n := by
  obtain @⟨sign, whole, fraction, exponent, hsign, hwhole, hfraction, hexponent⟩ := h
  have hspan := Text.span_append hwhole.isDigit (isDigit_eq_false_of_mem_head? hfraction hexponent)
  obtain ⟨ds, hafter⟩ := exists_afterPoint hfraction hexponent
  obtain ⟨power, hpower⟩ := exists_power hexponent
  rw [numberNode?]
  simp only [hwhole.unsigned_eq hsign, hspan, hwhole.isEmpty_eq_false,
    hwhole.leading_eq_false, Bool.or_self, Bool.false_eq_true, if_false]
  split
  · next hnone => cases hafter.symm.trans hnone
  · next ds' rest hsome =>
    cases hafter.symm.trans hsome
    split
    · next hnone => cases hpower.symm.trans hnone
    -- whatever the size of the number, it is read as some node
    · repeat' split
      all_goals exact ⟨_, rfl⟩

lemma Number.endsWord_eq_false (h : Number piece) : ∀ c ∈ piece, endsWord c = false := by
  obtain @⟨sign, whole, fraction, exponent, hsign, hwhole, hfraction, hexponent⟩ := h
  have hdigits : ∀ ds : List Char, (∀ c ∈ ds, c.isDigit = true) → ∀ c ∈ ds, endsWord c = false :=
    fun ds hds c hc => endsWord_of_isDigit (hds c hc)
  have hesign : ∀ s ∈ [[], ['+'], ['-']], ∀ c ∈ s, endsWord c = false := by
    simp [endsWord, isSpace]
  simp only [List.forall_mem_append]
  refine ⟨hesign sign (by simp_all; tauto), hdigits whole hwhole.isDigit, ?_, ?_⟩
  · cases hfraction with
    | none => exact List.forall_mem_nil _
    | some _ hds => exact List.forall_mem_cons.2 ⟨by decide, hdigits _ hds⟩
  · cases hexponent with
    | none => exact List.forall_mem_nil _
    | some he hs _ hds =>
      refine List.forall_mem_append.2 ⟨List.forall_mem_cons.2 ⟨?_, hesign _ hs⟩, hdigits _ hds⟩
      rcases he with rfl | rfl <;> decide

/-- A number is cut into one token. -/
lemma exists_lexes_of_number (h : Number piece) : ∃ n, Lexes piece [.scalar n] := by
  obtain ⟨n, hn⟩ := exists_numberNode? h
  have htoken : ∃ n, wordToken? piece = some (.scalar n) := by
    rw [wordToken?, hn]
    repeat' split
    all_goals exact ⟨_, rfl⟩
  obtain ⟨n, htoken⟩ := htoken
  cases piece with
  | nil => cases hn
  | cons c cs => exact ⟨n, lexes_word htoken h.endsWord_eq_false⟩

/-! ## Tokens that are read as a node -/

/-- Where a value may come, the tokens lead to the end of the node. -/
def Leads (ts : List Token) (n : Node) : Prop := ∀ stack more,
  Progress.run? ⟨stack, .value⟩ (ts ++ more) = Progress.run? ⟨stack, .ended n⟩ more

/-- The text is cut into tokens that are read as the node. -/
def Reads (piece : List Char) (n : Node) : Prop := ∃ ts, Lexes piece ts ∧ Leads ts n

/-- A name and a value that are read as a name, if that is a text, and a node. -/
def ReadsMember (m : List Char × List Char) (x : Option String × Node) : Prop :=
  Lexes m.1 [.text x.1] ∧ Reads m.2 x.2

lemma ReadsMember.exists_leads {m : List Char × List Char} {x : Option String × Node}
    (h : ReadsMember m x) :
    ∃ ts, Lexes (memberText m) (.text x.1 :: .colon :: ts) ∧ Leads ts x.2 := by
  obtain ⟨hname, ts, hlexes, hleads⟩ := h
  exact ⟨ts, hname.append (fun _ _ => ends_cons (by decide) _) (hlexes.cons (c := ':') rfl), hleads⟩

/-- The first item of a sequence is read like any value in it. -/
lemma Leads.firstItem {n : Node} (h : Leads ts n) (stack : List Frame) (more : List Token) :
    Progress.run? ⟨stack, .firstItem⟩ (ts ++ more)
      = Progress.run? ⟨.seq [] :: stack, .ended n⟩ more := by
  -- where nothing else is open, no tokens and the end of a sequence lead nowhere
  have hempty := h [] []
  rw [← h]
  cases ts with
  | nil => cases hempty
  | cons token rest =>
    have hne : token ≠ .closeSeq := by
      rintro rfl
      cases hempty
    rw [List.cons_append, Progress.run?, Progress.run?, next?_firstItem hne]

lemma exists_leads_items {items : List (List Char)} {nodes : List Node}
    (h : List.Forall₂ Reads items nodes) : ∃ ts, Lexes (items.flatMap (',' :: ·)) ts ∧
      ∀ n before stack more,
        Progress.run? ⟨.seq before :: stack, .ended n⟩ (ts ++ .closeSeq :: more)
          = Progress.run? ⟨stack, .ended (.seq (before.reverse ++ n :: nodes))⟩ more := by
  induction h with
  | nil =>
    refine ⟨[], .nil, fun n before stack more => ?_⟩
    rw [List.nil_append, run?_cons rfl, List.reverse_cons]
  | @cons item n' items nodes hitem _ ih =>
    obtain ⟨ts, hlexes, hleads⟩ := hitem
    obtain ⟨ts', hlexes', hleads'⟩ := ih
    refine ⟨.comma :: ts ++ ts', ?_, fun n before stack more => ?_⟩
    · exact (hlexes.cons (c := ',') rfl).append (fun _ => ends_flatMap_comma items) hlexes'
    · rw [List.cons_append, List.cons_append, run?_cons rfl, List.append_assoc, hleads, hleads']
      simp

lemma exists_leads_members {members : List (List Char × List Char)}
    {nodes : List (Option String × Node)} (h : List.Forall₂ ReadsMember members nodes) :
    ∃ ts, Lexes ((members.map memberText).flatMap (',' :: ·)) ts ∧ ∀ name n before stack more,
      Progress.run? ⟨.map before name :: stack, .ended n⟩ (ts ++ .closeMap :: more)
        = Progress.run? ⟨stack, .ended (mapNode (before.reverse ++ (name, n) :: nodes))⟩ more := by
  induction h with
  | nil =>
    refine ⟨[], .nil, fun name n before stack more => ?_⟩
    rw [List.nil_append, run?_cons rfl, List.reverse_cons]
  | @cons m x members nodes hmember _ ih =>
    obtain ⟨ts, hlexes, hleads⟩ := hmember.exists_leads
    obtain ⟨ts', hlexes', hleads'⟩ := ih
    refine ⟨.comma :: (.text x.1 :: .colon :: ts) ++ ts', ?_, fun name n before stack more => ?_⟩
    · exact (hlexes.cons (c := ',') rfl).append
        (fun _ => ends_flatMap_comma (members.map memberText)) hlexes'
    · simp only [List.cons_append, List.append_assoc]
      rw [run?_cons rfl, run?_cons rfl, run?_cons rfl, hleads, hleads']
      simp

/-! ## Every well-formed text -/

lemma Reads.blank {n : Node} (hbefore : ∀ b ∈ before, isSpace b = true) (h : Reads piece n)
    (hbehind : ∀ b ∈ behind, isSpace b = true) : Reads (before ++ piece ++ behind) n := by
  obtain ⟨ts, hlexes, hleads⟩ := h
  exact ⟨ts, hlexes.blank hbefore hbehind, hleads⟩

lemma Reads.seq {items : List (List Char)} {nodes : List Node}
    (hblanks : ∀ b ∈ blanks, isSpace b = true) (h : List.Forall₂ Reads items nodes) :
    Reads ('[' :: blanks ++ commas items ++ [']']) (.seq nodes) := by
  cases h with
  | nil =>
    refine ⟨[.openSeq, .closeSeq], ?_, fun _ _ => rfl⟩
    simpa [commas] using ((Lexes.nil.cons (c := ']') rfl).blank_append hblanks).cons (c := '[') rfl
  | @cons item n items nodes hitem hitems =>
    obtain ⟨ts, hlexes, hleads⟩ := hitem
    obtain ⟨ts', hlexes', hleads'⟩ := exists_leads_items hitems
    refine ⟨.openSeq :: (ts ++ ts' ++ [.closeSeq]), ?_, fun stack more => ?_⟩
    · have hbody := (hlexes.append (fun _ => ends_flatMap_comma items) hlexes').append
        (fun _ _ => ends_cons (by decide) _) (Lexes.nil.cons (c := ']') rfl)
      simpa [commas] using (hbody.blank_append hblanks).cons (c := '[') rfl
    · simp only [List.cons_append, List.append_assoc, List.nil_append]
      rw [run?_cons rfl, Leads.firstItem hleads, hleads']
      rfl

lemma Reads.map {members : List (List Char × List Char)} {nodes : List (Option String × Node)}
    (hblanks : ∀ b ∈ blanks, isSpace b = true) (h : List.Forall₂ ReadsMember members nodes) :
    Reads ('\x7b' :: blanks ++ commas (members.map memberText) ++ ['\x7d']) (mapNode nodes) := by
  cases h with
  | nil =>
    refine ⟨[.openMap, .closeMap], ?_, fun _ _ => rfl⟩
    simpa [commas] using
      ((Lexes.nil.cons (c := '\x7d') rfl).blank_append hblanks).cons (c := '\x7b') rfl
  | @cons m x members nodes hmember hmembers =>
    obtain ⟨ts, hlexes, hleads⟩ := hmember.exists_leads
    obtain ⟨ts', hlexes', hleads'⟩ := exists_leads_members hmembers
    refine ⟨.openMap :: (.text x.1 :: .colon :: ts ++ ts' ++ [.closeMap]), ?_,
      fun stack more => ?_⟩
    · have hbody :=
        (hlexes.append (fun _ => ends_flatMap_comma (members.map memberText)) hlexes').append
          (fun _ _ => ends_cons (by decide) _) (Lexes.nil.cons (c := '\x7d') rfl)
      simpa [commas] using (hbody.blank_append hblanks).cons (c := '\x7b') rfl
    · simp only [List.cons_append, List.append_assoc, List.nil_append]
      rw [run?_cons rfl, run?_cons rfl, run?_cons rfl, hleads, hleads']
      rfl

lemma reads_of_lexes_scalar {n : Node} (h : Lexes piece [.scalar n]) : Reads piece n :=
  ⟨_, h, fun _ _ => rfl⟩

lemma exists_forall₂ {α β : Type} {R : α → β → Prop} {l : List α} (h : ∀ a ∈ l, ∃ b, R a b) :
    ∃ l', List.Forall₂ R l l' := by
  induction l with
  | nil => exact ⟨[], .nil⟩
  | cons a l ih =>
    obtain ⟨ha, hl⟩ := List.forall_mem_cons.1 h
    obtain ⟨b, hb⟩ := ha
    obtain ⟨l', hl'⟩ := ih hl
    exact ⟨b :: l', .cons hb hl'⟩

/-- Wherever a value may come, a well-formed text is read as some node. -/
theorem WellFormed.reads (h : WellFormed piece) : ∃ n, Reads piece n := by
  induction h with
  | blank hbefore _ hbehind ih =>
    obtain ⟨n, hn⟩ := ih
    exact ⟨n, hn.blank hbefore hbehind⟩
  | nullWord => exact ⟨_, reads_of_lexes_scalar (lexes_word rfl (by simp [endsWord, isSpace]))⟩
  | trueWord => exact ⟨_, reads_of_lexes_scalar (lexes_word rfl (by simp [endsWord, isSpace]))⟩
  | falseWord => exact ⟨_, reads_of_lexes_scalar (lexes_word rfl (by simp [endsWord, isSpace]))⟩
  | number h =>
    obtain ⟨n, hn⟩ := exists_lexes_of_number h
    exact ⟨n, reads_of_lexes_scalar hn⟩
  | text h =>
    obtain ⟨value, hlexes⟩ := exists_lexes_of_quotable h
    cases value with
    -- half of a surrogate pair is no text, but may stand there
    | none => exact ⟨.garbled, _, hlexes, fun _ _ => rfl⟩
    | some s => exact ⟨.str s, _, hlexes, fun _ _ => rfl⟩
  | seq hblanks _ ih =>
    obtain ⟨nodes, hnodes⟩ := exists_forall₂ ih
    exact ⟨.seq nodes, Reads.seq hblanks hnodes⟩
  | map hblanks hnames _ ih =>
    have hmembers : ∀ m ∈ _, ∃ x, ReadsMember m x := fun m hm => by
      obtain ⟨name, hname⟩ := exists_lexes_of_name (hnames m hm)
      obtain ⟨n, hn⟩ := ih m hm
      exact ⟨(name, n), hname, hn⟩
    obtain ⟨nodes, hnodes⟩ := exists_forall₂ hmembers
    exact ⟨mapNode nodes, Reads.map hblanks hnodes⟩

/-- A text that is read as a node wherever a value may come is read as that node alone. -/
lemma read?_of_reads {n : Node} (h : Reads piece n) : read? (String.ofList piece) = some n := by
  obtain ⟨ts, hlexes, hleads⟩ := h
  have hlex : lex piece = some ts := by simpa [lex, lexFrom] using hlexes [] ends_nil
  have hrun := hleads [] []
  rw [List.append_nil] at hrun
  rw [read?, String.toList_ofList, hlex, Option.bind_some, ofTokens?, hrun]
  rfl

/-! ## Objects and their members -/

/-- A member of an object: a name, which is a text, and a well-formed value. -/
structure Member where
  name : String
  /-- How the name is spelled, with the white space around it. -/
  nameText : List Char
  /-- How the value is spelled, with the white space around it. -/
  valueText : List Char
  spells : Value nameText (.str name)
  wellFormed : WellFormed valueText

namespace Member

/-- The member as it stands in an object. -/
def text (m : Member) : List Char := memberText (m.nameText, m.valueText)

/-- What is read of the value. -/
def node (m : Member) : Node := (read? (String.ofList m.valueText)).getD .garbled

lemma reads (m : Member) : Reads m.valueText m.node := by
  obtain ⟨n, hn⟩ := m.wellFormed.reads
  rwa [node, read?_of_reads hn, Option.getD_some]

lemma readsMember (m : Member) :
    ReadsMember (m.nameText, m.valueText) (some m.name, m.node) := ⟨m.spells.lexes, m.reads⟩

end Member

/-- The text is an object with these members. -/
def IsObject (text : String) (members : List Member) : Prop :=
  ∃ before inside behind : List Char,
    (∀ b ∈ before, isSpace b = true) ∧ (∀ b ∈ inside, isSpace b = true)
    ∧ (∀ b ∈ behind, isSpace b = true)
    ∧ text.toList = before
        ++ ('\x7b' :: inside ++ commas (members.map Member.text) ++ ['\x7d']) ++ behind

/-- An object is read as the map of its members. -/
theorem read?_of_isObject {text : String} {members : List Member} (h : IsObject text members) :
    read? text = some (.map (members.map fun m => (m.name, m.node))) := by
  obtain ⟨before, inside, behind, hbefore, hinside, hbehind, htext⟩ := h
  have hmembers : List.Forall₂ ReadsMember (members.map fun m => (m.nameText, m.valueText))
      (members.map fun m => (some m.name, m.node)) := by
    rw [List.forall₂_map_left_iff, List.forall₂_map_right_iff, List.forall₂_same]
    exact fun m _ => m.readsMember
  have hnamed : namedMembers (members.map fun m => (some m.name, m.node))
      = some (members.map fun m => (m.name, m.node)) := by
    simpa [Function.comp_def] using namedMembers_some (members.map fun m => (m.name, m.node))
  have hreads := (Reads.map hinside hmembers).blank hbefore hbehind
  rw [List.map_map, mapNode, hnamed] at hreads
  rw [← String.ofList_toList (s := text), htext]
  exact read?_of_reads hreads

end Convergence.Json
