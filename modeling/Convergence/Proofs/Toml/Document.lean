import Convergence.Proofs.Toml.Scalar
/-!
# Reading documents of TOML back

A document of tables is read as the statements that it was written from: for each table a header,
and behind it a pair for each of its members (`statements?_tablesChars`).  What the statements build
is then up to their names; the text adds nothing to that and takes nothing away (`read?_text`).
-/

namespace Convergence.Toml

open Text

/-! ## Names -/

/-- The text may stand as a name without quotes. -/
def IsName (name : String) : Prop := name.toList ≠ [] ∧ ∀ c ∈ name.toList, isNameChar c = true

instance (name : String) : Decidable (IsName name) :=
  decidable_of_iff (name.toList ≠ [] ∧ name.toList.all isNameChar = true) (by simp [IsName])

/-- Names with dots between them. -/
def dotted : List String → List Char
  | [] => []
  | [name] => name.toList
  | name :: other :: path => name.toList ++ '.' :: dotted (other :: path)

variable {name : String} {rest : List Char}

lemma ne_of_isNameChar {c d : Char} (hc : isNameChar c = true) (hd : isNameChar d = false) :
    c ≠ d := by
  rintro rfl
  exact absurd hc (by simp [hd])

/-- A name begins at once. -/
lemma IsName.exists_cons (h : IsName name) :
    ∃ c cs, name.toList = c :: cs ∧ isNameChar c = true := by
  obtain ⟨c, cs, hcs⟩ := List.exists_cons_of_ne_nil h.1
  exact ⟨c, cs, hcs, h.2 c (hcs ▸ List.mem_cons_self)⟩

lemma skipSpace_cons {c : Char} (h : isSpace c = false) (cs : List Char) :
    skipSpace (c :: cs) = c :: cs := by
  simp [skipSpace, h]

lemma isSpace_of_isNameChar {c : Char} (h : isNameChar c = true) : isSpace c = false := by
  simp [isSpace, ne_of_isNameChar h (d := ' ') (by decide),
    ne_of_isNameChar h (d := '\t') (by decide), ne_of_isNameChar h (d := '\r') (by decide)]

lemma name?_append (h : IsName name) (hrest : ∀ c ∈ rest.head?, isNameChar c = false) :
    name? (name.toList ++ rest) = some (name, rest) := by
  have hspan := span_append h.2 hrest
  obtain ⟨c, cs, hcs, hc⟩ := h.exists_cons
  have hempty : name.toList.isEmpty = false := by simp [hcs]
  rw [name?.eq_def]
  split
  · next heq =>
    rw [hcs] at heq
    exact absurd (List.cons.inj heq).1 (ne_of_isNameChar hc (by decide))
  · next heq =>
    rw [hcs] at heq
    exact absurd (List.cons.inj heq).1 (ne_of_isNameChar hc (by decide))
  · rw [hspan]
    simp [hempty]

/-- The names, at least one, lead to a table or a value. -/
def IsPath (path : List String) : Prop := path ≠ [] ∧ ∀ name ∈ path, IsName name

instance (path : List String) : Decidable (IsPath path) :=
  decidable_of_iff (path ≠ [] ∧ path.all (IsName ·) = true) (by simp [IsPath])

variable {path : List String}

lemma IsPath.of_name (h : IsName name) : IsPath [name] := ⟨by simp, by simpa using h⟩

lemma IsPath.exists_cons (h : IsPath path) :
    ∃ c cs, dotted path = c :: cs ∧ isNameChar c = true := by
  obtain ⟨name, path, rfl⟩ := List.exists_cons_of_ne_nil h.1
  obtain ⟨c, cs, hcs, hc⟩ := (h.2 name List.mem_cons_self).exists_cons
  cases path with
  | nil => exact ⟨c, cs, hcs, hc⟩
  | cons other path => exact ⟨c, _, by rw [dotted, hcs, List.cons_append], hc⟩

lemma length_le_dotted (h : ∀ name ∈ path, IsName name) : path.length ≤ (dotted path).length := by
  induction path with
  | nil => exact Nat.le_refl 0
  | cons name path ih =>
    obtain ⟨hname, hpath⟩ := List.forall_mem_cons.1 h
    obtain ⟨c, cs, hcs, -⟩ := hname.exists_cons
    have hrest := ih hpath
    cases path with
    | nil => simp [dotted, hcs]
    | cons other path =>
      simp only [dotted, hcs, List.length_cons, List.length_append] at hrest ⊢
      omega

/-- A path is read up to the spaces behind it. -/
lemma path?_dotted (h : IsPath path) (hrest : ∀ c ∈ rest.head?, isNameChar c = false)
    (hdot : ∀ c ∈ (skipSpace rest).head?, c ≠ '.') {fuel : Nat} (hfuel : path.length ≤ fuel) :
    path? fuel (dotted path ++ rest) = some (path, skipSpace rest) := by
  obtain ⟨hne, hpath⟩ := h
  induction path generalizing fuel with
  | nil => exact absurd rfl hne
  | cons name path ih =>
    obtain ⟨hname, hpath⟩ := List.forall_mem_cons.1 hpath
    obtain ⟨fuel, rfl⟩ : ∃ m, fuel = m + 1 := ⟨fuel - 1, by simp at hfuel; omega⟩
    have hskip : ∀ more, skipSpace (name.toList ++ more) = name.toList ++ more := by
      intro more
      obtain ⟨c, cs, hcs, hc⟩ := hname.exists_cons
      rw [hcs, List.cons_append, skipSpace_cons (isSpace_of_isNameChar hc)]
    cases path with
    | nil =>
      rw [dotted, path?, hskip, name?_append hname hrest]
      dsimp only
      split
      · next heq => exact absurd rfl (hdot '.' (by simp [heq]))
      · rfl
    | cons other path =>
      have hmore : path? fuel (dotted (other :: path) ++ rest)
          = some (other :: path, skipSpace rest) :=
        ih (by simpa using hfuel) (List.cons_ne_nil other path) hpath
      have hdotSkip : skipSpace ('.' :: (dotted (other :: path) ++ rest))
          = '.' :: (dotted (other :: path) ++ rest) := skipSpace_cons (by decide) _
      rw [dotted, List.append_assoc, List.cons_append, path?, hskip,
        name?_append hname (by simp [isNameChar])]
      simp only [hdotSkip, hmore, Option.map_some]

/-- The length of the text is fuel enough. -/
lemma path?_line (h : IsPath path) (hrest : ∀ c ∈ rest.head?, isNameChar c = false)
    (hdot : ∀ c ∈ (skipSpace rest).head?, c ≠ '.') :
    path? ((dotted path ++ rest).length + 1) (dotted path ++ rest)
      = some (path, skipSpace rest) := by
  have hlength := length_le_dotted h.2
  refine path?_dotted h hrest hdot ?_
  rw [List.length_append]
  omega

/-! ## Statements -/

/-- The line of a header is read as the header. -/
lemma statement?_header (h : IsPath path) (rest : List Char) :
    statement? ('[' :: (dotted path ++ ']' :: '\n' :: rest)) = some (.header path, rest) := by
  have hbracket : skipSpace (']' :: '\n' :: rest) = ']' :: '\n' :: rest := rfl
  have hread : path? ((dotted path ++ ']' :: '\n' :: rest).length + 1)
      (dotted path ++ ']' :: '\n' :: rest) = some (path, ']' :: '\n' :: rest) := by
    rw [path?_line h (by simp [isNameChar]) (by simp [hbracket]), hbracket]
  have hend : endLine? ('\n' :: rest) = some rest := rfl
  obtain ⟨c, cs, hcs, hc⟩ := h.exists_cons
  rw [hcs, List.cons_append] at hread ⊢
  rw [statement?.eq_def]
  split
  · next heq =>
    simp only [List.cons.injEq, true_and] at heq
    exact absurd heq.1 (ne_of_isNameChar hc (by decide))
  · next more _ heq =>
    obtain rfl : c :: (cs ++ ']' :: '\n' :: rest) = more := (List.cons.inj heq).2
    simp only [hread, hend, Option.map_some]
  · next hother => exact absurd rfl (hother _)

/-- The line of a member is read as the pair. -/
lemma statement?_memberChars {m : String × Node} (hname : IsName m.1) (hvalue : IsScalar m.2)
    (rest : List Char) :
    statement? (memberChars m ++ rest) = some (.pair [m.1] m.2, rest) := by
  obtain ⟨c, cs, hcs, hc⟩ := hname.exists_cons
  obtain ⟨d, ds, hds, hd, -⟩ := exists_scalarChars hvalue
  have hend : endLine? ('\n' :: rest) = some rest := rfl
  have hequals : skipSpace (' ' :: '=' :: ' ' :: (scalarChars m.2 ++ '\n' :: rest))
      = '=' :: ' ' :: (scalarChars m.2 ++ '\n' :: rest) := rfl
  have hvalueSkip : skipSpace (' ' :: (scalarChars m.2 ++ '\n' :: rest))
      = scalarChars m.2 ++ '\n' :: rest := by
    rw [hds, List.cons_append]
    exact skipSpace_cons hd _
  have hchars : memberChars m ++ rest
      = dotted [m.1] ++ ' ' :: '=' :: ' ' :: (scalarChars m.2 ++ '\n' :: rest) := by
    simp [memberChars, dotted]
  have hread : path? ((memberChars m ++ rest).length + 1) (memberChars m ++ rest)
      = some ([m.1], '=' :: ' ' :: (scalarChars m.2 ++ '\n' :: rest)) := by
    rw [hchars, path?_line (IsPath.of_name hname) (by simp [isNameChar]) (by simp [hequals]),
      hequals]
  rw [statement?.eq_def]
  split
  · next heq =>
    rw [hchars, dotted, hcs] at heq
    exact absurd (List.cons.inj heq).1 (ne_of_isNameChar hc (by decide))
  · next heq =>
    rw [hchars, dotted, hcs] at heq
    exact absurd (List.cons.inj heq).1 (ne_of_isNameChar hc (by decide))
  · simp only [hread, hvalueSkip, value?_scalarChars hvalue, hend, Option.map_some]

/-! ## Documents -/

/-- The table can be written without loss: its name is a path, and its members have names and values
that hold no others. -/
structure Table.IsPlain (t : Table) (path : List String) : Prop where
  name_eq : t.name.toList = dotted path
  isPath : IsPath path
  isName : ∀ m ∈ t.members, IsName m.1
  isScalar : ∀ m ∈ t.members, IsScalar m.2

/-- The statements of a table: its header and the pairs of its members. -/
def Table.statements (t : Table) (path : List String) : List Statement :=
  .header path :: t.members.map fun m => .pair [m.1] m.2

lemma skipVoid_cons {c : Char} (hend : c ≠ '\n') (hspace : isSpace c = false) (hcomment : c ≠ '#')
    (cs : List Char) : skipVoid false (c :: cs) = some (c :: cs) := by
  rw [skipVoid, if_neg hend, if_neg (by decide), if_neg (by simp [hspace]), if_neg hcomment]

lemma statements?_cons {c : Char} {cs : List Char} {statement : Statement}
    (hvoid : skipVoid false (c :: cs) = some (c :: cs))
    (h : statement? (c :: cs) = some (statement, rest)) (fuel : Nat) :
    statements? (fuel + 1) (c :: cs) = (statements? fuel rest).map (statement :: ·) := by
  rw [statements?, hvoid]
  simp only [h]

lemma statements?_lineEnd (fuel : Nat) (cs : List Char) :
    statements? fuel ('\n' :: cs) = statements? fuel cs := by
  cases fuel with
  | zero => rfl
  | succ fuel =>
    have hvoid : skipVoid false ('\n' :: cs) = skipVoid false cs := rfl
    rw [statements?, statements?, hvoid]

lemma statements?_members {members : List (String × Node)} (hname : ∀ m ∈ members, IsName m.1)
    (hvalue : ∀ m ∈ members, IsScalar m.2) (fuel : Nat) (rest : List Char) :
    statements? (fuel + members.length) (members.flatMap memberChars ++ rest)
      = (statements? fuel rest).map ((members.map fun m => .pair [m.1] m.2) ++ ·) := by
  induction members with
  | nil => simp
  | cons m members ih =>
    obtain ⟨hm, hname⟩ := List.forall_mem_cons.1 hname
    obtain ⟨hv, hvalue⟩ := List.forall_mem_cons.1 hvalue
    obtain ⟨c, cs, hcs, hc⟩ := hm.exists_cons
    have hread := statement?_memberChars hm hv (members.flatMap memberChars ++ rest)
    obtain ⟨more, hmore⟩ : ∃ more, memberChars m = c :: more := by
      exact ⟨_, by rw [memberChars, hcs, List.cons_append, List.cons_append, List.cons_append]⟩
    have hvoid : ∀ cs, skipVoid false (c :: cs) = some (c :: cs) :=
      skipVoid_cons (ne_of_isNameChar hc (by decide)) (isSpace_of_isNameChar hc)
        (ne_of_isNameChar hc (by decide))
    rw [hmore, List.cons_append] at hread
    rw [List.flatMap_cons, List.append_assoc, hmore, List.cons_append, List.length_cons,
      ← Nat.add_assoc, statements?_cons (hvoid _) hread, ih hname hvalue, Option.map_map]
    rfl

lemma statements?_tableChars {t : Table} (h : t.IsPlain path) (fuel : Nat) (rest : List Char) :
    statements? (fuel + (t.statements path).length) (tableChars t ++ rest)
      = (statements? fuel rest).map (t.statements path ++ ·) := by
  have hread := statement?_header h.isPath (t.members.flatMap memberChars ++ rest)
  have hvoid : ∀ cs, skipVoid false ('[' :: cs) = some ('[' :: cs) :=
    skipVoid_cons (by decide) (by decide) (by decide)
  have hchars : tableChars t ++ rest
      = '[' :: (dotted path ++ ']' :: '\n' :: (t.members.flatMap memberChars ++ rest)) := by
    simp [tableChars, h.name_eq]
  have hlength : fuel + (t.statements path).length = fuel + t.members.length + 1 := by
    simp [Table.statements]
    omega
  rw [hchars, hlength, statements?_cons (hvoid _) hread, statements?_members h.isName h.isScalar,
    Option.map_map]
  rfl

/-- The statements of tables with their paths. -/
def statementsOf (tables : List (Table × List String)) : List Statement :=
  tables.flatMap fun t => t.1.statements t.2

/-- A document is read as the statements that it was written from. -/
theorem statements?_tablesChars {tables : List (Table × List String)}
    (h : ∀ t ∈ tables, t.1.IsPlain t.2) (fuel : Nat) :
    statements? (fuel + 1 + (statementsOf tables).length) (tablesChars (tables.map Prod.fst))
      = some (statementsOf tables) := by
  induction tables with
  | nil => rfl
  | cons t tables ih =>
    obtain ⟨ht, htables⟩ := List.forall_mem_cons.1 h
    have hrest := ih htables
    have hstatements : statementsOf (t :: tables) = t.1.statements t.2 ++ statementsOf tables := by
      rw [statementsOf, List.flatMap_cons, statementsOf]
    have hfuel : fuel + 1 + (statementsOf (t :: tables)).length
        = fuel + 1 + (statementsOf tables).length + (t.1.statements t.2).length := by
      rw [hstatements, List.length_append]
      omega
    cases tables with
    | nil =>
      have hread := statements?_tableChars ht (fuel + 1 + (statementsOf []).length) []
      rw [List.append_nil] at hread
      rw [hfuel, List.map_cons, List.map_nil, tablesChars, hread, hstatements]
      rfl
    | cons u tables =>
      rw [hfuel, List.map_cons, List.map_cons, tablesChars, statements?_tableChars ht,
        statements?_lineEnd, ← List.map_cons, hrest, Option.map_some, hstatements]

lemma length_statements_le (t : Table) (path : List String) :
    (t.statements path).length ≤ (tableChars t).length := by
  have hmembers : ∀ members : List (String × Node),
      members.length ≤ (members.flatMap memberChars).length := by
    intro members
    induction members with
    | nil => exact Nat.le_refl 0
    | cons m members ih =>
      rw [List.flatMap_cons, List.length_append, List.length_cons]
      have hline : 1 ≤ (memberChars m).length := by
        simp [memberChars]
        omega
      omega
  have hle := hmembers t.members
  simp only [Table.statements, tableChars, List.length_cons, List.length_map, List.length_append]
  omega

/-- A document has no more statements than characters. -/
lemma length_statementsOf_le (tables : List (Table × List String)) :
    (statementsOf tables).length ≤ (tablesChars (tables.map Prod.fst)).length := by
  induction tables with
  | nil => exact Nat.le_refl 0
  | cons t tables ih =>
    have hfirst := length_statements_le t.1 t.2
    rw [statementsOf, List.flatMap_cons, List.length_append, ← statementsOf]
    cases tables with
    | nil => simpa [statementsOf, tablesChars] using hfirst
    | cons u tables =>
      rw [List.map_cons, List.map_cons, tablesChars, List.length_append, List.length_cons,
        ← List.map_cons]
      omega

/-! ## Characters that mean more than themselves -/

lemma returnsPaired_of_not_mem {cs : List Char} (h : '\r' ∉ cs) : returnsPaired cs = true := by
  induction cs with
  | nil => rfl
  | cons c cs ih =>
    simp only [List.mem_cons, not_or] at h
    simp [returnsPaired, ih h.2, Ne.symm h.1]

lemma IsName.return_not_mem (h : IsName name) : '\r' ∉ name.toList :=
  fun hmem => absurd (h.2 _ hmem) (by decide)

lemma return_not_mem_dotted (h : ∀ name ∈ path, IsName name) : '\r' ∉ dotted path := by
  induction path with
  | nil => exact List.not_mem_nil
  | cons name path ih =>
    obtain ⟨hname, hpath⟩ := List.forall_mem_cons.1 h
    cases path with
    | nil => exact hname.return_not_mem
    | cons other path => simp [dotted, hname.return_not_mem, ih hpath]

lemma return_not_mem_tableChars {t : Table} (h : t.IsPlain path) : '\r' ∉ tableChars t := by
  have hmembers : '\r' ∉ t.members.flatMap memberChars := by
    rw [List.mem_flatMap]
    rintro ⟨m, hm, hmem⟩
    obtain ⟨-, -, -, -, hvalue⟩ := exists_scalarChars (h.isScalar m hm)
    simp [memberChars, (h.isName m hm).return_not_mem, hvalue] at hmem
  simp [tableChars, h.name_eq, return_not_mem_dotted h.isPath.2, hmembers]

lemma return_not_mem_tablesChars {tables : List (Table × List String)}
    (h : ∀ t ∈ tables, t.1.IsPlain t.2) : '\r' ∉ tablesChars (tables.map Prod.fst) := by
  induction tables with
  | nil => exact List.not_mem_nil
  | cons t tables ih =>
    obtain ⟨ht, htables⟩ := List.forall_mem_cons.1 h
    have hrest := ih htables
    cases tables with
    | nil => exact return_not_mem_tableChars ht
    | cons u tables =>
      rw [List.map_cons] at hrest
      simp [tablesChars, return_not_mem_tableChars ht, hrest]

lemma dropMark_tablesChars (tables : List Table) :
    dropMark (tablesChars tables) = tablesChars tables := by
  match tables with
  | [] => rfl
  | [t] => rfl
  | t :: u :: rest => rfl

/-- A document gives what its statements build. -/
theorem read?_text {tables : List (Table × List String)} (h : ∀ t ∈ tables, t.1.IsPlain t.2) :
    read? (text (tables.map Prod.fst))
      = (build? (statementsOf tables) [] []).map fun members => .map (membersOf members) := by
  have hreturns := returnsPaired_of_not_mem (return_not_mem_tablesChars h)
  have hlength := length_statementsOf_le tables
  obtain ⟨fuel, hfuel⟩ : ∃ fuel, (tablesChars (tables.map Prod.fst)).length + 1
      = fuel + 1 + (statementsOf tables).length :=
    ⟨(tablesChars (tables.map Prod.fst)).length - (statementsOf tables).length, by omega⟩
  rw [read?, text, String.toList_ofList, dropMark_tablesChars]
  simp only [hreturns, if_true, hfuel, statements?_tablesChars h, Option.bind_some]

end Convergence.Toml
