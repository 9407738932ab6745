import Convergence.Json.Reader
import Convergence.Proofs.Json.Tokens
/-!
# Reading what stands for a node

The reader takes tokens one by one.  Given the tokens of a node where a value may come, it comes to
the state in which that node has just ended, whatever is open around it (`run?_tokens`).  So each
text of the grammar is read as the node it stands for (`read?_of_value`), and reading undoes writing
in either layout: `read?_pretty` and `read?_compact`.
-/

namespace Convergence.Json

variable {stack : List Frame} {token : Token} {more : List Token}

lemma run?_cons {s s' : Progress} (h : s.next? token = some s') (ts : List Token) :
    s.run? (token :: ts) = s'.run? ts := by
  rw [Progress.run?, h]

/-- The first item of a sequence begins like any value in it. -/
lemma next?_firstItem (h : token ≠ .closeSeq) :
    Progress.next? ⟨stack, .firstItem⟩ token = Progress.next? ⟨.seq [] :: stack, .value⟩ token := by
  cases token with
  | closeSeq => exact absurd rfl h
  | _ => rfl

lemma tokens_cons (n : Node) : ∃ token ts, tokens n = token :: ts ∧ token ≠ .closeSeq := by
  cases n <;> exact ⟨_, _, rfl, by simp⟩

lemma run?_firstItem_tokens (n : Node) (ts : List Token) :
    Progress.run? ⟨stack, .firstItem⟩ (tokens n ++ ts)
      = Progress.run? ⟨.seq [] :: stack, .value⟩ (tokens n ++ ts) := by
  obtain ⟨token, rest, htokens, hne⟩ := tokens_cons n
  rw [htokens, List.cons_append, Progress.run?, Progress.run?, next?_firstItem hne]

lemma exists_itemTokens (n : Node) (rest : List Node) :
    ∃ ts, itemTokens (n :: rest) = tokens n ++ ts := by
  cases rest with
  | nil => exact ⟨[], by simp [itemTokens]⟩
  | cons m rest => exact ⟨.comma :: itemTokens (m :: rest), by simp [itemTokens]⟩

lemma exists_memberTokens (m : String × Node) (rest : List (String × Node)) :
    ∃ ts, memberTokens (m :: rest) = .text (some m.1) :: ts := by
  cases rest with
  | nil => exact ⟨_, rfl⟩
  | cons m' rest => exact ⟨_, rfl⟩

lemma namedMembers_some (members : List (String × Node)) :
    namedMembers (members.map fun m => (some m.1, m.2)) = some members := by
  induction members with
  | nil => rfl
  | cons m rest ih => simp [namedMembers, ih]

mutual

/-- Where a value may come, the tokens of a node lead to the end of that node. -/
theorem run?_tokens (n : Node) (stack : List Frame) (more : List Token) :
    Progress.run? ⟨stack, .value⟩ (tokens n ++ more) = Progress.run? ⟨stack, .ended n⟩ more := by
  match n with
  | .seq [] => rfl
  | .seq (m :: rest) =>
    have hitems := run?_itemTokens (m :: rest) (by simp) [] stack more
    obtain ⟨ts, hts⟩ := exists_itemTokens m rest
    rw [hts, List.append_assoc] at hitems
    rw [tokens, List.cons_append, List.cons_append, run?_cons rfl, hts, List.append_assoc,
      List.append_assoc, run?_firstItem_tokens]
    exact hitems
  | .map [] => rfl
  | .map (m :: rest) =>
    have hmembers := run?_memberTokens (m :: rest) (by simp) [] stack more
    obtain ⟨ts, hts⟩ := exists_memberTokens m rest
    rw [hts, List.reverse_nil, List.nil_append, mapNode, namedMembers_some] at hmembers
    rw [tokens, List.cons_append, List.cons_append, run?_cons rfl, hts, List.append_assoc]
    exact hmembers
  | .null => rfl
  | .bool b => rfl
  | .int i => rfl
  | .inexact literal => rfl
  | .str s => rfl
  | .garbled => rfl

/-- The items of a sequence come behind those already read. -/
theorem run?_itemTokens (items : List Node) (hne : items ≠ []) (read : List Node)
    (stack : List Frame) (more : List Token) :
    Progress.run? ⟨.seq read :: stack, .value⟩ (itemTokens items ++ .closeSeq :: more)
      = Progress.run? ⟨stack, .ended (.seq (read.reverse ++ items))⟩ more := by
  match items with
  | [] => exact absurd rfl hne
  | [n] =>
    rw [itemTokens, run?_tokens n, run?_cons rfl]
    simp
  | n :: m :: rest =>
    have htail := run?_itemTokens (m :: rest) (by simp) (n :: read) stack more
    rw [itemTokens, List.append_assoc, run?_tokens n, List.cons_append, run?_cons rfl, htail]
    simp

/-- The members of a map come behind those already read. -/
theorem run?_memberTokens (members : List (String × Node)) (hne : members ≠ [])
    (read : List (Option String × Node)) (stack : List Frame) (more : List Token) :
    Progress.run? ⟨.map read none :: stack, .name⟩ (memberTokens members ++ .closeMap :: more)
      = Progress.run?
          ⟨stack, .ended (mapNode (read.reverse ++ members.map fun m => (some m.1, m.2)))⟩
          more := by
  match members with
  | [] => exact absurd rfl hne
  | [(name, n)] =>
    rw [memberTokens, List.cons_append, List.cons_append, run?_cons rfl, run?_cons rfl,
      run?_tokens n, run?_cons rfl]
    simp
  | (name, n) :: m :: rest =>
    have htail := run?_memberTokens (m :: rest) (by simp) ((some name, n) :: read) stack more
    rw [memberTokens, List.append_assoc, List.cons_append, List.cons_append, run?_cons rfl,
      run?_cons rfl, run?_tokens n, List.cons_append, run?_cons rfl, htail]
    simp

end

/-- The reader makes a node of its tokens. -/
theorem ofTokens?_tokens (n : Node) : ofTokens? (tokens n) = some n := by
  have hrun := run?_tokens n [] []
  rw [List.append_nil] at hrun
  rw [ofTokens?, hrun]
  rfl

/-- What stands for a node is read as that node. -/
theorem read?_of_value {cs : List Char} {n : Node} (h : Value cs n) :
    read? (String.ofList cs) = some n := by
  rw [read?, String.toList_ofList, lex_of_value h, Option.bind_some, ofTokens?_tokens]

/-- A text stands for one node at most. -/
theorem value_unique {cs : List Char} {n m : Node} (hn : Value cs n) (hm : Value cs m) : n = m := by
  have hread := read?_of_value hn
  rw [read?_of_value hm] at hread
  exact (Option.some.inj hread).symm

/-- Reading undoes writing. -/
theorem read?_pretty {n : Node} (h : n.plain = true) : read? (pretty n) = some n :=
  read?_of_value (value_pretty n h 0)

theorem read?_compact {n : Node} (h : n.plain = true) : read? (compact n) = some n :=
  read?_of_value (value_compact n h)

end Convergence.Json
