import Mathlib.Data.List.Nodup
import Convergence.Decoding
import Convergence.Proofs.Json.RoundTrip
/-!
# Reading back what was written

`Node.Holds read n a` says that a node stands for a value: a reader finds exactly that value in it,
it can be written without loss, and it is not taken for a missing one.

A record is written as the map of those of its slots that hold something (`Node.record`).  If no
two slots have one name, the fields of that map are the slots (`fields?_bind`), and each way to
read a field goes on with what was put into its slot (`required_bind`, `optional_bind`,
`defaulted_bind`).  So a record of any number of optional fields is read back by one rewriting for
each field, and not by cases on which of them are there.
-/

namespace Convergence

variable {α β : Type} {read : Node → Option α} {write : α → Node} {a : α}

namespace Node

/-- The node stands for the value. -/
structure Holds (read : Node → Option α) (n : Node) (a : α) : Prop where
  /-- The reader finds the value. -/
  read_eq : read n = some a
  /-- The node can be written without loss. -/
  plain : n.plain = true
  /-- The node is not taken for a missing value. -/
  ne_null : n ≠ .null

/-- The value is found in both JSON texts of the node. -/
lemma Holds.read?_compact {n : Node} (h : Holds read n a) :
    (Json.read? (Json.compact n)).bind read = some a := by
  rw [Json.read?_compact h.plain, Option.bind_some, h.read_eq]

lemma Holds.read?_pretty {n : Node} (h : Holds read n a) :
    (Json.read? (Json.pretty n)).bind read = some a := by
  rw [Json.read?_pretty h.plain, Option.bind_some, h.read_eq]

/-! ## Records -/

/-- The members of those slots that hold something. -/
def present (slots : List (String × Option Node)) : List (String × Node) :=
  slots.filterMap fun s => s.2.map (s.1, ·)

/-- The map of those slots that hold something. -/
def record (slots : List (String × Option Node)) : Node := .map (present slots)

variable {name : String} {slots : List (String × Option Node)}

@[simp] lemma present_nil : present [] = [] := rfl

@[simp] lemma present_cons_none (name : String) (slots : List (String × Option Node)) :
    present ((name, none) :: slots) = present slots := rfl

@[simp] lemma present_cons_some (name : String) (n : Node) (slots : List (String × Option Node)) :
    present ((name, some n) :: slots) = (name, n) :: present slots := rfl

@[simp] lemma present_cons_map (name : String) (write : α → Node) (o : Option α)
    (slots : List (String × Option Node)) :
    present ((name, o.map write) :: slots) = optionalMember name write o ++ present slots := by
  cases o <;> rfl

lemma name_mem_of_mem_present {m : String × Node} (h : m ∈ present slots) :
    m.1 ∈ slots.map Prod.fst := by
  obtain ⟨s, hs, hm⟩ := List.mem_filterMap.1 h
  obtain ⟨n, -, rfl⟩ := Option.map_eq_some_iff.1 hm
  exact List.mem_map_of_mem hs

lemma occurrences_present_of_not_mem (h : name ∉ slots.map Prod.fst) :
    occurrences name (present slots) = 0 := by
  rw [occurrences, List.countP_eq_zero]
  intro m hm heq
  exact h (beq_iff_eq.1 heq ▸ name_mem_of_mem_present hm)

lemma member?_present_of_not_mem (h : name ∉ slots.map Prod.fst) :
    member? (present slots) name = none := by
  have hnone : (present slots).find? (fun m => m.1 == name) = none := by
    rw [List.find?_eq_none]
    intro m hm heq
    exact h (beq_iff_eq.1 heq ▸ name_mem_of_mem_present hm)
  rw [member?, hnone, Option.map_none]

/-- No name is there twice. -/
lemma occurrences_present_le (h : (slots.map Prod.fst).Nodup) (name : String) :
    occurrences name (present slots) ≤ 1 := by
  induction slots with
  | nil => simp [occurrences]
  | cons s rest ih =>
    obtain ⟨n, o⟩ := s
    obtain ⟨hn, hrest⟩ : n ∉ rest.map Prod.fst ∧ (rest.map Prod.fst).Nodup :=
      List.nodup_cons.1 h
    cases o with
    | none => exact ih hrest
    | some v =>
      have hcons : occurrences name (present ((n, some v) :: rest))
          = occurrences name (present rest) + if n == name then 1 else 0 := by
        rw [present_cons_some, occurrences, occurrences, List.countP_cons]
      rw [hcons]
      by_cases heq : n = name
      · simp [occurrences_present_of_not_mem (heq ▸ hn), heq]
      · simpa [heq] using ih hrest

/-- What is under a name is what its slot holds. -/
lemma member?_present (h : (slots.map Prod.fst).Nodup) (name : String) :
    member? (present slots) name = (slots.lookup name).join := by
  induction slots with
  | nil => rfl
  | cons s rest ih =>
    obtain ⟨n, o⟩ := s
    obtain ⟨hn, hrest⟩ : n ∉ rest.map Prod.fst ∧ (rest.map Prod.fst).Nodup :=
      List.nodup_cons.1 h
    by_cases heq : name = n
    · subst heq
      cases o with
      | none => simpa using member?_present_of_not_mem hn
      | some v => simp [member?]
    · have hne : (name == n) = false := beq_eq_false_iff_ne.2 heq
      rw [List.lookup_cons, hne, ← ih hrest]
      cases o with
      | none => rfl
      | some v => simp [member?, Ne.symm heq]

/-- The fields of a record are its slots. -/
lemma fields?_bind {f : Format} {names : List String} (k : Fields → Option β)
    (hnames : names.Nodup) (hslots : slots.map Prod.fst = names) :
    (fields? f names (record slots) >>= k) = k fun name => (slots.lookup name).join := by
  subst hslots
  have honce : (slots.map Prod.fst).all
      (fun name => occurrences name (present slots) ≤ 1) = true := by
    simp [occurrences_present_le hnames]
  rw [record, fields?, if_pos honce, Option.bind_eq_bind, Option.bind_some]
  exact congrArg k (funext (member?_present hnames))

/-- Members under other names in front of a record do not change its fields. -/
lemma exists_fields?_append {names : List String} {others : List (String × Node)} (f : Format)
    (slots : List (String × Option Node)) (hothers : ∀ m ∈ others, m.1 ∉ names)
    (hnames : names.Nodup) (hslots : slots.map Prod.fst = names) :
    ∃ m, fields? f names (.map (others ++ present slots)) = some m
      ∧ ∀ name ∈ names, m name = (slots.lookup name).join := by
  subst hslots
  have hcount : ∀ name ∈ slots.map Prod.fst,
      occurrences name (others ++ present slots) = occurrences name (present slots) := by
    intro name hname
    have hzero : others.countP (fun m => m.1 == name) = 0 := by
      rw [List.countP_eq_zero]
      exact fun m hm heq => hothers m hm (beq_iff_eq.1 heq ▸ hname)
    rw [occurrences, occurrences, List.countP_append, hzero, Nat.zero_add]
  have hmember : ∀ name ∈ slots.map Prod.fst,
      member? (others ++ present slots) name = member? (present slots) name := by
    intro name hname
    have hnone : others.find? (fun m => m.1 == name) = none := by
      rw [List.find?_eq_none]
      exact fun m hm heq => hothers m hm (beq_iff_eq.1 heq ▸ hname)
    rw [member?, member?, List.find?_append, hnone, Option.none_or]
  have honce : (slots.map Prod.fst).all
      (fun name => occurrences name (others ++ present slots) ≤ 1) = true := by
    simp only [List.all_eq_true, decide_eq_true_eq]
    intro name hname
    rw [hcount name hname]
    exact occurrences_present_le hnames name
  refine ⟨_, by rw [fields?, if_pos honce], fun name hname => ?_⟩
  rw [hmember name hname, member?_present hnames]

/-- A record that is read back holds its value, if each of its slots can be written without loss. -/
lemma holds_record (hread : read (record slots) = some a)
    (hplain : ∀ s ∈ slots, ∀ n ∈ s.2, n.plain = true) : Holds read (record slots) a := by
  refine ⟨hread, ?_, Node.noConfusion⟩
  rw [record, plain]
  clear hread
  induction slots with
  | nil => rfl
  | cons s rest ih =>
    obtain ⟨name, o⟩ := s
    have hrest := ih fun s hs => hplain s (List.mem_cons_of_mem _ hs)
    cases o with
    | none => exact hrest
    | some n =>
      have hn : n.plain = true := hplain (name, some n) List.mem_cons_self n rfl
      simp [plainMembers, hn, hrest]

end Node

/-! ## Fields -/

namespace Fields

open Node

variable {m : Fields} {name : String} {n : Node}

lemma required_bind (k : α → Option β) (h : Holds read n a) (hm : m name = some n) :
    (m.required name read >>= k) = k a := by
  rw [required, hm, Option.bind_some, h.read_eq, Option.bind_eq_bind, Option.bind_some]

lemma defaulted_bind {default : α} (k : α → Option β) (h : Holds read n a)
    (hm : m name = some n) : (m.defaulted name default read >>= k) = k a := by
  rw [defaulted, hm]
  simp only [h.read_eq, Option.bind_eq_bind, Option.bind_some]

/-- A field that may be left out if it has its default value. -/
lemma defaulted_bind_getD {default : α} {o : Option α} (k : α → Option β)
    (h : ∀ a, Holds read (write a) a) (hm : m name = o.map write) :
    (m.defaulted name default read >>= k) = k (o.getD default) := by
  cases o with
  | none =>
    rw [defaulted, hm]
    rfl
  | some a => exact defaulted_bind k (h a) hm

lemma optional_bind {o : Option α} (k : Option α → Option β) (h : ∀ a, Holds read (write a) a)
    (hm : m name = o.map write) : (m.optional name read >>= k) = k o := by
  cases o with
  | none =>
    rw [optional, hm, Option.map_none]
    rfl
  | some a =>
    rw [optional, hm, Option.map_some]
    split
    · next hnone => cases hnone
    · next hnull => exact absurd (Option.some.inj hnull) (h a).ne_null
    · next n _ heq =>
      rw [← Option.some.inj heq, (h a).read_eq]
      rfl

end Fields

end Convergence
