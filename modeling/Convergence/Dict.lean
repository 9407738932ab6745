/-!
# Dictionaries in key order

A `Dict` holds values under text keys, each key once, in ascending order of the keys.  The order
is by code point, which for UTF-8 text is also the order by bytes.  Because the order is part of
the type, two dictionaries with the same entries are equal (`Dict.ext_entries`), and a listing of
the entries never needs sorting.

The main statements are the equations of `find?` for each operation: `find?_insert_self`,
`find?_insert_of_ne`, `find?_erase_self` and `find?_erase_of_ne`.
-/

namespace Convergence

/-- Values under text keys, each key once, in ascending order of the keys. -/
structure Dict (β : Type) where
  /-- The entries, smallest key first. -/
  entries : List (String × β) := []
  /-- Every key is smaller than all that follow it. -/
  ascending : entries.Pairwise (fun a b => a.1 < b.1) := by simp
deriving Repr, DecidableEq

namespace Dict

variable {β γ : Type}

/-- The dictionary without entries. -/
def empty : Dict β := {}

instance : Inhabited (Dict β) := ⟨empty⟩

instance : EmptyCollection (Dict β) := ⟨empty⟩

/-- Dictionaries with the same entries are the same. -/
theorem ext_entries {d e : Dict β} (h : d.entries = e.entries) : d = e := by
  cases d; cases e; simp_all

/-- Places an entry into a listing in key order, in place of an entry under the same key. -/
def insertEntry (key : String) (value : β) : List (String × β) → List (String × β)
  | [] => [(key, value)]
  | e :: rest =>
    if key < e.1 then (key, value) :: e :: rest
    else if key = e.1 then (key, value) :: rest
    else e :: insertEntry key value rest

theorem mem_insertEntry {key : String} {value : β} {l : List (String × β)} {x : String × β}
    (h : x ∈ insertEntry key value l) : x = (key, value) ∨ x ∈ l := by
  induction l with
  | nil => simpa [insertEntry] using h
  | cons e rest ih =>
    unfold insertEntry at h
    split at h
    · simpa using h
    · split at h
      · simp at h ⊢; rcases h with h | h <;> simp [h]
      · rcases List.mem_cons.1 h with h | h
        · exact Or.inr (h ▸ List.mem_cons_self)
        · exact (ih h).imp_right (List.mem_cons_of_mem _)

theorem pairwise_insertEntry {key : String} {value : β} {l : List (String × β)}
    (h : l.Pairwise (fun a b => a.1 < b.1)) :
    (insertEntry key value l).Pairwise (fun a b => a.1 < b.1) := by
  induction l with
  | nil => simp [insertEntry]
  | cons e rest ih =>
    have hr := List.pairwise_cons.1 h
    unfold insertEntry
    split
    · next hlt =>
      refine List.pairwise_cons.2 ⟨fun x hx => ?_, h⟩
      rcases List.mem_cons.1 hx with rfl | hx
      · exact hlt
      · exact String.lt_trans hlt (hr.1 x hx)
    · split
      · next heq =>
        exact List.pairwise_cons.2 ⟨fun x hx => by simpa [heq] using hr.1 x hx, hr.2⟩
      · next hlt hne =>
        refine List.pairwise_cons.2 ⟨fun x hx => ?_, ih hr.2⟩
        rcases mem_insertEntry hx with rfl | hx
        · rcases Std.lt_trichotomy e.1 key with h | h | h
          · exact h
          · exact absurd h.symm hne
          · exact absurd h hlt
        · exact hr.1 x hx

/-- Files a value under a key, in place of the value the key had. -/
def insert (d : Dict β) (key : String) (value : β) : Dict β :=
  ⟨insertEntry key value d.entries, pairwise_insertEntry d.ascending⟩

/-- Removes the entry under a key, if there is one. -/
def erase (d : Dict β) (key : String) : Dict β :=
  ⟨d.entries.filter (fun e => e.1 ≠ key), d.ascending.filter _⟩

/-- The value under a key. -/
def find? (d : Dict β) (key : String) : Option β :=
  (d.entries.find? (fun e => e.1 == key)).map (·.2)

/-- The dictionary has an entry under the key. -/
def contains (d : Dict β) (key : String) : Bool := (d.find? key).isSome

/-- The keys, ascending. -/
def keys (d : Dict β) : List String := d.entries.map (·.1)

/-- The values, in the order of their keys. -/
def values (d : Dict β) : List β := d.entries.map (·.2)

/-- The number of entries. -/
def size (d : Dict β) : Nat := d.entries.length

/-- The dictionary of a list of entries; of entries under one key the last counts. -/
def ofList (l : List (String × β)) : Dict β := l.foldl (fun d e => d.insert e.1 e.2) empty

/-- Files every entry of the second dictionary in the first. -/
def union (d e : Dict β) : Dict β := e.entries.foldl (fun d x => d.insert x.1 x.2) d

/-! ## What each operation does to `find?` -/

@[simp] theorem find?_empty (key : String) : (empty : Dict β).find? key = none := rfl

theorem find?_insertEntry_self (key : String) (value : β) (l : List (String × β)) :
    (insertEntry key value l).find? (fun e => e.1 == key) = some (key, value) := by
  induction l with
  | nil => simp [insertEntry]
  | cons e rest ih =>
    unfold insertEntry
    split
    · simp
    · split
      · simp
      · next hne => simp [Ne.symm hne, ih]

theorem find?_insertEntry_of_ne {key other : String} (value : β) (l : List (String × β))
    (h : other ≠ key) :
    (insertEntry key value l).find? (fun e => e.1 == other)
      = l.find? (fun e => e.1 == other) := by
  induction l with
  | nil => simp [insertEntry, Ne.symm h]
  | cons e rest ih =>
    unfold insertEntry
    split
    · simp [Ne.symm h]
    · split
      · next heq =>
        have : (e.1 == other) = false := by simpa [← heq] using Ne.symm h
        simp [Ne.symm h, this]
      · simp [List.find?_cons, ih]

@[simp] theorem find?_insert_self (d : Dict β) (key : String) (value : β) :
    (d.insert key value).find? key = some value := by
  simp [find?, insert, find?_insertEntry_self]

theorem find?_insert_of_ne (d : Dict β) {key other : String} (value : β) (h : other ≠ key) :
    (d.insert key value).find? other = d.find? other := by
  simp [find?, insert, find?_insertEntry_of_ne value _ h]

theorem find?_insert (d : Dict β) (key other : String) (value : β) :
    (d.insert key value).find? other = if other = key then some value else d.find? other := by
  split
  · next h => rw [h, find?_insert_self]
  · next h => exact d.find?_insert_of_ne value h

@[simp] theorem find?_erase_self (d : Dict β) (key : String) : (d.erase key).find? key = none := by
  simp [find?, erase]

theorem find?_erase_of_ne (d : Dict β) {key other : String} (h : other ≠ key) :
    (d.erase key).find? other = d.find? other := by
  unfold find? erase
  rw [List.find?_filter]
  congr 2
  funext e
  by_cases he : e.1 = other
  · simp [he, h]
  · simp [he]

end Dict

end Convergence
