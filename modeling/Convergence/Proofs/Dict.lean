import Mathlib.Data.List.Induction
import Mathlib.Data.List.Sort
import Mathlib.Tactic.Lemma
import Convergence.Dict
/-!
# Dictionaries, value by value

An entry of a dictionary is what is found under its key (`mem_entries_iff`), so two dictionaries
with the same value under every key are the same (`ext_find?`).

Entries are filed one after another, and of those under one key the last counts
(`find?_foldl_insert_of_mem`).  Filed in the order of a dictionary they make that dictionary again
(`ofList_entries`).
-/

namespace Convergence.Dict

variable {β : Type} {key : String} {value : β}

/-! ## What is found -/

lemma mem_entries_iff (d : Dict β) (x : String × β) : x ∈ d.entries ↔ d.find? x.1 = some x.2 := by
  have hfind : ∀ l : List (String × β), l.Pairwise (fun a b => a.1 < b.1) → x ∈ l →
      l.find? (fun e => e.1 == x.1) = some x := by
    intro l hl hx
    induction l with
    | nil => cases hx
    | cons e rest ih =>
      obtain ⟨hlt, hrest⟩ := List.pairwise_cons.1 hl
      rcases List.mem_cons.1 hx with rfl | hx
      · exact List.find?_cons_of_pos (beq_self_eq_true x.1)
      · have hne : (e.1 == x.1) = false := by simpa using String.ne_of_lt (hlt x hx)
        rw [List.find?_cons, hne]
        exact ih hrest hx
  constructor
  · intro hx
    rw [find?, hfind d.entries d.ascending hx]
    rfl
  · intro hx
    obtain ⟨e, he, hvalue⟩ := Option.map_eq_some_iff.1 hx
    have hkey : e.1 = x.1 := by simpa using List.find?_some he
    have hmem := List.mem_of_find?_eq_some he
    rwa [show e = x from Prod.ext hkey hvalue] at hmem

/-- Dictionaries with the same value under every key are the same. -/
theorem ext_find? {d e : Dict β} (h : ∀ key, d.find? key = e.find? key) : d = e := by
  have : Std.Antisymm fun a b : String × β => a.1 < b.1 :=
    ⟨fun a b hab hba => absurd hba (String.lt_asymm hab)⟩
  have : Std.Irrefl fun a b : String × β => a.1 < b.1 := ⟨fun a => String.lt_irrefl a.1⟩
  refine ext_entries (List.Pairwise.eq_of_mem_iff d.ascending e.ascending fun x => ?_)
  rw [mem_entries_iff, mem_entries_iff, h]

/-! ## Entries filed one after another -/

lemma find?_foldl_insert_of_not_mem {l : List (String × β)} (h : ∀ e ∈ l, e.1 ≠ key)
    (d : Dict β) : (l.foldl (fun d e => d.insert e.1 e.2) d).find? key = d.find? key := by
  induction l generalizing d with
  | nil => rfl
  | cons e rest ih =>
    have he : key ≠ e.1 := (h e List.mem_cons_self).symm
    rw [List.foldl_cons, ih fun x hx => h x (List.mem_cons_of_mem e hx), find?_insert_of_ne _ _ he]

/-- An entry is found if no other value is filed under its key. -/
lemma find?_foldl_insert_of_mem {l : List (String × β)} (h : (key, value) ∈ l)
    (honly : ∀ e ∈ l, e.1 = key → e.2 = value) (d : Dict β) :
    (l.foldl (fun d e => d.insert e.1 e.2) d).find? key = some value := by
  induction l using List.reverseRecOn with
  | nil => cases h
  | append_singleton l e ih =>
    rw [List.foldl_append, List.foldl_cons, List.foldl_nil, find?_insert]
    split
    · next hkey => rw [honly e (by simp) hkey.symm]
    · next hkey =>
      have hmem : (key, value) ∈ l := by
        rcases List.mem_append.1 h with h | h
        · exact h
        · exact absurd (congrArg Prod.fst (List.mem_singleton.1 h)) hkey
      exact ih hmem fun x hx => honly x (List.mem_append_left _ hx)

/-- What the second dictionary has under a key counts. -/
lemma find?_union_of_find? (d : Dict β) {e : Dict β} (h : e.find? key = some value) :
    (d.union e).find? key = some value := by
  refine find?_foldl_insert_of_mem ((e.mem_entries_iff (key, value)).2 h) (fun x hx heq => ?_) d
  have hx := (e.mem_entries_iff x).1 hx
  rw [heq, h] at hx
  exact (Option.some.inj hx).symm

/-- What the second dictionary does not have is as the first one has it. -/
lemma find?_union_of_find?_eq_none (d : Dict β) {e : Dict β} (h : e.find? key = none) :
    (d.union e).find? key = d.find? key := by
  refine find?_foldl_insert_of_not_mem (fun x hx heq => ?_) d
  rw [find?, Option.map_eq_none_iff] at h
  simpa [heq] using List.find?_eq_none.1 h x hx

/-! ## Entries in ascending order -/

lemma insertEntry_of_lt {key : String} (value : β) {l : List (String × β)}
    (h : ∀ e ∈ l, e.1 < key) : insertEntry key value l = l ++ [(key, value)] := by
  induction l with
  | nil => rfl
  | cons e rest ih =>
    have he : e.1 < key := h e List.mem_cons_self
    have hrest := ih fun x hx => h x (List.mem_cons_of_mem e hx)
    have hnlt : ¬ key < e.1 := fun hlt => String.lt_irrefl _ (String.lt_trans hlt he)
    have hne : key ≠ e.1 := fun heq => String.lt_irrefl _ (heq ▸ he)
    rw [insertEntry, if_neg hnlt, if_neg hne, hrest]
    rfl

/-- Entries in ascending order are put behind one another. -/
lemma foldl_insert_of_ascending (l : List (String × β)) (d : Dict β)
    (h : (d.entries ++ l).Pairwise fun a b => a.1 < b.1) :
    (l.foldl (fun d e => d.insert e.1 e.2) d).entries = d.entries ++ l := by
  induction l generalizing d with
  | nil => simp
  | cons e rest ih =>
    have hlast : ∀ x ∈ d.entries, x.1 < e.1 := fun x hx =>
      (List.pairwise_append.1 h).2.2 x hx e List.mem_cons_self
    have hentries : (d.insert e.1 e.2).entries = d.entries ++ [e] := insertEntry_of_lt e.2 hlast
    have hrest := ih (d.insert e.1 e.2) (by simpa [hentries] using h)
    rw [List.foldl_cons, hrest, hentries]
    simp

/-- A dictionary is made again of its entries. -/
lemma ofList_entries (d : Dict β) : ofList d.entries = d := by
  apply ext_entries
  have hentries := foldl_insert_of_ascending d.entries empty (by simpa [empty] using d.ascending)
  simpa [ofList, empty] using hentries

end Convergence.Dict
