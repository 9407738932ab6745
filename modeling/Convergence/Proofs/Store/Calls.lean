import Mathlib.Tactic.Lemma
import Convergence.Store.Store
/-!
# What the calls of the store do to its records

Only `create`, `update` and `delete` change a record, only the one they are about, and only if they
succeed.  `Write` is any of the three, as a client of the store calls it.

A store is `Keyed` if every record is filed under its own id; all calls keep it so.
-/

namespace Convergence

namespace Store

variable {s : Store} {id : IntegrationId}

/-! ## Announcements and faults -/

@[simp] lemma records_announce (s : Store) (action : ChangeAction) (id : IntegrationId) :
    (s.announce action id).records = s.records := by
  rw [announce]
  split <;> rfl

@[simp] lemma faults_announce (s : Store) (action : ChangeAction) (id : IntegrationId) :
    (s.announce action id).faults = s.faults := by
  rw [announce]
  split <;> rfl

@[simp] lemma records_failNext (s : Store) (call : StoreCall) (times : Nat) :
    (s.failNext call times).records = s.records := rfl

/-- A call fails and uses up a fault, or goes through and the store is as before. -/
lemma enter_cases (s : Store) (call : StoreCall) :
    (∃ n, s.faults call = n + 1 ∧ s.enter call = (some (faultOf call), s.failNext call n)) ∨
      s.faults call = 0 ∧ s.enter call = (none, s) := by
  rw [enter]
  cases h : s.faults call with
  | zero => exact Or.inr ⟨rfl, rfl⟩
  | succ n => exact Or.inl ⟨n, rfl, rfl⟩

lemma faults_failNext_le {call : StoreCall} {n : Nat} (h : s.faults call = n + 1) (c : StoreCall) :
    (s.failNext call n).faults c ≤ s.faults c := by
  by_cases hc : c = call
  · subst hc
    simp [failNext, h]
  · simp [failNext, hc]

/-! ## Reading -/

@[simp] lemma records_fetch (s : Store) (id : IntegrationId) :
    (s.fetch id).2.records = s.records := by
  rcases s.enter_cases .fetch with ⟨n, _, h⟩ | ⟨_, h⟩ <;> simp [fetch, h]

@[simp] lemma records_fetchAll (s : Store) : s.fetchAll.2.records = s.records := by
  rcases s.enter_cases .fetchAll with ⟨n, _, h⟩ | ⟨_, h⟩ <;> simp [fetchAll, h]

@[simp] lemma record?_fetch (s : Store) (id other : IntegrationId) :
    (s.fetch id).2.record? other = s.record? other := by
  simp [record?]

lemma faults_fetch_le (s : Store) (id : IntegrationId) (c : StoreCall) :
    (s.fetch id).2.faults c ≤ s.faults c := by
  rcases s.enter_cases .fetch with ⟨n, hn, h⟩ | ⟨_, h⟩
  · simpa [fetch, h] using faults_failNext_le hn c
  · simp [fetch, h]

/-- What is read is what is stored. -/
lemma fetch_eq_ok {r : Option Integration} (hr : (s.fetch id).1 = .ok r) : r = s.record? id := by
  rcases s.enter_cases .fetch with ⟨n, _, h⟩ | ⟨_, h⟩
  · simp [fetch, h] at hr
  · simpa [fetch, h] using hr.symm

lemma record?_of_fetch {s' : Store} {r : Option Integration} (h : s.fetch id = (.ok r, s')) :
    s'.record? id = r := by
  have hr : r = s.record? id := fetch_eq_ok (by rw [h])
  have hsame := s.record?_fetch id id
  rw [h] at hsame
  exact hsame.trans hr.symm

lemma fetch_of_faults_eq_zero (h : s.faults .fetch = 0) (id : IntegrationId) :
    s.fetch id = (.ok (s.record? id), s) := by
  simp [fetch, enter, h]

/-- A read that is to fail is answered with a failure. -/
lemma fetch_of_faults_ne_zero (h : s.faults .fetch ≠ 0) (id : IntegrationId) :
    s.fetch id = (.error (faultOf .fetch), (s.fetch id).2) := by
  rcases s.enter_cases .fetch with ⟨n, -, henter⟩ | ⟨hzero, -⟩
  · simp [fetch, henter]
  · exact absurd hzero h

lemma fetchAll_of_faults_eq_zero (h : s.faults .fetchAll = 0) :
    s.fetchAll = (.ok s.records.values, s) := by
  simp [fetchAll, enter, h]

lemma mem_values_of_record? {i : Integration} (h : s.record? id = some i) :
    i ∈ s.records.values := by
  obtain ⟨e, he, rfl⟩ := Option.map_eq_some_iff.1 h
  exact List.mem_map.2 ⟨e, List.mem_of_find?_eq_some he, rfl⟩

/-! ## Records under their ids -/

/-- Every record is filed under its own id. -/
def Keyed (s : Store) : Prop := ∀ id i, s.record? id = some i → i.id = id

lemma Keyed.congr {s' : Store} (h : s.Keyed) (hr : s'.records = s.records) : s'.Keyed := by
  intro id i hi
  refine h id i ?_
  simpa [record?, hr] using hi

/-- A record is filed under its id. -/
lemma keyed_insert (h : s.Keyed) (i : Integration) :
    ({ s with records := s.records.insert i.id i } : Store).Keyed := by
  intro id j hj
  rw [record?, Dict.find?_insert] at hj
  split at hj
  · next hid =>
    cases hj
    exact hid.symm
  · exact h id j hj

/-- A store with one record. -/
lemma keyed_singleton (i : Integration) :
    ({ records := Dict.empty.insert i.id i } : Store).Keyed :=
  keyed_insert (s := {}) (fun _ _ hj => by cases hj) i

/-! ## Writing -/

lemma create_cases (s : Store) (i : Integration) :
    ((s.create i).1.isOk = false ∧ (s.create i).2.records = s.records) ∨
      ((s.create i).1 = .ok i ∧ s.record? i.id = none ∧
        (s.create i).2.records = s.records.insert i.id i) := by
  rcases s.enter_cases .create with ⟨n, _, h⟩ | ⟨_, h⟩
  · exact Or.inl (by simp [create, h, Except.isOk, Except.toBool])
  · by_cases hthere : s.records.contains i.id = true
    · exact Or.inl (by simp [create, h, hthere, Except.isOk, Except.toBool])
    · refine Or.inr ⟨by simp [create, h, hthere], ?_, by simp [create, h, hthere]⟩
      simpa [Dict.contains, record?] using hthere

lemma update_cases (s : Store) (i : Integration) :
    ((s.update i).1.isOk = false ∧ (s.update i).2.records = s.records) ∨
      ((s.update i).1 = .ok () ∧ (s.record? i.id).isSome = true ∧
        (s.update i).2.records = s.records.insert i.id i) := by
  rcases s.enter_cases .update with ⟨n, _, h⟩ | ⟨_, h⟩
  · exact Or.inl (by simp [update, h, Except.isOk, Except.toBool])
  · by_cases hthere : s.records.contains i.id = true
    · exact Or.inr ⟨by simp [update, h, hthere], by simpa [Dict.contains, record?] using hthere,
        by simp [update, h, hthere]⟩
    · exact Or.inl (by simp [update, h, hthere, Except.isOk, Except.toBool])

lemma update_of_faults_eq_zero {i : Integration} (h : s.faults .update = 0)
    (hthere : (s.record? i.id).isSome = true) :
    s.update i = (.ok (), (s.update i).2) ∧
      (s.update i).2.records = s.records.insert i.id i := by
  have hcontains : s.records.contains i.id = true := hthere
  simp [update, enter, h, hcontains]

/-- A write that is to fail is answered with a failure. -/
lemma update_of_faults_ne_zero (h : s.faults .update ≠ 0) (i : Integration) :
    s.update i = (.error (faultOf .update), (s.update i).2) := by
  rcases s.enter_cases .update with ⟨n, -, henter⟩ | ⟨hzero, -⟩
  · simp [update, henter]
  · exact absurd hzero h

lemma delete_cases (s : Store) (id : IntegrationId) :
    ((s.delete id).1.toOption.getD false = false ∧ (s.delete id).2.records = s.records) ∨
      ((s.delete id).1 = .ok true ∧ (s.record? id).isSome = true ∧
        (s.delete id).2.records = s.records.erase id) := by
  rcases s.enter_cases .delete with ⟨n, _, h⟩ | ⟨_, h⟩
  · exact Or.inl (by simp [delete, h, Except.toOption])
  · by_cases hthere : s.records.contains id = true
    · exact Or.inr ⟨by simp [delete, h, hthere], by simpa [Dict.contains, record?] using hthere,
        by simp [delete, h, hthere]⟩
    · exact Or.inl (by simp [delete, h, hthere, Except.toOption])

end Store

/-- A change of the records by a client of the store. -/
inductive Write where
  | create (i : Integration)
  | update (i : Integration)
  | delete (id : IntegrationId)

namespace Write

/-- The id of the record that is written. -/
def id : Write → IntegrationId
  | .create i => i.id
  | .update i => i.id
  | .delete id => id

/-- Carries out the call; tells whether the record was changed. -/
def run (s : Store) : Write → Bool × Store
  | .create i => ((s.create i).1.isOk, (s.create i).2)
  | .update i => ((s.update i).1.isOk, (s.update i).2)
  | .delete id => ((s.delete id).1.toOption.getD false, (s.delete id).2)

/-- A write leaves all records alone, or puts one in under its id, or takes one out. -/
lemma run_cases (wr : Write) (s : Store) :
    ((wr.run s).1 = false ∧ (wr.run s).2.records = s.records) ∨
      ((wr.run s).1 = true ∧
        ((∃ i : Integration, i.id = wr.id ∧ (wr.run s).2.records = s.records.insert wr.id i) ∨
          (wr.run s).2.records = s.records.erase wr.id)) := by
  cases wr with
  | create i =>
    rcases s.create_cases i with h | ⟨hr, _, hs⟩
    · exact Or.inl h
    · exact Or.inr ⟨by simp [run, hr, Except.isOk, Except.toBool], Or.inl ⟨i, rfl, hs⟩⟩
  | update i =>
    rcases s.update_cases i with h | ⟨hr, _, hs⟩
    · exact Or.inl h
    · exact Or.inr ⟨by simp [run, hr, Except.isOk, Except.toBool], Or.inl ⟨i, rfl, hs⟩⟩
  | delete i =>
    rcases s.delete_cases i with h | ⟨hr, _, hs⟩
    · exact Or.inl h
    · exact Or.inr ⟨by simp [run, hr, Except.toOption], Or.inr hs⟩

/-- The other records stay as they are. -/
lemma record?_run_of_ne (wr : Write) (s : Store) {other : IntegrationId} (h : other ≠ wr.id) :
    (wr.run s).2.record? other = s.record? other := by
  show (wr.run s).2.records.find? other = s.records.find? other
  rcases wr.run_cases s with ⟨_, hs⟩ | ⟨_, ⟨i, _, hs⟩ | hs⟩
  · rw [hs]
  · rw [hs, Dict.find?_insert_of_ne _ _ h]
  · rw [hs, Dict.find?_erase_of_ne _ h]

/-- What a write that changes a record leaves under its id. -/
def outcome : Write → Option Integration
  | .create i => some i
  | .update i => some i
  | .delete _ => none

lemma record?_run (wr : Write) (s : Store) :
    (wr.run s).2.record? wr.id = if (wr.run s).1 then wr.outcome else s.record? wr.id := by
  cases wr with
  | create i =>
    rcases s.create_cases i with ⟨hr, hs⟩ | ⟨hr, _, hs⟩
    · simp [run, hr, id, Store.record?, hs]
    · simp [run, hr, Except.isOk, Except.toBool, id, outcome, Store.record?, hs]
  | update i =>
    rcases s.update_cases i with ⟨hr, hs⟩ | ⟨hr, _, hs⟩
    · simp [run, hr, id, Store.record?, hs]
    · simp [run, hr, Except.isOk, Except.toBool, id, outcome, Store.record?, hs]
  | delete id =>
    rcases s.delete_cases id with ⟨hr, hs⟩ | ⟨hr, _, hs⟩
    · simp [run, hr, Write.id, Store.record?, hs]
    · simp [run, hr, Except.toOption, Write.id, outcome, Store.record?, hs]

lemma keyed_run (wr : Write) {s : Store} (h : s.Keyed) : (wr.run s).2.Keyed := by
  intro id i hi
  by_cases hid : id = wr.id
  · subst hid
    rcases wr.run_cases s with ⟨_, hs⟩ | ⟨_, ⟨j, hj, hs⟩ | hs⟩
    · exact h.congr hs wr.id i hi
    · have : j = i := by simpa [Store.record?, hs] using hi
      rw [← this, hj]
    · simp [Store.record?, hs] at hi
  · exact h id i (wr.record?_run_of_ne s hid ▸ hi)

lemma faults_run_le (wr : Write) (s : Store) (c : StoreCall) :
    (wr.run s).2.faults c ≤ s.faults c := by
  cases wr with
  | create i =>
    rcases s.enter_cases .create with ⟨n, hn, h⟩ | ⟨_, h⟩
    · simpa [run, Store.create, h] using Store.faults_failNext_le hn c
    · simp only [run, Store.create, h]
      split <;> simp
  | update i =>
    rcases s.enter_cases .update with ⟨n, hn, h⟩ | ⟨_, h⟩
    · simpa [run, Store.update, h] using Store.faults_failNext_le hn c
    · simp only [run, Store.update, h]
      split <;> simp
  | delete id =>
    rcases s.enter_cases .delete with ⟨n, hn, h⟩ | ⟨_, h⟩
    · simpa [run, Store.delete, h] using Store.faults_failNext_le hn c
    · simp only [run, Store.delete, h]
      split <;> simp

/-- Carries out calls, one after another. -/
def runAll (s : Store) (writes : List Write) : Store := writes.foldl (fun s wr => (wr.run s).2) s

/-- What writes of an id leave there: what the last one left that changed the record, or what was
found. -/
def left (s : Store) (found : Option Integration) : List Write → Option Integration
  | [] => found
  | wr :: rest => left (wr.run s).2 (if (wr.run s).1 then wr.outcome else found) rest

lemma record?_runAll {id : IntegrationId} {writes : List Write} (h : ∀ wr ∈ writes, wr.id = id)
    (s : Store) : (runAll s writes).record? id = left s (s.record? id) writes := by
  induction writes generalizing s with
  | nil => rfl
  | cons wr rest ih =>
    have hid : wr.id = id := h wr List.mem_cons_self
    have hrest := ih (fun wr' h' => h wr' (List.mem_cons_of_mem wr h')) (wr.run s).2
    rw [runAll, List.foldl_cons, ← runAll, hrest, ← hid, wr.record?_run s, left]

lemma keyed_runAll (writes : List Write) {s : Store} (h : s.Keyed) : (runAll s writes).Keyed := by
  induction writes generalizing s with
  | nil => exact h
  | cons wr rest ih => exact ih (wr.keyed_run h)

end Write

end Convergence
