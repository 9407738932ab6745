import Convergence.Proofs.Record.Operations
import Convergence.Proofs.Store.Calls
import Convergence.Reconcile.Worker
/-!
# What the worker writes into a record

At the end of a dispatch the worker writes the report of the handler, or an error, into the record
as it then is.  Whatever the handler did, such a write touches no other record, brings no record
back that is gone, and leaves alone what belongs to the owner of the record (`amends_settle`).
-/

namespace Convergence

/-! ## Stores in which one record was amended -/

/-- The second store has the records of the first, but the one of this id may differ in what does
not belong to its owner. -/
structure Store.Amends (id : IntegrationId) (s s' : Store) : Prop where
  others : ∀ other, other ≠ id → s'.record? other = s.record? other
  gone : s.record? id = none → s'.record? id = none
  own : ∀ i, s.record? id = some i → ∃ j, s'.record? id = some j ∧ i.SameOwn j
  faults : ∀ c, s'.faults c ≤ s.faults c

namespace Store

variable {id : IntegrationId} {s s' : Store}

namespace Amends

/-- No record was amended. -/
lemma of_records (hr : s'.records = s.records) (hf : ∀ c, s'.faults c ≤ s.faults c) :
    Amends id s s' := by
  have hsame : ∀ other, s'.record? other = s.record? other := fun other => by simp [record?, hr]
  exact ⟨fun other _ => hsame other, fun h => (hsame id).trans h,
    fun i hi => ⟨i, (hsame id).trans hi, .refl i⟩, hf⟩

lemma refl (id : IntegrationId) (s : Store) : Amends id s s :=
  of_records rfl fun _ => Nat.le_refl _

lemma trans {s'' : Store} (h : Amends id s s') (h' : Amends id s' s'') : Amends id s s'' where
  others := fun other hne => (h'.others other hne).trans (h.others other hne)
  gone := fun hg => h'.gone (h.gone hg)
  own := by
    intro i hi
    obtain ⟨j, hj, hij⟩ := h.own i hi
    obtain ⟨k, hk, hjk⟩ := h'.own j hj
    exact ⟨k, hk, hij.trans hjk⟩
  faults := fun c => Nat.le_trans (h'.faults c) (h.faults c)

lemma keyed (h : Amends id s s') (hs : s.Keyed) : s'.Keyed := by
  intro other i hi
  by_cases hne : other = id
  · subst hne
    cases hold : s.record? other with
    | none => simp [h.gone hold] at hi
    | some j =>
      obtain ⟨k, hk, hjk⟩ := h.own j hold
      obtain rfl : k = i := by simpa [hk] using hi
      rw [hjk.id, hs other j hold]
  · exact hs other i (h.others other hne ▸ hi)

/-- The state wanted of an integration is the same. -/
lemma desired (h : Amends id s s') {other : IntegrationId} {j : Integration}
    (hj : s'.record? other = some j) :
    ∃ i, s.record? other = some i ∧ i.desired = j.desired := by
  by_cases hne : other = id
  · subst hne
    cases hold : s.record? other with
    | none => simp [h.gone hold] at hj
    | some i =>
      obtain ⟨k, hk, hik⟩ := h.own i hold
      obtain rfl : k = j := by simpa [hk] using hj
      exact ⟨i, rfl, hik.desired.symm⟩
  · exact ⟨j, h.others other hne ▸ hj, rfl⟩

end Amends

lemma amends_fetch (s : Store) (id id' : IntegrationId) : Amends id s (s.fetch id').2 :=
  .of_records (s.records_fetch id') (s.faults_fetch_le id')

lemma amends_update {i j : Integration} (hi : s.record? id = some i) (hid : i.id = id)
    (h : i.SameOwn j) : Amends id s (s.update j).2 := by
  have hf : ∀ c, (s.update j).2.faults c ≤ s.faults c := (Write.update j).faults_run_le s
  rcases s.update_cases j with ⟨_, hr⟩ | ⟨_, _, hr⟩
  · exact .of_records hr hf
  · have hj : j.id = id := h.id.trans hid
    refine ⟨fun other hne => ?_, fun hg => ?_, fun i' hi' => ?_, hf⟩
    · simpa [record?, hr, hj] using Dict.find?_insert_of_ne _ _ hne
    · rw [hi] at hg
      cases hg
    · obtain rfl : i = i' := by simpa [hi] using hi'
      exact ⟨j, by simp [record?, hr, hj], h⟩

/-- The second store is what calls make of the first that read the record of this id, or write it
with what belongs to its owner as it was. -/
inductive Tends (id : IntegrationId) (s : Store) : Store → Prop where
  | refl : Tends id s s
  | fetch {s' : Store} (h : Tends id s s') : Tends id s (s'.fetch id).2
  | update {s' : Store} {i j : Integration} (h : Tends id s s') (hi : s'.record? id = some i)
      (hown : i.SameOwn j) : Tends id s (s'.update j).2

/-- Such calls amend no record but this one. -/
lemma Tends.amends (hk : s.Keyed) (h : Tends id s s') : Amends id s s' := by
  induction h with
  | refl => exact .refl id s
  | fetch _ ih => exact ih.trans (amends_fetch _ id id)
  | update _ hi hown ih => exact ih.trans (amends_update hi (ih.keyed hk id _ hi) hown)

end Store

/-! ## The writes of a dispatch -/

namespace Worker

open Store (Amends Tends)

variable {store : Store} {clock : Timestamp} {id : IntegrationId}

lemma tends_apply (store : Store) (clock : Timestamp) (id : IntegrationId) (u : StatusUpdate) :
    Tends id store (apply store clock id u).2 := by
  have hfetch : Tends id store (store.fetch id).2 := .fetch .refl
  rw [apply]
  split
  · next h => simpa [h] using hfetch
  · next h => simpa [h] using hfetch
  · next i s h =>
    have hs : Tends id store s := by simpa [h] using hfetch
    split
    · exact hs
    · next j hj =>
      have hupdate := hs.update (Store.record?_of_fetch h) (Integration.sameOwn_applyUpdate hj)
      split <;> next h' => simpa [h'] using hupdate

lemma tends_recordError {s : Store} (h : Tends id store s) (clock : Timestamp)
    (e : ReconcileError) : Tends id store (recordError s clock id e) := by
  have hfetch := h.fetch
  rw [recordError]
  split
  · next i s' h' =>
    have hs' : Tends id store s' := by simpa [h'] using hfetch
    exact hs'.update (Store.record?_of_fetch h')
      (Integration.sameOwn_recordFailure i ("Error: " ++ e.message) clock)
  · next h' => simpa [h'] using hfetch

lemma tends_verdict (store : Store) (clock : Timestamp) (id : IntegrationId) (o : Outcome) :
    Tends id store (verdict store clock id o).2 := by
  cases o with
  | report u => exact tends_apply store clock id u
  | nothing => exact .refl
  | failed e => exact .refl
  | crashed => exact .refl

/-- What is left of a dispatch when its handler has ended: whether the attempt failed or what went
wrong, and the store with all that was written. -/
def settle (store : Store) (clock : Timestamp) (id : IntegrationId) (o : Outcome) :
    Except ReconcileError Bool × Store :=
  match verdict store clock id o with
  | (.ok failed, store) => (.ok failed, store)
  | (.error e, store) => (.error e, recordError store clock id e)

/-- The end of a dispatch reads its record and writes it, and calls the store for nothing else. -/
theorem tends_settle (store : Store) (clock : Timestamp) (id : IntegrationId) (o : Outcome) :
    Tends id store (settle store clock id o).2 := by
  have hverdict := tends_verdict store clock id o
  rw [settle]
  split
  · next h => simpa [h] using hverdict
  · next e s h =>
    have hs : Tends id store s := by simpa [h] using hverdict
    exact tends_recordError hs clock e

/-- The end of a dispatch amends no record but its own. -/
theorem amends_settle (hk : store.Keyed) (clock : Timestamp) (id : IntegrationId) (o : Outcome) :
    Amends id store (settle store clock id o).2 :=
  (tends_settle store clock id o).amends hk

lemma amends_of_settle (hk : store.Keyed) {o : Outcome} {r : Except ReconcileError Bool}
    {settled : Store} (h : settle store clock id o = (r, settled)) : Amends id store settled := by
  have hamends := amends_settle hk clock id o
  rwa [h] at hamends

/-! ## What is written -/

variable {i j : Integration} {u : StatusUpdate} {o : Outcome}

/-- A record that is written anew is the one written, or the one that was there. -/
lemma record?_update (hid : j.id = id) {k : Integration}
    (hk : (store.update j).2.record? id = some k) : k = j ∨ store.record? id = some k := by
  rcases store.update_cases j with ⟨_, hr⟩ | ⟨_, _, hr⟩
  · exact Or.inr (by simpa [Store.record?, hr] using hk)
  · refine Or.inl ?_
    have hjk : j = k := by simpa [Store.record?, hr, hid] using hk
    exact hjk.symm

/-- A report is taken over entirely or not at all, and an attempt to do so that fails leaves the
record as it was. -/
lemma record?_apply (hi : store.record? id = some i) (hid : i.id = id)
    (hj : (apply store clock id u).2.record? id = some j) :
    j = i ∨ ((apply store clock id u).1 = .ok u.failed ∧ i.applyUpdate u clock = .ok j) := by
  have hsame : (store.fetch id).2.record? id = some i := by simpa using hi
  rw [apply] at hj ⊢
  split at hj
  · next h =>
    obtain rfl : i = j := by simpa [h, hj] using hsame.symm
    exact Or.inl rfl
  · next h =>
    obtain rfl : i = j := by simpa [h, hj] using hsame.symm
    exact Or.inl rfl
  · next i' s h =>
    have hs : s.record? id = some i := by simpa [h] using hsame
    obtain rfl : i' = i := by simpa [Store.record?_of_fetch h] using hs
    split at hj
    · -- the report cannot be taken over
      obtain rfl : i' = j := by simpa [hs] using hj
      exact Or.inl rfl
    · next k hk =>
      have hkid : k.id = id := (Integration.sameOwn_applyUpdate hk).id.trans hid
      have hupdate : (s.update k).2.record? id = some j := by
        split at hj <;> next h' => rwa [h']
      rcases s.update_cases k with ⟨_, hr⟩ | ⟨hok, -, hr⟩
      · -- the store does not take it
        rw [Store.record?, hr, ← Store.record?, hs] at hupdate
        exact Or.inl (Option.some.inj hupdate).symm
      · obtain rfl : k = j := by simpa [Store.record?, hr, hkid] using hupdate
        refine Or.inr ⟨?_, hk⟩
        split <;> next h' => simp_all

/-- An error is noted if the record can be read and written, and else the record stays as it is. -/
lemma record?_recordError_eq (hi : store.record? id = some i) (hid : i.id = id)
    (clock : Timestamp) (e : ReconcileError) : (recordError store clock id e).record? id =
      some (if store.faults .fetch = 0 ∧ store.faults .update = 0 then
        i.recordFailure ("Error: " ++ e.message) clock else i) := by
  by_cases hf : store.faults .fetch = 0
  · rw [recordError, Store.fetch_of_faults_eq_zero hf, hi]
    have hnoted : (i.recordFailure ("Error: " ++ e.message) clock).id = id := hid
    by_cases hu : store.faults .update = 0
    · obtain ⟨-, hrecords⟩ := Store.update_of_faults_eq_zero hu
        (i := i.recordFailure ("Error: " ++ e.message) clock) (by rw [hnoted, hi]; rfl)
      rw [if_pos ⟨hf, hu⟩, Store.record?, hrecords, hnoted, Dict.find?_insert_self]
    · have hfailed := Store.update_of_faults_ne_zero hu
        (i.recordFailure ("Error: " ++ e.message) clock)
      rw [if_neg fun h => hu h.2]
      rcases store.update_cases (i.recordFailure ("Error: " ++ e.message) clock)
        with ⟨-, hrecords⟩ | ⟨hok, -, -⟩
      · rw [Store.record?, hrecords, ← Store.record?, hi]
      · rw [hfailed] at hok
        cases hok
  · rw [recordError, Store.fetch_of_faults_ne_zero hf, if_neg fun h => hf h.1]
    simpa using hi

lemma record?_recordError {e : ReconcileError} (hi : store.record? id = some i)
    (hid : i.id = id) (hj : (recordError store clock id e).record? id = some j) :
    j = i ∨ j = i.recordFailure ("Error: " ++ e.message) clock := by
  rw [record?_recordError_eq hi hid] at hj
  split at hj
  · exact Or.inr (Option.some.inj hj).symm
  · exact Or.inl (Option.some.inj hj).symm

/-- At the end of a dispatch the record is as it was, or it has taken over the report of the
handler, or an error is noted on it. -/
theorem record?_settle (hk : store.Keyed) (hi : store.record? id = some i)
    (hj : (settle store clock id o).2.record? id = some j) :
    j = i ∨ (∃ u, o = .report u ∧ i.applyUpdate u clock = .ok j) ∨
      ∃ message, j = i.recordFailure message clock := by
  have hid : i.id = id := hk id i hi
  have hverdict : ∀ j, (verdict store clock id o).2.record? id = some j → j = i ∨
      ((verdict store clock id o).1.isOk = true ∧ ∃ u, o = .report u ∧
        i.applyUpdate u clock = .ok j) := by
    intro j hj
    cases o with
    | report u =>
      rcases record?_apply hi hid hj with rfl | ⟨hok, happly⟩
      · exact Or.inl rfl
      · exact Or.inr ⟨by simp [verdict, hok, Except.isOk, Except.toBool], u, rfl, happly⟩
    | nothing => exact Or.inl (by simp_all [verdict])
    | failed e => exact Or.inl (by simp_all [verdict])
    | crashed => exact Or.inl (by simp_all [verdict])
  have hamends := (tends_verdict store clock id o).amends hk
  rw [settle] at hj
  split at hj
  · next h =>
    exact (hverdict j (by rwa [h])).imp_right fun hreport => Or.inl hreport.2
  · next e s h =>
    -- what went wrong is noted on the record as the verdict left it, which is as it was
    rw [h] at hverdict hamends
    obtain ⟨k, hsk, -⟩ := hamends.own i hi
    rcases hverdict k hsk with rfl | ⟨hok, -⟩
    · rcases record?_recordError hsk hid hj with rfl | hnoted
      · exact Or.inl rfl
      · exact Or.inr (Or.inr ⟨_, hnoted⟩)
    · simp [Except.isOk, Except.toBool] at hok

/-! ## The observed state -/

lemma current_applyUpdate {now : Timestamp} (h : i.applyUpdate u now = .ok j) :
    j.current = some u.state := by
  obtain ⟨k, -, rfl⟩ := Integration.applyUpdate_eq_ok h
  rfl

/-- The observed state changes at the end of a dispatch only to the one that the handler reports. -/
theorem current_of_settle (hk : store.Keyed) (hi : store.record? id = some i)
    (hj : (settle store clock id o).2.record? id = some j) :
    j.current = i.current ∨ ∃ u, o = .report u ∧ j.current = some u.state := by
  rcases record?_settle hk hi hj with rfl | ⟨u, ho, happly⟩ | ⟨message, rfl⟩
  · exact Or.inl rfl
  · exact Or.inr ⟨u, ho, current_applyUpdate happly⟩
  · exact Or.inl rfl

/-- A report that the record accepts is written, if the calls of the store go through. -/
lemma apply_of_applyUpdate (hf : store.faults .fetch = 0) (hu : store.faults .update = 0)
    (hi : store.record? id = some i) (hid : i.id = id) (hj : i.applyUpdate u clock = .ok j) :
    apply store clock id u = (.ok u.failed, (store.update j).2) ∧
      (store.update j).2.records = store.records.insert id j := by
  have hjid : j.id = id := (Integration.sameOwn_applyUpdate hj).id.trans hid
  obtain ⟨hok, hrecords⟩ := Store.update_of_faults_eq_zero (s := store) (i := j) hu
    (by rw [hjid, hi]; rfl)
  rw [hjid] at hrecords
  rw [apply, Store.fetch_of_faults_eq_zero hf, hi]
  simp only [hj]
  rw [hok]
  exact ⟨rfl, hrecords⟩

/-- A report that can be taken over is taken over, if the calls of the store go through. -/
lemma settle_of_applyUpdate (hf : store.faults .fetch = 0) (hu : store.faults .update = 0)
    (hi : store.record? id = some i) (hid : i.id = id) (hj : i.applyUpdate u clock = .ok j) :
    (settle store clock id (.report u)).2.record? id = some j := by
  obtain ⟨happly, hrecords⟩ := apply_of_applyUpdate hf hu hi hid hj
  simp [settle, verdict, happly, Store.record?, hrecords]

end Worker

end Convergence
