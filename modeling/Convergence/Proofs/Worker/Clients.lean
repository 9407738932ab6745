import Convergence.Proofs.Record.History
import Convergence.Proofs.Worker.Dispatch
import Convergence.Proofs.Worker.Timers
/-!
# What other clients write while a handler is at work

A handler works on the record as it was when the dispatch began.  Meanwhile other clients may write
the record, remove it, or put another one in its place.  The end of the dispatch then reads the
record anew, and changes of it only what a handler can report; a revision that other clients wrote
is touched only if the handler promotes its version and it is not active.

The main result is `record?_dispatch_of_writes`.  It holds for every handler, every sequence of
writes, and whatever else happens meanwhile.
-/

namespace Convergence

/-! ## Revisions that are retained -/

/-- Every revision of the first history is in the second, where and as it was.  Only the one at the
place `hole` need not be, if it is of this version and not active. -/
structure RetainsBut (hole : Nat) (v : Version) (before after : List Revision) : Prop where
  others : ∀ (k : Nat) (r : Revision), before[k]? = some r → k ≠ hole → after[k]? = some r
  replaced : ∀ r : Revision, before[hole]? = some r →
    after[hole]? = some r ∨ (r.isImmutable = false ∧ r.version = some v)

lemma RetainsBut.append (hole : Nat) (v : Version) (l m : List Revision) :
    RetainsBut hole v l (l ++ m) := by
  have hkept : ∀ (k : Nat) (r : Revision), l[k]? = some r → (l ++ m)[k]? = some r := by
    intro k r hk
    have hlt : k < l.length := (List.getElem?_eq_some_iff.1 hk).1
    rwa [List.getElem?_append_left hlt]
  exact ⟨fun k r hk _ => hkept k r hk, fun r hr => Or.inl (hkept hole r hr)⟩

namespace Integration

variable {i j : Integration}

lemma retainsBut_promotedHistory {v : Version} {r : Revision} {history : List Revision}
    (h : i.promotedHistory v r = .ok history) :
    ∃ hole, RetainsBut hole v i.revisions history := by
  rcases promotedHistory_eq_ok h with ⟨_, _, _, _, rfl⟩ | ⟨existing, he, ha, rfl⟩ | ⟨_, rfl⟩
  · exact ⟨0, fun _ _ hk _ => hk, fun _ hr => Or.inl hr⟩
  · -- the one place that is written is that of the first revision of this version
    obtain ⟨hole, hfirst⟩ := revision?_eq_some_iff.1 he
    refine ⟨hole, fun k s hk hne => ?_, fun s hs => ?_⟩
    · rwa [replaceVersion_eq_set hfirst, List.getElem?_set_ne hne.symm]
    · obtain rfl : existing = s := by simpa [hfirst.there] using hs
      exact Or.inr ⟨ha, hfirst.version⟩
  · exact ⟨0, .append 0 v _ _⟩

/-- A report changes the history of revisions only by what it promotes. -/
lemma revisions_applyUpdate {u : StatusUpdate} {now : Timestamp}
    (h : i.applyUpdate u now = .ok j) :
    j.revisions = i.revisions ∨ ∃ r hole, u.promoted = some r ∧
      RetainsBut hole (i.versionFor r) i.revisions j.revisions := by
  obtain ⟨k, ⟨-, rfl⟩ | ⟨r, v, hr, hp⟩, rfl⟩ := applyUpdate_eq_ok h
  · exact Or.inl rfl
  · obtain ⟨rfl, history, hh, rfl⟩ := promote_eq_ok hp
    obtain ⟨hole, hretains⟩ := retainsBut_promotedHistory hh
    exact Or.inr ⟨r, hole, hr, hretains⟩

end Integration

/-! ## Dispatches during which others write -/

namespace Worker

variable {w : Worker} {site : Site} {id : IntegrationId} {h : Handler} {a : Attempt}
  {meanwhile : Site → Site}

/-- A call of a handler that has begun is about the record, and has not touched the store. -/
lemma begin_of_attempt (idle : w.attempt = none) (ha : (w.begin site id h).1.attempt = some a) :
    a.id = id ∧ (w.begin site id h).2.store = site.store := by
  have hb := begin_begun w site id h
  generalize w.begin site id h = x at hb ha ⊢
  cases hb with
  | unread hf => simp [arm, countFailure, idle] at ha
  | gone hi => simp [idle] at ha
  | unwanted hi hd => simp [idle] at ha
  | stale hi hd hs => simp [idle] at ha
  | called hi hd hc hh hcall hrun =>
    cases ha
    exact ⟨rfl, rfl⟩

/-- A dispatch whose handler is called ends with what `settle` makes of the store that it then
finds. -/
lemma store_dispatch_of_attempt (ha : (w.begin site id h).1.attempt = some a) :
    (w.dispatch site id h meanwhile).2.store =
      (settle (meanwhile (w.begin site id h).2).store (meanwhile (w.begin site id h).2).clock a.id
        (a.finish (meanwhile (w.begin site id h).2).environment).1).2 := by
  have hdispatch : w.dispatch site id h meanwhile
      = (w.begin site id h).1.finish (meanwhile (w.begin site id h).2) a := by
    simp only [dispatch, ha]
  rw [hdispatch, finish_eq _ _ a rfl]
  split
  · next hcrash => simp [hcrash, settle, verdict]
  · simp [conclude_eq, arm]

/-- **What other clients write while a handler is at work is not overwritten.**  If their writes
leave no record, there is none at the end of the dispatch.  If they leave a record, it keeps what
belongs to its owner and all its revisions, but for at most one that is not active and whose version
the handler promotes. -/
theorem record?_dispatch_of_writes (idle : w.attempt = none) (hk : site.store.Keyed)
    (ha : (w.begin site id h).1.attempt = some a) {writes : List Write}
    (hwrites : ∀ wr ∈ writes, wr.id = id)
    (hm : ∀ s, (meanwhile s).store = Write.runAll s.store writes) :
    let outcome := (a.finish (meanwhile (w.begin site id h).2).environment).1
    let stored := (w.dispatch site id h meanwhile).2.store.record? id
    match Write.left site.store (site.store.record? id) writes with
    | none => stored = none
    | some i => ∃ j, stored = some j ∧ i.SameOwn j ∧
        (j.revisions = i.revisions ∨ ∃ u r hole, outcome = .report u ∧ u.promoted = some r ∧
          RetainsBut hole (i.versionFor r) i.revisions j.revisions) := by
  intro outcome stored
  obtain ⟨haid, hstore⟩ := begin_of_attempt idle ha
  have hfound := hm (w.begin site id h).2
  rw [hstore] at hfound
  have hkeyed : (Write.runAll site.store writes).Keyed := Write.keyed_runAll writes hk
  have hstored : stored = (settle (Write.runAll site.store writes)
      (meanwhile (w.begin site id h).2).clock id outcome).2.record? id := by
    show (w.dispatch site id h meanwhile).2.store.record? id = _
    rw [store_dispatch_of_attempt ha, hfound, haid]
  have hamends := amends_settle hkeyed (meanwhile (w.begin site id h).2).clock id outcome
  have hleft := Write.record?_runAll hwrites site.store
  split
  · next hnone =>
    rw [hstored]
    exact hamends.gone (hleft.trans hnone)
  · next i hi =>
    obtain ⟨j, hj, hown⟩ := hamends.own i (hleft.trans hi)
    refine ⟨j, hstored.trans hj, hown, ?_⟩
    rcases record?_settle hkeyed (hleft.trans hi) hj with rfl | ⟨u, ho, happly⟩ | ⟨message, rfl⟩
    · exact Or.inl rfl
    · refine (Integration.revisions_applyUpdate happly).imp_right ?_
      rintro ⟨r, hole, hr, hretains⟩
      exact ⟨u, r, hole, ho, hr, hretains⟩
    · exact Or.inl rfl

/-! ## A record that is renamed meanwhile -/

/-- A handler that promotes version 1. -/
def promotingHandler : Handler :=
  .scripted 0 "promoting" [.active]
    [{ outcome := .report
        { version := 1, state := .active, promoted := some { version := some 1 } } }]

/-- The record of `draftedSite` under another name, with two revisions. -/
def renamedRecord : Integration :=
  { Workplace.draftedRecord with
    name := "Invoices"
    revisions := [{ version := some 1 }, { version := some 2 }] }

/-- Another client renames the record. -/
def rename (s : Site) : Site := { s with store := Write.runAll s.store [.update renamedRecord] }

/-- The other name is kept, though the handler was called before it was given. -/
theorem rename_survives : ∃ j,
    (({} : Worker).dispatch Workplace.draftedSite "x" promotingHandler rename).2.store.record? "x"
      = some j ∧ j.name = "Invoices" := by
  have hk : Workplace.draftedSite.store.Keyed := Store.keyed_singleton Workplace.draftedRecord
  have ha : (({} : Worker).begin Workplace.draftedSite "x" promotingHandler).1.attempt = some _ :=
    rfl
  have hwrites : ∀ wr ∈ [Write.update renamedRecord], wr.id = "x" := by
    intro wr hwr
    rw [List.mem_singleton.1 hwr]
    rfl
  have hrename : ∀ s, (rename s).store = Write.runAll s.store [.update renamedRecord] :=
    fun _ => rfl
  have hleft : Write.left Workplace.draftedSite.store (Workplace.draftedSite.store.record? "x")
      [.update renamedRecord] = some renamedRecord := by decide
  have hkept := record?_dispatch_of_writes rfl hk ha hwrites hrename
  simp only [hleft] at hkept
  obtain ⟨j, hj, hown, -⟩ := hkept
  exact ⟨j, hj, hown.name⟩

end Worker

end Convergence
