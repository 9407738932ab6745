import Convergence.Proofs.Markers
import Convergence.Proofs.Registry
import Convergence.Proofs.Store.Announcements
import Convergence.Proofs.Worker.Runs
/-!
# Echoes

The store announces what the worker writes, so the worker is notified of its own writes.  Such an
echo should not make it call a handler, or it would go on for ever.

As long as nobody else writes, the markers keep echoes off.  Whenever an echo of a record is on its
way, the record is as wanted, or the marker for what is wanted is held (`Screened`): the marker is
there from before the write, and what drops it finds the record as wanted.  An echo may be heard,
and its check carried out, long after the write.

The main results are `Screened.work`, that what the worker does keeps echoes screened, and
`Screened.queue_of_checked`, that the check of an echo then queues nothing.
-/

namespace Convergence

namespace Workplace

open Store (Tends)

variable {registry : Registry} {sub : Subscription} {p p' : Workplace} {id : IntegrationId}

/-! ## What the markers do -/

/-- An announcement of a change of the record is kept for the subscription, or was heard, and its
check is still to come. -/
def Echoes (sub : Subscription) (p : Workplace) (id : IntegrationId) : Prop :=
  .check id .notification ∈ p.worker.queue ∨ p.site.store.Tells sub id

/-- What holds at all times while only the worker writes. -/
structure Screened (registry : Registry) (sub : Subscription) (p : Workplace) : Prop where
  registry : p.worker.registry = registry
  keyed : p.site.store.Keyed
  /-- A dispatch that waits is meant for what is wanted. -/
  meant : ∀ id h i, .dispatch id h ∈ p.worker.queue → p.site.store.record? id = some i →
    ∃ d, i.desired = some d ∧ h.handles d = true
  /-- During a call the marker for what is wanted is held. -/
  marked : ∀ a i d, p.worker.attempt = some a → p.site.store.record? a.id = some i →
    i.desired = some d → p.worker.markers.contains ⟨d, a.id⟩ = true
  /-- While there is an echo of a record that is not as wanted, that marker is held, too. -/
  screened : ∀ id i d, p.Echoes sub id → p.site.store.record? id = some i → i.desired = some d →
    i.isConverged = false → p.worker.markers.contains ⟨d, id⟩ = true

namespace Screened

/-- With the same markers and records, and fewer echoes, dispatches and calls, nothing is lost. -/
lemma mono (h : Screened registry sub p) (hregistry : p'.worker.registry = p.worker.registry)
    (hmarkers : p'.worker.markers = p.worker.markers)
    (hrecords : p'.site.store.records = p.site.store.records)
    (hattempt : ∀ a, p'.worker.attempt = some a → p.worker.attempt = some a)
    (hqueue : ∀ id h, .dispatch id h ∈ p'.worker.queue → .dispatch id h ∈ p.worker.queue)
    (hechoes : ∀ id, p'.Echoes sub id → p.Echoes sub id) : Screened registry sub p' := by
  have hrecord : ∀ id, p'.site.store.record? id = p.site.store.record? id := fun id => by
    simp [Store.record?, hrecords]
  refine ⟨hregistry.trans h.registry, h.keyed.congr hrecords, ?_, ?_, ?_⟩
  · intro id handler i hc hi
    exact h.meant id handler i (hqueue id handler hc) (hrecord id ▸ hi)
  · intro a i d ha hi hd
    rw [hmarkers]
    exact h.marked a i d (hattempt a ha) (hrecord a.id ▸ hi) hd
  · intro id i d he hi hd hc
    rw [hmarkers]
    exact h.screened id i d (hechoes id he) (hrecord id ▸ hi) hd hc

/-- What the store keeps for the subscription may become less. -/
lemma site (h : Screened registry sub p) {site : Site}
    (hrecords : site.store.records = p.site.store.records)
    (htells : ∀ id, site.store.Tells sub id → p.site.store.Tells sub id) :
    Screened registry sub { p with site } :=
  h.mono rfl rfl hrecords (fun _ ha => ha) (fun _ _ hc => hc) fun id he => he.imp_right (htells id)

/-- The worker may be told to do something other than a dispatch; if it is told to look because of
an announcement, there was one. -/
lemma tell (h : Screened registry sub p) {c : Command} (hdispatch : c.dispatch? = none)
    (hnotified : ∀ id, c = .check id .notification → p.site.store.Tells sub id) :
    Screened registry sub (p.tell c) := by
  refine h.mono rfl rfl rfl (fun _ ha => ha) (fun id handler hc => ?_) fun id he => ?_
  · rcases List.mem_append.1 hc with hc | hc
    · exact hc
    · rw [← List.mem_singleton.1 hc] at hdispatch
      cases hdispatch
  · rcases he with hc | htells
    · rcases List.mem_append.1 hc with hc | hc
      · exact Or.inl hc
      · exact Or.inr (hnotified id (List.mem_singleton.1 hc).symm)
    · exact Or.inr htells

/-- The worker may take a command from its queue. -/
lemma rest (h : Screened registry sub p) {c : Command} {rest : List Command}
    (hq : p.worker.queue = c :: rest) :
    Screened registry sub { p with worker := { p.worker with queue := rest } } := by
  have hmem : ∀ c' ∈ rest, c' ∈ p.worker.queue := fun c' hc' => hq ▸ List.mem_cons_of_mem c hc'
  exact h.mono rfl rfl rfl (fun _ ha => ha) (fun _ _ hc => hmem _ hc)
    fun _ he => he.imp_left (hmem _)

/-- The worker may end. -/
lemma halt (h : Screened registry sub p) :
    Screened registry sub { p with worker := p.worker.halt } := by
  refine h.mono rfl rfl rfl (fun _ ha => by cases ha) (fun _ _ hc => ?_) fun _ he => ?_
  · simp [Worker.halt] at hc
  · exact he.imp_left fun hc => by simp [Worker.halt] at hc

/-- The markers of a record that is as wanted may be dropped. -/
lemma erase (h : Screened registry sub p) (idle : p.worker.attempt = none) (id : IntegrationId)
    (hdone : ∀ i, p.site.store.record? id = some i → i.isConverged = true) :
    Screened registry sub
      { p with worker := { p.worker with markers := p.worker.markers.eraseId id } } := by
  refine ⟨h.registry, h.keyed, h.meant, fun a _ _ ha => ?_, fun other i d he hi hd hc => ?_⟩
  · simp [idle] at ha
  · have hne : other ≠ id := fun heq => by simp [hdone i (heq ▸ hi)] at hc
    rw [Markers.contains_eraseId_of_ne _ (m := ⟨d, other⟩) hne]
    exact h.screened other i d he hi hd hc

/-- A dispatch for what is wanted may be queued. -/
lemma dispatch (h : Screened registry sub p) {handler : Handler} {i : Integration} {d : State}
    (hi : p.site.store.record? id = some i) (hd : i.desired = some d)
    (hhandles : handler.handles d = true) :
    Screened registry sub (p.tell (.dispatch id handler)) := by
  refine ⟨h.registry, h.keyed, fun other handler' i' hc hi' => ?_, h.marked, fun other => ?_⟩
  · rcases List.mem_append.1 hc with hc | hc
    · exact h.meant other handler' i' hc hi'
    · obtain ⟨rfl, rfl⟩ : other = id ∧ handler' = handler := by simpa using hc
      obtain rfl : i = i' := by simpa [Workplace.tell, hi] using hi'
      exact ⟨d, hd, hhandles⟩
  · intro i' d' he
    refine h.screened other i' d' (he.imp_left fun hc => ?_)
    simpa [Workplace.tell, Worker.enqueue] using hc

/-- A handler may be called, with the marker for what is wanted. -/
lemma call (h : Screened registry sub p) {i : Integration} {d : State} {a : Attempt}
    (hi : p.site.store.record? id = some i) (hd : i.desired = some d) (ha : a.id = id) :
    Screened registry sub { p with worker := { p.worker with
      markers := (p.worker.markers.eraseId id).insert ⟨d, id⟩
      attempt := some a } } := by
  have hmarker : ∀ i' d', p.site.store.record? id = some i' → i'.desired = some d' →
      ((p.worker.markers.eraseId id).insert ⟨d, id⟩).contains ⟨d', id⟩ = true := by
    intro i' d' hi' hd'
    obtain rfl : i = i' := by simpa [hi] using hi'
    obtain rfl : d = d' := by simpa [hd] using hd'
    exact Markers.contains_insert.2 (Or.inl rfl)
  refine ⟨h.registry, h.keyed, h.meant, fun a' i' d' ha' hi' hd' => ?_, ?_⟩
  · obtain rfl : a = a' := by simpa using ha'
    rw [ha] at hi' ⊢
    exact hmarker i' d' hi' hd'
  · intro other i' d' he hi' hd' hc
    by_cases heq : other = id
    · rw [heq] at hi' ⊢
      exact hmarker i' d' hi' hd'
    · refine Markers.contains_insert.2 (Or.inr ?_)
      rw [Markers.contains_eraseId_of_ne _ (m := ⟨d', other⟩) heq]
      exact h.screened other i' d' he hi' hd' hc

end Screened

/-- The store comes to tell only of the record that is tended. -/
lemma tells_of_tends {s s' : Store} (hk : s.Keyed) (h : Tends id s s') {other : IntegrationId}
    (ht : s'.Tells sub other) : s.Tells sub other ∨ other = id := by
  induction h with
  | refl => exact Or.inl ht
  | fetch _ ih => exact ih ((Store.tells_congr (Store.bus_fetch _ _)).1 ht)
  | @update s₁ i j h hi hown ih =>
    rcases Store.tells_update ht with ht | heq
    · exact ih ht
    · have hid : j.id = id := hown.id.trans ((h.amends hk).keyed hk id i hi)
      exact Or.inr (heq.trans hid)

/-- The end of a call may write into its record: the marker for what is wanted is held. -/
lemma Screened.conclude (h : Screened registry sub p) {a : Attempt}
    (ha : p.worker.attempt = some a) {store : Store} (ht : Tends a.id p.site.store store)
    (hregistry : p'.worker.registry = p.worker.registry)
    (hmarkers : p'.worker.markers = p.worker.markers) (hqueue : p'.worker.queue = p.worker.queue)
    (hattempt : p'.worker.attempt = none) (hstore : p'.site.store = store) :
    Screened registry sub p' := by
  have hamends := ht.amends h.keyed
  subst hstore
  refine ⟨hregistry.trans h.registry, hamends.keyed h.keyed, ?_, ?_, ?_⟩
  · intro id handler j hc hj
    obtain ⟨i, hi, hdesired⟩ := hamends.desired hj
    obtain ⟨d, hd, hhandles⟩ := h.meant id handler i (hqueue ▸ hc) hi
    exact ⟨d, hdesired ▸ hd, hhandles⟩
  · intro a' _ _ ha'
    simp [hattempt] at ha'
  · intro id j d he hj hd hc
    rw [hmarkers]
    by_cases hid : id = a.id
    · -- the writes of the call leave what is wanted, so the marker held during it still fits
      subst hid
      obtain ⟨i, hi, hdesired⟩ := hamends.desired hj
      exact h.marked a i d ha hi (hdesired.trans hd)
    · -- the records of others and their echoes are as before
      have he : p.Echoes sub id := by
        rcases he with hc | htells
        · exact Or.inl (hqueue ▸ hc)
        · exact Or.inr ((tells_of_tends h.keyed ht htells).resolve_right hid)
      exact h.screened id j d he (hamends.others id hid ▸ hj) hd hc

/-- What the worker does keeps echoes screened. -/
theorem Screened.work (h : Screened registry sub p) (hr : registry.Sound)
    (hs : Stepped p .work p') : Screened registry sub p' := by
  cases hs with
  | @concluded a o environment ha hf r store hrun =>
    obtain ⟨failures, htally⟩ := Worker.tally_eq { p.worker with attempt := none } a.id r
    have ht : Tends a.id p.site.store store := by
      have hsettle := Worker.tends_settle p.site.store p.site.clock a.id o
      rwa [hrun] at hsettle
    refine h.conclude ha ht ?_ ?_ ?_ ?_ rfl <;> simp [of, Worker.arm, htally]
  | @checked id trigger rest w idle hq hc =>
    obtain ⟨pending, hnote⟩ := Worker.noteFired_eq { p.worker with queue := rest } id trigger
    rw [hnote] at hc
    have hrest : Screened registry sub
        ⟨{ p.worker with queue := rest, pending },
          { p.site with store := (p.site.store.fetch id).2 }⟩ := by
      refine (h.rest hq).mono rfl rfl (by simp) (fun _ ha => ha) (fun _ _ hc => hc) fun _ he => ?_
      exact he.imp_right (Store.tells_congr (Store.bus_fetch _ _)).1
    cases hc with
    | unread hfault => exact hrest
    | gone hi => exact hrest
    | unwanted hi hd => exact hrest
    | held hi hd ht hm => exact hrest
    | @converged i d hi hd hconv =>
      obtain rfl : i.id = id := h.keyed id i hi
      have herase := hrest.erase idle i.id fun j hj => by
        obtain rfl : i = j := by simpa [hi] using hj
        exact hconv
      exact herase.mono rfl rfl rfl (fun _ ha => ha) (fun _ _ hc => hc) fun _ he => he
    | unhandled hi hd hconv hl => exact hrest
    | @dispatched i d handler hi hd hconv hl hm =>
      obtain rfl : i.id = id := h.keyed id i hi
      refine hrest.dispatch (by simpa using hi) hd (hr.handles ?_)
      rw [← h.registry]
      exact hl
  | @begun id handler rest x idle hq hb =>
    have hrest := h.rest hq
    cases hb with
    | unread hfault =>
      refine hrest.mono rfl rfl (by simp [of, Worker.arm]) (fun _ ha => ha) (fun _ _ hc => hc)
        fun _ he => ?_
      exact he.imp_right (Store.tells_congr (Store.bus_fetch _ _)).1
    | gone hi => exact hrest
    | unwanted hi hd => exact hrest
    | @stale i d hi hd hstale =>
      obtain rfl : i.id = id := h.keyed id i hi
      refine hrest.erase idle i.id fun j hj => ?_
      obtain rfl : i = j := by simpa [hi] using hj
      -- the dispatch was meant for what is wanted, so it is the record that is as wanted
      obtain ⟨d', hd', hhandles⟩ := h.meant i.id handler i (hq ▸ List.mem_cons_self) hi
      obtain rfl : d = d' := by simpa [hd] using hd'
      simpa [hhandles] using hstale
    | @called i d hi hd hconv hhandles call hcall run environment hrun =>
      obtain rfl : i.id = id := h.keyed id i hi
      exact (hrest.call hi hd rfl).site rfl fun _ ht => ht
  | answered idle hq =>
    exact (h.rest hq).mono rfl rfl rfl (fun _ ha => ha) (fun _ _ hc => hc) fun _ he => he
  | told hc => cases hc

/-- The check of an echo queues nothing. -/
theorem Screened.queue_of_checked (h : Screened registry sub p) {rest : List Command}
    (hq : p.worker.queue = .check id .notification :: rest) {w : Worker}
    (hc : Worker.Checked ({ p.worker with queue := rest }.noteFired id .notification) p.site.store
      id .notification w) : w.queue = rest := by
  obtain ⟨pending, hnote⟩ := Worker.noteFired_eq { p.worker with queue := rest } id .notification
  rw [hnote] at hc
  cases hc with
  | @dispatched i d handler hi hd hconv hl hm =>
    have hecho : p.Echoes sub id := Or.inl (hq ▸ List.mem_cons_self)
    -- the record is not as wanted, so the marker is held, and a check by notification heeds it
    have hheld := h.screened id i d hecho hi hd hconv
    have hfree : p.worker.markers.contains ⟨d, id⟩ = false := hm rfl
    rw [hheld] at hfree
    cases hfree
  | _ => rfl

end Workplace

end Convergence
