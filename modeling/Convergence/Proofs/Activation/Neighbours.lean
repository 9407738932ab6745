import Convergence.Proofs.Activation.Runs
import Convergence.Proofs.Deactivation
/-!
# Whether integrations leave each other's resources alone

Repositories and deployments bear a name that is made from the display name of their integration,
and nothing else says whose they are.  So activation and deactivation of an integration leave alone
what goes by another name, and use what goes by the same name as if it were their own.

The main results are

* `keepsTo_activate` and `keepsTo_deactivate`: a call of a handler touches nothing under a name that
  is not the one of its integration;
* `neighbour_untouched`: in a run of dispatches of an integration, another one with another resource
  name keeps its repository and its deployment;
* `not_forall_untouched_neighbour`: with the same resource name it need not.
-/

namespace Convergence

/-- The backends hold the same under a name. -/
structure Environment.SameUnder (name : String) (e e' : Environment) : Prop where
  repository : e'.sourceControl.repository? name = e.sourceControl.repository? name
  deployment : e'.provisioner.deployment? name = e.provisioner.deployment? name

namespace Environment.SameUnder

variable {name : String} {e e' e'' : Environment}

lemma refl (name : String) (e : Environment) : e.SameUnder name e := ⟨rfl, rfl⟩

lemma symm (h : e.SameUnder name e') : e'.SameUnder name e :=
  ⟨h.repository.symm, h.deployment.symm⟩

lemma trans (h : e.SameUnder name e') (h' : e'.SameUnder name e'') : e.SameUnder name e'' :=
  ⟨h'.repository.trans h.repository, h'.deployment.trans h.deployment⟩

end Environment.SameUnder

/-! ## Handlers that keep to their own resources -/

/-- A call of the handler touches nothing under a name that is not the one of its integration. -/
structure Handler.KeepsTo (h : Handler) : Prop where
  begun : ∀ (c : Call) (e : Environment) (name : String), resourceName c.integration ≠ name →
    e.SameUnder name (h.call c e).2
  ended : ∀ (c : Call) (e before : Environment) (name : String), resourceName c.integration ≠ name →
    e.SameUnder name (((h.call c before).1).finish e).2

/-- What an activation asks for is under the name of its integration. -/
theorem Handler.keepsTo_activate (generate : Project.Generator) :
    (Handler.activate generate).KeepsTo where
  begun := fun _ e name _ => .refl name e
  ended := by
    intro c e _ name hne
    obtain ⟨u, -, hattempted⟩ := Activation.attempted generate c e
    show e.SameUnder name (Activation.attempt generate c e).2
    rw [← Activation.run_plan]
    have hother : ∀ x ∈ effects ((Activation.plan generate c).log e), x.name ≠ name := by
      intro x hx hname
      obtain ⟨step, hstep⟩ := hattempted.stepEffect x hx
      exact hne (hstep.name_eq.symm.trans hname)
    exact ⟨(Activation.plan generate c).repository?_run e fun hpush => hother _ hpush rfl,
      (Activation.plan generate c).deployment?_run e fun hcreate => hother _ hcreate rfl⟩

/-- What a deactivation scales is under the name of its integration. -/
theorem Handler.keepsTo_deactivate : Handler.deactivate.KeepsTo where
  begun := fun _ e name _ => .refl name e
  ended := by
    intro c e _ name hne
    show e.SameUnder name (Deactivation.attempt c e).2
    have hlowers := Deactivation.lowers_attempt c e
    obtain ⟨provisioner, hend, -⟩ := Deactivation.attempted c e
    rw [hend] at hlowers ⊢
    refine ⟨rfl, ?_⟩
    show provisioner.deployment? name = e.provisioner.deployment? name
    cases hm : e.provisioner.deployment? name with
    | none => exact hlowers.absent name hm
    | some m => exact hlowers.spared name m hm (.inl (Ne.symm hne))

/-! ## Dispatches of one integration, seen by another -/

/-- What an integration can be dispatched for. -/
inductive Duty where
  | activate (generate : Project.Generator)
  | deactivate

/-- The handler that is called. -/
def Duty.handler : Duty → Handler
  | .activate generate => .activate generate
  | .deactivate => .deactivate

lemma Duty.keepsTo_handler (duty : Duty) : duty.handler.KeepsTo := by
  cases duty with
  | activate generate => exact Handler.keepsTo_activate generate
  | deactivate => exact Handler.keepsTo_deactivate

/-- Something about one integration that may concern another one. -/
inductive Move where
  /-- The integration is dispatched, and while the handler is at work the site changes. -/
  | dispatch (duty : Duty) (meanwhile : Site → Site)
  /-- The site changes: other records are written, calls come to fail, replicas to be ready. -/
  | change (f : Site → Site)

/-- A change of the site leaves alone what the neighbour has, and gives the integration none of its
names. -/
structure SparesNeighbour (id other : IntegrationId) (name : String) (f : Site → Site) : Prop where
  keyed : ∀ s : Site, s.store.Keyed → (f s).store.Keyed
  neighbour : ∀ s : Site, (f s).store.record? other = s.store.record? other
  resources : ∀ s : Site, s.environment.SameUnder name (f s).environment
  apart : ∀ (s : Site) i, (f s).store.record? id = some i → resourceName i = name →
    ∃ j, s.store.record? id = some j ∧ resourceName j = name

/-- What changes while no handler is called, or while one is at work, spares the neighbour. -/
def Move.Spares (id other : IntegrationId) (name : String) : Move → Prop
  | .dispatch _ meanwhile => SparesNeighbour id other name meanwhile
  | .change f => SparesNeighbour id other name f

namespace Workplace

/-- What comes of a move. -/
def move (id : IntegrationId) (p : Workplace) : Move → Workplace
  | .dispatch duty meanwhile => of (p.worker.dispatch p.site id duty.handler meanwhile)
  | .change f => { p with site := f p.site }

/-- What comes of moves, one after another. -/
def moves (id : IntegrationId) (p : Workplace) (ms : List Move) : Workplace := ms.foldl (move id) p

variable {id other : IntegrationId} {name : String} {found : Integration} {e₀ : Environment}

/-- The neighbour has its record and what it had under its name, and the integration goes by another
name. -/
structure LivesBeside (id other : IntegrationId) (name : String) (found : Integration)
    (e₀ : Environment) (s : Site) : Prop where
  keyed : s.store.Keyed
  neighbour : s.store.record? other = some found
  apart : ∀ i, s.store.record? id = some i → resourceName i ≠ name
  same : e₀.SameUnder name s.environment

namespace LivesBeside

variable {s : Site}

lemma change (h : LivesBeside id other name found e₀ s) {f : Site → Site}
    (hf : SparesNeighbour id other name f) : LivesBeside id other name found e₀ (f s) where
  keyed := hf.keyed s h.keyed
  neighbour := (hf.neighbour s).trans h.neighbour
  apart := by
    intro i hi hname
    obtain ⟨j, hj, hsame⟩ := hf.apart s i hi hname
    exact h.apart j hj hsame
  same := h.same.trans (hf.resources s)

/-- A dispatch leaves the neighbour alone. -/
lemma dispatch (h : LivesBeside id other name found e₀ s) (hother : other ≠ id) {w : Worker}
    (idle : w.attempt = none) {handler : Handler} (hkeeps : handler.KeepsTo)
    {meanwhile : Site → Site} (hm : SparesNeighbour id other name meanwhile) :
    LivesBeside id other name found e₀ (w.dispatch s id handler meanwhile).2 := by
  have hdispatched := Worker.dispatched s id handler meanwhile idle
  generalize (w.dispatch s id handler meanwhile).2 = s' at hdispatched ⊢
  cases hdispatched with
  | refused hno hrecords hfaults henvironment =>
    have hrecord : ∀ x, s'.store.record? x = s.store.record? x := fun x => by
      rw [Store.record?, hrecords, Store.record?]
    refine ⟨h.keyed.congr hrecords, (hrecord other).trans h.neighbour, fun i hi => ?_, ?_⟩
    · exact h.apart i ((hrecord id).symm.trans hi)
    · rw [henvironment]
      exact h.same
  | @called i d run begun ended t o hf hcalls hrun hs ho hstore henvironment =>
    have hne : resourceName (Worker.callOf s handler i).integration ≠ name :=
      h.apart i hcalls.record
    have hbegun := hkeeps.begun _ s.environment name hne
    have hended := hkeeps.ended _ t.environment s.environment name hne
    rw [hrun] at hbegun hended
    rw [ho] at hended
    -- the call has begun, and then the site changes while the handler is at work
    have hmiddle : LivesBeside id other name found e₀ t := by
      rw [← hs]
      have hstarted : LivesBeside id other name found e₀
          { s with environment := begun, serials := s.serials + 1 } :=
        ⟨h.keyed, h.neighbour, h.apart, h.same.trans hbegun⟩
      exact hstarted.change hm
    have hamends := Worker.amends_settle hmiddle.keyed t.clock id o
    refine ⟨?_, ?_, fun j hj => ?_, ?_⟩
    · rw [hstore]
      exact hamends.keyed hmiddle.keyed
    · rw [hstore, hamends.others other hother, hmiddle.neighbour]
    · rw [hstore] at hj
      cases hbefore : t.store.record? id with
      | none => simp [hamends.gone hbefore] at hj
      | some k =>
        obtain ⟨j', hj', hown⟩ := hamends.own k hbefore
        obtain rfl : j' = j := Option.some.inj (hj'.symm.trans hj)
        rw [resourceName_of_sameOwn hown]
        exact hmiddle.apart k hbefore
    · rw [henvironment]
      exact hmiddle.same.trans hended

end LivesBeside

/-- **Integrations with different resource names leave each other's resources alone.**  An
integration is dispatched for activation and deactivation, again and again, and between and during
the dispatches the site changes.  As long as the changes spare another integration and do not give
the first its resource name, the record, the repository and the deployment of the other are as they
were. -/
theorem neighbour_untouched {start : Workplace} (idle : start.worker.attempt = none)
    (hk : start.site.store.Keyed) (hother : other ≠ id)
    (hfound : start.site.store.record? other = some found)
    (hapart : ∀ i, start.site.store.record? id = some i → resourceName i ≠ resourceName found)
    {ms : List Move} (hms : ∀ m ∈ ms, m.Spares id other (resourceName found)) :
    (start.moves id ms).site.store.record? other = some found ∧
      start.site.environment.SameUnder (resourceName found)
        (start.moves id ms).site.environment := by
  suffices hrun : ∀ p : Workplace, p.worker.attempt = none →
      LivesBeside id other (resourceName found) found start.site.environment p.site →
      LivesBeside id other (resourceName found) found start.site.environment
        (p.moves id ms).site by
    have hend := hrun start idle ⟨hk, hfound, hapart, .refl _ _⟩
    exact ⟨hend.neighbour, hend.same⟩
  induction ms with
  | nil => exact fun p _ h => h
  | cons m rest ih =>
    intro p hidle h
    have hrest := ih fun m' hm' => hms m' (List.mem_cons_of_mem m hm')
    have hspares := hms m List.mem_cons_self
    cases m with
    | dispatch duty meanwhile =>
      exact hrest _ (Worker.attempt_dispatch ..)
        (h.dispatch hother hidle duty.keepsTo_handler hspares)
    | change f => exact hrest { p with site := f p.site } hidle (h.change hspares)

/-! ## Two integrations in one store -/

/-- A record of this name that nobody wants in any state. -/
def neighbourNamed (name : String) : Integration :=
  { Course.draftRecord with id := "y", name, desired := none }

/-- A store with a record to activate and one of this name, and the deployment of the latter. -/
def sharedPlace (name : String) : Workplace where
  worker := {}
  site :=
    { store :=
        { records := (Dict.empty.insert "x" Course.draftRecord).insert "y" (neighbourNamed name) }
      environment :=
        { provisioner :=
            { deployments := Dict.empty.insert (Slug.ofText name)
                { revision := 7, replicas := 1, readyReplicas := 1 } } }
      clock := Course.draftRecord.createdAt }

lemma keyed_sharedPlace (name : String) : (sharedPlace name).site.store.Keyed :=
  Store.keyed_insert (Store.keyed_singleton Course.draftRecord) (neighbourNamed name)

lemma found_sharedPlace (name : String) :
    (sharedPlace name).site.store.record? "y" = some (neighbourNamed name) :=
  Dict.find?_insert_self ..

/-- With another name the deployment is as it was after an activation and a deactivation. -/
theorem beside_untouched : ((sharedPlace "Billing").moves "x"
      [.dispatch (.activate Project.generator) fun s => s, .dispatch .deactivate fun s => s]
      ).site.environment.provisioner.deployment? "billing"
    = some { revision := 7, replicas := 1, readyReplicas := 1 } := by
  have hname : resourceName (neighbourNamed "Billing") = "billing" := by decide
  have hspares : SparesNeighbour "x" "y" (resourceName (neighbourNamed "Billing")) fun s => s :=
    ⟨fun _ h => h, fun _ => rfl, fun s => .refl _ s.environment, fun _ i hi hname => ⟨i, hi, hname⟩⟩
  have hmoves : ∀ m ∈ [Move.dispatch (.activate Project.generator) fun s => s,
      .dispatch .deactivate fun s => s],
      m.Spares "x" "y" (resourceName (neighbourNamed "Billing")) := by
    intro m hm
    simp only [List.mem_cons, List.not_mem_nil, or_false] at hm
    rcases hm with rfl | rfl <;> exact hspares
  have hapart : ∀ i, (sharedPlace "Billing").site.store.record? "x" = some i →
      resourceName i ≠ resourceName (neighbourNamed "Billing") := by
    intro i hi
    obtain rfl : Course.draftRecord = i := by
      simpa [sharedPlace, Store.record?, Dict.find?_insert] using hi
    decide
  have hidle : (sharedPlace "Billing").worker.attempt = none := rfl
  obtain ⟨-, hsame⟩ := neighbour_untouched hidle (keyed_sharedPlace "Billing") (by decide)
    (found_sharedPlace "Billing") hapart hmoves
  rw [hname] at hsame
  exact hsame.deployment.trans (by decide)

/-- It is not so that integrations with different ids leave each other's resources alone. -/
theorem not_forall_untouched_neighbour : ¬ ∀ (id other : IntegrationId) (start : Workplace)
    (i found : Integration) (duties : List Duty), start.worker.attempt = none →
    start.site.store.Keyed → other ≠ id → start.site.store.record? id = some i →
    start.site.store.record? other = some found →
    start.site.environment.SameUnder (resourceName found)
      (start.moves id (duties.map fun duty => .dispatch duty fun s => s)).site.environment := by
  intro hall
  have hsame := hall "x" "y" (sharedPlace "Orders Sync") Course.draftRecord
    (neighbourNamed "Orders Sync") [.activate Project.generator] rfl
    (keyed_sharedPlace "Orders Sync") (by decide) (by decide) (found_sharedPlace "Orders Sync")
  have hname : resourceName (neighbourNamed "Orders Sync") = "orders-sync" := by decide
  have hreplaced : ((sharedPlace "Orders Sync").moves "x"
      [.dispatch (.activate Project.generator) fun s => s]).site.environment.provisioner.deployment?
        "orders-sync" ≠ some { revision := 7, replicas := 1, readyReplicas := 1 } := by
    decide +kernel
  rw [hname] at hsame
  exact hreplaced (hsame.deployment.trans (by decide))

end Workplace

end Convergence
