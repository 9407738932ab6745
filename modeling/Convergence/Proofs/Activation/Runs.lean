import Convergence.Proofs.Activation.Plan
import Convergence.Proofs.Worker.Runs
/-!
# Activation attempt after attempt

Bringing an integration to life may take many attempts.  A `Course` is a workplace together with the
attempts so far, each with the revision that it was to deploy and the log of its requests.  Between
the attempts the backends change, calls of the store are made to fail, and other clients edit the
record; each of these and each attempt is a `Turn`.

`turned_attempt` lists what an attempt can come to, and `turns_invariant` is the induction over a
run.  What holds in every run, whatever fails and whoever edits draft and steps, is that the record
notes only setup steps that took effect (`Truthful`).
-/

namespace Convergence

/-- An attempt for which the handler was called: the revision to bring to life, and the log of the
requests. -/
structure Round where
  revision : Revision
  log : List Entry

/-- A workplace with the attempts so far, oldest first. -/
structure Course extends Workplace where
  rounds : List Round := []

/-- What happens from one moment to the next. -/
inductive Turn where
  /-- The activation is dispatched, when the clock shows this. -/
  | attempt (clock : Timestamp)
  /-- The backends change. -/
  | backends (change : Environment → Environment)
  /-- The next calls of the store will fail. -/
  | failStore (call : StoreCall) (times : Nat)
  /-- Another client replaces the draft and the steps of the record. -/
  | edit (draft : Option Revision) (steps : List Step)

/-- What an attempt depends on, of what the backends hold under a name, is the same in both
environments; but other replicas may be ready. -/
structure Environment.Spares (name : String) (e e' : Environment) : Prop where
  repository : e'.sourceControl.repository? name = e.sourceControl.repository? name
  address : e'.sourceControl.cloneAddress name = e.sourceControl.cloneAddress name
  deployment : ∀ m, e.provisioner.deployment? name = some m →
    ∃ ready, e'.provisioner.deployment? name = some { m with readyReplicas := ready }

lemma Environment.HoldsSame.spares {e e' : Environment} (h : e.HoldsSame e') (name : String) :
    e.Spares name e' where
  repository := by rw [SourceControl.repository?, h.repositories, SourceControl.repository?]
  address := by rw [SourceControl.cloneAddress, h.baseUrl, SourceControl.cloneAddress]
  deployment := by
    intro m hm
    refine ⟨m.readyReplicas, ?_⟩
    rwa [Provisioner.deployment?, h.deployments]

/-- Every replica of a deployment is ready. -/
def Environment.markReady (name : String) (e : Environment) : Environment :=
  { e with provisioner := (e.provisioner.markReady name).2 }

lemma Environment.spares_markReady (name other : String) (e : Environment) :
    e.Spares other (e.markReady name) where
  repository := rfl
  address := rfl
  deployment := by
    intro m hm
    rw [markReady, Provisioner.markReady]
    cases hname : e.provisioner.deployment? name with
    | none => exact ⟨m.readyReplicas, hm⟩
    | some m' =>
      by_cases hother : other = name
      · subst hother
        obtain rfl : m' = m := Option.some.inj (hname.symm.trans hm)
        exact ⟨m'.replicas, Dict.find?_insert_self ..⟩
      · exact ⟨m.readyReplicas, (Dict.find?_insert_of_ne _ _ hother).trans hm⟩

/-- A change of the backends leaves alone what is held under the name. -/
def Turn.Spares (name : String) : Turn → Prop
  | .backends change => ∀ e : Environment, e.Spares name (change e)
  | _ => True

/-- The store works, and no other client uses it. -/
def Turn.SparesStore : Turn → Prop
  | .failStore _ _ => False
  | .edit _ _ => False
  | _ => True

/-- The name of the resources belongs to the owner of the record. -/
lemma resourceName_of_sameOwn {i j : Integration} (h : i.SameOwn j) :
    resourceName j = resourceName i := by
  rw [resourceName, h.name, h.id, resourceName]

namespace Course

variable (generate : Project.Generator) (id : IntegrationId)

/-- The requests so far. -/
def log (c : Course) : List Entry := c.rounds.flatMap (·.log)

/-- The record. -/
def record? (c : Course) : Option Integration := c.site.store.record? id

/-- The attempt that a dispatch makes, if it calls the handler. -/
def round? (site : Site) : Option Round :=
  match site.store.fetch id with
  | (.ok record, _) =>
    (Worker.target? (.activate generate) record).map fun (i, _) =>
      { revision := i.targetRevision
        log := (Activation.plan generate (Worker.callOf site (.activate generate) i)).log
          site.environment }
  | (.error _, _) => none

/-- What comes of one turn. -/
def turn (c : Course) : Turn → Course
  | .attempt clock =>
    let site := { c.site with clock }
    { toWorkplace := .of (c.worker.dispatch site id (.activate generate) fun s => s)
      rounds := c.rounds ++ (round? generate id site).toList }
  | .backends change =>
    { c with site := { c.site with environment := change c.site.environment } }
  | .failStore call times =>
    { c with site := { c.site with store := c.site.store.failNext call times } }
  | .edit draft steps =>
    match c.record? id with
    | some i => { c with toWorkplace := c.toWorkplace.write (.update { i with draft, steps }) }
    | none => c

/-- What comes of turns, one after another. -/
def turns (c : Course) (ts : List Turn) : Course := ts.foldl (turn generate id) c

/-- What one turn keeps, all turns keep. -/
theorem turns_invariant {I : Course → Prop} {allowed : Turn → Prop}
    (hstep : ∀ c t, allowed t → I c → I (c.turn generate id t)) {start : Course} (h : I start)
    {ts : List Turn} (hts : ∀ t ∈ ts, allowed t) : I (start.turns generate id ts) := by
  induction ts generalizing start with
  | nil => exact h
  | cons t rest ih =>
    have hfirst := hstep start t (hts t List.mem_cons_self) h
    exact ih hfirst fun t' ht' => hts t' (List.mem_cons_of_mem t ht')

lemma turns_append (c : Course) (ts : List Turn) (t : Turn) :
    c.turns generate id (ts ++ [t]) = (c.turns generate id ts).turn generate id t := by
  simp only [turns, List.foldl_append, List.foldl_cons, List.foldl_nil]

/-! ## Attempts -/

section Attempt

open Worker (Calls callOf settle)

variable {generate id} {c : Course}

/-- What an attempt at this time can come to. -/
inductive Turned (generate : Project.Generator) (id : IntegrationId) (c : Course)
    (clock : Timestamp) (c' : Course) : Prop where
  /-- The handler is not called. -/
  | refused
      (hno : c.site.store.faults .fetch ≠ 0 ∨
        ∀ i d, ¬ Calls c.site.store id (.activate generate) i d)
      (hrecords : c'.site.store.records = c.site.store.records)
      (hfaults : ∀ call, c'.site.store.faults call ≤ c.site.store.faults call)
      (henvironment : c'.site.environment = c.site.environment) (hrounds : c'.rounds = c.rounds)
  | called {i : Integration} {u : StatusUpdate} {log : List Entry} (hi : c.record? id = some i)
      (hdesired : i.desired = some .active) (hunconverged : i.isConverged = false)
      (hattempt : Activation.Attempted generate
        (callOf { c.site with clock } (.activate generate) i) c.site.environment u
        c'.site.environment log)
      (hstore : c'.site.store = (settle c.site.store clock id (.report u)).2)
      (hrounds : c'.rounds = c.rounds ++ [⟨i.targetRevision, log⟩])
      (hended : c'.site.environment = (Activation.attempt generate
        (callOf { c.site with clock } (.activate generate) i) c.site.environment).2)

lemma round?_of_faults {site : Site} (h : site.store.faults .fetch ≠ 0) :
    round? generate id site = none := by
  rw [round?, Store.fetch_of_faults_ne_zero h]

lemma round?_of_calls {site : Site} (hf : site.store.faults .fetch = 0) {i : Integration}
    {d : State} (h : Calls site.store id (.activate generate) i d) :
    round? generate id site = some
      { revision := i.targetRevision
        log := (Activation.plan generate (callOf site (.activate generate) i)).log
          site.environment } := by
  simp [round?, Store.fetch_of_faults_eq_zero hf, h.record, Worker.target?, h.desired,
    h.unconverged, h.handles]

lemma round?_of_not_calls {site : Site}
    (h : ∀ i d, ¬ Calls site.store id (.activate generate) i d) :
    round? generate id site = none := by
  by_cases hf : site.store.faults .fetch = 0
  · have htarget : Worker.target? (.activate generate) (site.store.record? id) = none :=
      Option.eq_none_iff_forall_ne_some.2 fun x hx =>
        h x.1 x.2 (Worker.target?_eq_some_iff.1 hx)
    simp [round?, Store.fetch_of_faults_eq_zero hf, htarget]
  · exact round?_of_faults hf

/-- An attempt comes to one of the cases. -/
theorem turned_attempt (idle : c.worker.attempt = none) (clock : Timestamp) :
    Turned generate id c clock (c.turn generate id (.attempt clock)) := by
  let site : Site := { c.site with clock }
  rcases Worker.refused_or_calls site id (.activate generate) with hno | ⟨hf, i, d, hcalls⟩
  · obtain ⟨hrecords, hfaults, henvironment⟩ := Worker.dispatch_refused (fun s => s) idle hno
    refine .refused hno hrecords hfaults henvironment ?_
    have hnone : round? generate id site = none := by
      rcases hno with hf | hno
      · exact round?_of_faults hf
      · exact round?_of_not_calls hno
    show c.rounds ++ (round? generate id site).toList = c.rounds
    rw [hnone, Option.toList_none, List.append_nil]
  · obtain rfl : d = .active := by simpa [Handler.handles, Handler.activate] using hcalls.handles
    obtain ⟨u, ho, hattempt⟩ := Activation.attempted generate
      (callOf site (.activate generate) i) site.environment
    -- the environment at the end gets a name, as the attempt is about to be replaced by its report
    obtain ⟨ended, hended⟩ : ∃ ended, (Activation.attempt generate
      (callOf site (.activate generate) i) site.environment).2 = ended := ⟨_, rfl⟩
    have hfinish : Activation.attempt generate (callOf site (.activate generate) i) site.environment
        = (.report u, ended) := Prod.ext ho hended
    obtain ⟨hstore, henvironment⟩ :
        (c.worker.dispatch site id (.activate generate) fun s => s).2.store
            = (settle site.store clock id (.report u)).2 ∧
          (c.worker.dispatch site id (.activate generate) fun s => s).2.environment = ended :=
      Worker.dispatch_of_calls c.worker hf hcalls rfl rfl hfinish
    rw [hended, ← henvironment] at hattempt
    refine .called hcalls.record hcalls.desired hcalls.unconverged hattempt hstore ?_
      (henvironment.trans hended.symm)
    show c.rounds ++ (round? generate id site).toList = _
    rw [round?_of_calls hf hcalls, Option.toList_some]

/-- After an attempt the record is as it was, or it has taken over what the attempt reports, or an
error is noted on it. -/
lemma record?_of_called (hk : c.site.store.Keyed) {clock : Timestamp} {i j : Integration}
    {u : StatusUpdate} (hi : c.record? id = some i)
    (hj : (settle c.site.store clock id (.report u)).2.record? id = some j) :
    j = i ∨ i.applyUpdate u clock = .ok j ∨ ∃ message, j = i.recordFailure message clock := by
  rcases Worker.record?_settle hk hi hj with rfl | ⟨u', ho, happly⟩ | hnoted
  · exact Or.inl rfl
  · cases ho
    exact Or.inr (Or.inl happly)
  · exact Or.inr (Or.inr hnoted)

end Attempt

/-! ## Every turn -/

/-- No call is under way, and every record is filed under its own id. -/
structure InOrder (c : Course) : Prop where
  idle : c.worker.attempt = none
  keyed : c.site.store.Keyed

section Turns

variable {generate id} {c : Course} {i j : Integration} {draft : Option Revision}
  {steps : List Step}

@[simp] lemma environment_edit :
    (c.turn generate id (.edit draft steps)).site.environment = c.site.environment := by
  simp only [turn]
  split
  · simp only [Workplace.write]
    split <;> rfl
  · rfl

@[simp] lemma rounds_edit : (c.turn generate id (.edit draft steps)).rounds = c.rounds := by
  simp only [turn]
  split <;> rfl

lemma InOrder.turn (h : c.InOrder) (t : Turn) : (c.turn generate id t).InOrder := by
  cases t with
  | attempt clock =>
    refine ⟨Worker.attempt_dispatch .., ?_⟩
    cases turned_attempt h.idle clock with
    | refused hno hrecords => exact h.keyed.congr hrecords
    | called hi hdesired hunconverged hattempt hstore =>
      rw [hstore]
      exact (Worker.amends_settle h.keyed ..).keyed h.keyed
  | backends change => exact ⟨h.idle, h.keyed⟩
  | failStore call times => exact ⟨h.idle, h.keyed⟩
  | edit draft steps =>
    simp only [Course.turn]
    split
    · next i hi =>
      refine ⟨?_, ?_⟩
      · rw [Workplace.worker_write]
        split <;> exact h.idle
      · rw [Workplace.store_write]
        exact Write.keyed_run _ h.keyed
    · exact h

/-- An edit takes place, or the store refuses it. -/
lemma record?_of_edit (h : c.InOrder)
    (hj : (c.turn generate id (.edit draft steps)).record? id = some j) :
    ∃ i, c.record? id = some i ∧ (j = i ∨ j = { i with draft, steps }) := by
  simp only [turn] at hj
  split at hj
  · next i hi =>
    refine ⟨i, hi, ?_⟩
    rw [record?, Workplace.store_write] at hj
    rcases Worker.record?_update (j := { i with draft, steps }) (h.keyed id i hi) hj with rfl | hold
    · exact Or.inr rfl
    · obtain rfl : i = j := Option.some.inj (hi.symm.trans hold)
      exact Or.inl rfl
  · next hnone => simp [hj] at hnone

/-- No turn brings a record into being, or gives it another name. -/
lemma resourceName_of_turn (h : c.InOrder) {t : Turn}
    (hj : (c.turn generate id t).record? id = some j) :
    ∃ i, c.record? id = some i ∧ resourceName j = resourceName i := by
  cases t with
  | attempt clock =>
    rw [record?] at hj
    cases turned_attempt h.idle clock with
    | refused hno hrecords =>
      rw [Store.record?, hrecords] at hj
      exact ⟨j, hj, rfl⟩
    | @called i u log hi hdesired hunconverged hattempt hstore =>
      rw [hstore] at hj
      obtain ⟨j', hj', hown⟩ := (Worker.amends_settle h.keyed clock id (.report u)).own i hi
      obtain rfl : j = j' := Option.some.inj (hj.symm.trans hj')
      exact ⟨i, hi, resourceName_of_sameOwn hown⟩
  | backends change => exact ⟨j, hj, rfl⟩
  | failStore call times => exact ⟨j, hj, rfl⟩
  | edit draft steps =>
    obtain ⟨i, hi, rfl | rfl⟩ := record?_of_edit h hj
    · exact ⟨j, hi, rfl⟩
    · exact ⟨i, hi, rfl⟩

/-! ## What the record notes -/

variable {name : String}

/-- The record has this name for its resources, and notes a setup step only if that took effect in
one of the attempts. -/
structure Truthful (id : IntegrationId) (name : String) (c : Course) : Prop extends InOrder c where
  named : ∀ i, c.record? id = some i → resourceName i = name
  noted : ∀ i, c.record? id = some i → ∀ step x, Activation.StepEffect name step x →
    step ∈ i.stepsDone → ∃ r ∈ c.rounds, x ∈ effects r.log

namespace Truthful

/-- A record without setup steps notes nothing, whatever was attempted. -/
lemma of_stepsDone_eq_nil (h : c.InOrder) (hi : c.record? id = some i)
    (hsteps : i.stepsDone = []) : c.Truthful id (resourceName i) where
  toInOrder := h
  named := by
    intro k hk
    rw [Option.some.inj (hi.symm.trans hk)]
  noted := by
    intro k hk step x hx hnoted
    rw [← Option.some.inj (hi.symm.trans hk), hsteps] at hnoted
    cases hnoted

/-- A step that is noted after an attempt took effect in it or in an earlier one. -/
lemma noted_attempt (h : c.Truthful id name) {clock : Timestamp}
    (hj : (c.turn generate id (.attempt clock)).record? id = some j) {step : String} {x : Effect}
    (hx : Activation.StepEffect name step x) (hstep : step ∈ j.stepsDone) :
    ∃ r ∈ (c.turn generate id (.attempt clock)).rounds, x ∈ effects r.log := by
  rw [record?] at hj
  cases turned_attempt h.idle clock with
  | refused hno hrecords hfaults henvironment hrounds =>
    rw [Store.record?, hrecords] at hj
    rw [hrounds]
    exact h.noted j hj step x hx hstep
  | @called i u log hi hdesired hunconverged hattempt hstore hrounds =>
    have hearlier : step ∈ i.stepsDone →
        ∃ r ∈ (c.turn generate id (.attempt clock)).rounds, x ∈ effects r.log := by
      intro hbefore
      obtain ⟨r, hr, hr'⟩ := h.noted i hi step x hx hbefore
      exact ⟨r, by simp [hrounds, hr], hr'⟩
    rw [hstore] at hj
    rcases record?_of_called h.keyed hi hj with rfl | happly | ⟨message, rfl⟩
    · exact hearlier hstep
    · obtain ⟨k, -, rfl⟩ := Integration.applyUpdate_eq_ok happly
      have hmine : Activation.StepEffect (resourceName i) step x := by rwa [h.named i hi]
      rcases hattempt.notesEffects hmine hstep with hbefore | hnow
      · exact hearlier hbefore
      · exact ⟨⟨i.targetRevision, log⟩, by simp [hrounds], hnow⟩
    · exact hearlier hstep

/-- Whatever happens to the backends and to draft and steps of the record, it stays so. -/
theorem turn (h : c.Truthful id name) (t : Turn) : (c.turn generate id t).Truthful id name where
  toInOrder := h.toInOrder.turn t
  named := by
    intro j hj
    obtain ⟨i, hi, hsame⟩ := resourceName_of_turn h.toInOrder hj
    rw [hsame, h.named i hi]
  noted := by
    intro j hj step x hx hstep
    cases t with
    | attempt clock => exact h.noted_attempt hj hx hstep
    | backends change => exact h.noted j hj step x hx hstep
    | failStore call times => exact h.noted j hj step x hx hstep
    | edit draft steps =>
      rw [rounds_edit]
      obtain ⟨i, hi, rfl | rfl⟩ := record?_of_edit h.toInOrder hj
      · exact h.noted _ hi step x hx hstep
      · exact h.noted i hi step x hx hstep

end Truthful

end Turns

/-! ## A record to activate -/

/-- A draft. -/
def firstDraft : Revision := .ofSteps [{ kind := "log", name := "first" }]

/-- Another draft. -/
def secondDraft : Revision := .ofSteps [{ kind := "log", name := "second" }]

lemma firstDraft_ne_secondDraft : firstDraft.spec ≠ secondDraft.spec := by decide

/-- A record that is to run the first draft. -/
def draftRecord : Integration where
  id := "x"
  name := "Orders Sync"
  desired := some .active
  draft := some firstDraft
  token := some { value := "t" }
  createdAt :=
    ((Date.ofNumbers? 2024 1 4).bind fun date => Timestamp.ofNumbers? date 12 0 0 0).get
      (by decide)

/-- A course whose store holds that record only, with empty backends. -/
def draftCourse : Course where
  worker := {}
  site :=
    { store := { records := Dict.empty.insert "x" draftRecord }, clock := draftRecord.createdAt }

lemma inOrder_draftCourse : draftCourse.InOrder := ⟨rfl, Store.keyed_singleton draftRecord⟩

end Course

end Convergence
