import Mathlib.Data.List.Induction
import Convergence.Proofs.Worker.Commands
/-!
# Runs of a worker

A `Workplace` is a worker together with what it works on.  `step` lets one event happen there: the
worker goes on with its work, a timer fires, a check is asked for, another client writes into the
store.  Events come in any order.  `Stepped` lists what a step can be, and `run_invariant` is the
induction over a run.

Many properties hold in a run up to the first time that a certain kind of step is taken.  For those,
`Visits` says that a workplace comes up in a run and `Takes` that it comes up with a certain event
next; `exists_slip` finds the step after which a property is lost.
-/

namespace Convergence

/-- A worker and what it works on. -/
structure Workplace where
  worker : Worker
  site : Site

/-- Something that happens at a workplace. -/
inductive Event where
  /-- The worker ends the call under way, or carries out the next command. -/
  | work
  /-- The timer of this number fires. -/
  | fire (serial : Nat)
  /-- Somebody asks for a check. -/
  | request (id : IntegrationId)
  /-- Somebody asks for the markers. -/
  | ask (question : Nat)
  /-- An announcement is heard, of a write of the worker itself for instance. -/
  | hear (id : IntegrationId)
  /-- Another client writes into the store; if that changes a record, the worker hears of it. -/
  | write (wr : Write)
  /-- The next calls of the store will fail. -/
  | failNext (call : StoreCall) (times : Nat)
  /-- Time passes, and the backends change. -/
  | drift (environment : Environment) (clock : Timestamp) (moment : Nat)

/-- The command that an event puts into the queue and does nothing else. -/
def Event.command? : Event → Option Command
  | .request id => some (.check id .manual)
  | .ask question => some (.listMarkers question)
  | .hear id => some (.check id .notification)
  | _ => none

namespace Workplace

/-- A worker with what it works on. -/
def of (x : Worker × Site) : Workplace := ⟨x.1, x.2⟩

/-- The worker is told to do something. -/
def tell (p : Workplace) (c : Command) : Workplace := { p with worker := p.worker.enqueue c }

/-- The workplace of a new worker, which begins by looking at every record. -/
def start (config : ControllerConfig) (registry : Registry) (site : Site) : Workplace :=
  of (({ config, registry } : Worker).scan site)

/-- The worker goes on with its work, if there is any. -/
def work (p : Workplace) : Option Workplace :=
  match p.worker.attempt, p.worker.queue with
  | some a, _ => some (of (p.worker.finish p.site a))
  | none, c :: rest => some (of ({ p.worker with queue := rest }.handle p.site c))
  | none, [] => none

/-- Another client writes into the store. -/
def write (p : Workplace) (wr : Write) : Workplace :=
  let (changed, store) := wr.run p.site.store
  let p := { p with site := { p.site with store } }
  if changed then p.tell (.check wr.id .notification) else p

/-- The workplace after an event that can happen there. -/
def next? (p : Workplace) : Event → Option Workplace
  | .work => p.work
  | .fire serial =>
    (p.worker.timers.find? (·.serial == serial)).map fun t => { p with worker := p.worker.fire t }
  | .write wr => some (p.write wr)
  | .failNext call times =>
    some { p with site := { p.site with store := p.site.store.failNext call times } }
  | .drift environment clock moment =>
    some { p with site := { p.site with environment, clock, moment } }
  | e => e.command?.map p.tell

/-- The workplace after an event, unless the event cannot happen or is the end of the worker. -/
def step (p : Workplace) (e : Event) : Option Workplace := (p.next? e).filter (·.worker.alive)

/-- The workplace after a sequence of events. -/
def run (p : Workplace) (es : List Event) : Option Workplace := es.foldlM step p

@[simp] lemma store_write (p : Workplace) (wr : Write) :
    (p.write wr).site.store = (wr.run p.site.store).2 := by
  rw [write]
  split
  next changed store hrun =>
    split <;> simp [tell, hrun]

@[simp] lemma environment_write (p : Workplace) (wr : Write) :
    (p.write wr).site.environment = p.site.environment := by
  rw [write]
  split
  next changed store hrun => split <;> rfl

/-- The worker hears of a write that changes a record. -/
lemma worker_write (p : Workplace) (wr : Write) :
    (p.write wr).worker = if (wr.run p.site.store).1 then
      p.worker.enqueue (.check wr.id .notification) else p.worker := by
  rw [write]
  split
  next changed store hrun =>
    rw [hrun]
    split <;> rfl

/-! ## What a step can be -/

/-- What an event can come to. -/
inductive Stepped (p : Workplace) : Event → Workplace → Prop where
  /-- The call under way ends. -/
  | concluded {a : Attempt} {o : Outcome} {environment : Environment}
      (ha : p.worker.attempt = some a)
      (hf : a.finish p.site.environment = (o, environment))
      {r : Except ReconcileError Bool} {store : Store}
      (hr : Worker.settle p.site.store p.site.clock a.id o = (r, store)) :
      Stepped p .work (of (({ p.worker with attempt := none }.tally a.id r).arm
        { p.site with environment, store } a.id))
  /-- A record is looked at. -/
  | checked {id : IntegrationId} {trigger : Trigger} {rest : List Command} {w : Worker}
      (idle : p.worker.attempt = none) (hq : p.worker.queue = .check id trigger :: rest)
      (hc : Worker.Checked ({ p.worker with queue := rest }.noteFired id trigger) p.site.store id
        trigger w) :
      Stepped p .work ⟨w, { p.site with store := (p.site.store.fetch id).2 }⟩
  /-- A dispatch begins. -/
  | begun {id : IntegrationId} {h : Handler} {rest : List Command} {x : Worker × Site}
      (idle : p.worker.attempt = none) (hq : p.worker.queue = .dispatch id h :: rest)
      (hb : Worker.Begun { p.worker with queue := rest } p.site id h x) : Stepped p .work (of x)
  /-- A question is answered. -/
  | answered {question : Nat} {rest : List Command} (idle : p.worker.attempt = none)
      (hq : p.worker.queue = .listMarkers question :: rest) :
      Stepped p .work ⟨{ p.worker with queue := rest }.answer question, p.site⟩
  | fired {t : Timer} (ht : t ∈ p.worker.timers) :
      Stepped p (.fire t.serial) ⟨p.worker.fire t, p.site⟩
  | told {e : Event} {c : Command} (hc : e.command? = some c) : Stepped p e (p.tell c)
  | written (wr : Write) : Stepped p (.write wr) (p.write wr)
  | failing (call : StoreCall) (times : Nat) :
      Stepped p (.failNext call times)
        { p with site := { p.site with store := p.site.store.failNext call times } }
  | drifted (environment : Environment) (clock : Timestamp) (moment : Nat) :
      Stepped p (.drift environment clock moment)
        { p with site := { p.site with environment, clock, moment } }

variable {p p' : Workplace} {e : Event}

lemma step_eq_some : p.step e = some p' ↔ p.next? e = some p' ∧ p'.worker.alive = true := by
  simp [step, Option.filter_eq_some_iff]

/-- The worker takes a step of the list, or the handler breaks down and the worker ends. -/
lemma work_cases (h : p.work = some p') : Stepped p .work p' ∨
    ∃ environment, p' = ⟨p.worker.halt, { p.site with environment }⟩ := by
  rw [work] at h
  split at h
  · next a ha =>
    cases hf : a.finish p.site.environment with
    | mk o environment =>
      rw [Worker.finish_eq _ _ _ hf] at h
      split at h
      · cases h
        exact Or.inr ⟨environment, rfl⟩
      · rw [Worker.conclude_eq] at h
        cases h
        exact Or.inl (.concluded ha hf rfl)
  · next c rest idle hq =>
    refine Or.inl ?_
    cases c with
    | check id trigger =>
      obtain ⟨hc, hsite⟩ := Worker.handleCheck_checked { p.worker with queue := rest } p.site id
        trigger
      change some (mk _ (Worker.handleCheck _ p.site id trigger).2) = some p' at h
      rw [hsite] at h
      cases h
      exact .checked idle hq hc
    | dispatch id handler =>
      have hb := Worker.begin_begun { p.worker with queue := rest } p.site id handler
      cases h
      exact .begun idle hq hb
    | listMarkers question =>
      cases h
      exact .answered idle hq
  · cases h

lemma stepped_of_work (h : p.work = some p') (alive : p'.worker.alive = true) :
    Stepped p .work p' := by
  rcases work_cases h with hstepped | ⟨environment, rfl⟩
  · exact hstepped
  · simp [Worker.halt] at alive

/-- Every step is one of the list. -/
theorem stepped_of_step (h : p.step e = some p') : Stepped p e p' := by
  obtain ⟨h, alive⟩ := step_eq_some.1 h
  cases e with
  | work => exact stepped_of_work h alive
  | fire serial =>
    simp only [next?, Option.map_eq_some_iff] at h
    obtain ⟨t, ht, rfl⟩ := h
    have hserial : t.serial = serial := by simpa using List.find?_some ht
    exact hserial ▸ .fired (List.mem_of_find?_eq_some ht)
  | request id =>
    cases h
    exact .told rfl
  | ask question =>
    cases h
    exact .told rfl
  | hear id =>
    cases h
    exact .told rfl
  | write wr =>
    cases h
    exact .written wr
  | failNext call times =>
    cases h
    exact .failing call times
  | drift environment clock moment =>
    cases h
    exact .drifted environment clock moment

/-- A check that is next is what the worker goes on with. -/
lemma checked_of_step {id : IntegrationId} {trigger : Trigger} {rest : List Command}
    (h : p.step .work = some p') (idle : p.worker.attempt = none)
    (hq : p.worker.queue = .check id trigger :: rest) :
    Worker.Checked ({ p.worker with queue := rest }.noteFired id trigger) p.site.store id trigger
        p'.worker ∧
      p'.site = { p.site with store := (p.site.store.fetch id).2 } := by
  cases stepped_of_step h with
  | concluded ha => simp [ha] at idle
  | checked _ hq' hc =>
    rw [hq] at hq'
    cases hq'
    exact ⟨hc, rfl⟩
  | begun _ hq' => simp [hq] at hq'
  | answered _ hq' => simp [hq] at hq'
  | told hc => cases hc

/-- A dispatch that is next is what the worker goes on with. -/
lemma begun_of_step {id : IntegrationId} {handler : Handler} {rest : List Command}
    (h : p.step .work = some p') (idle : p.worker.attempt = none)
    (hq : p.worker.queue = .dispatch id handler :: rest) :
    Worker.Begun { p.worker with queue := rest } p.site id handler (p'.worker, p'.site) := by
  cases stepped_of_step h with
  | concluded ha => simp [ha] at idle
  | checked _ hq' => simp [hq] at hq'
  | begun _ hq' hb =>
    rw [hq] at hq'
    cases hq'
    exact hb
  | answered _ hq' => simp [hq] at hq'
  | told hc => cases hc

lemma alive_of_step (h : p.step e = some p') : p'.worker.alive = true := (step_eq_some.1 h).2

/-- A worker without a call under way can carry out the check that is next. -/
theorem exists_step_check {id : IntegrationId} {trigger : Trigger} {rest : List Command}
    (alive : p.worker.alive = true) (idle : p.worker.attempt = none)
    (hq : p.worker.queue = .check id trigger :: rest) :
    ∃ w, Worker.Checked ({ p.worker with queue := rest }.noteFired id trigger) p.site.store id
        trigger w ∧
      p.step .work = some ⟨w, { p.site with store := (p.site.store.fetch id).2 }⟩ := by
  obtain ⟨hc, hsite⟩ := Worker.handleCheck_checked { p.worker with queue := rest } p.site id trigger
  refine ⟨_, hc, ?_⟩
  have hnext : p.next? .work = some (of ({ p.worker with queue := rest }.handleCheck p.site id
      trigger)) := by
    simp only [next?, work, idle, hq]
    rfl
  refine step_eq_some.2 ⟨?_, ?_⟩
  · rw [hnext, ← hsite]
    rfl
  · obtain ⟨pending, hnote⟩ := Worker.noteFired_eq { p.worker with queue := rest } id trigger
    rw [hc.alive, hnote]
    exact alive

/-! ## What a step leaves alone -/

lemma setup_of_step (h : p.step e = some p') : p.worker.SameSetup p'.worker := by
  cases stepped_of_step h with
  | @concluded a o environment ha hf r store hr =>
    obtain ⟨failures, htally⟩ := Worker.tally_eq { p.worker with attempt := none } a.id r
    constructor <;> simp [of, Worker.arm, htally]
  | @checked id trigger rest w idle hq hc =>
    obtain ⟨pending, hnote⟩ := Worker.noteFired_eq { p.worker with queue := rest } id trigger
    rw [hnote] at hc
    exact ⟨hc.setup.config, hc.setup.registry⟩
  | begun idle hq hb => cases hb <;> exact ⟨rfl, rfl⟩
  | answered idle hq => exact ⟨rfl, rfl⟩
  | fired ht => exact ⟨rfl, rfl⟩
  | told hc => exact ⟨rfl, rfl⟩
  | written wr =>
    rw [worker_write]
    split <;> exact ⟨rfl, rfl⟩
  | failing call times => exact ⟨rfl, rfl⟩
  | drifted environment clock moment => exact ⟨rfl, rfl⟩

/-- A step amends a record, or it is a write or an order to fail. -/
theorem store_of_step (hk : p.site.store.Keyed) (h : p.step e = some p') :
    (∃ id, p.site.store.Amends id p'.site.store) ∨
      (∃ wr, e = .write wr ∧ p'.site.store = (wr.run p.site.store).2) ∨
        ∃ call times, e = .failNext call times ∧
          p'.site.store = p.site.store.failNext call times := by
  cases stepped_of_step h with
  | @concluded a o environment ha hf r store hr =>
    exact Or.inl ⟨a.id, Worker.amends_of_settle hk hr⟩
  | @checked id trigger rest w idle hq hc => exact Or.inl ⟨id, Store.amends_fetch _ id id⟩
  | @begun id handler rest x idle hq hb =>
    cases hb with
    | unread hfault => exact Or.inl ⟨id, Store.amends_fetch _ id id⟩
    | gone hi => exact Or.inl ⟨id, .refl id _⟩
    | unwanted hi hd => exact Or.inl ⟨id, .refl id _⟩
    | stale hi hd hs => exact Or.inl ⟨id, .refl id _⟩
    | called hi hd hc hh hcall hrun => exact Or.inl ⟨id, .refl id _⟩
  | answered idle hq => exact Or.inl ⟨"", .refl "" _⟩
  | fired ht => exact Or.inl ⟨"", .refl "" _⟩
  | told hc => exact Or.inl ⟨"", .refl "" _⟩
  | written wr => exact Or.inr (Or.inl ⟨wr, rfl, store_write p wr⟩)
  | failing call times => exact Or.inr (Or.inr ⟨call, times, rfl, rfl⟩)
  | drifted environment clock moment => exact Or.inl ⟨"", .refl "" _⟩

lemma keyed_of_step (hk : p.site.store.Keyed) (h : p.step e = some p') :
    p'.site.store.Keyed := by
  rcases store_of_step hk h with ⟨id, hamends⟩ | ⟨wr, -, hstore⟩ | ⟨call, times, -, hstore⟩
  · exact hamends.keyed hk
  · rw [hstore]
    exact wr.keyed_run hk
  · rw [hstore]
    exact hk.congr rfl

/-- Calls that go through go through after a step, unless the step is an order to fail. -/
lemma faults_of_step {call : StoreCall} (hk : p.site.store.Keyed)
    (hf : p.site.store.faults call = 0) (he : ∀ times, e ≠ .failNext call times)
    (h : p.step e = some p') : p'.site.store.faults call = 0 := by
  rcases store_of_step hk h with ⟨id, hamends⟩ | ⟨wr, -, hstore⟩ | ⟨other, times, rfl, hstore⟩
  · have hle := hamends.faults call
    omega
  · have hle := wr.faults_run_le p.site.store call
    rw [hstore]
    omega
  · have hne : call ≠ other := fun heq => he times (heq ▸ rfl)
    simpa [hstore, Store.failNext, hne] using hf

/-! ## Runs -/

@[simp] lemma run_nil (p : Workplace) : p.run [] = some p := rfl

lemma run_append (p : Workplace) (es es' : List Event) :
    p.run (es ++ es') = (p.run es).bind fun q => q.run es' := by
  simp [run, List.foldlM_append]

lemma run_concat (p : Workplace) (es : List Event) (e : Event) :
    p.run (es ++ [e]) = (p.run es).bind fun q => q.step e := by
  rw [run_append]
  congr 1
  funext q
  simp [run]

/-- What holds at the start and is kept by every step that the events allow holds through a run. -/
theorem run_invariant {Inv : Workplace → Prop} {es : List Event} (start : Inv p)
    (keeps : ∀ e ∈ es, ∀ q q', Inv q → q.step e = some q' → Inv q') (h : p.run es = some p') :
    Inv p' := by
  induction es generalizing p with
  | nil =>
    obtain rfl : p = p' := by simpa using h
    exact start
  | cons e rest ih =>
    obtain ⟨q, hq, hrest⟩ : ∃ q, p.step e = some q ∧ q.run rest = some p' := by
      simpa [run, List.foldlM_cons, Option.bind_eq_some_iff] using h
    exact ih (keeps e List.mem_cons_self p q start hq)
      (fun e' he' => keeps e' (List.mem_cons_of_mem _ he')) hrest

/-- The workplace comes up in the run of the events. -/
def Visits (p : Workplace) (es : List Event) (q : Workplace) : Prop :=
  ∃ es₁, es₁ <+: es ∧ p.run es₁ = some q

/-- The workplace comes up in the run of the events, and the event is next there. -/
def Takes (p : Workplace) (es : List Event) (q : Workplace) (e : Event) : Prop :=
  ∃ es₁, es₁ ++ [e] <+: es ∧ p.run es₁ = some q

variable {es : List Event} {q q' : Workplace}

lemma Takes.visits (h : p.Takes es q e) : p.Visits es q := by
  obtain ⟨es₁, hpre, hrun⟩ := h
  exact ⟨es₁, (List.prefix_append es₁ [e]).trans hpre, hrun⟩

lemma Takes.visits_step (h : p.Takes es q e) (hs : q.step e = some q') : p.Visits es q' := by
  obtain ⟨es₁, hpre, hrun⟩ := h
  exact ⟨es₁ ++ [e], hpre, by simp [run_concat, hrun, hs]⟩

/-- A run goes through the workplaces that come up in it. -/
lemma visits_invariant {Inv : Workplace → Prop} (start : Inv p)
    (keeps : ∀ e ∈ es, ∀ q q', Inv q → q.step e = some q' → Inv q') (h : p.Visits es q) :
    Inv q := by
  obtain ⟨es₁, hpre, hrun⟩ := h
  exact run_invariant start (fun e he => keeps e (hpre.subset he)) hrun

lemma alive_start (config : ControllerConfig) (registry : Registry) (site : Site) :
    (start config registry site).worker.alive = true := by
  obtain ⟨records, hscan, -⟩ := Worker.scan_eq { config, registry } site
  simp [start, of, hscan]

/-- The scan of a new worker leaves the records as they are. -/
lemma keyed_start (config : ControllerConfig) (registry : Registry) {site : Site}
    (hk : site.store.Keyed) : (start config registry site).site.store.Keyed := by
  obtain ⟨records, hscan, -⟩ := Worker.scan_eq { config, registry } site
  rw [start, hscan]
  exact hk.congr (Store.records_fetchAll _)

lemma Visits.alive (start : p.worker.alive = true) (h : p.Visits es q) : q.worker.alive = true :=
  visits_invariant start (fun _ _ _ _ _ hs => alive_of_step hs) h

section Slips

variable {Inv : Workplace → Prop} (Good : Workplace → Prop) (Slip : Workplace → Event → Prop)

/-- What is good at the start and bad later was lost by a slip on the way: the induction is on the
events, from the last one back to the first bad workplace. -/
theorem exists_slip (start : Inv p) (good : Good p)
    (keeps : ∀ e ∈ es, ∀ q q', Inv q → q.step e = some q' → Inv q')
    (stays : ∀ e ∈ es, ∀ q q', Inv q → Good q → q.step e = some q' → ¬ Slip q e → Good q')
    (hq : p.Visits es q) (bad : ¬ Good q) : ∃ r e, p.Takes es r e ∧ Slip r e := by
  obtain ⟨es₁, hpre, hrun⟩ := hq
  induction es₁ using List.reverseRecOn generalizing q with
  | nil =>
    obtain rfl : p = q := by simpa using hrun
    exact absurd good bad
  | append_singleton es₁ e ih =>
    rw [run_concat] at hrun
    obtain ⟨r, hr, hstep⟩ := Option.bind_eq_some_iff.1 hrun
    have hpre₁ : es₁ <+: es := (List.prefix_append es₁ [e]).trans hpre
    by_cases hgood : Good r
    · refine ⟨r, e, ⟨es₁, hpre, hr⟩, ?_⟩
      have he : e ∈ es := hpre.subset (by simp)
      have hinv : Inv r := run_invariant start (fun e he => keeps e (hpre₁.subset he)) hr
      by_contra hslip
      exact bad (stays e he r q hinv hgood hstep hslip)
    · exact ih hgood hpre₁ hr

end Slips

end Workplace

end Convergence
